/-
  Warden.Proofs.Covering — what a claim covers, told by its texts.

  A granted text covers a requested one if it has as many segments, each the same or a
  wildcard, or if it is the requested text with wildcard segments written after it
  (`CoversText`). Between the texts and the answer stand the claim that is read, the texts
  cut into segments, and the cases of `covers` by length.

  - `covers_iff`: the cases in one, for any two lists of segments.
  - `covers_pieces_iff`: the same of texts.
  - `contains_iff_covers`: a claim that was read covers a requested text if an element of it
    does.
-/

import Mathlib.Data.List.Forall2
import Warden.Proofs.Claim.Reading

namespace Warden

/-- A granted segment agrees with a requested one. -/
def Agree (granted requested : String) : Prop := granted = requested ∨ granted = wildcard

/-! ## Segments -/

theorem agree_iff_covers {g r : List String} (h : g.length = r.length) : List.Forall₂ Agree g r ↔ covers g r = true := by
  rw [covers_of_length_eq h, List.forall₂_iff_zip]
  constructor
  · rintro ⟨-, hagree⟩ x hx
    exact (hagree hx).symm
  · intro hagree
    exact ⟨h, fun hx => (hagree _ hx).symm⟩

/-- Granted segments are as many as the requested ones and agree with them, or they are the
    requested ones and wildcards. -/
theorem covers_iff {g r : List String} :
    covers g r = true ↔ List.Forall₂ Agree g r ∨ ∃ k, 1 ≤ k ∧ g = r ++ List.replicate k wildcard := by
  rcases Nat.lt_trichotomy g.length r.length with hlt | heq | hgt
  · rw [covers_eq_false_of_length_lt hlt]
    constructor
    · intro h
      cases h
    · rintro (h | ⟨k, -, rfl⟩)
      · have := h.length_eq
        omega
      · rw [List.length_append] at hlt
        omega
  · rw [← agree_iff_covers heq]
    constructor
    · exact .inl
    · rintro (h | ⟨k, hk, rfl⟩)
      · exact h
      · rw [List.length_append, List.length_replicate] at heq
        omega
  · have hne : g.length ≠ r.length := by omega
    constructor
    · intro h
      rw [covers, if_neg hne, Bool.and_eq_true, beq_iff_eq, List.all_eq_true] at h
      obtain ⟨hfront, htail⟩ := h
      have hwild : g.drop r.length = List.replicate (g.length - r.length) wildcard :=
        List.eq_replicate_iff.mpr ⟨List.length_drop, fun x hx => by simpa using htail x hx⟩
      refine .inr ⟨g.length - r.length, by omega, ?_⟩
      calc g = g.take r.length ++ g.drop r.length := (List.take_append_drop _ _).symm
        _ = r ++ List.replicate (g.length - r.length) wildcard := by rw [hfront, hwild]
    · rintro (h | ⟨k, hk, rfl⟩)
      · exact absurd h.length_eq hne
      · refine (covers_append r _ ?_).mpr fun x hx => (List.mem_replicate.mp hx).2
        intro hnil
        rw [List.replicate_eq_nil_iff] at hnil
        omega

/-! ## Texts -/

/-- `k` wildcard segments, each after a delimiter. -/
def wildcards (scope : Char) (k : Nat) : String := String.join (List.replicate k (String.ofList [scope, '*']))

/-- The granted text covers the requested one. -/
inductive CoversText (scope : Char) (granted requested : String) : Prop
  | segments : List.Forall₂ Agree (Text.pieces scope granted) (Text.pieces scope requested) →
      CoversText scope granted requested
  | wildcards (k : Nat) : 1 ≤ k → granted = requested ++ wildcards scope k → CoversText scope granted requested

variable {scope : Char} {e r : String}

theorem pieces_wildcards (hs : scope ≠ '*') (r : String) (k : Nat) :
    Text.pieces scope (r ++ wildcards scope k) = Text.pieces scope r ++ List.replicate k wildcard := by
  induction k generalizing r with
  | zero => simp [wildcards]
  | succ k ih =>
    have hone : Text.pieces scope (r ++ String.ofList [scope, '*']) = Text.pieces scope r ++ [wildcard] := by
      have hstar : Text.split scope ['*'] = [['*']] := Text.split_of_not_mem (by simpa using hs)
      simp [Text.pieces, Text.split_append, hstar]
      rfl
    have hmore : r ++ wildcards scope (k + 1) = r ++ String.ofList [scope, '*'] ++ wildcards scope k := by
      simp [wildcards, List.replicate_succ, String.append_assoc]
    rw [hmore, ih, hone, List.replicate_succ, List.append_assoc]
    rfl

theorem covers_pieces_iff (hs : scope ≠ '*') :
    covers (Text.pieces scope e) (Text.pieces scope r) = true ↔ CoversText scope e r := by
  rw [covers_iff]
  constructor
  · rintro (hagree | ⟨k, hk, he⟩)
    · exact .segments hagree
    · refine .wildcards k hk ?_
      rw [← pieces_wildcards hs] at he
      rw [← Text.glue_pieces scope e, he, Text.glue_pieces]
  · rintro (hagree | ⟨k, hk, rfl⟩)
    · exact .inl hagree
    · exact .inr ⟨k, hk, pieces_wildcards hs r k⟩

/-- A text without wildcards covers itself alone. -/
theorem coversText_iff_eq (hs : scope ≠ '*') (h : '*' ∉ e.toList) : CoversText scope e r ↔ e = r := by
  constructor
  · rintro (hagree | ⟨k, hk, rfl⟩)
    · have hplain : ∀ p ∈ Text.pieces scope e, p ≠ wildcard := by
        rintro p hp rfl
        exact h ((Text.mem_iff_mem_pieces hs.symm e).mpr ⟨wildcard, hp, List.mem_singleton.mpr rfl⟩)
      have hequal : List.Forall₂ Eq (Text.pieces scope e) (Text.pieces scope r) :=
        (List.forall₂_and_left _ _ |>.mpr ⟨hplain, hagree⟩).imp fun _ _ ⟨hne, hor⟩ => hor.resolve_right hne
      rw [List.forall₂_eq_eq_eq] at hequal
      rw [← Text.glue_pieces scope e, hequal, Text.glue_pieces]
    · exfalso
      obtain ⟨k, rfl⟩ := Nat.exists_eq_add_of_le' hk
      exact h (by simp [wildcards, List.replicate_succ])
  · rintro rfl
    exact .segments (List.forall₂_same.mpr fun _ _ => .inl rfl)

namespace Delimiters

/-- A requested permission is covered by a claim that was read if some element of the claim, as
    it is written, covers its text: with as many segments, each the same or a wildcard, or with
    nothing but wildcards after the whole text. Each granted permission covers by its own text:
    one without wildcards itself alone, and none a text with more segments. -/
theorem contains_iff_covers {d : Delimiters} {claim : Option Json} {es : List String} {grants : Grants} {r : String}
    (hlists : Claim.Lists d.claim claim es) (hread : d.grants? (claim.getD .null) = .ok grants)
    (hr : d.isRequested r = true) :
    ∃ p, d.permission? r = .ok p ∧ (grants.contains p = true ↔ ∃ e ∈ es, CoversText d.scope e r) ∧
      ∀ q ∈ grants.permissions, (q.covers p = true ↔ CoversText d.scope q.text r) ∧
        ('*' ∉ q.text.toList → (q.covers p = true ↔ q.text = r)) ∧
        ((Text.pieces d.scope q.text).length < (Text.pieces d.scope r).length → q.covers p = false) := by
  obtain ⟨es', helements, -, hpermissions⟩ := grants?_ok hread
  rw [Claim.elements_of_lists hlists] at helements
  cases helements
  have hcovers : ∀ e, (Permission.ofText d.scope e).covers (.ofText d.scope r) = true ↔ CoversText d.scope e r :=
    fun e => covers_pieces_iff d.scope_ne_wildcard
  refine ⟨_, permission?_requested hr, ?_, fun q hq => ?_⟩
  · rw [Grants.contains, hpermissions, List.any_eq_true]
    constructor
    · rintro ⟨q, hq, hcover⟩
      obtain ⟨e, he, rfl⟩ := List.mem_map.mp hq
      exact ⟨e, he, (hcovers e).mp hcover⟩
    · rintro ⟨e, he, hcover⟩
      exact ⟨_, List.mem_map_of_mem he, (hcovers e).mpr hcover⟩
  · rw [hpermissions] at hq
    obtain ⟨e, -, rfl⟩ := List.mem_map.mp hq
    refine ⟨hcovers e, fun h => ?_, fun h => covers_eq_false_of_length_lt h⟩
    rw [hcovers e]
    exact coversText_iff_eq d.scope_ne_wildcard h

/-- Each of the two elements covers in its own way: by segments that agree, and by wildcards after the whole text. -/
theorem contains_iff_covers_both_ways :
    let d := Delimiters.default
    let claim : Option Json := some (.string "doc:*:read,user:*:*")
    ∃ grants doc user, d.grants? (claim.getD .null) = .ok grants ∧
      d.permission? "doc:42:read" = .ok doc ∧ grants.contains doc = true ∧
      d.permission? "user" = .ok user ∧ grants.contains user = true := by
  intro d claim
  have hlists : Claim.Lists d.claim claim ["doc:*:read", "user:*:*"] := .text (by decide)
  have hrun : (∃ grants, d.grants? (claim.getD .null) = .ok grants) ∧
      d.isRequested "doc:42:read" = true ∧ d.isRequested "user" = true := by
    dsimp only [d, claim]
    exact ⟨⟨_, rfl⟩, rfl, rfl⟩
  obtain ⟨⟨grants, hread⟩, hd, hu⟩ := hrun
  have hdoc : CoversText ':' "doc:*:read" "doc:42:read" :=
    .segments (.cons (.inl rfl) (.cons (.inr rfl) (.cons (.inl rfl) .nil)))
  have huser : CoversText ':' "user:*:*" "user" := .wildcards 2 (by decide) (by decide)
  obtain ⟨doc, hdoc?, hcontains, -⟩ := contains_iff_covers hlists hread hd
  obtain ⟨user, huser?, hcontains', -⟩ := contains_iff_covers hlists hread hu
  exact ⟨grants, doc, user, hread, hdoc?, hcontains.mpr ⟨_, List.mem_cons_self, hdoc⟩, huser?,
    hcontains'.mpr ⟨_, List.mem_cons_of_mem _ (List.mem_singleton.mpr rfl), huser⟩⟩

end Delimiters

end Warden
