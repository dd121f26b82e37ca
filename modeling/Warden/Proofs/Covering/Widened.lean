/-
  Warden.Proofs.Covering.Widened — what a wildcard more does to a granted permission.

  A qualifier is widened by writing a wildcard in its place. That covers more requests with as
  many segments, but a grant covers a shorter request only if it begins with the very segments
  of the request (`covers_iff`), and a wildcard is never one of those. So a request is lost
  exactly if it is shorter than the grant and reaches over the widened place
  (`covers_set_iff`). Among the elements of a claim nothing else is lost, for the other
  elements cover what they did before.

  - `grants?_withElement`: a claim with another element in the place of one.
  - `widening_loses`: both, for the permissions of a claim.
-/

import Warden.Proofs.Covering
import Warden.Proofs.Rule.Shape

namespace Warden

/-! ## Segments -/

section

variable {g r : List String} {i : Nat}

theorem agree_set (h : List.Forall₂ Agree g r) (i : Nat) : List.Forall₂ Agree (g.set i wildcard) r := by
  induction h generalizing i with
  | nil => exact .nil
  | cons hfirst hrest ih =>
    cases i with
    | zero => exact .cons (.inr rfl) hrest
    | succ i => exact .cons hfirst (ih i)

/-- A wildcard in front of the end of a shorter request makes sure that it is not covered. -/
theorem covers_set_eq_false (hr : wildcard ∉ r) (hlt : r.length < g.length) (hi : i < r.length) :
    covers (g.set i wildcard) r = false := by
  rw [Bool.eq_false_iff]
  intro hcovers
  rcases covers_iff.mp hcovers with hagree | ⟨k, -, hg⟩
  · have := hagree.length_eq
    rw [List.length_set] at this
    omega
  · have hwild : (g.set i wildcard)[i]? = some wildcard := List.getElem?_set_self (by omega)
    rw [hg, List.getElem?_append_left hi] at hwild
    exact hr (List.mem_of_getElem? hwild)

/-- What is covered stays covered, but for a shorter request that reaches over the place. -/
theorem covers_set_iff (hr : wildcard ∉ r) (h : covers g r = true) :
    covers (g.set i wildcard) r = true ↔ ¬(r.length < g.length ∧ i < r.length) := by
  constructor
  · rintro hcovers ⟨hlt, hi⟩
    rw [covers_set_eq_false hr hlt hi] at hcovers
    cases hcovers
  · intro hkept
    rcases covers_iff.mp h with hagree | ⟨k, hk, rfl⟩
    · exact covers_iff.mpr (.inl (agree_set hagree i))
    · have hi : r.length ≤ i := by
        rw [List.length_append, List.length_replicate] at hkept
        omega
      refine covers_iff.mpr (.inr ⟨k, hk, ?_⟩)
      rw [List.set_append_right i wildcard hi, List.set_replicate_self]

end

theorem grantable_set {ws : List String} (h : Grantable ws) {i : Nat} (hi : 1 ≤ i) : Grantable (ws.set i wildcard) := by
  cases ws with
  | nil => exact h
  | cons name qualifiers =>
    obtain ⟨i, rfl⟩ := Nat.exists_eq_add_of_le' hi
    refine ⟨h.1, fun q hq => ?_⟩
    rcases List.mem_or_eq_of_mem_set hq with hmem | rfl
    · exact h.2 q hmem
    · exact .inr rfl

/-! ## Texts -/

/-- The text with a wildcard in the place of one of its segments. -/
def widened (scope : Char) (i : Nat) (text : String) : String := Text.glue scope ((Text.pieces scope text).set i wildcard)

/-- The claim with another element in the place of one. -/
def Claim.withElement (delimiter : Char) (n : Nat) (element : String) : Json → Json
  | .string s => .string (Text.glue delimiter ((Text.pieces delimiter s).set n element))
  | .array items => .array (items.set n (.string element))
  | claim => claim

namespace Delimiters

variable {d : Delimiters} {claim : Json} {xs : List String} {e x : String} {i n : Nat}

theorem pieces_widened (he : d.isGranted e = true) (hi : 1 ≤ i) :
    Text.pieces d.scope (widened d.scope i e) = (Text.pieces d.scope e).set i wildcard :=
  pieces_grantable (grantable_set (isGranted_iff_pieces.mp he) hi)

theorem isGranted_widened (he : d.isGranted e = true) (hi : 1 ≤ i) : d.isGranted (widened d.scope i e) = true :=
  isGranted_glue (grantable_set (isGranted_iff_pieces.mp he) hi)

/-- No segment of a requested permission is a wildcard. -/
theorem wildcard_not_mem_segments {s : String} {p : Permission} (h : d.permission? s = .ok p) :
    wildcard ∉ p.segments := by
  have hwords := (isRequested_iff_pieces.mp (isRequested_of_ok h)).2
  obtain rfl := permission?_ok h
  rw [Permission.segments_ofText]
  exact fun hmem => star_not_word (hwords wildcard hmem) (List.mem_singleton.mpr rfl)

theorem covers_widened (he : d.isGranted e = true) (hi : 1 ≤ i) {s : String} {p : Permission}
    (hp : d.permission? s = .ok p) :
    let g := Permission.ofText d.scope e
    let wide := Permission.ofText d.scope (widened d.scope i e)
    (p.segments.length < g.segments.length ∧ i < p.segments.length → wide.covers p = false) ∧
      (g.covers p = true →
        (wide.covers p = true ↔ ¬(p.segments.length < g.segments.length ∧ i < p.segments.length))) := by
  intro g wide
  have hwide : wide.segments = g.segments.set i wildcard := pieces_widened he hi
  have hplain := wildcard_not_mem_segments hp
  unfold Permission.covers
  rw [hwide]
  exact ⟨fun ⟨hlt, hwithin⟩ => covers_set_eq_false hplain hlt hwithin, covers_set_iff hplain⟩

/-! ## Claims -/

theorem grants?_withElement (hlists : Claim.Lists d.claim (some claim) xs) (hg : ∀ x ∈ xs, d.isGranted x = true)
    (hn : n < xs.length) (he : d.isGranted e = true) :
    d.grants? (Claim.withElement d.claim n e claim) = .ok ⟨(xs.set n e).map (.ofText d.scope)⟩ := by
  have hall : ∀ x ∈ xs.set n e, d.isGranted x = true := by
    intro x hx
    rcases List.mem_or_eq_of_mem_set hx with hmem | rfl
    · exact hg x hmem
    · exact he
  obtain ⟨htext, hitems⟩ := elements_of_granted hall
  cases hlists with
  | null => cases hn
  | empty => cases hn
  | text hs => exact grants?_of_elements htext hall
  | items =>
    rw [List.map_set] at hitems
    exact grants?_of_elements hitems hall

/-- Only the element that was replaced can have covered what is covered no longer. -/
theorem covered_by_replaced {p : Permission} (hn : xs[n]? = some x)
    (hbefore : (Grants.mk (xs.map (.ofText d.scope))).contains p = true)
    (hafter : (Grants.mk ((xs.set n e).map (.ofText d.scope))).contains p = false) :
    (Permission.ofText d.scope x).covers p = true ∧ (Permission.ofText d.scope e).covers p = false := by
  obtain ⟨q, hq, hcovers⟩ := List.any_eq_true.mp hbefore
  obtain ⟨y, hy, rfl⟩ := List.mem_map.mp hq
  have hnone : ∀ z ∈ xs.set n e, (Permission.ofText d.scope z).covers p = false := by
    intro z hz
    exact Bool.eq_false_iff.mpr (List.any_eq_false.mp hafter _ (List.mem_map_of_mem hz))
  obtain ⟨m, hm⟩ := List.mem_iff_getElem?.mp hy
  by_cases hmn : m = n
  · subst hmn
    rw [hn] at hm
    cases hm
    exact ⟨hcovers, hnone e (List.mem_set (List.getElem?_eq_some_iff.mp hn).1 e)⟩
  · have hkept : y ∈ xs.set n e := List.mem_of_getElem? (by rw [List.getElem?_set_ne (Ne.symm hmn), hm])
    rw [hnone y hkept] at hcovers
    cases hcovers

/-- A granted permission with a wildcard in the place of a qualifier covers every requested one that it
    covered before, save for those that are shorter than it and reach over that place, and none
    of these. A claim stays one that is read if a qualifier of an element is widened. What it
    covered and covers no longer is such a shorter permission, which the element covered. -/
theorem widening_loses {g : Permission} (hg : d.granted? e = .ok g) (hi : 1 ≤ i) :
    ∃ wide, d.granted? (widened d.scope i e) = .ok wide ∧ wide.segments = g.segments.set i wildcard ∧
      (∀ s p, d.permission? s = .ok p →
        (p.segments.length < g.segments.length ∧ i < p.segments.length → wide.covers p = false) ∧
        (g.covers p = true →
          (wide.covers p = true ↔ ¬(p.segments.length < g.segments.length ∧ i < p.segments.length)))) ∧
      ∀ claim xs n grants, Claim.Lists d.claim (some claim) xs → d.grants? claim = .ok grants → xs[n]? = some e →
        ∃ grants', d.grants? (Claim.withElement d.claim n (widened d.scope i e) claim) = .ok grants' ∧
          ∀ s p, d.permission? s = .ok p → grants.contains p = true → grants'.contains p = false →
            g.covers p = true ∧ p.segments.length < g.segments.length ∧ i < p.segments.length := by
  obtain ⟨he, rfl⟩ := granted?_ok hg
  have hwide : d.isGranted (widened d.scope i e) = true := isGranted_widened he hi
  refine ⟨_, granted?_granted hwide, pieces_widened he hi, fun s p => covers_widened he hi, ?_⟩
  intro claim xs n grants hlists hread hn
  replace hread : d.grants? ((some claim).getD .null) = .ok grants := hread
  obtain ⟨xs', hlists', hgranted, rfl⟩ := grants?_ok_iff.mp hread
  obtain rfl : xs' = xs :=
    Except.ok.inj ((Claim.elements_of_lists hlists').symm.trans (Claim.elements_of_lists hlists))
  refine ⟨_, grants?_withElement hlists hgranted (List.getElem?_eq_some_iff.mp hn).1 hwide, ?_⟩
  intro s p hp hbefore hafter
  obtain ⟨hcovered, hlost⟩ := covered_by_replaced hn hbefore hafter
  have hshorter := not_imp_comm.mp ((covers_widened he hi hp).2 hcovered).mpr (Bool.eq_false_iff.mp hlost)
  exact ⟨hcovered, hshorter⟩

/-- The whole of a document, which was granted by a wildcard after it, is lost once the number of the
    document is a wildcard too; a part of it is not, in the claim either. -/
theorem widening_loses_whole :
    let d := Delimiters.default
    let claim := Json.string "read,doc:42:*"
    let whole := Permission.ofText ':' "doc:42"
    let part := Permission.ofText ':' "doc:42:edit"
    ∃ g wide grants grants', d.granted? "doc:42:*" = .ok g ∧ d.granted? "doc:*:*" = .ok wide ∧
      d.permission? "doc:42" = .ok whole ∧ g.covers whole = true ∧ wide.covers whole = false ∧
      d.permission? "doc:42:edit" = .ok part ∧ g.covers part = true ∧ wide.covers part = true ∧
      d.grants? claim = .ok grants ∧ grants.contains part = true ∧
      d.grants? (.string "read,doc:*:*") = .ok grants' ∧ grants'.contains part = true := by
  intro d claim whole part
  have hwidened : widened ':' 1 "doc:42:*" = "doc:*:*" := by decide
  have hclaim : Claim.withElement ',' 1 "doc:*:*" claim = .string "read,doc:*:*" := by decide
  have hlists : Claim.Lists ',' (some claim) ["read", "doc:42:*"] := .text (by decide)
  have hrun : ∃ g grants, d.granted? "doc:42:*" = .ok g ∧ d.grants? claim = .ok grants ∧
      d.permission? "doc:42" = .ok whole ∧ d.permission? "doc:42:edit" = .ok part ∧
      whole.segments.length < g.segments.length ∧ 1 < whole.segments.length ∧
      part.segments.length = g.segments.length ∧ g.covers whole = true ∧ g.covers part = true ∧
      grants.contains part = true := by
    dsimp only [d, claim, whole, part]
    exact ⟨_, _, rfl, rfl, rfl, rfl, by decide, by decide, rfl, rfl, rfl, rfl⟩
  obtain ⟨g, grants, hg, hread, hwhole, hpart, hlt, hwithin, heq, hgwhole, hgpart, hcontains⟩ := hrun
  obtain ⟨wide, hwide, -, hcovers, hclaims⟩ := widening_loses hg (Nat.le_refl 1)
  obtain ⟨grants', hread', hlost⟩ := hclaims claim _ 1 grants hlists hread rfl
  have hshort : ¬(part.segments.length < g.segments.length ∧ 1 < part.segments.length) := by omega
  have hstays : grants'.contains part = true :=
    eq_true_of_ne_false fun hgone => hshort (hlost _ _ hpart hcontains hgone).2
  rw [show d.scope = ':' from rfl, hwidened] at hwide
  rw [show d.claim = ',' from rfl, show d.scope = ':' from rfl, hwidened, hclaim] at hread'
  exact ⟨g, wide, grants, grants', hg, hwide, hwhole, hgwhole, (hcovers _ _ hwhole).1 ⟨hlt, hwithin⟩, hpart, hgpart,
    ((hcovers _ _ hpart).2 hgpart).mpr hshort, hread, hcontains, hread', hstays⟩

end Delimiters

end Warden
