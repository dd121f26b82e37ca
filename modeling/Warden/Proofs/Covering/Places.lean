/-
  Warden.Proofs.Covering.Places — covering told place by place.

  The matcher tells grants of the length of the request from longer ones. The rule can also be
  read off segment by segment, for any texts as segments, empty ones and wildcards in the
  request among them: beside each requested segment stands the same one, or a wildcard if the
  grant is no longer than the request, and past the request stand wildcards alone.

  - `placeByPlace_iff_agree`, `placeByPlace_iff_continued`: what the rule comes to for a grant
    of the same length and for a longer one.
  - `coversInOnePass_iff`: the same rule decided in one pass over the granted segments.
  - `covers_place_by_place`: the matcher, the pass and the two shapes of a grant that covers
    are one.
-/

import Warden.Proofs.Covering

namespace Warden

/-- A granted segment agrees with what the request has in its place, which is nothing past its
    end. `even`: the grant is as long as the request. -/
def agreesAt (even : Bool) (granted : String) : Option String → Bool
  | some requested => granted == requested || (even && granted == wildcard)
  | none => granted == wildcard

/-- Covering, decided in one pass over the granted segments. -/
def coversInOnePass (granted requested : List String) : Bool :=
  requested.length ≤ granted.length &&
    granted.zipIdx.all fun (g, i) => agreesAt (granted.length == requested.length) g requested[i]?

/-- Granted segments cover requested ones, place by place. -/
structure PlaceByPlace (granted requested : List String) : Prop where
  reaches : requested.length ≤ granted.length
  shared : ∀ (i : Nat) (g r : String), granted[i]? = some g → requested[i]? = some r →
    g = r ∨ granted.length = requested.length ∧ g = wildcard
  extra : ∀ (i : Nat) (g : String), granted[i]? = some g → requested.length ≤ i → g = wildcard

variable {g r : List String}

/-! ## One pass -/

theorem agreesAt_some (even : Bool) (x y : String) :
    agreesAt even x (some y) = true ↔ x = y ∨ even = true ∧ x = wildcard := by
  simp [agreesAt]

theorem agreesAt_none (even : Bool) (x : String) : agreesAt even x none = true ↔ x = wildcard := by
  simp [agreesAt]

theorem coversInOnePass_iff : coversInOnePass g r = true ↔ PlaceByPlace g r := by
  unfold coversInOnePass
  rw [Bool.and_eq_true, decide_eq_true_iff, List.all_eq_true]
  constructor
  · intro ⟨hreach, hall⟩
    have hplace : ∀ i x, g[i]? = some x → agreesAt (g.length == r.length) x r[i]? = true :=
      fun i x hx => hall (x, i) (List.mem_zipIdx_iff_getElem?.mpr hx)
    refine ⟨hreach, fun i x y hx hy => ?_, fun i x hx hi => ?_⟩
    · have h := hplace i x hx
      rw [hy, agreesAt_some, beq_iff_eq] at h
      exact h
    · have h := hplace i x hx
      rw [List.getElem?_eq_none hi, agreesAt_none] at h
      exact h
  · intro h
    refine ⟨h.reaches, fun (x, i) hmem => ?_⟩
    have hx : g[i]? = some x := List.mem_zipIdx_iff_getElem?.mp hmem
    show agreesAt (g.length == r.length) x r[i]? = true
    cases hy : r[i]? with
    | some y =>
      rw [agreesAt_some, beq_iff_eq]
      exact h.shared i x y hx hy
    | none =>
      rw [agreesAt_none]
      exact h.extra i x hx (List.getElem?_eq_none_iff.mp hy)

/-! ## The two shapes -/

theorem agree_iff_getElem? :
    List.Forall₂ Agree g r ↔
      g.length = r.length ∧ ∀ (i : Nat) (x y : String), g[i]? = some x → r[i]? = some y → Agree x y := by
  rw [List.forall₂_iff_get]
  refine and_congr_right fun _ => ?_
  constructor
  · intro h i x y hx hy
    obtain ⟨hi, rfl⟩ := List.getElem?_eq_some_iff.mp hx
    obtain ⟨hi', rfl⟩ := List.getElem?_eq_some_iff.mp hy
    exact h i hi hi'
  · intro h i hi hi'
    exact h i _ _ (List.getElem?_eq_getElem hi) (List.getElem?_eq_getElem hi')

theorem placeByPlace_iff_agree (heq : g.length = r.length) : PlaceByPlace g r ↔ List.Forall₂ Agree g r := by
  rw [agree_iff_getElem?]
  constructor
  · intro h
    refine ⟨heq, fun i x y hx hy => ?_⟩
    rcases h.shared i x y hx hy with hsame | ⟨-, hwild⟩
    · exact .inl hsame
    · exact .inr hwild
  · intro ⟨_, hagree⟩
    refine ⟨by omega, fun i x y hx hy => ?_, fun i x hx hi => ?_⟩
    · rcases hagree i x y hx hy with hsame | hwild
      · exact .inl hsame
      · exact .inr ⟨heq, hwild⟩
    · have hlt := (List.getElem?_eq_some_iff.mp hx).1
      omega

/-- In a longer grant no wildcard stands for another segment, so it begins with the request. -/
theorem placeByPlace_iff_continued (hlt : r.length < g.length) :
    PlaceByPlace g r ↔ ∃ k, 1 ≤ k ∧ g = r ++ List.replicate k wildcard := by
  constructor
  · intro h
    refine ⟨g.length - r.length, by omega, ?_⟩
    apply List.ext_getElem?
    intro i
    by_cases hi : i < r.length
    · have hx : g[i]? = some g[i] := List.getElem?_eq_getElem (by omega)
      have hy : r[i]? = some r[i] := List.getElem?_eq_getElem hi
      rw [List.getElem?_append_left hi, hx, hy]
      rcases h.shared i _ _ hx hy with hsame | ⟨heq, -⟩
      · rw [hsame]
      · omega
    · rw [List.getElem?_append_right (by omega), List.getElem?_replicate]
      by_cases hi' : i < g.length
      · have hx : g[i]? = some g[i] := List.getElem?_eq_getElem hi'
        rw [if_pos (by omega), hx, h.extra i _ hx (by omega)]
      · rw [if_neg (by omega), List.getElem?_eq_none (by omega)]
  · intro h
    obtain ⟨k, -, rfl⟩ := h
    refine ⟨by omega, fun i x y hx hy => ?_, fun i x hx hi => ?_⟩
    · have hi := (List.getElem?_eq_some_iff.mp hy).1
      rw [List.getElem?_append_left hi, hy] at hx
      exact .inl (Option.some.inj hx).symm
    · rw [List.getElem?_append_right hi] at hx
      exact List.eq_of_mem_replicate (List.mem_of_getElem? hx)

theorem covers_iff_placeByPlace : covers g r = true ↔ PlaceByPlace g r := by
  rcases Nat.lt_trichotomy g.length r.length with hlt | heq | hgt
  · rw [covers_eq_false_of_length_lt hlt]
    constructor
    · intro h
      cases h
    · intro h
      have := h.reaches
      omega
  · rw [← agree_iff_covers heq, placeByPlace_iff_agree heq]
  · rw [covers_iff, placeByPlace_iff_continued hgt]
    constructor
    · intro h
      rcases h with hagree | hcontinued
      · have := hagree.length_eq
        omega
      · exact hcontinued
    · exact .inr

/-- Granted segments cover requested ones as the pass over their places decides: they are at
    least as many, in each place of the request stands the same segment, or a wildcard if they
    are as many, and wildcards in the places after it. So they are as many as the requested
    ones and agree with them up to wildcards, or they are the requested ones and one or more
    wildcards. -/
theorem covers_place_by_place (granted requested : List String) :
    covers granted requested = coversInOnePass granted requested ∧
      (covers granted requested = true ↔ PlaceByPlace granted requested) ∧
      (covers granted requested = true ↔
        (granted.length = requested.length ∧
          ∀ (i : Nat) (g r : String), granted[i]? = some g → requested[i]? = some r → g = r ∨ g = wildcard) ∨
        ∃ k, 1 ≤ k ∧ granted = requested ++ List.replicate k wildcard) := by
  refine ⟨?_, covers_iff_placeByPlace, ?_⟩
  · rw [Bool.eq_iff_iff, covers_iff_placeByPlace, coversInOnePass_iff]
  · rw [covers_iff, agree_iff_getElem?]
    rfl

/-- A wildcard that is requested is a text like any other. -/
example : covers ["", "*", "*"] ["", "*"] = true ∧ covers ["*", "*", "*"] ["", "*"] = false ∧
    covers ["*"] [] = true ∧ covers ["a"] ["*"] = false := by decide

end Warden
