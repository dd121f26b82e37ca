/-
  Warden.Proofs.Grammar.Patterns — permissions as the patterns have them.

  With `c` for the class `[A-Za-z0-9_]` and `d` for the scope delimiter, taken literally, a
  requested permission is a text that `^c+(?:dc+)*$` matches and a granted one a text that
  `^c+(?:d(?:c+|\*))*$` matches, each as a whole. Here the patterns are languages, put
  together as they are written: `+` for the bar, `*` for one part after another and `∗` for
  the star.

  - `mem_word`, `mem_separated`: what the parts of the patterns match.
  - `isRequested_iff_pattern`, `isGranted_iff_pattern`: the recognisers decide the patterns.
-/

import Mathlib.Computability.Language
import Warden.Proofs.Grammar

namespace Warden

open scoped Computability

namespace Pattern

/-- `[A-Za-z0-9_]` -/
def letter : Language Char := {cs | ∃ c, isWordChar c = true ∧ cs = [c]}

/-- `[A-Za-z0-9_]+` -/
def word : Language Char := letter * letter∗

/-- The first part and any number of the others, each after a delimiter: `a(?:db)*`. -/
def separated (d : Char) (a b : Language Char) : Language Char := a * ({[d]} * b)∗

def requested (d : Char) : Language Char := separated d word word

def granted (d : Char) : Language Char := separated d word (word + {['*']})

/-! ## The parts -/

theorem mem_letters (cs : List Char) : cs ∈ letter∗ ↔ ∀ c ∈ cs, isWordChar c = true := by
  rw [Language.mem_kstar]
  constructor
  · intro h c hc
    obtain ⟨parts, rfl, hparts⟩ := h
    obtain ⟨part, hpart, hc⟩ := List.mem_flatten.mp hc
    obtain ⟨c', hword, rfl⟩ := hparts part hpart
    rw [List.mem_singleton.mp hc]
    exact hword
  · intro h
    refine ⟨cs.map fun c => [c], (List.flatMap_singleton' cs).symm, fun part hpart => ?_⟩
    obtain ⟨c, hc, rfl⟩ := List.mem_map.mp hpart
    exact ⟨c, h c hc, rfl⟩

theorem mem_word (cs : List Char) : cs ∈ word ↔ IsWord cs := by
  unfold word
  rw [Language.mem_mul]
  constructor
  · intro h
    obtain ⟨_, ⟨c, hc, rfl⟩, rest, hrest, rfl⟩ := h
    exact ⟨List.cons_ne_nil _ _, List.forall_mem_cons.mpr ⟨hc, (mem_letters rest).mp hrest⟩⟩
  · intro h
    obtain ⟨c, rest, rfl⟩ := List.exists_cons_of_ne_nil h.1
    obtain ⟨hc, hrest⟩ := List.forall_mem_cons.mp h.2
    exact ⟨[c], ⟨c, hc, rfl⟩, rest, (mem_letters rest).mpr hrest, rfl⟩

variable {d : Char} {a b : Language Char}

theorem join_cons (d : Char) (p : List Char) (ps : List (List Char)) :
    Text.join d (p :: ps) = p ++ (ps.map (d :: ·)).flatten := by
  induction ps generalizing p with
  | nil => simp
  | cons q ps ih => rw [Text.join_cons_cons, ih, List.map_cons, List.flatten_cons, List.cons_append]

theorem mem_delimited (cs : List Char) :
    cs ∈ ({[d]} * b)∗ ↔ ∃ ps : List (List Char), (∀ p ∈ ps, p ∈ b) ∧ cs = (ps.map (d :: ·)).flatten := by
  rw [Language.mem_kstar]
  constructor
  · intro h
    obtain ⟨parts, rfl, hparts⟩ := h
    induction parts with
    | nil => exact ⟨[], List.forall_mem_nil _, rfl⟩
    | cons part parts ih =>
      obtain ⟨hpart, hrest⟩ := List.forall_mem_cons.mp hparts
      obtain ⟨_, rfl, p, hp, rfl⟩ := Language.mem_mul.mp hpart
      obtain ⟨ps, hps, hcs⟩ := ih hrest
      refine ⟨p :: ps, List.forall_mem_cons.mpr ⟨hp, hps⟩, ?_⟩
      rw [List.flatten_cons, hcs]
      rfl
  · intro h
    obtain ⟨ps, hps, rfl⟩ := h
    refine ⟨ps.map (d :: ·), rfl, fun part hpart => ?_⟩
    obtain ⟨p, hp, rfl⟩ := List.mem_map.mp hpart
    exact Language.mem_mul.mpr ⟨[d], rfl, p, hps p hp, rfl⟩

theorem mem_separated (s : String) :
    s.toList ∈ separated d a b ↔
      ∃ w ws, w.toList ∈ a ∧ (∀ q ∈ ws, q.toList ∈ b) ∧ s = Text.glue d (w :: ws) := by
  unfold separated
  rw [Language.mem_mul]
  constructor
  · intro h
    obtain ⟨p, hp, rest, hrest, hs⟩ := h
    obtain ⟨ps, hps, rfl⟩ := (mem_delimited rest).mp hrest
    refine ⟨String.ofList p, ps.map String.ofList, by rwa [String.toList_ofList], fun q hq => ?_, ?_⟩
    · obtain ⟨p', hp', rfl⟩ := List.mem_map.mp hq
      rw [String.toList_ofList]
      exact hps p' hp'
    · rw [← join_cons] at hs
      rw [← String.ofList_toList (s := s), ← hs, Text.glue]
      simp [List.map_map, Function.comp_def]
  · intro h
    obtain ⟨w, ws, hw, hws, rfl⟩ := h
    refine ⟨w.toList, hw, _, (mem_delimited _).mpr ⟨ws.map String.toList, fun p hp => ?_, rfl⟩, ?_⟩
    · obtain ⟨q, hq, rfl⟩ := List.mem_map.mp hp
      exact hws q hq
    · rw [← join_cons, Text.glue, String.toList_ofList, List.map_cons]

end Pattern

/-! ## The recognisers -/

namespace Delimiters

variable {d : Delimiters} {s : String}

theorem isRequested_iff_pattern : d.isRequested s = true ↔ s.toList ∈ Pattern.requested d.scope := by
  unfold Pattern.requested
  rw [Pattern.mem_separated]
  simp only [Pattern.mem_word]
  constructor
  · intro h
    have hpieces := isRequested_iff_pieces.mp h
    obtain ⟨w, ws, hws⟩ := List.exists_cons_of_ne_nil hpieces.1
    rw [hws] at hpieces
    obtain ⟨hw, hrest⟩ := List.forall_mem_cons.mp hpieces.2
    exact ⟨w, ws, hw, hrest, by rw [← hws, Text.glue_pieces]⟩
  · intro h
    obtain ⟨w, ws, hw, hws, rfl⟩ := h
    exact isRequested_glue ⟨List.cons_ne_nil _ _, List.forall_mem_cons.mpr ⟨hw, hws⟩⟩

theorem isGranted_iff_pattern : d.isGranted s = true ↔ s.toList ∈ Pattern.granted d.scope := by
  unfold Pattern.granted
  rw [Pattern.mem_separated]
  have hpart (q : String) : q.toList ∈ Pattern.word + {['*']} ↔ IsWord q.toList ∨ q = wildcard := by
    rw [Language.mem_add, Pattern.mem_word, ← toList_eq_star]
    rfl
  simp only [Pattern.mem_word, hpart]
  constructor
  · intro h
    have hpieces := isGranted_iff_pieces.mp h
    obtain ⟨w, ws, hws⟩ := List.exists_cons_of_ne_nil (Text.pieces_ne_nil d.scope s)
    rw [hws] at hpieces
    exact ⟨w, ws, hpieces.1, hpieces.2, by rw [← hws, Text.glue_pieces]⟩
  · intro h
    obtain ⟨w, ws, hw, hws, rfl⟩ := h
    exact isGranted_glue ⟨hw, hws⟩

end Delimiters

end Warden
