/-
  Warden.Text — cutting text at a separator and gluing it back.

  `split d` cuts a text at every `d`; n separators give n + 1 pieces, so the empty text is
  one empty piece. `join d` writes the separator between the pieces.

  - `join_split`: gluing the pieces of a text gives the text back.
  - `split_join`: cutting glued pieces gives the pieces back, if there is one and none of
    them holds the separator.
  - `not_mem_of_mem_split`: no piece holds the separator.
-/

namespace Warden.Text

/-- The piece in front of the first separator, and the pieces after it. -/
def cut (d : Char) : List Char → List Char × List (List Char)
  | [] => ([], [])
  | c :: cs =>
    let (piece, rest) := cut d cs
    if c = d then ([], piece :: rest) else (c :: piece, rest)

def split (d : Char) (cs : List Char) : List (List Char) := (cut d cs).1 :: (cut d cs).2

def join (d : Char) : List (List Char) → List Char
  | [] => []
  | [piece] => piece
  | piece :: rest => piece ++ d :: join d rest

/-- The pieces of a string. -/
def pieces (d : Char) (s : String) : List String := (split d s.toList).map String.ofList

/-- The string with the pieces `ss`. -/
def glue (d : Char) (ss : List String) : String := String.ofList (join d (ss.map String.toList))

/-! ## Cutting and gluing -/

@[simp] theorem split_nil (d : Char) : split d [] = [[]] := rfl

theorem split_cons_sep (d : Char) (cs : List Char) : split d (d :: cs) = [] :: split d cs := by
  simp [split, cut]

theorem split_cons_ne {c d : Char} (h : c ≠ d) (cs : List Char) :
    split d (c :: cs) = (c :: (cut d cs).1) :: (cut d cs).2 := by
  simp [split, cut, h]

@[simp] theorem join_singleton (d : Char) (p : List Char) : join d [p] = p := rfl

theorem join_cons_cons (d : Char) (p q : List Char) (rest : List (List Char)) :
    join d (p :: q :: rest) = p ++ d :: join d (q :: rest) := rfl

theorem join_split (d : Char) (cs : List Char) : join d (split d cs) = cs := by
  induction cs with
  | nil => rfl
  | cons c cs ih =>
    by_cases h : c = d
    · subst h
      rw [split_cons_sep]
      exact congrArg (c :: ·) ih
    · rw [split_cons_ne h]
      rw [split] at ih
      cases hr : (cut d cs).2 with
      | nil => simpa [hr] using ih
      | cons q rest => simpa [hr, join_cons_cons] using ih

theorem not_mem_of_mem_split {d : Char} {cs p : List Char} (h : p ∈ split d cs) : d ∉ p := by
  induction cs generalizing p with
  | nil => simp at h; simp [h]
  | cons c cs ih =>
    by_cases hc : c = d
    · subst hc
      rw [split_cons_sep] at h
      rcases List.mem_cons.mp h with rfl | h
      · simp
      · exact ih h
    · rw [split_cons_ne hc] at h
      rcases List.mem_cons.mp h with rfl | h
      · have : d ∉ (cut d cs).1 := ih (by simp [split])
        simp [this, Ne.symm hc]
      · exact ih (by simp [split, h])

theorem split_append_sep {d : Char} {p : List Char} (hp : d ∉ p) (cs : List Char) :
    split d (p ++ d :: cs) = p :: split d cs := by
  induction p with
  | nil => exact split_cons_sep d cs
  | cons c p ih =>
    simp only [List.mem_cons, not_or] at hp
    have ih := ih hp.2
    rw [split, List.cons.injEq] at ih
    rw [List.cons_append, split_cons_ne (Ne.symm hp.1), ih.1, ih.2]

theorem split_append (d : Char) (cs ds : List Char) : split d (cs ++ d :: ds) = split d cs ++ split d ds := by
  induction cs with
  | nil => exact split_cons_sep d ds
  | cons c cs ih =>
    by_cases h : c = d
    · subst h
      rw [List.cons_append, split_cons_sep, split_cons_sep, ih]
      rfl
    · rw [split, split, List.cons_append, List.cons.injEq] at ih
      rw [List.cons_append, split_cons_ne h, split_cons_ne h, ih.1, ih.2]
      rfl

theorem split_of_not_mem {d : Char} {p : List Char} (hp : d ∉ p) : split d p = [p] := by
  induction p with
  | nil => rfl
  | cons c p ih =>
    simp only [List.mem_cons, not_or] at hp
    have ih := ih hp.2
    rw [split, List.cons.injEq] at ih
    rw [split_cons_ne (Ne.symm hp.1), ih.1, ih.2]

theorem split_join {d : Char} {ps : List (List Char)} (hne : ps ≠ []) (hd : ∀ p ∈ ps, d ∉ p) :
    split d (join d ps) = ps := by
  induction ps with
  | nil => exact absurd rfl hne
  | cons p ps ih =>
    cases ps with
    | nil => exact split_of_not_mem (hd p (by simp))
    | cons q rest =>
      rw [join_cons_cons, split_append_sep (hd p (by simp)), ih (by simp) fun r hr => hd r (by simp [hr])]

/-- A character other than the separator comes from a piece. -/
theorem mem_join {c d : Char} (h : c ≠ d) {ps : List (List Char)} : c ∈ join d ps ↔ ∃ p ∈ ps, c ∈ p := by
  induction ps with
  | nil => simp [join]
  | cons p ps ih =>
    cases ps with
    | nil => simp
    | cons q rest =>
      rw [join_cons_cons, List.mem_append, List.mem_cons, ih]
      simp [h]

/-! ## The same on strings -/

theorem pieces_ne_nil (d : Char) (s : String) : pieces d s ≠ [] := by simp [pieces, split]

theorem glue_pieces (d : Char) (s : String) : glue d (pieces d s) = s := by
  simp [glue, pieces, List.map_map, Function.comp_def, join_split]

theorem pieces_glue {d : Char} {ss : List String} (hne : ss ≠ []) (hd : ∀ p ∈ ss, d ∉ p.toList) :
    pieces d (glue d ss) = ss := by
  have h : split d (join d (ss.map String.toList)) = ss.map String.toList :=
    split_join (by simp [hne]) (by simpa using hd)
  simp [glue, pieces, h, List.map_map, Function.comp_def]

theorem mem_iff_mem_pieces {c d : Char} (h : c ≠ d) (s : String) :
    c ∈ s.toList ↔ ∃ p ∈ pieces d s, c ∈ p.toList := by
  have hj : c ∈ s.toList ↔ ∃ p ∈ split d s.toList, c ∈ p := by rw [← mem_join h, join_split]
  rw [hj]
  constructor
  · rintro ⟨p, hp, hc⟩
    exact ⟨String.ofList p, List.mem_map_of_mem hp, by simpa using hc⟩
  · rintro ⟨_, hmem, hc⟩
    obtain ⟨p, hp, rfl⟩ := List.mem_map.mp hmem
    exact ⟨p, hp, by simpa using hc⟩

theorem not_mem_of_mem_pieces {d : Char} {s p : String} (h : p ∈ pieces d s) : d ∉ p.toList := by
  obtain ⟨cs, hcs, rfl⟩ := List.mem_map.mp h
  simpa using not_mem_of_mem_split hcs

end Warden.Text
