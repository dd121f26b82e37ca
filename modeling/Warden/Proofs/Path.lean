/-
  Warden.Proofs.Path — paths as they are given and as they are followed.

  An option gives a path as a text or as a list, and either is cut at its points. What comes of
  it is a path exactly if something was given and no piece is empty; the segments are then
  the pieces, and both forms of the path are read as the path again. Two paths are the same
  if they are written the same, and also if they are followed to the same values: among the
  items of an array different segments can name the same one, but the objects that hold
  nothing but a path (`nest`) tell it from every other.

  - `ofInput?_ok_iff`: which inputs are paths, and with which segments.
  - `eq_of_find?_nest`: the document that only one path leads through.
  - `normal_form`: both, with the forms of a path and the equality of paths.
-/

import Warden.Proofs.Json.Ordered
import Warden.Proofs.Options.ReadBack

namespace Warden

/-! ## Cutting glued texts -/

theorem Text.split_join_flatMap (d : Char) {ps : List (List Char)} (hne : ps ≠ []) :
    split d (join d ps) = ps.flatMap (split d) := by
  induction ps with
  | nil => exact absurd rfl hne
  | cons p ps ih =>
    cases ps with
    | nil => rw [join_singleton, List.flatMap_singleton]
    | cons q rest =>
      rw [join_cons_cons, split_append, ih (List.cons_ne_nil _ _)]
      exact List.flatMap_cons.symm

theorem Text.pieces_glue_flatMap (d : Char) {ss : List String} (hne : ss ≠ []) :
    pieces d (glue d ss) = ss.flatMap (pieces d) := by
  have hsplit : split d (join d (ss.map String.toList)) = (ss.map String.toList).flatMap (split d) :=
    split_join_flatMap d (by simpa using hne)
  rw [pieces, glue, String.toList_ofList, hsplit, List.flatMap_map, List.map_flatMap]
  rfl

namespace PathInput

/-- What lies between the points of the text, or of the elements of the list. -/
def pieces : PathInput → List String
  | .dotted text => Text.pieces '.' text
  | .list segments => segments.flatMap (Text.pieces '.')

/-- The dotted form of what was given. -/
def text : PathInput → String
  | .dotted text => text
  | .list segments => Text.glue '.' segments

/-- Something was given, and no piece of it is empty. -/
structure Sound (input : PathInput) : Prop where
  text_ne : input ≠ .dotted ""
  list_ne : input ≠ .list []
  pieces_ne : ∀ s ∈ input.pieces, s ≠ ""

variable {input : PathInput}

theorem pieces_ne_nil (h : input ≠ .list []) : input.pieces ≠ [] := by
  match input, h with
  | .dotted text, _ => exact Text.pieces_ne_nil '.' text
  | .list (first :: rest), _ =>
    rw [pieces, ← Text.pieces_glue_flatMap '.' (List.cons_ne_nil _ _)]
    exact Text.pieces_ne_nil _ _

theorem not_mem_of_mem_pieces {s : String} (h : s ∈ input.pieces) : '.' ∉ s.toList := by
  match input with
  | .dotted text => exact Text.not_mem_of_mem_pieces h
  | .list segments =>
    obtain ⟨segment, -, hs⟩ := List.mem_flatMap.mp h
    exact Text.not_mem_of_mem_pieces hs

end PathInput

namespace DocPath

variable {input : PathInput} {p q : DocPath}

/-! ## Paths from inputs -/

theorem ext {p q : DocPath} (h : p.segments = q.segments) : p = q := by
  cases p
  cases q
  cases h
  rfl

theorem ofDotted?_ok_iff {text : String} :
    ofDotted? text = .ok p ↔ (∀ s ∈ Text.pieces '.' text, s ≠ "") ∧ p.segments = Text.pieces '.' text := by
  constructor
  · intro h
    have hdotted : p.dotted = text := ofDotted?_ok h
    rw [← hdotted, pieces_dotted]
    exact ⟨fun s hs => (p.plain s hs).1, rfl⟩
  · rintro ⟨-, hsegments⟩
    have hdotted : p.dotted = text := by rw [dotted, hsegments, Text.glue_pieces]
    rw [← hdotted]
    exact p.ofDotted?_dotted

theorem ofInput?_ok_iff : ofInput? input = .ok p ↔ input.Sound ∧ p.segments = input.pieces := by
  match input with
  | .dotted text =>
    show ofDotted? text = .ok p ↔ _
    rw [ofDotted?_ok_iff]
    constructor
    · rintro ⟨hpieces, hsegments⟩
      refine ⟨⟨?_, nofun, hpieces⟩, hsegments⟩
      rintro ⟨⟩
      exact hpieces "" (List.mem_singleton.mpr rfl) rfl
    · rintro ⟨hsound, hsegments⟩
      exact ⟨hsound.pieces_ne, hsegments⟩
  | .list [] =>
    constructor
    · exact nofun
    · rintro ⟨hsound, -⟩
      exact absurd rfl hsound.list_ne
  | .list (first :: rest) =>
    show ofDotted? (Text.glue '.' (first :: rest)) = .ok p ↔ _
    rw [ofDotted?_ok_iff, Text.pieces_glue_flatMap '.' (List.cons_ne_nil _ _)]
    constructor
    · rintro ⟨hpieces, hsegments⟩
      exact ⟨⟨nofun, nofun, hpieces⟩, hsegments⟩
    · rintro ⟨hsound, hsegments⟩
      exact ⟨hsound.pieces_ne, hsegments⟩

/-- A sound input is a path. -/
theorem exists_ofInput? (h : input.Sound) : ∃ p, ofInput? input = .ok p :=
  ⟨⟨input.pieces, PathInput.pieces_ne_nil h.list_ne,
      fun s hs => ⟨h.pieces_ne s hs, PathInput.not_mem_of_mem_pieces hs⟩⟩,
    ofInput?_ok_iff.mpr ⟨h, rfl⟩⟩

theorem dotted_of_ok (h : ofInput? input = .ok p) : p.dotted = input.text := by
  match input with
  | .dotted text => exact ofDotted?_ok h
  | .list [] => cases h
  | .list (first :: rest) => exact ofDotted?_ok h

theorem of?_ok_iff {option : Options.Key} : of? option input = .ok p ↔ ofInput? input = .ok p := by
  unfold of?
  cases ofInput? input with
  | error fault => exact ⟨nofun, nofun⟩
  | ok q => exact ⟨fun h => congrArg _ (Except.ok.inj h), fun h => congrArg _ (Except.ok.inj h)⟩

/-! ## The same path -/

theorem dotted_inj : p.dotted = q.dotted ↔ p = q := by
  constructor
  · intro h
    have hpieces := congrArg (Text.pieces '.') h
    rw [pieces_dotted, pieces_dotted] at hpieces
    exact ext hpieces
  · exact congrArg dotted

/-- Objects of one member within one another, along a path, and a value at its end. -/
def nest (value : Json) : List String → Json
  | [] => value
  | segment :: rest => .object [(segment, nest value rest)]

theorem nest_ordered {value : Json} (h : value.Ordered) (segments : List String) : (nest value segments).Ordered := by
  induction segments with
  | nil => exact h
  | cons segment rest ih => exact .object (List.pairwise_singleton _ _) (List.forall_mem_singleton.mpr ih)

theorem walk?_nest (value : Json) (segments : List String) : walk? segments (nest value segments) = some value := by
  induction segments with
  | nil => rfl
  | cons segment rest ih =>
    have hstep : step? segment (nest value (segment :: rest)) = some (nest value rest) := List.lookup_cons_self
    rw [walk?, hstep]
    exact ih

/-- No other path leads to a value at the end of nested objects if that is no object or array itself. -/
theorem eq_of_walk?_nest {b : Bool} {xs ys : List String} (h : walk? ys (nest (.bool b) xs) = some (.bool b)) :
    ys = xs := by
  induction xs generalizing ys with
  | nil =>
    cases ys with
    | nil => rfl
    | cons y ys => cases h
  | cons x xs ih =>
    cases ys with
    | nil => cases h
    | cons y ys =>
      have hstep : step? y (nest (.bool b) (x :: xs)) = List.lookup y [(x, nest (.bool b) xs)] := rfl
      by_cases hy : y = x
      · subst hy
        rw [walk?, hstep, List.lookup_cons_self] at h
        exact congrArg _ (ih h)
      · have hb : (y == x) = false := by simpa using hy
        rw [walk?, hstep, List.lookup_cons, hb] at h
        cases h

theorem find?_nest (p : DocPath) (b : Bool) : p.find? (nest (.bool b) p.segments) = some (.bool b) := by
  rw [find?, walk?_nest]
  rfl

theorem eq_of_find?_nest {b : Bool} (h : q.find? (nest (.bool b) p.segments) = some (.bool b)) : q = p :=
  ext (eq_of_walk?_nest (Option.filter_eq_some_iff.mp h).1)

theorem eq_iff_find? : p = q ↔ ∀ root : Json, root.Ordered → p.find? root = q.find? root := by
  constructor
  · rintro rfl root _
    rfl
  · intro h
    have hroot := h (nest (.bool true) p.segments) (nest_ordered (.bool true) _)
    rw [find?_nest] at hroot
    exact (eq_of_find?_nest hroot.symm).symm

/-- An input is a path if it is a text or a list that is not empty and all its pieces between points
    are texts that are not empty either. The pieces, in their order, are then the segments of the path, and its
    dotted form is written from them and is the text that was given, if one was. Either form of
    a path is the path again. Paths are the same if their dotted forms are, and if they find the
    same in every document. -/
theorem normal_form :
    (∀ (option : Options.Key) (input : PathInput),
      ((∃ p, of? option input = .ok p) ↔
        input ≠ .dotted "" ∧ input ≠ .list [] ∧ ∀ s ∈ input.pieces, s ≠ "") ∧
      ∀ p, of? option input = .ok p →
        p.segments = input.pieces ∧ p.dotted = Text.glue '.' p.segments ∧ p.dotted = input.text ∧
        (∀ s ∈ p.segments, s ≠ "" ∧ '.' ∉ s.toList) ∧
        ∀ other, of? other (.dotted p.dotted) = .ok p ∧ of? other (.list p.segments) = .ok p) ∧
    ∀ p q : DocPath, (p = q ↔ p.dotted = q.dotted) ∧
      (p = q ↔ ∀ root : Json, root.Ordered → p.find? root = q.find? root) := by
  refine ⟨fun option input => ⟨⟨?_, ?_⟩, fun p h => ?_⟩, fun p q => ⟨dotted_inj.symm, eq_iff_find?⟩⟩
  · rintro ⟨p, h⟩
    obtain ⟨hsound, -⟩ := ofInput?_ok_iff.mp (of?_ok_iff.mp h)
    exact ⟨hsound.text_ne, hsound.list_ne, hsound.pieces_ne⟩
  · rintro ⟨htext, hlist, hpieces⟩
    obtain ⟨p, h⟩ := exists_ofInput? ⟨htext, hlist, hpieces⟩
    exact ⟨p, of?_ok_iff.mpr h⟩
  · replace h := of?_ok_iff.mp h
    exact ⟨(ofInput?_ok_iff.mp h).2, rfl, dotted_of_ok h, p.plain,
      fun other => ⟨of?_input other .dotted p, of?_input other .listed p⟩⟩

/-- An element with a point in it is two segments. Two paths may name one item in all arrays and are two
    paths, for there are objects. -/
theorem normal_form_of_index :
    (∃ p, of? .tokenKey (.list ["auth.user", "token"]) = .ok p ∧ p.segments = ["auth", "user", "token"] ∧
      of? .adminKey (.dotted "auth.user.token") = .ok p) ∧
    ∃ p q, of? .tokenKey (.dotted "0") = .ok p ∧ of? .tokenKey (.dotted "00") = .ok q ∧
      (∀ items, p.find? (.array items) = q.find? (.array items)) ∧
      ¬ ∀ root : Json, root.Ordered → p.find? root = q.find? root := by
  have hread : ∃ p, of? .tokenKey (.list ["auth.user", "token"]) = .ok p ∧ p.dotted = "auth.user.token" := ⟨_, rfl, rfl⟩
  obtain ⟨p, hp, hdotted⟩ := hread
  obtain ⟨hsegments, -, -, -, hforms⟩ := (normal_form.1 .tokenKey (.list ["auth.user", "token"])).2 p hp
  have hagain := (hforms .adminKey).1
  rw [hdotted] at hagain
  refine ⟨⟨p, hp, hsegments, hagain⟩, _, _, rfl, rfl, fun items => rfl, fun h => ?_⟩
  exact absurd ((normal_form.2 _ _).1.mp ((normal_form.2 _ _).2.mpr h)) (by decide)

end DocPath

end Warden
