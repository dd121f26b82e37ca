/-
  Warden.Proofs.Grammar — each permission is written in one way.

  A permission is written as a list of segments with the scope delimiter between them: words
  for a requested one (`Requestable`), for a granted one also wildcards after the first
  (`Grantable`). The recognisers do not cut a text into segments, they read it once. A place
  of theirs stands for what may still be read of the segment they are in (`Place.Rest`), and
  what they read is that and whole segments after it (`grantedFrom_iff`).

  - `isGranted_iff_pieces`, `isRequested_iff_pieces`: a text is a permission if the pieces it
    is cut into may be segments.
  - `glue_grantable_inj`: no other list of segments is written as the same text.
  - `written_once`: both at once, with the permissions that are read from the text.
-/

import Warden.Proofs.Claim

namespace Warden

/-- One or more of the characters of words. -/
def IsWord (cs : List Char) : Prop := cs ≠ [] ∧ ∀ c ∈ cs, isWordChar c = true

instance (cs : List Char) : Decidable (IsWord cs) :=
  decidable_of_iff ((!cs.isEmpty && cs.all isWordChar) = true) (by simp [IsWord])

/-- The segments of a requested permission. -/
def Requestable (ws : List String) : Prop := ws ≠ [] ∧ ∀ w ∈ ws, IsWord w.toList

instance (ws : List String) : Decidable (Requestable ws) :=
  decidable_of_iff ((!ws.isEmpty && ws.all fun w => decide (IsWord w.toList)) = true) (by simp [Requestable])

/-- The segments of a granted permission. -/
def Grantable : List String → Prop
  | [] => False
  | name :: qualifiers => IsWord name.toList ∧ ∀ q ∈ qualifiers, IsWord q.toList ∨ q = wildcard

instance : (ws : List String) → Decidable (Grantable ws)
  | [] => .isFalse id
  | name :: qualifiers =>
    decidable_of_iff
      ((decide (IsWord name.toList) && qualifiers.all fun q => decide (IsWord q.toList) || q == wildcard) = true)
      (by simp [Grantable])

namespace Grammar

/-! ## What the recogniser reads from a place -/

/-- What may still be read of a segment. -/
def Place.Rest : Place → List Char → Prop
  | .name, cs => IsWord cs
  | .qualifier, cs => IsWord cs ∨ cs = ['*']
  | .word, cs => ∀ c ∈ cs, isWordChar c = true
  | .wildcard, cs => cs = []

variable {scope c : Char} {cs : List Char}

theorem rest_nil (p : Place) : p.Rest [] ↔ p.complete = true := by
  cases p <;> simp [Place.Rest, Place.complete, IsWord]

theorem rest_wordChar (hc : isWordChar c = true) (p : Place) :
    p.Rest (c :: cs) ↔ p ≠ .wildcard ∧ Place.word.Rest cs := by
  have hstar : c ≠ '*' := by
    rintro rfl
    revert hc
    decide
  cases p <;> simp [Place.Rest, IsWord, hc, hstar]

theorem rest_wildcard (p : Place) : p.Rest ('*' :: cs) ↔ p = .qualifier ∧ Place.wildcard.Rest cs := by
  have hstar : isWordChar '*' = false := by decide
  cases p <;> simp [Place.Rest, IsWord, hstar]

theorem rest_other (hc : isWordChar c = false) (hstar : c ≠ '*') (p : Place) : ¬p.Rest (c :: cs) := by
  cases p <;> simp [Place.Rest, IsWord, hc, hstar]

/-- The rest of a segment is read, and segments after it. -/
theorem grantedFrom_iff (hscope : isWordChar scope = false) (hstar : scope ≠ '*') (cs : List Char) (p : Place) :
    grantedFrom scope p cs = true ↔
      p.Rest (Text.cut scope cs).1 ∧ ∀ q ∈ (Text.cut scope cs).2, Place.qualifier.Rest q := by
  induction cs generalizing p with
  | nil => simp [grantedFrom, Text.cut, rest_nil]
  | cons c cs ih =>
    by_cases hsep : c = scope
    · subst hsep
      have hread : grantedFrom c p (c :: cs) = (p.complete && grantedFrom c .qualifier cs) := by
        simp [grantedFrom, hscope, hstar]
      rw [hread, Bool.and_eq_true, ih .qualifier, ← rest_nil]
      simp [Text.cut]
    · have hcut : Text.cut scope (c :: cs) = (c :: (Text.cut scope cs).1, (Text.cut scope cs).2) := by
        simp [Text.cut, hsep]
      rw [hcut]
      by_cases hword : isWordChar c = true
      · rw [rest_wordChar hword, and_assoc, ← ih .word]
        simp [grantedFrom, hword]
      · by_cases hc : c = '*'
        · subst hc
          rw [rest_wildcard, and_assoc, ← ih .wildcard]
          simp [grantedFrom, hword]
        · have hother : ¬p.Rest (c :: (Text.cut scope cs).1) := rest_other (by simpa using hword) hc p
          simp [grantedFrom, hword, hc, hsep, hother]

end Grammar

/-! ## Segments -/

theorem star_not_word {cs : List Char} (h : IsWord cs) : '*' ∉ cs := by
  intro hmem
  have hstar : isWordChar '*' = true := h.2 '*' hmem
  revert hstar
  decide

theorem toList_eq_star {s : String} : s.toList = ['*'] ↔ s = wildcard :=
  ⟨fun h => String.toList_inj.mp h, fun h => by rw [h]; rfl⟩

/-- The segments of a requested permission are those of a granted one without a wildcard. -/
theorem requestable_iff {ws : List String} : Requestable ws ↔ Grantable ws ∧ ∀ w ∈ ws, '*' ∉ w.toList := by
  cases ws with
  | nil => simp [Requestable, Grantable]
  | cons name qualifiers =>
    constructor
    · rintro ⟨-, hwords⟩
      obtain ⟨hname, hqualifiers⟩ := List.forall_mem_cons.mp hwords
      exact ⟨⟨hname, fun q hq => .inl (hqualifiers q hq)⟩, fun w hw => star_not_word (hwords w hw)⟩
    · rintro ⟨⟨hname, hqualifiers⟩, hstars⟩
      refine ⟨List.cons_ne_nil _ _, List.forall_mem_cons.mpr ⟨hname, fun q hq => ?_⟩⟩
      rcases hqualifiers q hq with hword | rfl
      · exact hword
      · exact absurd (List.mem_singleton.mpr rfl) (hstars wildcard (List.mem_cons_of_mem _ hq))

namespace Delimiters

variable {d : Delimiters} {s : String} {ws : List String}

theorem scope_not_mem (h : Grantable ws) : ∀ w ∈ ws, d.scope ∉ w.toList := by
  have hword : ∀ cs, IsWord cs → d.scope ∉ cs := by
    intro cs hcs hmem
    have := hcs.2 d.scope hmem
    rw [d.scope_not_wordChar] at this
    cases this
  cases ws with
  | nil => cases h
  | cons name qualifiers =>
    refine List.forall_mem_cons.mpr ⟨hword _ h.1, fun q hq => ?_⟩
    rcases h.2 q hq with hq | rfl
    · exact hword _ hq
    · intro hmem
      exact d.scope_ne_wildcard (List.mem_singleton.mp hmem)

theorem isGranted_iff_pieces : d.isGranted s = true ↔ Grantable (Text.pieces d.scope s) := by
  rw [isGranted, Grammar.grantedFrom_iff d.scope_not_wordChar d.scope_ne_wildcard]
  simp [Text.pieces, Text.split, Grantable, Grammar.Place.Rest, ← toList_eq_star]

theorem isRequested_iff_pieces : d.isRequested s = true ↔ Requestable (Text.pieces d.scope s) := by
  have hstar : '*' ∉ s.toList ↔ ∀ w ∈ Text.pieces d.scope s, '*' ∉ w.toList := by
    rw [Text.mem_iff_mem_pieces (Ne.symm d.scope_ne_wildcard)]
    simp
  rw [isRequested_iff, isGranted_iff_pieces, requestable_iff, hstar]

/-! ## Texts made of segments -/

theorem pieces_grantable (h : Grantable ws) : Text.pieces d.scope (Text.glue d.scope ws) = ws := by
  refine Text.pieces_glue ?_ (scope_not_mem h)
  rintro rfl
  cases h

theorem glue_grantable_inj {vs : List String} (hv : Grantable vs) (hw : Grantable ws)
    (h : Text.glue d.scope vs = Text.glue d.scope ws) : vs = ws := by
  rw [← pieces_grantable hv, h, pieces_grantable hw]

theorem isGranted_glue (h : Grantable ws) : d.isGranted (Text.glue d.scope ws) = true := by
  rw [isGranted_iff_pieces, pieces_grantable h]
  exact h

theorem isRequested_glue (h : Requestable ws) : d.isRequested (Text.glue d.scope ws) = true := by
  rw [isRequested_iff_pieces, pieces_grantable (requestable_iff.mp h).1]
  exact h

end Delimiters

/-! ## What is read from a text -/

namespace Permission

/-- The permission is written so, and has these segments. -/
structure Spells (scope : Char) (s : String) (ws : List String) (p : Permission) : Prop where
  text_eq : p.text = s
  segments_eq : p.segments = ws
  name_eq : ws.head? = some p.name
  join_eq : p.join scope = s

theorem spells_ofText {d : Delimiters} {ws : List String} (h : Grantable ws) :
    (ofText d.scope (Text.glue d.scope ws)).Spells d.scope (Text.glue d.scope ws) ws where
  text_eq := text_ofText _ _
  segments_eq := by rw [segments_ofText, Delimiters.pieces_grantable h]
  name_eq := by
    have hs : (ofText d.scope (Text.glue d.scope ws)).segments = ws := by
      rw [segments_ofText, Delimiters.pieces_grantable h]
    exact (congrArg List.head? hs).symm
  join_eq := join_ofText _ _

end Permission

namespace Delimiters

variable {d : Delimiters} {s : String} {ws : List String}

theorem permission?_requested (h : d.isRequested s = true) : d.permission? s = .ok (.ofText d.scope s) := by
  rw [permission?, if_pos h]

/-- A granted permission is a claim by itself, as a text and as the item of an array. -/
theorem grants?_single (h : d.isGranted s = true) :
    d.grants? (.string s) = .ok ⟨[.ofText d.scope s]⟩ ∧ d.grants? (.array [.string s]) = .ok ⟨[.ofText d.scope s]⟩ := by
  have hall : ∀ x ∈ [s], d.isGranted x = true := List.forall_mem_singleton.mpr h
  obtain ⟨htext, hitems⟩ := elements_of_granted hall
  have hglue : Text.glue d.claim [s] = s := by simp [Text.glue]
  rw [hglue] at htext
  exact ⟨grants?_of_elements htext hall, grants?_of_elements hitems hall⟩

/-- A text is a requested permission if it is written with words and scope delimiters, a granted
    one if with wildcards too, but for its name, and the segments that it is written with are the
    only ones. The permissions that are read from it, a requested one and those that claims grant,
    have these segments. The requested permissions are the granted ones without a wildcard. -/
theorem written_once (d : Delimiters) (s : String) :
    (d.isRequested s = true ↔ ∃ ws, Requestable ws ∧ s = Text.glue d.scope ws) ∧
    (d.isGranted s = true ↔ ∃ ws, Grantable ws ∧ s = Text.glue d.scope ws) ∧
    (d.isRequested s = true ↔ d.isGranted s = true ∧ '*' ∉ s.toList) ∧
    (∀ ws, Requestable ws → s = Text.glue d.scope ws →
      (∀ vs, Requestable vs → s = Text.glue d.scope vs → vs = ws) ∧
      ∃ p, d.permission? s = .ok p ∧ p.Spells d.scope s ws) ∧
    ∀ ws, Grantable ws → s = Text.glue d.scope ws →
      (∀ vs, Grantable vs → s = Text.glue d.scope vs → vs = ws) ∧
      (∃ p, d.grants? (.string s) = .ok ⟨[p]⟩ ∧ d.grants? (.array [.string s]) = .ok ⟨[p]⟩) ∧
      ∀ claim grants, d.grants? claim = .ok grants → ∀ p ∈ grants.permissions, p.text = s →
        p.Spells d.scope s ws := by
  refine ⟨⟨fun h => ?_, ?_⟩, ⟨fun h => ?_, ?_⟩, d.isRequested_iff s, ?_, ?_⟩
  · exact ⟨_, isRequested_iff_pieces.mp h, (Text.glue_pieces d.scope s).symm⟩
  · rintro ⟨ws, hws, rfl⟩
    exact isRequested_glue hws
  · exact ⟨_, isGranted_iff_pieces.mp h, (Text.glue_pieces d.scope s).symm⟩
  · rintro ⟨ws, hws, rfl⟩
    exact isGranted_glue hws
  · rintro ws hws rfl
    have hgrantable : Grantable ws := (requestable_iff.mp hws).1
    refine ⟨fun vs hvs h => ?_, _, permission?_requested (isRequested_glue hws), Permission.spells_ofText hgrantable⟩
    exact (glue_grantable_inj hgrantable (requestable_iff.mp hvs).1 h).symm
  · rintro ws hws rfl
    refine ⟨fun vs hvs h => (glue_grantable_inj hws hvs h).symm, ⟨_, grants?_single (isGranted_glue hws)⟩, ?_⟩
    intro claim grants hread p hmem htext
    obtain ⟨elements, -, -, hpermissions⟩ := grants?_ok hread
    rw [hpermissions] at hmem
    obtain ⟨e, -, rfl⟩ := List.mem_map.mp hmem
    obtain rfl : e = _ := htext
    exact Permission.spells_ofText hws

/-- With points between segments and spaces between permissions. -/
theorem written_once_with_points :
    ∃ d p grants q, Delimiters.of? " " "." = .ok d ∧
      d.permission? "doc.42.edit" = .ok p ∧ p.Spells '.' "doc.42.edit" ["doc", "42", "edit"] ∧
      (∀ vs, Requestable vs → "doc.42.edit" = Text.glue '.' vs → vs = ["doc", "42", "edit"]) ∧
      d.grants? (.string "read doc.*.edit") = .ok grants ∧ q ∈ grants.permissions ∧
      q.Spells '.' "doc.*.edit" ["doc", "*", "edit"] := by
  have hrun : ∃ d read q, Delimiters.of? " " "." = .ok d ∧ d.scope = '.' ∧
      d.grants? (.string "read doc.*.edit") = .ok ⟨[read, q]⟩ ∧ q.text = "doc.*.edit" :=
    ⟨_, .ofText '.' "read", .ofText '.' "doc.*.edit", rfl, rfl, rfl, rfl⟩
  obtain ⟨d, read, q, hd, hscope, hread, htext⟩ := hrun
  have hrequested := (written_once d "doc.42.edit").2.2.2.1 ["doc", "42", "edit"] (by decide) (by rw [hscope]; rfl)
  have hgranted := (written_once d "doc.*.edit").2.2.2.2 ["doc", "*", "edit"] (by decide) (by rw [hscope]; rfl)
  rw [hscope] at hrequested hgranted
  obtain ⟨hunique, p, hp, hspells⟩ := hrequested
  have hmem : q ∈ [read, q] := List.mem_cons_of_mem _ (List.mem_singleton.mpr rfl)
  exact ⟨d, p, _, q, hd, hp, hspells, hunique, hread, hmem, hgranted.2.2 _ _ hread q hmem htext⟩

end Delimiters

end Warden
