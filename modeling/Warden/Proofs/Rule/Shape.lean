/-
  Warden.Proofs.Rule.Shape — what stands where in the rules that arguments make.

  `at?` finds the node at a place. In a rule made of arguments, alone or put together by `or`
  and `butNot`, each node is `Placed`: an `all` or `any` has two children or more, a `not` is
  the second child of an `all` that has two, and a permission is one that can be requested.

  - `at?_or`, `at?_butNot`: the places of a combined rule are those of its parts, one or two
    steps further down.
  - `shaped_or`, `shaped_butNot`: a combined rule is `Shaped` if its parts are, and
    `shaped_ofArguments?`: so is the rule of a list.
-/

import Warden.Proofs.Arguments
import Warden.Proofs.Grammar
import Warden.Proofs.Rule.Occurrence

namespace Warden

namespace Rule

/-- The node at a place of a rule. -/
def at? : Place → Rule → Option Rule
  | [], r => some r
  | i :: place, .all children | i :: place, .any children => children[i]? >>= at? place
  | 0 :: place, .not child => at? place child
  | _ :: _, _ => none

/-- What may stand at a place of a rule that is made of arguments. -/
def Placed (d : Delimiters) (whole : Rule) (place : Place) : Rule → Prop
  | .permission p => d.permission? p.text = .ok p ∧ p.hasWildcard = false
  | .predicate _ | .admin => True
  | .all children | .any children => 2 ≤ children.length
  | .not child => ∃ parent first, place = parent ++ [1] ∧ whole.at? parent = some (.all [first, .not child])

def Shaped (d : Delimiters) (r : Rule) : Prop := ∀ place node, r.at? place = some node → Placed d r place node

variable {d : Delimiters} {a b node whole part : Rule} {place : Place}

/-! ## Rules put together -/

theorem at?_or : (a.or b).at? place = some node ↔
    (place = [] ∧ a.or b = node) ∨ (∃ q, place = 0 :: q ∧ a.at? q = some node) ∨
      ∃ q, place = 1 :: q ∧ b.at? q = some node := by
  match place with
  | [] => simp [at?]
  | 0 :: q => simp [at?, Rule.or]
  | 1 :: q => simp [at?, Rule.or]
  | (i + 2) :: q => simp [at?, Rule.or]

theorem at?_butNot : (a.butNot b).at? place = some node ↔
    (place = [] ∧ a.butNot b = node) ∨ (∃ q, place = 0 :: q ∧ a.at? q = some node) ∨
      (place = [1] ∧ .not b = node) ∨ ∃ q, place = 1 :: 0 :: q ∧ b.at? q = some node := by
  match place with
  | [] => simp [at?]
  | 0 :: q => simp [at?, butNot]
  | [1] => simp [at?, butNot]
  | 1 :: 0 :: q => simp [at?, butNot]
  | 1 :: (i + 1) :: q => simp [at?, butNot]
  | (i + 2) :: q => simp [at?, butNot]

/-- A part of a rule keeps its shape where the rule has it. -/
theorem Placed.below (h : Placed d part place node) (above : Place)
    (hpart : ∀ q, whole.at? (above ++ q) = part.at? q) : Placed d whole (above ++ place) node := by
  cases node with
  | not child =>
    obtain ⟨parent, first, rfl, hparent⟩ := h
    exact ⟨above ++ parent, first, (List.append_assoc _ _ _).symm, by rw [hpart, hparent]⟩
  | permission p => exact h
  | predicate p => exact h
  | all children => exact h
  | any children => exact h
  | admin => exact h

theorem shaped_or (ha : Shaped d a) (hb : Shaped d b) : Shaped d (a.or b) := by
  intro place node h
  rcases at?_or.mp h with ⟨-, rfl⟩ | ⟨q, rfl, hq⟩ | ⟨q, rfl, hq⟩
  · exact Nat.le_refl 2
  · exact (ha q node hq).below [0] fun _ => rfl
  · exact (hb q node hq).below [1] fun _ => rfl

theorem shaped_butNot (ha : Shaped d a) (hb : Shaped d b) : Shaped d (a.butNot b) := by
  intro place node h
  rcases at?_butNot.mp h with ⟨-, rfl⟩ | ⟨q, rfl, hq⟩ | ⟨rfl, rfl⟩ | ⟨q, rfl, hq⟩
  · exact Nat.le_refl 2
  · exact (ha q node hq).below [0] fun _ => rfl
  · exact ⟨[], a, rfl, rfl⟩
  · exact (hb q node hq).below [1, 0] fun _ => rfl

/-- Where the second part has no admin check, those of the combined rule are in the first. -/
theorem at?_or_admin (hb : ∀ q, b.at? q ≠ some .admin) :
    (a.or b).at? place = some .admin ↔ ∃ q, place = 0 :: q ∧ a.at? q = some .admin := by
  rw [at?_or]
  constructor
  · rintro (⟨-, h⟩ | h | ⟨q, -, h⟩)
    · cases h
    · exact h
    · exact absurd h (hb q)
  · exact fun h => .inr (.inl h)

theorem at?_butNot_admin (hb : ∀ q, b.at? q ≠ some .admin) :
    (a.butNot b).at? place = some .admin ↔ ∃ q, place = 0 :: q ∧ a.at? q = some .admin := by
  rw [at?_butNot]
  constructor
  · rintro (⟨-, h⟩ | h | ⟨-, h⟩ | ⟨q, -, h⟩)
    · cases h
    · exact h
    · cases h
    · exact absurd h (hb q)
  · exact fun h => .inr (.inl h)

end Rule

/-! ## The rule of a list -/

/-- The requirement is a predicate or the permission that its text is. -/
def Requirement.Checked (d : Delimiters) : Requirement → Prop
  | .permission p => d.permission? p.text = .ok p
  | .predicate _ => True

namespace Delimiters

variable {d : Delimiters}

theorem isRequested_of_ok {s : String} {p : Permission} (h : d.permission? s = .ok p) : d.isRequested s = true := by
  unfold permission? at h
  split at h
  · assumption
  · cases h

theorem hasWildcard_requested {s : String} {p : Permission} (h : d.permission? s = .ok p) : p.hasWildcard = false := by
  have hwords := (isRequested_iff_pieces.mp (isRequested_of_ok h)).2
  obtain rfl := permission?_ok h
  rw [Permission.hasWildcard, List.contains_eq_mem, decide_eq_false_iff_not]
  intro hmem
  have hword := hwords wildcard (List.mem_cons_of_mem _ hmem)
  exact star_not_word hword (List.mem_singleton.mpr rfl)

theorem requirementsFrom_checked (args : List Argument) {index : Nat} {seen : List String} {rs : List Requirement}
    (h : d.requirementsFrom index seen args = .ok rs) : ∀ r ∈ rs, r.Checked d := by
  induction args generalizing index seen rs with
  | nil => cases h; exact fun r hr => absurd hr List.not_mem_nil
  | cons arg args ih =>
    cases arg with
    | permission s =>
      rw [requirementsFrom] at h
      split at h
      · cases h
      rename_i p hp
      split at h
      · exact ih h
      · obtain ⟨rest, hrest, rfl⟩ := map_ok h
        obtain rfl := permission?_ok hp
        exact List.forall_mem_cons.mpr ⟨hp, ih hrest⟩
    | predicate p =>
      rw [requirementsFrom] at h
      obtain ⟨rest, hrest, rfl⟩ := map_ok h
      exact List.forall_mem_cons.mpr ⟨trivial, ih hrest⟩

/-- The first argument is not left out. -/
theorem requirements?_ne_nil {args : List Argument} {rs : List Requirement} (h : d.requirements? args = .ok rs) :
    rs ≠ [] := by
  cases args with
  | nil => cases h
  | cons arg args =>
    replace h : d.requirementsFrom 0 [] (arg :: args) = .ok rs := h
    cases arg with
    | permission s =>
      rw [requirementsFrom] at h
      split at h
      · cases h
      · rw [if_neg List.not_mem_nil] at h
        obtain ⟨rest, -, rfl⟩ := map_ok h
        exact List.cons_ne_nil _ _
    | predicate p =>
      rw [requirementsFrom] at h
      obtain ⟨rest, -, rfl⟩ := map_ok h
      exact List.cons_ne_nil _ _

theorem requirements?_checked {args : List Argument} {rs : List Requirement} (h : d.requirements? args = .ok rs) :
    ∀ r ∈ rs, r.Checked d := by
  unfold requirements? at h
  split at h
  · cases h
  · exact requirementsFrom_checked args h

end Delimiters

namespace Rule

variable {d : Delimiters} {node : Rule} {place : Place}

theorem at?_ofRequirement {r : Requirement} (h : (ofRequirement r).at? place = some node) : node = ofRequirement r := by
  cases place with
  | nil => exact (Option.some.inj h).symm
  | cons i q => cases r <;> cases h

theorem at?_ofRequirements {rs : List Requirement} (h : (ofRequirements rs).at? place = some node) :
    node = ofRequirements rs ∨ ∃ r ∈ rs, node = ofRequirement r := by
  match rs, place with
  | [r], place => exact .inr ⟨r, List.mem_singleton.mpr rfl, at?_ofRequirement h⟩
  | [], [] => exact .inl (Option.some.inj h).symm
  | _ :: _ :: _, [] => exact .inl (Option.some.inj h).symm
  | [], i :: q => cases h
  | r :: s :: rs, i :: q =>
    replace h : (((r :: s :: rs).map ofRequirement)[i]? >>= at? q) = some node := h
    obtain ⟨child, hchild, hnode⟩ := Option.bind_eq_some_iff.mp h
    obtain ⟨r', hr', rfl⟩ := List.mem_map.mp (List.mem_of_getElem? hchild)
    exact .inr ⟨r', hr', at?_ofRequirement hnode⟩

theorem placed_ofRequirement {r : Requirement} (h : r.Checked d) (whole : Rule) (place : Place) :
    Placed d whole place (ofRequirement r) := by
  cases r with
  | permission p => exact ⟨h, Delimiters.hasWildcard_requested h⟩
  | predicate p => trivial

theorem shaped_ofRequirements {rs : List Requirement} (hne : rs ≠ []) (h : ∀ r ∈ rs, r.Checked d) :
    Shaped d (ofRequirements rs) := by
  intro place node hnode
  rcases at?_ofRequirements hnode with rfl | ⟨r, hr, rfl⟩
  · match rs with
    | [] => exact absurd rfl hne
    | [r] => exact placed_ofRequirement (h r (List.mem_singleton.mpr rfl)) _ _
    | r :: s :: rs => exact Nat.le_add_left 2 _
  · exact placed_ofRequirement (h r hr) _ _

theorem shaped_ofArguments? {args : List Argument} {rule : Rule} (h : ofArguments? d args = .ok rule) :
    Shaped d rule := by
  obtain ⟨rs, hrs, rfl⟩ := map_ok h
  exact shaped_ofRequirements (Delimiters.requirements?_ne_nil hrs) (Delimiters.requirements?_checked hrs)

theorem admin_ofArguments? {args : List Argument} {rule : Rule} (h : ofArguments? d args = .ok rule) (place : Place) :
    rule.at? place ≠ some .admin := by
  obtain ⟨rs, -, rfl⟩ := map_ok h
  have hleaf : ∀ r, ofRequirement r ≠ .admin := by
    intro r
    cases r <;> exact nofun
  intro hadmin
  rcases at?_ofRequirements hadmin with he | ⟨r, -, he⟩
  · match rs with
    | [] => cases he
    | [r] => exact hleaf r he.symm
    | _ :: _ :: _ => cases he
  · exact hleaf r he.symm

end Rule

end Warden
