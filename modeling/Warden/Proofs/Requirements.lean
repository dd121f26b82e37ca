/-
  Warden.Proofs.Requirements — what is made of a list of arguments.

  A list is read from left to right with the texts that were given so far. Said of the list as a
  whole, the first text that is no permission is the fault, at its place among all arguments
  (`FirstInvalid`); without one, every argument is kept but the texts that stand in the list
  before (`kept`). What is left out does not show in the rule that is made of the rest.

  - `requirementsFrom_invalid`, `requirementsFrom_valid`: the two ways a reading ends, and
    `firstInvalid_or_valid` that there is no third.
  - `eval_all_arguments`: all arguments as they are written, repeated ones included, as one rule.
  - `requirements_of_arguments`: every list, and the rules made of it.
-/

import Warden.Predicate.Stock
import Warden.Proofs.Arguments
import Warden.Proofs.Grammar

namespace Warden

namespace Argument

/-- Whether the argument is this text. -/
def isText (text : String) : Argument → Bool
  | .permission s => s == text
  | .predicate _ => false

/-- Whether the argument is a predicate, or a text that is not among those before it. -/
def isNew (before : List Argument) : Argument → Bool
  | .permission text => !before.any (·.isText text)
  | .predicate _ => true

/-- The arguments without the texts that stand in the list before. -/
def kept (args : List Argument) : List Argument :=
  (args.zipIdx.filter fun (arg, i) => arg.isNew (args.take i)).map (·.1)

/-- The same of the arguments that follow others in a list. -/
def keptAfter (before args : List Argument) : List Argument :=
  ((args.zipIdx before.length).filter fun (arg, i) => arg.isNew ((before ++ args).take i)).map (·.1)

/-- What an argument requires, its text being a permission. -/
def requirement (d : Delimiters) : Argument → Requirement
  | .permission text => .permission (.ofText d.scope text)
  | .predicate p => .predicate p

theorem any_isText {args : List Argument} {text : String} :
    args.any (·.isText text) = true ↔ .permission text ∈ args := by
  rw [List.any_eq_true]
  constructor
  · rintro ⟨arg, hmem, h⟩
    cases arg with
    | permission s => rwa [eq_of_beq h] at hmem
    | predicate p => cases h
  · exact fun h => ⟨_, h, beq_self_eq_true text⟩

theorem isNew_permission {before : List Argument} {text : String} :
    (Argument.permission text).isNew before = true ↔ .permission text ∉ before := by
  rw [isNew, Bool.not_eq_true', ← Bool.not_eq_true, any_isText]

theorem keptAfter_cons (before : List Argument) (arg : Argument) (args : List Argument) :
    keptAfter before (arg :: args) =
      if arg.isNew before then arg :: keptAfter (before ++ [arg]) args else keptAfter (before ++ [arg]) args := by
  have happend : before ++ [arg] ++ args = before ++ arg :: args := List.append_assoc _ _ _
  have hlength : (before ++ [arg]).length = before.length + 1 := List.length_append
  have hfront : (before ++ arg :: args).take before.length = before := List.take_left
  unfold keptAfter
  rw [List.zipIdx_cons, happend, hlength]
  cases h : arg.isNew before <;> simp [hfront, h]

end Argument

/-- The place and the text of the first argument that is no permission and no predicate. -/
inductive FirstInvalid (d : Delimiters) : List Argument → Nat → String → Prop
  | after (before rest : List Argument) {s : String} :
      (∀ t, .permission t ∈ before → d.isRequested t = true) → d.isRequested s = false →
      FirstInvalid d (before ++ .permission s :: rest) before.length s

namespace Delimiters

variable {d : Delimiters} {args : List Argument}

/-- Every text is a permission that can be requested. -/
def Valid (d : Delimiters) (args : List Argument) : Prop := ∀ t, .permission t ∈ args → d.isRequested t = true

/-! ## Faults -/

theorem valid_cons {arg : Argument} : d.Valid (arg :: args) ↔ d.Valid [arg] ∧ d.Valid args := by
  simp [Valid, or_imp, forall_and]

theorem permission?_invalid {s : String} (h : d.isRequested s = false) :
    d.permission? s = .error (d.requestFault s) := by
  simp [permission?, h]

theorem firstInvalid_cons {arg : Argument} {i : Nat} {s : String} (harg : d.Valid [arg]) (h : FirstInvalid d args i s) :
    FirstInvalid d (arg :: args) (i + 1) s := by
  cases h with
  | after before rest hbefore hs => exact .after (arg :: before) rest (valid_cons.mpr ⟨harg, hbefore⟩) hs

theorem firstInvalid_or_valid (d : Delimiters) (args : List Argument) :
    (∃ i s, FirstInvalid d args i s) ∨ d.Valid args := by
  induction args with
  | nil => exact .inr fun t ht => absurd ht List.not_mem_nil
  | cons arg args ih =>
    have hstep (harg : d.Valid [arg]) : (∃ i s, FirstInvalid d (arg :: args) i s) ∨ d.Valid (arg :: args) :=
      ih.imp (fun ⟨i, s, h⟩ => ⟨i + 1, s, firstInvalid_cons harg h⟩) fun h => valid_cons.mpr ⟨harg, h⟩
    cases arg with
    | permission s =>
      cases hs : d.isRequested s with
      | true => exact hstep (by simp [Valid, hs])
      | false => exact .inl ⟨0, s, .after [] args (fun t ht => absurd ht List.not_mem_nil) hs⟩
    | predicate p => exact hstep (by simp [Valid])

theorem requirementsFrom_invalid {i : Nat} {s : String} (h : FirstInvalid d args i s) (index : Nat) (seen : List String) :
    d.requirementsFrom index seen args = .error (.invalidArgument (index + i) s (d.requestFault s)) := by
  cases h with
  | after before rest hbefore hs =>
    induction before generalizing index seen with
    | nil =>
      rw [List.nil_append, requirementsFrom, permission?_invalid hs]
      rfl
    | cons arg before ih =>
      obtain ⟨harg, hbefore⟩ := valid_cons.mp hbefore
      have hrest (seen : List String) := ih (index + 1) seen hbefore
      rw [List.length_cons, ← Nat.add_assoc, Nat.add_right_comm]
      cases arg with
      | permission t =>
        rw [List.cons_append, requirementsFrom, permission?_requested (harg t List.mem_cons_self)]
        dsimp only
        split
        · exact hrest seen
        · rw [hrest]
          rfl
      | predicate p =>
        rw [List.cons_append, requirementsFrom, hrest]
        rfl

/-! ## Repeated texts -/

theorem requirementsFrom_valid (h : d.Valid args) (before : List Argument) {seen : List String} (index : Nat)
    (hseen : ∀ s, s ∈ seen ↔ .permission s ∈ before) :
    d.requirementsFrom index seen args = .ok ((Argument.keptAfter before args).map (·.requirement d)) := by
  -- along the list, `seen` goes on holding the texts of what was read
  induction args generalizing before seen index with
  | nil => rfl
  | cons arg args ih =>
    obtain ⟨harg, hargs⟩ := valid_cons.mp h
    rw [Argument.keptAfter_cons]
    cases arg with
    | permission s =>
      rw [requirementsFrom, permission?_requested (harg s List.mem_cons_self)]
      dsimp only
      by_cases hs : s ∈ seen
      · have hold : ¬(Argument.permission s).isNew before = true :=
          fun hnew => Argument.isNew_permission.mp hnew ((hseen s).mp hs)
        rw [if_pos hs, if_neg hold]
        refine ih hargs _ (index + 1) fun t => ?_
        rw [hseen, List.mem_append, List.mem_singleton, Argument.permission.injEq]
        exact ⟨.inl, fun ht => ht.elim id fun e => e ▸ (hseen s).mp hs⟩
      · have hnew : (Argument.permission s).isNew before = true := Argument.isNew_permission.mpr (mt (hseen s).mpr hs)
        have hseen' (t : String) : t ∈ s :: seen ↔ .permission t ∈ before ++ [.permission s] := by
          rw [List.mem_cons, hseen, List.mem_append, List.mem_singleton, Argument.permission.injEq, or_comm]
        rw [if_neg hs, if_pos hnew, ih hargs _ (index + 1) hseen']
        rfl
    | predicate p =>
      have hseen' (t : String) : t ∈ seen ↔ .permission t ∈ before ++ [.predicate p] := by simp [hseen]
      rw [requirementsFrom, Argument.isNew, if_pos rfl, ih hargs _ (index + 1) hseen']
      rfl

end Delimiters

/-! ## All arguments as one rule -/

theorem eval_all_arguments (d : Delimiters) (ctx : Context) (args : List Argument) :
    Rule.eval ctx (.all (args.map fun arg => .ofRequirement (arg.requirement d))) = answers d ctx args := by
  rw [← Rule.group, Rule.eval_group]
  induction args with
  | nil => exact Rule.sweep_nil true
  | cons arg args ih =>
    rw [List.map_cons, Rule.sweep_all_cons, ih, answers]
    cases arg <;> simp [Argument.requirement, Rule.ofRequirement, Argument.answer]

/-! ## Every list -/

namespace Delimiters

variable {d : Delimiters} {args : List Argument}

theorem requirements?_of_ne_nil (h : args ≠ []) : d.requirements? args = d.requirementsFrom 0 [] args := by
  cases args with
  | nil => exact absurd rfl h
  | cons arg args => rfl

theorem requirements?_invalid {i : Nat} {s : String} (h : FirstInvalid d args i s) :
    d.requirements? args = .error (.invalidArgument i s (d.requestFault s)) := by
  have hne : args ≠ [] := by
    cases h
    simp
  rw [requirements?_of_ne_nil hne, requirementsFrom_invalid h, Nat.zero_add]

theorem requirements?_valid (hne : args ≠ []) (h : d.Valid args) :
    d.requirements? args = .ok ((Argument.kept args).map (·.requirement d)) := by
  rw [requirements?_of_ne_nil hne]
  exact requirementsFrom_valid h [] 0 (by simp)

theorem requirements?_cases (hne : args ≠ []) :
    (∃ i s, FirstInvalid d args i s ∧ d.requirements? args = .error (.invalidArgument i s (d.requestFault s))) ∨
      d.Valid args ∧ d.requirements? args = .ok ((Argument.kept args).map (·.requirement d)) :=
  (firstInvalid_or_valid d args).imp (fun ⟨i, s, h⟩ => ⟨i, s, h, requirements?_invalid h⟩)
    fun h => ⟨h, requirements?_valid hne h⟩

theorem requirements?_empty_iff : d.requirements? args = .error .emptyArgument ↔ args = [] := by
  constructor
  · intro h
    cases args with
    | nil => rfl
    | cons arg args =>
      rcases requirements?_cases (List.cons_ne_nil arg args) with ⟨i, s, -, he⟩ | ⟨-, hok⟩
      · rw [he] at h
        cases h
      · rw [hok] at h
        cases h
  · rintro rfl
    rfl

theorem requirements?_error_iff (hne : args ≠ []) {e : AccessError} :
    d.requirements? args = .error e ↔
      ∃ i s, FirstInvalid d args i s ∧ e = .invalidArgument i s (d.requestFault s) := by
  constructor
  · intro h
    rcases requirements?_cases hne with ⟨i, s, hinvalid, he⟩ | ⟨-, hok⟩
    · rw [he] at h
      cases h
      exact ⟨i, s, hinvalid, rfl⟩
    · rw [hok] at h
      cases h
  · rintro ⟨i, s, hinvalid, rfl⟩
    exact requirements?_invalid hinvalid

theorem requirements?_eq_ok_iff {rs : List Requirement} :
    d.requirements? args = .ok rs ↔
      args ≠ [] ∧ d.Valid args ∧ rs = (Argument.kept args).map (·.requirement d) := by
  constructor
  · intro h
    have hne : args ≠ [] := by
      rintro rfl
      cases h
    rcases requirements?_cases hne with ⟨i, s, -, he⟩ | ⟨hvalid, hok⟩
    · rw [he] at h
      cases h
    · rw [hok] at h
      cases h
      exact ⟨hne, hvalid, rfl⟩
  · rintro ⟨hne, hvalid, rfl⟩
    exact requirements?_valid hne hvalid

/-- The empty list makes no requirements. Of any other list that makes none, the fault is the first
    text that is no permission, at its place in the list as it is given. The requirements of a list
    are its arguments in their order, without the texts that were given before. The rule made of
    them comes to what all arguments of the list come to one after the other, with the same calls. -/
theorem requirements_of_arguments (d : Delimiters) (args : List Argument) :
    (d.requirements? args = .error .emptyArgument ↔ args = []) ∧
    (args ≠ [] → ∀ e, d.requirements? args = .error e ↔
      ∃ i s, FirstInvalid d args i s ∧ e = .invalidArgument i s (d.requestFault s)) ∧
    (∀ rs, d.requirements? args = .ok rs ↔
      args ≠ [] ∧ d.Valid args ∧ rs = (Argument.kept args).map (·.requirement d)) ∧
    ∀ rs, d.requirements? args = .ok rs → ∀ ctx,
      Rule.eval ctx (.ofRequirements rs) =
        Rule.eval ctx (.all (args.map fun arg => .ofRequirement (arg.requirement d))) := by
  refine ⟨requirements?_empty_iff, fun hne e => requirements?_error_iff hne, fun rs => requirements?_eq_ok_iff,
    fun rs hrs ctx => ?_⟩
  have hrule : Rule.ofArguments? d args = .ok (.ofRequirements rs) := by
    rw [Rule.ofArguments?, hrs]
    rfl
  rw [Rule.eval_ofArguments? hrule, eval_all_arguments]

/-- A text that is given twice is kept once and a predicate twice, and the rule denies after both of its calls.
    The place of a fault counts the text that would have been left out. -/
theorem requirements_of_repeated :
    let d := Delimiters.default
    let pass := Predicate.ofStock "pass" false (.constant true)
    let deny := Predicate.ofStock "deny" false (.deny "not now")
    let args : List Argument :=
      [.permission "read", .predicate pass, .permission "read", .predicate pass, .predicate deny, .permission "write"]
    let all := Rule.all (args.map fun arg => .ofRequirement (arg.requirement d))
    let ctx : Context := ⟨⟨[.ofText ':' "read"]⟩, ⟨.null, .null, .null, false⟩⟩
    ∃ rs, d.requirements? args = .ok rs ∧
      rs = [.permission (.ofText ':' "read"), .predicate pass, .predicate pass, .predicate deny,
        .permission (.ofText ':' "write")] ∧
      Rule.eval ctx (.ofRequirements rs) = Rule.eval ctx all ∧
      (Rule.eval ctx all).calls.map (·.predicate.name) = ["pass", "pass", "deny"] ∧
      d.requirements? [.permission "read", .permission "read", .permission "a*", .permission ""] =
        .error (.invalidArgument 2 "a*" .wildcard) := by
  intro d pass deny args all ctx
  have hvalid : d.Valid args := by
    intro t ht
    have hwords : t = "read" ∨ t = "write" := by simpa [args] using ht
    rcases hwords with rfl | rfl <;> rfl
  have hfault : FirstInvalid d [.permission "read", .permission "read", .permission "a*", .permission ""] 2 "a*" := by
    refine .after [.permission "read", .permission "read"] [.permission ""] (fun t ht => ?_) rfl
    obtain rfl : t = "read" := by simpa using ht
    rfl
  obtain ⟨-, -, hok, heval⟩ := requirements_of_arguments d args
  have hrs := (hok _).mpr ⟨List.cons_ne_nil _ _, hvalid, rfl⟩
  refine ⟨_, hrs, rfl, heval _ hrs ctx, rfl, ?_⟩
  exact ((requirements_of_arguments d _).2.1 (List.cons_ne_nil _ _) _).mpr ⟨_, _, hfault, rfl⟩

end Delimiters

end Warden
