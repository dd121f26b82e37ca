/-
  Warden.Proofs.Arguments — what a list of arguments asks for, and the rule made of it.

  `answers` reads the arguments as they are written: each in turn, repeated ones included,
  until one fails or denies. The rule of a list leaves repeated permissions out and has no
  node around a single requirement; neither shows in its evaluation.

  - `eval_ofArguments?`: the rule of a list gives what the list asks for, with the same calls.
  - `ofArguments?_error`: a list that makes no rule is reported with an error of its own kind.
-/

import Warden.Proofs.Rule.Sweep

namespace Warden

/-- What an argument comes to by itself. -/
def Argument.answer (d : Delimiters) (ctx : Context) : Argument → Audited Verdict
  | .permission text => .of (.ok (ctx.grants.contains (.ofText d.scope text)))
  | .predicate p => p.call ctx.grants ctx.view

/-- What the arguments come to together, as they are written. -/
def answers (d : Delimiters) (ctx : Context) : List Argument → Audited Verdict
  | [] => .of (.ok true)
  | arg :: args => (arg.answer d ctx).both (answers d ctx args)

variable {d : Delimiters} {ctx : Context}

theorem Delimiters.permission?_ok {s : String} {p : Permission} (h : d.permission? s = .ok p) :
    p = .ofText d.scope s := by
  unfold Delimiters.permission? at h
  split at h
  · cases h; rfl
  · cases h

/-! ## Repeated permissions -/

/-- A permission that was given before has passed by the time its repetition would be asked for. -/
theorem sweep_requirementsFrom (args : List Argument) {index : Nat} {seen : List String} {rs : List Requirement}
    (h : d.requirementsFrom index seen args = .ok rs)
    (hs : ∀ s ∈ seen, ctx.grants.contains (.ofText d.scope s) = true) :
    Rule.sweep ctx true (rs.map Rule.ofRequirement) = answers d ctx args := by
  induction args generalizing index seen rs with
  | nil => cases h; exact Rule.sweep_nil true
  | cons arg args ih =>
    cases arg with
    | permission s =>
      rw [Delimiters.requirementsFrom] at h
      rw [answers, Argument.answer]
      split at h
      · cases h
      rename_i p hp
      split at h
      · rename_i hmem
        rw [hs s hmem, Audited.pass_both]
        exact ih h hs
      · obtain ⟨rest, hrest, rfl⟩ := map_ok h
        rw [List.map_cons, Rule.sweep_all_cons, Rule.ofRequirement, Rule.eval_permission, Delimiters.permission?_ok hp]
        cases hc : ctx.grants.contains (.ofText d.scope s) with
        | false => rw [Audited.fail_both, Audited.fail_both]
        | true =>
          -- from here on `s` has been asked for and has passed
          rw [Audited.pass_both, Audited.pass_both]
          refine ih hrest fun t ht => ?_
          rcases List.mem_cons.mp ht with rfl | ht
          · exact hc
          · exact hs t ht
    | predicate p =>
      rw [Delimiters.requirementsFrom] at h
      obtain ⟨rest, hrest, rfl⟩ := map_ok h
      rw [List.map_cons, Rule.sweep_all_cons, Rule.ofRequirement, Rule.eval_predicate, answers, Argument.answer,
        ih hrest hs]

/-! ## The rule of a list -/

theorem Rule.eval_ofRequirements (rs : List Requirement) :
    eval ctx (ofRequirements rs) = sweep ctx true (rs.map ofRequirement) := by
  match rs with
  | [] => exact eval_group true []
  | [r] =>
    rw [ofRequirements, List.map_cons, List.map_nil, sweep_all_cons, sweep_nil, Audited.both_pass]
  | r :: s :: rs => exact eval_group true _

theorem Rule.eval_ofArguments? {args : List Argument} {rule : Rule} (h : ofArguments? d args = .ok rule) :
    eval ctx rule = answers d ctx args := by
  obtain ⟨rs, hrs, rfl⟩ := map_ok h
  rw [eval_ofRequirements]
  unfold Delimiters.requirements? at hrs
  split at hrs
  · cases hrs
  · exact sweep_requirementsFrom args hrs (by simp)

/-! ## Errors -/

/-- An error in the arguments of a route. -/
inductive AccessError.InArguments : AccessError → Prop
  | empty : InArguments .emptyArgument
  | invalid (index : Nat) (value : String) (fault : ArgumentFault) : InArguments (.invalidArgument index value fault)

theorem requirementsFrom_error (args : List Argument) {index : Nat} {seen : List String} {e : AccessError}
    (h : d.requirementsFrom index seen args = .error e) : e.InArguments := by
  induction args generalizing index seen with
  | nil => cases h
  | cons arg args ih =>
    cases arg with
    | permission s =>
      rw [Delimiters.requirementsFrom] at h
      split at h
      · cases h; exact .invalid _ _ _
      · split at h
        · exact ih h
        · exact ih (map_error h)
    | predicate p =>
      rw [Delimiters.requirementsFrom] at h
      exact ih (map_error h)

theorem Rule.ofArguments?_error {args : List Argument} {e : AccessError} (h : ofArguments? d args = .error e) :
    e.InArguments := by
  replace h : d.requirements? args = .error e := map_error h
  unfold Delimiters.requirements? at h
  split at h
  · cases h; exact .empty
  · exact requirementsFrom_error args h

theorem Rule.ofArguments?_ne_nil {args : List Argument} {rule : Rule} (h : ofArguments? d args = .ok rule) :
    args ≠ [] := by
  rintro rfl
  cases h

end Warden
