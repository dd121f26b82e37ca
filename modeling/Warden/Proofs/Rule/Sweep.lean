/-
  Warden.Proofs.Rule.Sweep — `all` and `any` as one sweep over their children.

  Both nodes take their children from left to right and go on as long as a child comes out
  one way: an `all` after a pass, an `any` after a failure. `group go` is the node that goes
  on after `go`, and `sweep` evaluates its children, so that a fact about both nodes is
  proved once (`groupInduction`). A sweep ends with the first child that does not come out as
  `go`, be it a denial, and with what that child came to; otherwise with `go`
  (`sweep_cons_go`, `sweep_cons_end`, `sweep_nil`).
-/

import Warden.Proofs.Audited
import Warden.Rule

namespace Warden.Rule

/-- The node that goes on to its next child after one that comes out as `go`. -/
def group : Bool → List Rule → Rule
  | true, children => .all children
  | false, children => .any children

/-- The evaluation of the children of a `group`. -/
def sweep (ctx : Context) : Bool → List Rule → Audited Verdict
  | true, children => evalAll ctx children
  | false, children => evalAny ctx children

theorem groupInduction {motive : Rule → Prop} (permission : ∀ p, motive (.permission p))
    (predicate : ∀ p, motive (.predicate p))
    (group : ∀ go children, (∀ child ∈ children, motive child) → motive (group go children))
    (not : ∀ child, motive child → motive (.not child)) (admin : motive .admin) (r : Rule) : motive r :=
  match r with
  | .permission p => permission p
  | .predicate p => predicate p
  | .all children => group true children fun child _ => groupInduction permission predicate group not admin child
  | .any children => group false children fun child _ => groupInduction permission predicate group not admin child
  | .not child => not child (groupInduction permission predicate group not admin child)
  | .admin => admin
termination_by r

variable {ctx : Context}

/-! ## One node -/

@[simp] theorem eval_permission (p : Permission) : eval ctx (.permission p) = .of (.ok (ctx.grants.contains p)) := by
  rw [eval]

@[simp] theorem eval_predicate (p : Predicate) : eval ctx (.predicate p) = p.call ctx.grants ctx.view := by rw [eval]

@[simp] theorem eval_group (go : Bool) (children : List Rule) :
    eval ctx (group go children) = sweep ctx go children := by
  cases go <;> rw [group, eval, sweep]

@[simp] theorem eval_not (child : Rule) : eval ctx (.not child) = (eval ctx child).negated := by
  rw [eval, Audited.negated]

@[simp] theorem eval_admin : eval ctx .admin = .of (.ok ctx.view.isAdmin) := by rw [eval]

/-! ## The children -/

@[simp] theorem sweep_nil (go : Bool) : sweep ctx go [] = .of (.ok go) := by
  cases go
  · rw [sweep, evalAny]
  · rw [sweep, evalAll]

theorem sweep_all_cons (child : Rule) (children : List Rule) :
    sweep ctx true (child :: children) = (eval ctx child).both (sweep ctx true children) := by
  rw [sweep, evalAll, Audited.both]; rfl

theorem sweep_any_cons (child : Rule) (children : List Rule) :
    sweep ctx false (child :: children) = (eval ctx child).either (sweep ctx false children) := by
  rw [sweep, evalAny, Audited.either]; rfl

theorem sweep_cons (go : Bool) (child : Rule) (children : List Rule) :
    sweep ctx go (child :: children) =
      (eval ctx child).andThen fun b => if b = go then sweep ctx go children else .of (.ok b) := by
  cases go
  · rw [sweep_any_cons, Audited.either]
    congr 1
    funext b
    cases b <;> rfl
  · rw [sweep_all_cons, Audited.both]
    congr 1
    funext b
    cases b <;> rfl

variable {go : Bool} {child : Rule}

theorem sweep_cons_go (h : (eval ctx child).result = .ok go) (children : List Rule) :
    sweep ctx go (child :: children) =
      ⟨(eval ctx child).calls ++ (sweep ctx go children).calls, (sweep ctx go children).result⟩ := by
  rw [sweep_cons, Audited.andThen_ok h, if_pos rfl]

/-- A child that comes out another way, or denies, speaks for the node. -/
theorem sweep_cons_end (h : (eval ctx child).result ≠ .ok go) (children : List Rule) :
    sweep ctx go (child :: children) = eval ctx child := by
  rw [sweep_cons]
  cases hr : (eval ctx child).result with
  | error d => rw [Audited.andThen_error hr, ← hr]
  | ok b =>
    have hb : b ≠ go := fun e => h (by rw [hr, e])
    rw [Audited.andThen_of_ok hr (if_neg hb), ← hr]

/-! ## Extended rules -/

theorem eval_or (rule alternative : Rule) :
    eval ctx (rule.or alternative) = (eval ctx rule).either (eval ctx alternative) := by
  have h : rule.or alternative = group false [rule, alternative] := rfl
  rw [h, eval_group, sweep_any_cons, sweep_any_cons, sweep_nil, Audited.either_fail]

theorem eval_butNot (rule exclusion : Rule) :
    eval ctx (rule.butNot exclusion) = (eval ctx rule).both (eval ctx exclusion).negated := by
  have h : rule.butNot exclusion = group true [rule, .not exclusion] := rfl
  rw [h, eval_group, sweep_all_cons, sweep_all_cons, sweep_nil, Audited.both_pass, eval_not]

end Warden.Rule
