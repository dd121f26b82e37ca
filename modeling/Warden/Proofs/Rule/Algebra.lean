/-
  Warden.Proofs.Rule.Algebra — rules that are evaluated alike.

  Two rules are alike if in every context they come to the same result and make the same
  predicate calls, in the same order. The laws of boolean algebra that keep the order of the
  operands hold in this sense, denials included: a denial ends an evaluation at the same call
  whatever stands around it, and a sweep that ends early on one side of a law ends early on the
  other.

  - `alike_flattened`: a node within a node of its own kind, at any place among the children.
  - `alike_not_group`: a negation is moved to the children, and turns the node around.
  - `evaluation_laws`: what follows for chains of alternatives and exclusions.
-/

import Warden.Proofs.Rule.Sweep

namespace Warden

namespace Audited

variable {α : Type}

theorem negated_negated (a : Audited Verdict) : a.negated.negated = a := by
  obtain ⟨calls, result⟩ := a
  cases result with
  | error d => rfl
  | ok b => cases b <;> rfl

theorem negated_andThen (a : Audited (Except Denial α)) (f : α → Audited Verdict) :
    (a.andThen f).negated = a.andThen fun x => (f x).negated := by
  cases h : a.result with
  | error d => rw [andThen_error h, andThen_error h]; rfl
  | ok x => rw [andThen_ok h, andThen_ok h]; rfl

theorem andThen_negated (a : Audited Verdict) (f : Bool → Audited (Except Denial α)) :
    a.negated.andThen f = a.andThen fun b => f !b := by
  cases h : a.result with
  | error d =>
    have hn : a.negated.result = .error d := by rw [negated, result_map, h]; rfl
    rw [andThen_error hn, andThen_error h]
    rfl
  | ok b =>
    have hn : a.negated.result = .ok !b := by rw [negated, result_map, h]; rfl
    rw [andThen_ok hn, andThen_ok h]
    rfl

end Audited

namespace Rule

/-- The rules come to the same result through the same calls, in every context. -/
def Alike (r s : Rule) : Prop := ∀ ctx, eval ctx r = eval ctx s

variable {ctx : Context} {go : Bool} {r s t : Rule}

theorem Alike.symm (h : Alike r s) : Alike s r := fun ctx => (h ctx).symm

theorem Alike.trans (h : Alike r s) (h' : Alike s t) : Alike r t := fun ctx => (h ctx).trans (h' ctx)

/-! ## Nodes within nodes -/

theorem sweep_append (first second : List Rule) :
    sweep ctx go (first ++ second) =
      (sweep ctx go first).andThen fun b => if b = go then sweep ctx go second else .of (.ok b) := by
  induction first with
  | nil => rw [List.nil_append, sweep_nil, Audited.of_ok_andThen, if_pos rfl]
  | cons child first ih =>
    rw [List.cons_append, sweep_cons, sweep_cons, Audited.andThen_assoc]
    congr 1
    funext b
    by_cases h : b = go
    · rw [if_pos h, if_pos h, ih]
    · rw [if_neg h, if_neg h, Audited.of_ok_andThen, if_neg h]

/-- A child may be replaced by one that is alike. -/
theorem Alike.within (h : Alike r s) (go : Bool) (before after : List Rule) :
    Alike (group go (before ++ r :: after)) (group go (before ++ s :: after)) := by
  intro ctx
  rw [eval_group, eval_group, sweep_append, sweep_append, sweep_cons, sweep_cons, h ctx]

theorem alike_flattened (go : Bool) (before children after : List Rule) :
    Alike (group go (before ++ group go children :: after)) (group go (before ++ (children ++ after))) := by
  intro ctx
  rw [eval_group, eval_group, sweep_append, sweep_append, sweep_cons, eval_group, sweep_append children]

/-! ## Negations -/

theorem alike_not_not (r : Rule) : Alike (.not (.not r)) r := by
  intro ctx
  rw [eval_not, eval_not, Audited.negated_negated]

theorem negated_sweep (children : List Rule) :
    (sweep ctx go children).negated = sweep ctx (!go) (children.map .not) := by
  induction children with
  | nil => rw [List.map_nil, sweep_nil, sweep_nil]; rfl
  | cons child children ih =>
    rw [List.map_cons, sweep_cons, sweep_cons, eval_not, Audited.negated_andThen, Audited.andThen_negated]
    congr 1
    funext b
    -- the node goes on after `b` exactly if the other one goes on after its opposite
    by_cases h : b = go
    · rw [if_pos h, if_pos (congrArg _ h), ih]
    · rw [if_neg h, if_neg fun hn => h (Bool.not_inj hn)]
      rfl

theorem alike_not_group (go : Bool) (children : List Rule) :
    Alike (.not (group go children)) (group (!go) (children.map .not)) := by
  intro ctx
  rw [eval_not, eval_group, eval_group, negated_sweep]

/-! ## The laws -/

theorem alike_butNot_butNot (rule a b : Rule) : Alike ((rule.butNot a).butNot b) (rule.butNot (a.or b)) := by
  have hflat : Alike ((rule.butNot a).butNot b) (.all [rule, .not a, .not b]) :=
    alike_flattened true [] [rule, .not a] [.not b]
  have hnested : Alike (.all [rule, .all [.not a, .not b]]) (.all [rule, .not a, .not b]) :=
    alike_flattened true [rule] [.not a, .not b] []
  have hnot : Alike (.not (a.or b)) (.all [.not a, .not b]) := alike_not_group false [a, b]
  exact hflat.trans (hnested.symm.trans (hnot.within true [rule] []).symm)

/-- Alternatives may be nested to the left, to the right or not at all, and so may conjunctions; two
    negations are none; a negation of a node is the other node of the negations, for children of
    any number; and one exclusion after another is the exclusion of both. -/
theorem evaluation_laws :
    (∀ a b x : Rule, Alike ((a.or b).or x) (.any [a, b, x]) ∧ Alike (.any [a, b, x]) (a.or (b.or x))) ∧
    (∀ a b x, Alike (.all [.all [a, b], x]) (.all [a, b, x]) ∧ Alike (.all [a, b, x]) (.all [a, .all [b, x]])) ∧
    (∀ a, Alike (.not (.not a)) a) ∧
    (∀ children : List Rule, Alike (.not (.all children)) (.any (children.map .not))) ∧
    (∀ children : List Rule, Alike (.not (.any children)) (.all (children.map .not))) ∧
    ∀ a b x : Rule, Alike ((x.butNot a).butNot b) (x.butNot (a.or b)) := by
  refine ⟨fun a b x => ⟨?_, ?_⟩, fun a b x => ⟨?_, ?_⟩, alike_not_not, alike_not_group true, alike_not_group false,
    fun a b x => alike_butNot_butNot x a b⟩
  · exact alike_flattened false [] [a, b] [x]
  · exact (alike_flattened false [a] [b, x] []).symm
  · exact alike_flattened true [] [a, b] [x]
  · exact (alike_flattened true [a] [b, x] []).symm

end Rule

end Warden
