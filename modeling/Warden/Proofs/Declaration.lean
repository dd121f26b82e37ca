/-
  Warden.Proofs.Declaration — what a route was declared to ask for.

  A declaration is a list of arguments and the extensions after it, in the order of the
  calls. `asked` reads it as it is written: the arguments first (the admin flag, if there
  are none), then each extension on top of what was asked for before it. The rule of a route
  is a tree, which grows by a node around it at each extension and holds no repeated
  permissions.

  - `built_as`: a route that builds is as it was declared (`As`): it has its policy, it is
    admin-only if it was declared without arguments, and its rule gives what the declaration
    asks for, with the same calls. One step is `declared_as` and `extended_as`.
-/

import Warden.Proofs.Arguments
import Warden.Route

namespace Warden.Route

/-- What an extension is made with. -/
def Extension.args : Extension → List Argument
  | .or args | .butNot args => args

/-- What a route asks for before it is extended. -/
def declared (policy : Policy) (args : List Argument) (ctx : Context) : Audited Verdict :=
  if args = [] then .of (.ok ctx.view.isAdmin) else answers policy.delimiters ctx args

/-- What is asked for after an extension of what was asked for before. -/
def extended (d : Delimiters) (ctx : Context) (before : Audited Verdict) : Extension → Audited Verdict
  | .or args => before.either (answers d ctx args)
  | .butNot args => before.both (answers d ctx args).negated

def asked (policy : Policy) (args : List Argument) (extensions : List Extension) (ctx : Context) : Audited Verdict :=
  extensions.foldl (extended policy.delimiters ctx) (declared policy args ctx)

/-- The route is as it was declared. -/
structure As (policy : Policy) (args : List Argument) (extensions : List Extension) (r : Route) : Prop where
  policy_eq : r.policy = policy
  adminOnly_iff : r.adminOnly = true ↔ args = []
  eval_rule : ∀ ctx, r.rule.eval ctx = asked policy args extensions ctx

variable {policy : Policy} {args : List Argument} {extensions : List Extension} {r r' : Route}

theorem declared_as (h : declare? policy args = .ok r) : As policy args [] r := by
  unfold declare? at h
  split at h
  · rename_i hc
    have hargs : args = [] := List.isEmpty_iff.mp (Bool.and_eq_true_iff.mp hc).1
    cases h
    refine ⟨rfl, by simp [hargs], fun ctx => ?_⟩
    rw [asked, List.foldl_nil, declared, if_pos hargs, Rule.eval_admin]
  · obtain ⟨rule, hrule, rfl⟩ := map_ok h
    have hargs := Rule.ofArguments?_ne_nil hrule
    refine ⟨rfl, by simp [hargs], fun ctx => ?_⟩
    rw [asked, List.foldl_nil, declared, if_neg hargs]
    exact Rule.eval_ofArguments? hrule

theorem extended_as (hr : As policy args extensions r) {e : Extension} (h : r.extend? e = .ok r') :
    As policy args (extensions ++ [e]) r' := by
  cases e with
  | or alternatives =>
    obtain ⟨rule, hrule, rfl⟩ := map_ok h
    rw [hr.policy_eq] at hrule
    refine ⟨hr.policy_eq, hr.adminOnly_iff, fun ctx => ?_⟩
    rw [Rule.eval_or, hr.eval_rule, Rule.eval_ofArguments? hrule, asked, asked, List.foldl_append]
    rfl
  | butNot exclusions =>
    obtain ⟨rule, hrule, rfl⟩ := map_ok h
    rw [hr.policy_eq] at hrule
    refine ⟨hr.policy_eq, hr.adminOnly_iff, fun ctx => ?_⟩
    rw [Rule.eval_butNot, hr.eval_rule, Rule.eval_ofArguments? hrule, asked, asked, List.foldl_append]
    rfl

theorem extendedAll_as (more : List Extension) (hr : As policy args extensions r)
    (h : more.foldlM extend? r = .ok r') : As policy args (extensions ++ more) r' := by
  induction more generalizing extensions r with
  | nil => cases h; simpa using hr
  | cons e more ih =>
    rw [List.foldlM_cons] at h
    obtain ⟨s, hs, h⟩ := bind_ok h
    have := ih (extended_as hr hs) h
    rwa [List.append_assoc] at this

theorem built_as (h : build? policy args extensions = .ok r) : As policy args extensions r := by
  obtain ⟨s, hs, h⟩ := bind_ok h
  exact extendedAll_as extensions (declared_as hs) h

end Warden.Route
