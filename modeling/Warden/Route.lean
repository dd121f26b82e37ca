/-
  Warden.Route — routes and the requests they admit.

  A route is declared with arguments, all of which a request has to pass; without arguments,
  under a policy with an admin check, it is for admins only. `or?` adds an alternative to
  its rule and `butNot?` an exclusion.

  `judge` is the decision on a request: find the token, read its claim, check for an
  admin, evaluate the rule. An admin skips the rule except on an admin-only route, where the
  admin check is part of it. `examine` attaches the capability of a granted request.
-/

import Warden.Claim
import Warden.Request

namespace Warden

structure Route where
  policy : Policy
  rule : Rule
  adminOnly : Bool

/-- A decision in favour of a request. -/
inductive Outcome where
  | granted (c : Capability)
  /-- There is no token and none is required; nothing was evaluated. -/
  | skipped

namespace Route

/-! ## Declaring routes -/

def declare? (policy : Policy) (args : List Argument) : Except AccessError Route :=
  if args.isEmpty && policy.admin.isSome then .ok ⟨policy, .admin, true⟩
  else (Rule.ofArguments? policy.delimiters args).map (⟨policy, ·, false⟩)

def or? (r : Route) (args : List Argument) : Except AccessError Route :=
  (Rule.ofArguments? r.policy.delimiters args).map fun alternative => { r with rule := r.rule.or alternative }

def butNot? (r : Route) (args : List Argument) : Except AccessError Route :=
  (Rule.ofArguments? r.policy.delimiters args).map fun exclusion => { r with rule := r.rule.butNot exclusion }

/-- A way to extend a route. -/
inductive Extension where
  | or (args : List Argument)
  | butNot (args : List Argument)

def extend? (r : Route) : Extension → Except AccessError Route
  | .or args => r.or? args
  | .butNot args => r.butNot? args

/-- A route declared with arguments and extended step by step. -/
def build? (policy : Policy) (args : List Argument) (extensions : List Extension) : Except AccessError Route := do
  extensions.foldlM extend? (← declare? policy args)

/-! ## Judging requests -/

def denied (d : Denial) : AccessError := .forbidden (.denied d.reason)

/-- Whether the request is an admin's. -/
def checkAdmin (policy : Policy) (ctx : Context) : Audited (Except AccessError Bool) :=
  match policy.admin with
  | none => .of (.ok false)
  | some (.path p) => .of (.ok (p.find? ctx.view.token == some (.bool true)))
  | some (.predicate p) => (p.call ctx.grants ctx.view).map (·.mapError denied)

/-- Whether the rule lets the request pass. -/
def passes (r : Route) (ctx : Context) : Audited (Except AccessError Bool) :=
  if ctx.view.isAdmin && !r.adminOnly then .of (.ok true)
  else if r.policy.scopeRequired && !ctx.view.isAdmin && ctx.grants.isEmpty then
    .of (.error (.forbidden .nothingGranted))
  else (r.rule.eval ctx).map (·.mapError denied)

/-- The decision on a request whose token was found. -/
def judgeToken (r : Route) (summary token : Json) : Audited (Except AccessError Outcome) :=
  let claim := (r.policy.scopeKey.find? token).getD .null
  match r.policy.delimiters.grants? claim with
  | .error fault => .of (.error (.dataIntegrity fault))
  | .ok grants =>
    (checkAdmin r.policy ⟨grants, ⟨token, claim, summary, false⟩⟩).andThen fun isAdmin =>
      let ctx : Context := ⟨grants, ⟨token, claim, summary, isAdmin⟩⟩
      (r.passes ctx).andThen fun
        | true => .of (.ok (.granted ⟨ctx, r.policy⟩))
        | false => .of (.error (.forbidden .ruleFailed))

def judge (r : Route) (q : Request) : Audited (Except AccessError Outcome) :=
  match q.document >>= r.policy.tokenKey.find? with
  | some token => r.judgeToken q.summary token
  | none =>
    if r.policy.credentialsRequired then .of (.error (.unauthorized .noToken)) else .of (.ok .skipped)

/-- The request after a decision. -/
def attachTo (r : Route) (q : Request) : Except AccessError Outcome → Request
  | .ok (.granted c) =>
    match r.policy.requestProperty with
    | some property => q.attach property c
    | none => q
  | _ => q

/-- Decides a request, and attaches its capability if it is granted. -/
def examine (r : Route) (q : Request) : Audited (Except AccessError Outcome) × Request :=
  let decision := r.judge q
  (decision, r.attachTo q decision.result)

end Route

end Warden
