/-
  Warden.Proofs.Capability — what a capability answers, beside a route that asks for the same.

  A handler asks the capability of its request for arguments that it learns of late. The
  answer leaves out the gates of a decision: no token is looked up, no claim is read, no
  admin check is made, and empty grants are not refused. For a request that is no admin's
  it is the decision all the same. A capability holds what those gates would find again
  (`Held`), and under a policy that refuses empty grants none exists with them.

  - `granted_held`: what a granted capability holds.
  - `examine_held`: a route of the same policy decides such a request by the answer of the
    capability, after the calls of the admin check.
  - `has_agrees`: the two side by side, with the errors in the arguments.
-/

import Warden.Proofs.Attachment
import Warden.Proofs.Decision

namespace Warden

/-! ## Asking a capability -/

namespace Capability

theorem has_eq {c : Capability} {args : List Argument} {rule : Rule}
    (h : Rule.ofArguments? c.policy.delimiters args = .ok rule) :
    c.has args = (rule.eval c.context).map (·.mapError Route.denied) := by
  rw [has, h]
  rfl

theorem has_error (c : Capability) (args : List Argument) {e : AccessError} (h : (c.has args).result = .error e) :
    Rule.ofArguments? c.policy.delimiters args = .error e ∨ ∃ reason, e = .forbidden (.denied reason) := by
  cases hr : Rule.ofArguments? c.policy.delimiters args with
  | error e' =>
    rw [has, hr] at h
    cases h
    exact .inl rfl
  | ok rule =>
    rw [has_eq hr] at h
    obtain ⟨d, -, rfl⟩ := mapError_error h
    exact .inr ⟨d.reason, rfl⟩

/-- The capability reports the errors in its arguments, and no other error as one of them. -/
theorem has_error_iff (c : Capability) (args : List Argument) (e : AccessError) :
    e.InArguments ∧ (c.has args).result = .error e ↔ Rule.ofArguments? c.policy.delimiters args = .error e := by
  constructor
  · rintro ⟨ha, he⟩
    rcases has_error c args he with h | ⟨reason, rfl⟩
    · exact h
    · cases ha
  · intro h
    rw [has, h]
    exact ⟨Rule.ofArguments?_error h, rfl⟩

end Capability

namespace Route

variable {r s : Route} {q : Request} {c : Capability} {ctx : Context} {args : List Argument}

/-! ## What a capability holds -/

/-- The capability holds what a decision under the policy would find in the request. -/
structure Held (policy : Policy) (q : Request) (c : Capability) : Prop extends Readable policy q c.grants where
  context_eq : c.context = policy.contextOf q c.grants c.isAdmin
  policy_eq : c.policy = policy
  admin : (policy.adminAnswer q c.grants).result = .ok c.isAdmin
  granted : policy.scopeRequired = true → c.isAdmin = false → c.grants.isEmpty = false

/-- Empty grants get nothing under a policy that refuses them. -/
theorem settled_granted_grants (h : (r.settled ctx).result = .ok (.granted c)) (hs : r.policy.scopeRequired = true)
    (ha : ctx.view.isAdmin = false) : ctx.grants.isEmpty = false := by
  cases hg : ctx.grants.isEmpty with
  | false => rfl
  | true => rw [settled_nothingGranted hs ha hg] at h; cases h

theorem granted_held (h : (r.examine q).1.result = .ok (.granted c)) : Held r.policy q c := by
  replace h : (r.judge q).result = .ok (.granted c) := h
  by_cases ht : r.policy.tokenOf q = .null
  · rw [judge_of_noToken ht] at h
    split at h <;> cases h
  cases hc : r.policy.delimiters.grants? (r.policy.claimOf q) with
  | error fault => rw [judge_malformed ht hc] at h; cases h
  | ok grants =>
    have hread : Readable r.policy q grants := ⟨ht, hc⟩
    cases ha : (r.policy.adminAnswer q grants).result with
    | error d => rw [judge_adminDenied hread ha] at h; cases h
    | ok isAdmin =>
      rw [judge_settled hread ha] at h
      obtain rfl := (settled_granted_iff.mp h).2
      exact ⟨hread, rfl, rfl, ha, settled_granted_grants h⟩

/-! ## Asked for the same -/

/-- A route asks what its capability would be asked, if no admin passes by and no empty grants are refused. -/
theorem passes_eq_has (hs : declare? c.policy args = .ok s) (hargs : args ≠ []) (ha : c.isAdmin = false)
    (hg : c.policy.scopeRequired = true → c.grants.isEmpty = false) : s.passes c.context = c.has args := by
  have hne : args.isEmpty = false := by simpa using hargs
  rw [declare?, hne, Bool.false_and, if_neg Bool.false_ne_true] at hs
  obtain ⟨rule, hrule, rfl⟩ := map_ok hs
  have hadmin : c.context.view.isAdmin = true → false = true := fun h => by
    rw [← h]
    exact ha.symm
  rw [passes_consulting hadmin fun h _ => hg h, Capability.has_eq hrule]

/-- The decision of a route, from the answer of a capability of the same request and policy. -/
theorem examine_held (hc : Held r.policy q c) (ha : c.isAdmin = false) (hargs : args ≠ [])
    (hs : declare? r.policy args = .ok s) :
    (s.examine q).1 = ⟨(r.policy.adminAnswer q c.grants).calls ++ (c.has args).calls,
      (c.has args).result.bind fun
        | true => .ok (.granted c)
        | false => .error (.forbidden .ruleFailed)⟩ := by
  have hpolicy : s.policy = r.policy := (declared_as hs).policy_eq
  have hread : Readable s.policy q c.grants := by
    rw [hpolicy]
    exact hc.toReadable
  have hadmin : (s.policy.adminAnswer q c.grants).result = .ok false := by
    rw [hpolicy, hc.admin, ha]
  have hcontext : s.policy.contextOf q c.grants false = c.context := by
    rw [hpolicy, hc.context_eq, ha]
  have hcap : (⟨c.context, s.policy⟩ : Capability) = c := by rw [hpolicy, ← hc.policy_eq]
  have hpasses : s.passes c.context = c.has args := by
    refine passes_eq_has (by rw [hc.policy_eq, hs]) hargs ha fun h => ?_
    rw [hc.policy_eq] at h
    exact hc.granted h ha
  show s.judge q = _
  rw [judge_settled hread hadmin, hcontext, settled, hpasses, hcap, hpolicy]
  cases hh : (c.has args).result with
  | error e => rw [Audited.andThen_error hh]; rfl
  | ok b => cases b <;> rw [Audited.andThen_of_ok hh rfl] <;> rfl

theorem declare?_error {policy : Policy} (hargs : args ≠ []) {e : AccessError} :
    declare? policy args = .error e ↔ Rule.ofArguments? policy.delimiters args = .error e := by
  have hne : args.isEmpty = false := by simpa using hargs
  rw [declare?, hne, Bool.false_and, if_neg Bool.false_ne_true]
  exact ⟨map_error, fun h => by rw [h]; rfl⟩

/-- For a request that is no admin's, its capability and a new route of the same policy agree on
    every list of arguments but the empty one: they refuse the same lists with the same errors, and
    otherwise the route decides the request, whatever is attached to it, as the capability answers.
    The calls are those of the answer, after that of the predicate that tells who is an admin, if
    one does. -/
theorem has_agrees (hg : (r.examine q).1.result = .ok (.granted c)) (ha : c.isAdmin = false) (hargs : args ≠ []) :
    (∀ e, e.InArguments ∧ (c.has args).result = .error e ↔ declare? r.policy args = .error e) ∧
    (AccessError.forbidden .ruleFailed).message = "Permission denied" ∧
    ∀ s, declare? r.policy args = .ok s → ∀ p : Request, p.document = q.document → p.summary = q.summary →
      let decision := (s.examine p).1
      ((c.has args).result = .ok true → decision.result = .ok (.granted c)) ∧
      ((c.has args).result = .ok false → decision.result = .error (.forbidden .ruleFailed)) ∧
      (∀ e, (c.has args).result = .error e →
        decision.result = .error e ∧ ∃ reason, e = .forbidden (.denied reason)) ∧
      ∃ adminCalls, decision.calls = adminCalls ++ (c.has args).calls ∧
        adminCalls.map (·.predicate) = r.policy.adminPredicate?.toList := by
  have hc := granted_held hg
  refine ⟨fun e => ?_, rfl, fun s hs p hdocument hsummary => ?_⟩
  · rw [Capability.has_error_iff, hc.policy_eq, declare?_error hargs]
  · intro decision
    have hd : decision = (s.examine q).1 := examine_congr s hdocument hsummary
    rw [examine_held hc ha hargs hs] at hd
    rw [hd]
    refine ⟨fun h => by rw [h]; rfl, fun h => by rw [h]; rfl, fun e h => ⟨by rw [h]; rfl, ?_⟩,
      (r.policy.adminAnswer q c.grants).calls, rfl, r.policy.calls_adminAnswer q c.grants⟩
    rcases c.has_error args h with he | hdenied
    · rw [hc.policy_eq] at he
      rw [(declare?_error hargs).mpr he] at hs
      cases hs
    · exact hdenied

/-- Empty grants would be refused, the predicate for admins answers no, and the handler asks for
    more than the route did. -/
theorem has_agrees_beyond_route :
    let boss := Predicate.ofStock "boss" false (.constant false)
    let owner := Predicate.ofStock "owner" false (.constant true)
    let args : List Argument := [.permission "doc:edit", .predicate owner]
    let q : Request := { document := some (.object [("user", .object [("scope", .string "read,doc:*")])]) }
    ∃ policy r s c, Policy.of? { adminPredicate := some boss, scopeRequired := some true } = .ok policy ∧
      declare? policy [.permission "read"] = .ok r ∧ (r.examine q).1.result = .ok (.granted c) ∧ c.isAdmin = false ∧
      args ≠ [] ∧ declare? r.policy args = .ok s ∧ (c.has args).result = .ok true ∧
      (s.examine (r.examine q).2).1.result = .ok (.granted c) ∧
      (s.examine q).1.calls.map (·.predicate.name) = ["boss", "owner"] := by
  intro boss owner args q
  have hrun : ∃ policy r s c, Policy.of? { adminPredicate := some boss, scopeRequired := some true } = .ok policy ∧
      declare? policy [.permission "read"] = .ok r ∧ (r.examine q).1.result = .ok (.granted c) ∧ c.isAdmin = false ∧
      declare? r.policy args = .ok s ∧ (c.has args).result = .ok true ∧
      (s.examine q).1.calls.map (·.predicate.name) = ["boss", "owner"] := by
    dsimp only [boss, owner, args, q]
    exact ⟨_, _, _, _, rfl, rfl, rfl, rfl, rfl, rfl, rfl⟩
  obtain ⟨policy, r, s, c, hpolicy, hr, hg, ha, hs, hpass, hcalls⟩ := hrun
  have hargs : args ≠ [] := List.cons_ne_nil _ _
  have hdecision := (has_agrees hg ha hargs).2.2 s hs (r.examine q).2 (examine_document r q) (examine_summary r q)
  exact ⟨policy, r, s, c, hpolicy, hr, hg, ha, hargs, hs, hpass, hdecision.1 hpass, hcalls⟩

end Route

end Warden
