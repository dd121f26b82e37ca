/-
  Warden.Proofs.Views — what the predicates of a decision are shown.

  A decision calls predicates in two turns. The first is that of the admin check: one call if a
  predicate tells who is an admin, and in a context in which nobody is one yet. The second is
  that of the rule, in a context of the same request with the answer of the admin check. An
  admin passes by the rule of a route that was declared with arguments, so that the predicates
  in such a rule are never shown an admin; those on a route for admins only see the answer.

  - `Decision.turns`: the two turns, and when there is a second one.
  - `eval_shown`: an evaluation shows its context, as it is, to every predicate it calls.
  - `shown_in_turn`: both together, and the requests for which no predicate is called at all.
-/

import Warden.Proofs.Decision
import Warden.Proofs.Rule.Occurrence

namespace Warden

/-- The predicate was shown what the context holds, and gave its answer to that. -/
structure Call.Shown (ctx : Context) (c : Call) : Prop where
  grants_eq : c.grants = ctx.grants
  view_eq : c.view = ctx.view
  verdict_eq : c.verdict = c.predicate.check ctx.grants ctx.view

theorem Predicate.call_shown (p : Predicate) (ctx : Context) : ∀ c ∈ (p.call ctx.grants ctx.view).calls, c.Shown ctx := by
  intro c hc
  obtain rfl := List.mem_singleton.mp hc
  exact ⟨rfl, rfl, rfl⟩

/-! ## The calls of a rule -/

namespace Rule

theorem eval_shown (ctx : Context) (r : Rule) : ∀ c ∈ (eval ctx r).calls, c.Shown ctx := by
  intro c hc
  rw [calls_eq] at hc
  obtain ⟨o, -, rfl⟩ := List.mem_map.mp hc
  exact ⟨rfl, rfl, rfl⟩

/-- The predicates that are called stand in the rule, in this order. -/
theorem called_predicates (ctx : Context) (r : Rule) :
    ((eval ctx r).calls.map (·.predicate)).Sublist ((occurrences r).map (·.predicate)) := by
  have hcalled : (eval ctx r).calls.map (·.predicate) = (called ctx r).map (·.predicate) := by
    rw [calls_eq, List.map_map]
    rfl
  rw [hcalled]
  exact (called_sublist ctx r).map _

end Rule

namespace Route

variable {policy : Policy} {args : List Argument} {extensions : List Extension} {r : Route} {q : Request}
  {grants : Grants}

/-! ## The two turns -/

theorem Readable.unique {grants' : Grants} (h : Readable policy q grants) (h' : Readable policy q grants') :
    grants = grants' := Except.ok.inj (h.claim.symm.trans h'.claim)

/-- After the admin check a decision makes no calls, or it consults the rule and makes those of
    its evaluation. -/
theorem Decision.turns {a : Audited (Except AccessError Outcome)} (hd : Decision policy args extensions q a)
    (hr : As policy args extensions r) (hread : Readable policy q grants) :
    ∃ ruleCalls, a.calls = (policy.adminAnswer q grants).calls ++ ruleCalls ∧
      (ruleCalls = [] ∨ ∃ isAdmin, Consulted policy args q grants isAdmin ∧
        ruleCalls = (r.rule.eval (policy.contextOf q grants isAdmin)).calls) := by
  cases hd with
  | unauthorized ht _ => exact absurd ht hread.token
  | skipped ht _ => exact absurd ht hread.token
  | malformed _ hc => rw [hread.claim] at hc; cases hc
  | adminDenied hread' _ =>
    obtain rfl := hread.unique hread'
    exact ⟨[], (List.append_nil _).symm, .inl rfl⟩
  | adminGranted hread' _ _ =>
    obtain rfl := hread.unique hread'
    exact ⟨[], (List.append_nil _).symm, .inl rfl⟩
  | nothingGranted hread' _ _ _ =>
    obtain rfl := hread.unique hread'
    exact ⟨[], (List.append_nil _).symm, .inl rfl⟩
  | denied hcons _ =>
    obtain rfl := hread.unique hcons.toReadable
    exact ⟨_, rfl, .inr ⟨_, hcons, by rw [hr.eval_rule]⟩⟩
  | failed hcons _ =>
    obtain rfl := hread.unique hcons.toReadable
    exact ⟨_, rfl, .inr ⟨_, hcons, by rw [hr.eval_rule]⟩⟩
  | granted hcons _ =>
    obtain rfl := hread.unique hcons.toReadable
    exact ⟨_, rfl, .inr ⟨_, hcons, by rw [hr.eval_rule]⟩⟩

theorem adminAnswer_shown (policy : Policy) (q : Request) (grants : Grants) :
    ∀ c ∈ (policy.adminAnswer q grants).calls, c.Shown (policy.contextOf q grants false) := by
  unfold Policy.adminAnswer
  rcases policy.admin with _ | p | p
  · exact fun c hc => absurd hc List.not_mem_nil
  · exact fun c hc => absurd hc List.not_mem_nil
  · exact p.call_shown (policy.contextOf q grants false)

/-! ## Decisions without calls -/

theorem calls_of_noToken (ht : r.policy.tokenOf q = .null) : (r.examine q).1.calls = [] := by
  show (r.judge q).calls = []
  rw [judge_of_noToken ht]
  split <;> rfl

theorem calls_of_malformed {fault : ClaimFault}
    (hc : r.policy.delimiters.grants? (r.policy.claimOf q) = .error fault) : (r.examine q).1.calls = [] := by
  by_cases ht : r.policy.tokenOf q = .null
  · exact calls_of_noToken ht
  · show (r.judge q).calls = []
    rw [judge_malformed ht hc, Audited.calls_of]

/-! ## Decisions with calls -/

/-- Without a token, or with a claim that is malformed, no predicate is called. Otherwise the
    predicate that tells who is an admin, if one does, is called first, once, and as long as
    nobody is an admin. Whatever the rule calls after it are predicates of the rule, in their order. They
    are shown the same grants, token, claim and summary, and the answer of the admin check, which
    on a route that was declared with arguments is no. Where the policy refuses empty grants the
    rule makes no call. -/
theorem shown_in_turn (hb : build? policy args extensions = .ok r) (q : Request) :
    let decision := (r.examine q).1
    (policy.tokenOf q = .null → decision.calls = []) ∧
    (∀ fault, policy.delimiters.grants? (policy.claimOf q) = .error fault → decision.calls = []) ∧
    ∀ grants, Readable policy q grants → ∃ adminCalls ruleCalls,
      decision.calls = adminCalls ++ ruleCalls ∧
      adminCalls.map (·.predicate) = policy.adminPredicate?.toList ∧
      (∀ c ∈ adminCalls, c.Shown (policy.contextOf q grants false)) ∧
      (ruleCalls.map (·.predicate)).Sublist ((Rule.occurrences r.rule).map (·.predicate)) ∧
      (∀ c ∈ ruleCalls, ∃ isAdmin, (policy.adminAnswer q grants).result = .ok isAdmin ∧
        (args ≠ [] → isAdmin = false) ∧ c.Shown (policy.contextOf q grants isAdmin)) ∧
      (policy.scopeRequired = true → grants.isEmpty = true → (policy.adminAnswer q grants).result = .ok false →
        ruleCalls = [] ∧ decision.result = .error (.forbidden .nothingGranted)) := by
  intro decision
  have hr : As policy args extensions r := built_as hb
  obtain ⟨a, hd⟩ := decision_exists policy args extensions q
  have ha : decision = a := examine_of_decision hr hd
  refine ⟨fun ht => ?_, fun fault hc => ?_, fun grants hread => ?_⟩
  · rw [← hr.policy_eq] at ht
    exact calls_of_noToken ht
  · rw [← hr.policy_eq] at hc
    exact calls_of_malformed hc
  obtain ⟨ruleCalls, hcalls, hturn⟩ := hd.turns hr hread
  refine ⟨_, ruleCalls, by rw [ha, hcalls], policy.calls_adminAnswer q grants, adminAnswer_shown policy q grants,
    ?_, ?_, ?_⟩
  · rcases hturn with rfl | ⟨isAdmin, -, rfl⟩
    · exact List.nil_sublist _
    · exact Rule.called_predicates _ _
  · intro c hc
    rcases hturn with rfl | ⟨isAdmin, hcons, rfl⟩
    · cases hc
    · refine ⟨isAdmin, hcons.admin, fun hargs => ?_, Rule.eval_shown _ _ c hc⟩
      exact Bool.eq_false_iff.mpr fun h => hargs (hcons.adminOnly h)
  · intro hs hg hadmin
    refine ⟨?_, ?_⟩
    · rcases hturn with rfl | ⟨isAdmin, hcons, rfl⟩
      · rfl
      · have hno : isAdmin = false := Except.ok.inj (hcons.admin.symm.trans hadmin)
        rw [hcons.granted hs hno] at hg
        cases hg
    · have hrefused : decision = _ := examine_of_decision hr (.nothingGranted hread hadmin hs hg)
      rw [hrefused]

/-- On a route for admins the predicate that tells them is shown that nobody is one yet, and the exclusion
    that somebody is. -/
theorem shown_in_turn_to_exclusion :
    let boss := Predicate.ofStock "boss" false (.agrees .token (some (.dotted "role")) (.string "boss"))
    let banned := Predicate.ofStock "banned" false (.agrees .token (some (.dotted "banned")) (.bool true))
    let token := Json.object [("role", .string "boss"), ("scope", .string "read")]
    let q : Request := { document := some (.object [("user", token)]) }
    ∃ policy r adminCalls ruleCalls, Policy.of? { adminPredicate := some boss } = .ok policy ∧
      build? policy [] [.butNot [.predicate banned]] = .ok r ∧
      (r.examine q).1.calls = adminCalls ++ ruleCalls ∧ adminCalls.map (·.predicate.name) = ["boss"] ∧
      ruleCalls.map (·.predicate.name) = ["banned"] ∧ (∀ c ∈ adminCalls, c.view.isAdmin = false) ∧
      ∀ c ∈ ruleCalls, c.view.isAdmin = true := by
  intro boss banned token q
  have hrun : ∃ policy r grants, Policy.of? { adminPredicate := some boss } = .ok policy ∧
      build? policy [] [.butNot [.predicate banned]] = .ok r ∧ Readable policy q grants ∧
      policy.adminPredicate? = some boss ∧ (policy.adminAnswer q grants).result = .ok true ∧
      (r.examine q).1.calls.map (·.predicate.name) = ["boss", "banned"] := by
    dsimp only [boss, banned, token, q]
    exact ⟨_, _, _, rfl, rfl, ⟨nofun, rfl⟩, rfl, rfl, rfl⟩
  obtain ⟨policy, r, grants, hpolicy, hb, hread, hboss, hanswer, hnames⟩ := hrun
  obtain ⟨adminCalls, ruleCalls, hcalls, hadmin, hadminShown, -, hruleShown, -⟩ :=
    (shown_in_turn hb q).2.2 grants hread
  rw [hboss] at hadmin
  have hfirst : adminCalls.map (·.predicate.name) = ["boss"] := by
    have h := congrArg (List.map Predicate.name) hadmin
    rwa [List.map_map] at h
  rw [hcalls, List.map_append, hfirst] at hnames
  refine ⟨policy, r, adminCalls, ruleCalls, hpolicy, hb, hcalls, hfirst, (List.cons.inj hnames).2,
    fun c hc => by rw [(hadminShown c hc).view_eq]; rfl, fun c hc => ?_⟩
  obtain ⟨isAdmin, ha, -, hshown⟩ := hruleShown c hc
  rw [hanswer] at ha
  cases ha
  rw [hshown.view_eq]
  rfl

end Route

end Warden
