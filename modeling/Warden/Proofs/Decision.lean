/-
  Warden.Proofs.Decision — how a request is decided, from the declaration of its route.

  `Decision` lists the answers a request can get, each with the condition for it, in the
  words of the declaration: values at paths, the answer of the admin check, and what the
  arguments and extensions ask for as they are written. It speaks of no rule tree. The
  conditions are the gates of `Route.judge` in their order: token, claim, admin check, admin
  bypass, the policy on empty grants, and only then what was asked for.

  - `examine_iff`: a route that builds answers a request as `Decision` says and in no other
    way, with the predicate calls it says. Each answer of the list is reached
    (`examine_of_decision`), and there is always one (`decision_exists`).
-/

import Warden.Predicate.Stock
import Warden.Proofs.Declaration
import Warden.Proofs.Lookup

namespace Warden

namespace Policy

/-- The token of a request, null if there is none. -/
def tokenOf (policy : Policy) (q : Request) : Json := (q.document.map policy.tokenKey.valueAt).getD .null

def claimOf (policy : Policy) (q : Request) : Json := policy.scopeKey.valueAt (policy.tokenOf q)

/-- What a request is checked in, once its claim is read. -/
def contextOf (policy : Policy) (q : Request) (grants : Grants) (isAdmin : Bool) : Context :=
  ⟨grants, ⟨policy.tokenOf q, policy.claimOf q, q.summary, isAdmin⟩⟩

/-- What the admin check comes to. A predicate is shown the request before it counts as an admin's. -/
def adminAnswer (policy : Policy) (q : Request) (grants : Grants) : Audited Verdict :=
  match policy.admin with
  | none => .of (.ok false)
  | some (.path p) => .of (.ok (p.valueAt (policy.tokenOf q) == .bool true))
  | some (.predicate p) => p.call grants (policy.contextOf q grants false).view

/-- The predicate that tells who is an admin, if one does. -/
def adminPredicate? (policy : Policy) : Option Predicate :=
  match policy.admin with
  | some (.predicate p) => some p
  | _ => none

theorem calls_adminAnswer (policy : Policy) (q : Request) (grants : Grants) :
    (policy.adminAnswer q grants).calls.map (·.predicate) = policy.adminPredicate?.toList := by
  unfold adminAnswer adminPredicate?
  rcases policy.admin with _ | p | p <;> rfl

end Policy

namespace Route

/-! ## The decisions -/

/-- There is a token, and its claim grants this. -/
structure Readable (policy : Policy) (q : Request) (grants : Grants) : Prop where
  token : policy.tokenOf q ≠ .null
  claim : policy.delimiters.grants? (policy.claimOf q) = .ok grants

/-- What was asked for decides: no admin passes by, and the policy does not refuse empty grants. -/
structure Consulted (policy : Policy) (args : List Argument) (q : Request) (grants : Grants) (isAdmin : Bool) : Prop
    extends Readable policy q grants where
  admin : (policy.adminAnswer q grants).result = .ok isAdmin
  adminOnly : isAdmin = true → args = []
  granted : policy.scopeRequired = true → isAdmin = false → grants.isEmpty = false

section

variable (policy : Policy) (args : List Argument) (extensions : List Extension) (q : Request)

inductive Decision : Audited (Except AccessError Outcome) → Prop
  | unauthorized : policy.tokenOf q = .null → policy.credentialsRequired = true →
      Decision (.of (.error (.unauthorized .noToken)))
  | skipped : policy.tokenOf q = .null → policy.credentialsRequired = false → Decision (.of (.ok .skipped))
  /-- The claim is malformed: an error for admins too, and no predicate is called. -/
  | malformed {fault : ClaimFault} : policy.tokenOf q ≠ .null →
      policy.delimiters.grants? (policy.claimOf q) = .error fault → Decision (.of (.error (.dataIntegrity fault)))
  | adminDenied {grants : Grants} {d : Denial} : Readable policy q grants →
      (policy.adminAnswer q grants).result = .error d →
      Decision ⟨(policy.adminAnswer q grants).calls, .error (.forbidden (.denied d.reason))⟩
  /-- An admin passes by what was asked for, unless nothing was. -/
  | adminGranted {grants : Grants} : Readable policy q grants →
      (policy.adminAnswer q grants).result = .ok true → args ≠ [] →
      Decision ⟨(policy.adminAnswer q grants).calls, .ok (.granted ⟨policy.contextOf q grants true, policy⟩)⟩
  | nothingGranted {grants : Grants} : Readable policy q grants →
      (policy.adminAnswer q grants).result = .ok false → policy.scopeRequired = true → grants.isEmpty = true →
      Decision ⟨(policy.adminAnswer q grants).calls, .error (.forbidden .nothingGranted)⟩
  | denied {grants : Grants} {isAdmin : Bool} {d : Denial} : Consulted policy args q grants isAdmin →
      (asked policy args extensions (policy.contextOf q grants isAdmin)).result = .error d →
      Decision ⟨(policy.adminAnswer q grants).calls ++
        (asked policy args extensions (policy.contextOf q grants isAdmin)).calls,
        .error (.forbidden (.denied d.reason))⟩
  | failed {grants : Grants} {isAdmin : Bool} : Consulted policy args q grants isAdmin →
      (asked policy args extensions (policy.contextOf q grants isAdmin)).result = .ok false →
      Decision ⟨(policy.adminAnswer q grants).calls ++
        (asked policy args extensions (policy.contextOf q grants isAdmin)).calls, .error (.forbidden .ruleFailed)⟩
  | granted {grants : Grants} {isAdmin : Bool} : Consulted policy args q grants isAdmin →
      (asked policy args extensions (policy.contextOf q grants isAdmin)).result = .ok true →
      Decision ⟨(policy.adminAnswer q grants).calls ++
        (asked policy args extensions (policy.contextOf q grants isAdmin)).calls,
        .ok (.granted ⟨policy.contextOf q grants isAdmin, policy⟩)⟩

end

/-! ## Token and claim -/

variable {r : Route} {q : Request} {grants : Grants}

theorem judge_of_noToken (h : r.policy.tokenOf q = .null) :
    r.judge q =
      if r.policy.credentialsRequired then .of (.error (.unauthorized .noToken)) else .of (.ok .skipped) := by
  have hq : (q.document >>= r.policy.tokenKey.find?) = none := by
    unfold Policy.tokenOf at h
    cases hd : q.document with
    | none => rfl
    | some document =>
      rw [hd] at h
      exact DocPath.find?_of_null h
  rw [judge, hq]

theorem judge_of_token (h : r.policy.tokenOf q ≠ .null) : r.judge q = r.judgeToken q.summary (r.policy.tokenOf q) := by
  have hq : (q.document >>= r.policy.tokenKey.find?) = some (r.policy.tokenOf q) := by
    unfold Policy.tokenOf at h ⊢
    cases hd : q.document with
    | none => rw [hd] at h; exact absurd rfl h
    | some document =>
      rw [hd] at h
      exact DocPath.find?_of_ne_null h
  rw [judge, hq]

theorem judge_malformed {fault : ClaimFault} (ht : r.policy.tokenOf q ≠ .null)
    (hc : r.policy.delimiters.grants? (r.policy.claimOf q) = .error fault) :
    r.judge q = .of (.error (.dataIntegrity fault)) := by
  have hclaim : (r.policy.scopeKey.find? (r.policy.tokenOf q)).getD .null = r.policy.claimOf q := DocPath.getD_find? _ _
  rw [judge_of_token ht, judgeToken, hclaim, hc]

/-! ## The admin check -/

theorem checkAdmin_eq (policy : Policy) (q : Request) (grants : Grants) :
    checkAdmin policy (policy.contextOf q grants false) = (policy.adminAnswer q grants).map (·.mapError denied) := by
  unfold checkAdmin Policy.adminAnswer
  rcases policy.admin with _ | p | p
  · rfl
  · show Audited.of _ = Audited.of _
    rw [DocPath.find?_eq_true]
    rfl
  · rfl

/-- What becomes of a request after the admin check. -/
def settled (r : Route) (ctx : Context) : Audited (Except AccessError Outcome) :=
  (r.passes ctx).andThen fun
    | true => .of (.ok (.granted ⟨ctx, r.policy⟩))
    | false => .of (.error (.forbidden .ruleFailed))

theorem judge_readable (hr : Readable r.policy q grants) :
    r.judge q = ((r.policy.adminAnswer q grants).map (·.mapError denied)).andThen fun isAdmin =>
      r.settled (r.policy.contextOf q grants isAdmin) := by
  have hclaim : (r.policy.scopeKey.find? (r.policy.tokenOf q)).getD .null = r.policy.claimOf q := DocPath.getD_find? _ _
  rw [judge_of_token hr.token, judgeToken, hclaim, hr.claim, ← checkAdmin_eq]
  rfl

theorem judge_adminDenied (hr : Readable r.policy q grants) {d : Denial}
    (h : (r.policy.adminAnswer q grants).result = .error d) :
    r.judge q = ⟨(r.policy.adminAnswer q grants).calls, .error (denied d)⟩ := by
  rw [judge_readable hr]
  exact Audited.mapError_andThen_error h

theorem judge_settled (hr : Readable r.policy q grants) {isAdmin : Bool}
    (h : (r.policy.adminAnswer q grants).result = .ok isAdmin) :
    r.judge q = ⟨(r.policy.adminAnswer q grants).calls ++ (r.settled (r.policy.contextOf q grants isAdmin)).calls,
      (r.settled (r.policy.contextOf q grants isAdmin)).result⟩ := by
  rw [judge_readable hr]
  exact Audited.mapError_andThen_ok h

/-- A decision that takes no more than the admin check. -/
theorem judge_settled_of (hr : Readable r.policy q grants) {isAdmin : Bool}
    (h : (r.policy.adminAnswer q grants).result = .ok isAdmin) {outcome : Except AccessError Outcome}
    (hs : r.settled (r.policy.contextOf q grants isAdmin) = .of outcome) :
    r.judge q = ⟨(r.policy.adminAnswer q grants).calls, outcome⟩ := by
  rw [judge_readable hr]
  exact Audited.mapError_andThen_of_ok h hs

/-! ## The rule -/

variable {ctx : Context}

theorem settled_bypassing (ha : ctx.view.isAdmin = true) (ho : r.adminOnly = false) :
    r.settled ctx = .of (.ok (.granted ⟨ctx, r.policy⟩)) := by
  have hp : r.passes ctx = .of (.ok true) := by simp [passes, ha, ho]
  rw [settled, hp, Audited.of_ok_andThen]

theorem settled_nothingGranted (hs : r.policy.scopeRequired = true) (ha : ctx.view.isAdmin = false)
    (hg : ctx.grants.isEmpty = true) : r.settled ctx = .of (.error (.forbidden .nothingGranted)) := by
  have hp : r.passes ctx = .of (.error (.forbidden .nothingGranted)) := by simp [passes, hs, ha, hg]
  rw [settled, hp, Audited.of_error_andThen]

theorem passes_consulting (ha : ctx.view.isAdmin = true → r.adminOnly = true)
    (hg : r.policy.scopeRequired = true → ctx.view.isAdmin = false → ctx.grants.isEmpty = false) :
    r.passes ctx = (r.rule.eval ctx).map (·.mapError denied) := by
  unfold passes
  cases hadmin : ctx.view.isAdmin with
  | true => simp [ha hadmin]
  | false =>
    cases hs : r.policy.scopeRequired with
    | true => simp [hg hs hadmin]
    | false => simp

variable {v : Audited Verdict}

theorem settled_denied (hp : r.passes ctx = v.map (·.mapError denied)) {d : Denial} (h : v.result = .error d) :
    r.settled ctx = ⟨v.calls, .error (denied d)⟩ := by
  rw [settled, hp]
  exact Audited.mapError_andThen_error h

theorem settled_failed (hp : r.passes ctx = v.map (·.mapError denied)) (h : v.result = .ok false) :
    r.settled ctx = ⟨v.calls, .error (.forbidden .ruleFailed)⟩ := by
  rw [settled, hp]
  exact Audited.mapError_andThen_of_ok h rfl

theorem settled_granted (hp : r.passes ctx = v.map (·.mapError denied)) (h : v.result = .ok true) :
    r.settled ctx = ⟨v.calls, .ok (.granted ⟨ctx, r.policy⟩)⟩ := by
  rw [settled, hp]
  exact Audited.mapError_andThen_of_ok h rfl

theorem settled_granted_iff {c : Capability} :
    (r.settled ctx).result = .ok (.granted c) ↔ (r.passes ctx).result = .ok true ∧ c = ⟨ctx, r.policy⟩ := by
  unfold settled
  cases hp : (r.passes ctx).result with
  | error e => rw [Audited.andThen_error hp]; simp
  | ok b => rw [Audited.andThen_ok hp]; cases b <;> simp [eq_comm]

/-! ## Routes as they were declared -/

variable {policy : Policy} {args : List Argument} {extensions : List Extension}

theorem Consulted.passes_eq {isAdmin : Bool} (h : Consulted policy args q grants isAdmin)
    (hr : As policy args extensions r) :
    r.passes (policy.contextOf q grants isAdmin) =
      (asked policy args extensions (policy.contextOf q grants isAdmin)).map (·.mapError denied) := by
  rw [← hr.eval_rule]
  refine passes_consulting (fun ha => hr.adminOnly_iff.mpr (h.adminOnly ha)) fun hs => ?_
  rw [hr.policy_eq] at hs
  exact h.granted hs

theorem examine_of_decision (hr : As policy args extensions r) {a : Audited (Except AccessError Outcome)}
    (h : Decision policy args extensions q a) : (r.examine q).1 = a := by
  show r.judge q = a
  obtain rfl := hr.policy_eq
  cases h with
  | unauthorized ht hc => rw [judge_of_noToken ht, if_pos hc]
  | skipped ht hc => rw [judge_of_noToken ht, hc]; rfl
  | malformed ht hc => exact judge_malformed ht hc
  | adminDenied hread hd => exact judge_adminDenied hread hd
  | adminGranted hread ha hargs =>
    have ho : r.adminOnly = false := Bool.eq_false_iff.mpr fun ho => hargs (hr.adminOnly_iff.mp ho)
    exact judge_settled_of hread ha (settled_bypassing rfl ho)
  | nothingGranted hread ha hs hg => exact judge_settled_of hread ha (settled_nothingGranted hs rfl hg)
  | denied hcons hd => rw [judge_settled hcons.toReadable hcons.admin, settled_denied (hcons.passes_eq hr) hd]; rfl
  | failed hcons hf => rw [judge_settled hcons.toReadable hcons.admin, settled_failed (hcons.passes_eq hr) hf]
  | granted hcons ht => rw [judge_settled hcons.toReadable hcons.admin, settled_granted (hcons.passes_eq hr) ht]

theorem decision_of_consulted {isAdmin : Bool} (h : Consulted policy args q grants isAdmin) :
    ∃ a, Decision policy args extensions q a := by
  cases ha : (asked policy args extensions (policy.contextOf q grants isAdmin)).result with
  | error d => exact ⟨_, .denied h ha⟩
  | ok b =>
    cases b with
    | true => exact ⟨_, .granted h ha⟩
    | false => exact ⟨_, .failed h ha⟩

theorem decision_of_admin (hread : Readable policy q grants) {isAdmin : Bool}
    (ha : (policy.adminAnswer q grants).result = .ok isAdmin) : ∃ a, Decision policy args extensions q a := by
  cases isAdmin with
  | true =>
    by_cases hargs : args = []
    · exact decision_of_consulted ⟨hread, ha, fun _ => hargs, fun _ h => nomatch h⟩
    · exact ⟨_, .adminGranted hread ha hargs⟩
  | false =>
    by_cases hg : policy.scopeRequired = true ∧ grants.isEmpty = true
    · exact ⟨_, .nothingGranted hread ha hg.1 hg.2⟩
    · exact decision_of_consulted
        ⟨hread, ha, fun h => (nomatch h), fun hs _ => Bool.eq_false_iff.mpr fun he => hg ⟨hs, he⟩⟩

theorem decision_exists (policy : Policy) (args : List Argument) (extensions : List Extension) (q : Request) :
    ∃ a, Decision policy args extensions q a := by
  by_cases ht : policy.tokenOf q = .null
  · cases hc : policy.credentialsRequired with
    | true => exact ⟨_, .unauthorized ht hc⟩
    | false => exact ⟨_, .skipped ht hc⟩
  cases hg : policy.delimiters.grants? (policy.claimOf q) with
  | error fault => exact ⟨_, .malformed ht hg⟩
  | ok grants =>
    cases ha : (policy.adminAnswer q grants).result with
    | error d => exact ⟨_, .adminDenied ⟨ht, hg⟩ ha⟩
    | ok isAdmin => exact decision_of_admin ⟨ht, hg⟩ ha

/-- A route that builds answers a request as its declaration says, in no other way and with
    the calls it says. The last three lines are the texts of the refusals. -/
theorem examine_iff (hb : build? policy args extensions = .ok r) (q : Request)
    (a : Audited (Except AccessError Outcome)) :
    ((r.examine q).1 = a ↔ Decision policy args extensions q a) ∧
      (AccessError.forbidden .nothingGranted).message = "Permission denied: the token grants no permissions" ∧
      (AccessError.forbidden .ruleFailed).message = "Permission denied" ∧
      ∀ reason, (AccessError.forbidden (.denied reason)).message = reason := by
  refine ⟨⟨fun h => ?_, examine_of_decision (built_as hb)⟩, rfl, rfl, fun _ => rfl⟩
  obtain ⟨b, hd⟩ := decision_exists policy args extensions q
  rw [← h, examine_of_decision (built_as hb) hd]
  exact hd

/-- The token grants no `write`, which is asked for twice; the alternative lets the request pass by a
    permission that a wildcard grants and by a predicate. -/
theorem examine_alternative :
    let owner := Predicate.ofStock "owner" false (.agrees .token (some (.dotted "id")) (.string "ada"))
    let args : List Argument := [.permission "write", .permission "write"]
    let extensions : List Extension :=
      [.or [.permission "user:add", .predicate owner], .butNot [.permission "read", .permission "banned"]]
    let token := Json.object [("id", .string "ada"), ("scope", .string "read,user:*")]
    ∃ policy r calls c, Policy.of? { adminKey := some (.dotted "admin"), scopeRequired := some true } = .ok policy ∧
      build? policy args extensions = .ok r ∧
      Decision policy args extensions { document := some (.object [("user", token)]) } ⟨calls, .ok (.granted c)⟩ ∧
      c.grants.contains (.ofText ':' "user:add") = true ∧ c.grants.contains (.ofText ':' "write") = false ∧
      calls.map (·.predicate.name) = ["owner"] :=
  ⟨_, _, _, _, rfl, rfl, (examine_iff rfl _ _).1.mp rfl, rfl, rfl, rfl⟩

end Route

end Warden
