/-
  Warden.Proofs.Service.Account — what `GET /me` answers to a request that its guard lets pass.

  The handler looks for a capability under `permissions`. What it finds there is decided by the
  guard and by the request property, which may be set to another name or to none. The first
  capability that is attached to a request also brings the place where capabilities are held,
  and a request that never got one has no such place. The handler can tell that nothing is
  attached under `permissions` only where something is attached elsewhere; otherwise it fails.

  - `scope_of_built`: a service that is set up has `:` for its scope delimiter.
  - `respond_me`: the handler is given the request as the guard leaves it.
  - `account_by_attachment`: the answer, for all options under which the service is set up.
  - `account_unanswered`: a request without a token, where none is required.
-/

import Warden.Proofs.Construction
import Warden.Proofs.Service.Access

namespace Warden.Service

open Http Route

variable {o : Options} {policy : Policy} {s : Service} {m : Message} {document : Option Json} {outcome : Outcome}
  {r : Route} {q : Request} {c : Capability}

/-! ## Services that are set up -/

theorem policy_of_built (h : ofOptions? o = .ok s) : ∃ policy, Policy.of? o = .ok policy ∧ ofPolicy? policy = .ok s := by
  obtain ⟨policy, hpolicy, h⟩ := bind_ok h
  exact ⟨policy, mapError_ok_iff.mp hpolicy, h⟩

/-- The guard for adding a user needs the colon to be a scope delimiter. -/
theorem scope_of_built (h : ofPolicy? policy = .ok s) : policy.delimiters.scope = ':' := by
  obtain ⟨_, -, h⟩ := bind_ok h
  obtain ⟨addUser, hadd, -⟩ := bind_ok h
  have hbuilt : build? policy [.permission "user:add"] [] = .ok addUser := by
    rw [build?, hadd]
    rfl
  have hrequested := (allMade_lists_iff.mp (build?_ok_iff.mp ⟨addUser, hbuilt⟩)).2.2 _ List.mem_cons_self "user:add"
    List.mem_cons_self
  have hgranted := ((policy.delimiters.isRequested_iff "user:add").mp hrequested).1
  rcases Grammar.grantedFrom_chars hgranted ':' (by decide) with hword | hstar | hscope
  · exact absurd hword (by decide)
  · exact absurd hstar (by decide)
  · exact hscope.symm

/-! ## Through the guard -/

theorem respond_let_pass (h : (r.examine q).1.result = .ok outcome) (handler : Request → Audited Response) :
    (Http.respond [r] handler q).result = (handler (r.examine q).2).result := by
  have hthrough : (through [r] q).result = .ok (r.examine q).2 := by
    rw [through_cons, Audited.andThen_ok h]
    rfl
  rw [respond_ok hthrough]

theorem attached?_first (h : (r.examine q).1.result = .ok outcome) (hq : q.held = none) (property : String) :
    (r.examine q).2.attached? property = r.attachedBy property (.ok outcome) := by
  rw [attached?_examine, h, Request.attached?_of_held_none hq, Option.or_none]

/-! ## The handler -/

/-- The account of the caller who has the capability. -/
def accountOf (c : Capability) : Response :=
  .json 200 (.object [
    ("admin", .bool c.isAdmin),
    ("canAddUsers", .bool (c.grants.contains (.ofText ':' "user:add"))),
    ("granted", .array (c.grants.texts.map .string))])

/-- The account of a caller of whom nothing is known. -/
def noAccount : Response := .json 200 (.object [("admin", .bool false), ("granted", .array [])])

theorem account_elsewhere {property : String} (hq : q.attached? "permissions" = none)
    (hother : q.attached? property = some c) : account q = .of noAccount := by
  obtain ⟨held, hheld, -⟩ := Request.held_of_attached? hother
  have hnone : held.lookup "permissions" = none := by
    rw [Request.attached?, Request.attached, hheld] at hq
    exact hq
  rw [account, hheld]
  simp only [hnone]
  rfl

theorem account_nowhere (hq : q.held = none) : account q = .of nothingAttached := by
  rw [account, hq]

/-! ## Answers -/

theorem respond_me (h : AsksFor m .me) (hd : documentOf? m.claims = some document)
    (hpass : (s.read.examine (m.request document)).1.result = .ok outcome) :
    (s.respond m).result = (account (s.read.examine (m.request document)).2).result := by
  rw [respond_asked s h hd]
  exact respond_let_pass hpass _

section

variable (hs : ofPolicy? policy = .ok s) (h : AsksFor m .me) (hd : documentOf? m.claims = some document)
include hs h hd

theorem respond_told {c : Capability} {p : DocPath}
    (hpass : (s.read.examine (m.request document)).1.result = .ok (.granted c)) (hp : policy.requestProperty = some p) :
    (s.respond m).result = if p.dotted = "permissions" then accountOf c else noAccount := by
  have hpolicy : s.read.policy = policy := (guard?_as (e := .me) hs rfl).policy_eq
  have hfound (property : String) : (s.read.examine (m.request document)).2.attached? property =
      if p.dotted = property then some c else none := by
    rw [attached?_first hpass rfl, attachedBy, hpolicy, hp]
    simp
  rw [respond_me h hd hpass]
  split
  · rename_i hproperty
    have hscope : c.policy.delimiters.scope = ':' := by
      rw [(granted_held hpass).policy_eq, hpolicy, scope_of_built hs]
    rw [account_eq (by rw [hfound, if_pos hproperty]) hscope]
    rfl
  · rename_i hproperty
    rw [account_elsewhere (by rw [hfound, if_neg hproperty]) (by rw [hfound p.dotted, if_pos rfl])]
    rfl

theorem respond_untold (hpass : (s.read.examine (m.request document)).1.result = .ok outcome)
    (hcase : outcome = .skipped ∨ policy.requestProperty = none) : (s.respond m).result = nothingAttached := by
  have hpolicy : s.read.policy = policy := (guard?_as (e := .me) hs rfl).policy_eq
  have hself : (s.read.examine (m.request document)).2 = m.request document := by
    refine examine_eq_self fun c hc => ?_
    rw [hpass] at hc
    cases hc
    rcases hcase with hskipped | hp
    · cases hskipped
    · rw [hpolicy, hp]
  rw [respond_me h hd hpass, hself, account_nowhere rfl]
  rfl

end

/-- A request for the account that the guard lets pass. With the request property `permissions` a
    granted one is told its account, and with another property that nothing is known of it. Where
    the guard attaches nothing, because attaching is disabled or because it let a request without a token
    pass, the handler fails. -/
theorem account_by_attachment (hs : ofOptions? o = .ok s) (h : AsksFor m .me) (hd : documentOf? m.claims = some document)
    (hpass : (s.read.examine (m.request document)).1.result = .ok outcome) :
    ∃ policy, Policy.of? o = .ok policy ∧
      (∀ c p, outcome = .granted c → policy.requestProperty = some p →
        (s.respond m).result = if p.dotted = "permissions" then accountOf c else noAccount) ∧
      (outcome = .skipped ∨ policy.requestProperty = none → (s.respond m).result = nothingAttached) ∧
      ((s.respond m).result.status = 200 ↔
        ∃ c p, outcome = .granted c ∧ policy.requestProperty = some p) := by
  obtain ⟨policy, hpolicy, hbuilt⟩ := policy_of_built hs
  refine ⟨policy, hpolicy, ?_, respond_untold hbuilt h hd hpass, ?_⟩
  · rintro c p rfl hp
    exact respond_told hbuilt h hd hpass hp
  · have hfails (hcase : outcome = .skipped ∨ policy.requestProperty = none) : (s.respond m).result.status ≠ 200 := by
      have hstatus : nothingAttached.status = 500 := rfl
      rw [respond_untold hbuilt h hd hpass hcase, hstatus]
      decide
    constructor
    · intro hok
      cases outcome with
      | skipped => exact absurd hok (hfails (.inl rfl))
      | granted c =>
        cases hp : policy.requestProperty with
        | none => exact absurd hok (hfails (.inr hp))
        | some p => exact ⟨c, p, rfl, rfl⟩
    · rintro ⟨c, p, rfl, hp⟩
      rw [respond_told hbuilt h hd hpass hp]
      split <;> rfl

/-- Under another request property than `permissions` a reader is told that nothing is known, and
    with attaching disabled the same reader is told of a failure. -/
theorem account_by_attachment_elsewhere :
    let reader : Message := ⟨"GET", "/me", some ("eyJzY29wZSI6InJlYWQifQ".toList.map fun c => c.toNat.toUInt8)⟩
    (∃ s, ofOptions? { adminKey := some (.dotted "admin"), requestProperty := .path (.dotted "caller") } = .ok s ∧
      (s.respond reader).result = noAccount) ∧
    ∃ s, ofOptions? { adminKey := some (.dotted "admin"), requestProperty := .disabled } = .ok s ∧
      (s.respond reader).result = nothingAttached := by
  intro reader
  have hclaims : claims? ("eyJzY29wZSI6InJlYWQifQ".toList.map fun c => c.toNat.toUInt8) =
      some (.object [("scope", .string "read")]) := by decide +kernel
  let document : Option Json := some (.object [("user", .object [("scope", .string "read")])])
  have hd : documentOf? reader.claims = some document := by
    rw [documentOf?, hclaims]
    rfl
  have hme : AsksFor reader .me := by
    have hpath : Target.path reader.target = "/me" := by decide +kernel
    refine ⟨rfl, ?_⟩
    rw [hpath]
    exact .me
  have hcaller : ∃ s c policy p, ofOptions? {
      adminKey := some (.dotted "admin"), requestProperty := .path (.dotted "caller") } = .ok s ∧
      (s.read.examine (reader.request document)).1.result = .ok (.granted c) ∧
      Policy.of? { adminKey := some (.dotted "admin"), requestProperty := .path (.dotted "caller") } = .ok policy ∧
      policy.requestProperty = some p ∧ p.dotted = "caller" := ⟨_, _, _, _, rfl, rfl, rfl, rfl, rfl⟩
  have hdisabled : ∃ s c policy, ofOptions? {
      adminKey := some (.dotted "admin"), requestProperty := .disabled } = .ok s ∧
      (s.read.examine (reader.request document)).1.result = .ok (.granted c) ∧
      Policy.of? { adminKey := some (.dotted "admin"), requestProperty := .disabled } = .ok policy ∧
      policy.requestProperty = none := ⟨_, _, _, rfl, rfl, rfl, rfl⟩
  refine ⟨?_, ?_⟩
  · obtain ⟨s, c, policy, p, hs, hpass, hpolicy, hp, hdotted⟩ := hcaller
    obtain ⟨policy', hpolicy', htold, -⟩ := account_by_attachment hs hme hd hpass
    rw [hpolicy] at hpolicy'
    cases hpolicy'
    exact ⟨s, hs, (htold c p rfl hp).trans (if_neg (by rw [hdotted]; decide))⟩
  · obtain ⟨s, c, policy, hs, hpass, hpolicy, hp⟩ := hdisabled
    obtain ⟨policy', hpolicy', -, huntold, -⟩ := account_by_attachment hs hme hd hpass
    rw [hpolicy] at hpolicy'
    cases hpolicy'
    exact ⟨s, hs, huntold (.inr hp)⟩

/-- No token is required and the request has none: the guard lets it pass, but the answer is a failure. -/
theorem account_unanswered :
    let stranger : Message := ⟨"GET", "/me", none⟩
    ∃ s, ofOptions? { adminKey := some (.dotted "admin"), credentialsRequired := some false } = .ok s ∧
      AsksFor stranger .me ∧ documentOf? stranger.claims = some none ∧
      (s.read.examine (stranger.request none)).1.result = .ok .skipped ∧
      (s.respond stranger).result = nothingAttached ∧ nothingAttached.status = 500 := by
  intro stranger
  have hme : AsksFor stranger .me := by
    have hpath : Target.path stranger.target = "/me" := by decide +kernel
    refine ⟨rfl, ?_⟩
    rw [hpath]
    exact .me
  obtain ⟨s, hs, hpass⟩ : ∃ s, ofOptions? { adminKey := some (.dotted "admin"), credentialsRequired := some false } =
      .ok s ∧ (s.read.examine (stranger.request none)).1.result = .ok .skipped := ⟨_, rfl, rfl⟩
  obtain ⟨policy, -, hbuilt⟩ := policy_of_built hs
  exact ⟨s, hs, hme, rfl, hpass, respond_untold hbuilt hme rfl hpass (.inl rfl), rfl⟩

end Warden.Service
