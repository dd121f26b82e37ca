/-
  Warden.Proofs.Service.Access — who is served by the document service.

  Under its usual policy the service takes the claims of a request for the token, their member
  `scope` for the claim and their member `admin` for the admin flag. No guard of the service has
  a predicate, so that a decision calls none and comes down to two questions
  (`examine_guard`): is the flag true, and do the grants open the endpoint (`Endpoint.opens`)?

  - `guard?_as`, `asked_endpoint`: the guards, from the declarations of the endpoints.
  - `respond_noToken`, `respond_malformed`, `respond_forbidden`, `respond_admitted`: the ways a
    request can go, of which the last leads to the handler with a capability attached.
  - `access_table`: the answers of the service to claims, to a request without any and to claims
    that cannot be read.
-/

import Warden.Proofs.Capability
import Warden.Proofs.Claim.Reading
import Warden.Proofs.Http.Mediation
import Warden.Service

namespace Warden

/-! ## Members of the claims -/

/-- A member of an object, null if it has none of that name or is no object. -/
def Json.member (v : Json) (key : String) : Json :=
  match v with
  | .object members => (Json.member? key members).getD .null
  | _ => .null

theorem DocPath.valueAt_member {p : DocPath} {key : String} (hp : p.segments = [key]) (hkey : index? key = none)
    (v : Json) : p.valueAt v = v.member key := by
  have hwalk : walk? [key] v = step? key v := Option.bind_fun_some _
  rw [valueAt, hp, hwalk]
  cases v with
  | array items => rw [step?, hkey]; rfl
  | _ => rfl

/-! ## Guards without predicates -/

namespace Route

variable {policy : Policy} {args : List Argument} {extensions : List Extension} {r : Route} {q : Request}
  {grants : Grants}

theorem examine_silent (hr : As policy args extensions r) (hread : Readable policy q grants)
    (hs : policy.scopeRequired = false) {isAdmin pass : Bool}
    (ha : policy.adminAnswer q grants = .of (.ok isAdmin))
    (hasked : asked policy args extensions (policy.contextOf q grants isAdmin) = .of (.ok pass)) :
    (r.examine q).1 = .of (if isAdmin = true ∧ args ≠ [] ∨ pass = true then
      .ok (.granted ⟨policy.contextOf q grants isAdmin, policy⟩) else .error (.forbidden .ruleFailed)) := by
  have hresult : (policy.adminAnswer q grants).result = .ok isAdmin := by rw [ha]; rfl
  by_cases hbypass : isAdmin = true ∧ args ≠ []
  · obtain ⟨rfl, hargs⟩ := hbypass
    have h := examine_of_decision hr (.adminGranted hread hresult hargs)
    rw [ha] at h
    rw [if_pos (.inl ⟨rfl, hargs⟩)]
    exact h
  · -- an admin for whom nothing was asked but to be one is let in by the rule, not past it
    have hcons : Consulted policy args q grants isAdmin :=
      ⟨hread, hresult, fun h => Classical.byContradiction fun hargs => hbypass ⟨h, hargs⟩,
        fun h => by rw [hs] at h; cases h⟩
    cases pass with
    | true =>
      have h := examine_of_decision hr (.granted hcons (by rw [hasked]; rfl))
      rw [ha, hasked] at h
      rw [if_pos (.inr rfl)]
      exact h
    | false =>
      have h := examine_of_decision hr (.failed hcons (by rw [hasked]; rfl))
      rw [ha, hasked] at h
      rw [if_neg (by simpa using hbypass)]
      exact h

end Route

namespace Service

open Http Route

/-! ## The endpoints -/

namespace Endpoint

/-- A path at which the endpoint is found. -/
inductive At : Endpoint → String → Prop
  | documents : At documents "/documents"
  | me : At me "/me"
  | users : At users "/users"
  | document {id : String} : id ≠ "" → '/' ∉ id.toList → At document ("/documents/" ++ id)
  | feed : At feed "/feed"
  | admin : At admin "/admin"
  | health : At health "/health"

theorem namesDocument_at {id : String} (hne : id ≠ "") (hslash : '/' ∉ id.toList) :
    namesDocument ("/documents/" ++ id) = true := by
  have hchars : ("/documents/" ++ id).toList =
      '/' :: 'd' :: 'o' :: 'c' :: 'u' :: 'm' :: 'e' :: 'n' :: 't' :: 's' :: '/' :: id.toList := by
    rw [String.toList_append]
    rfl
  rw [namesDocument, hchars]
  simp [hne, hslash]

theorem ofPath?_of_namesDocument {path : String} (h : namesDocument path = true) : ofPath? path = some document := by
  have hne {other : String} (hother : namesDocument other = false) : path ≠ other := by
    rintro rfl
    rw [h] at hother
    cases hother
  rw [ofPath?, if_neg (hne (by decide)), if_neg (hne (by decide)), if_neg (hne (by decide)), if_neg (hne (by decide)),
    if_neg (hne (by decide)), if_neg (hne (by decide)), if_pos h]

theorem ofPath?_at {e : Endpoint} {path : String} (h : e.At path) : ofPath? path = some e := by
  cases h with
  | document hne hslash => exact ofPath?_of_namesDocument (namesDocument_at hne hslash)
  | _ => rfl

/-! ## The guards -/

/-- What the guard of the endpoint is declared with. -/
def args : Endpoint → List Argument
  | documents | me | feed => [.permission "read"]
  | users => [.permission "user:add"]
  | document => [.permission "write"]
  | admin | health => []

def extensions : Endpoint → List Extension
  | document => [.or [.permission "moderator"]]
  | feed => [.butNot [.permission "suspended"]]
  | documents | me | users | admin | health => []

/-- Whether the grants let a caller in who is no admin. -/
def opens (e : Endpoint) (grants : Grants) : Bool :=
  let covered (text : String) := grants.contains (.ofText ':' text)
  match e with
  | documents | me => covered "read"
  | users => covered "user:add"
  | document => covered "write" || covered "moderator"
  | feed => covered "read" && !covered "suspended"
  | admin => false
  | health => true

/-- The status of the answer to a caller who is let in. -/
def success : Endpoint → Nat
  | users => 201
  | document => 204
  | documents | me | feed | admin | health => 200

end Endpoint

variable {s : Service} {policy : Policy} {e : Endpoint} {r : Route} {ctx : Context}

theorem guard?_as (h : ofPolicy? policy = .ok s) (hr : s.guard? e = some r) : As policy e.args e.extensions r := by
  obtain ⟨read, hread, h⟩ := bind_ok h
  obtain ⟨addUser, hadd, h⟩ := bind_ok h
  obtain ⟨remove, hremove, h⟩ := bind_ok h
  obtain ⟨feed, hfeed, h⟩ := bind_ok h
  obtain ⟨admin, hadmin, h⟩ := bind_ok h
  cases h
  cases e with
  | documents | me => cases hr; exact declared_as hread
  | users => cases hr; exact declared_as hadd
  | document => cases hr; exact built_as hremove
  | feed => cases hr; exact built_as hfeed
  | admin => cases hr; exact declared_as hadmin
  | health => cases hr

theorem asked_endpoint (hd : policy.delimiters = .default) (he : e ≠ .health) :
    asked policy e.args e.extensions ctx =
      .of (.ok (if e = .admin then ctx.view.isAdmin else e.opens ctx.grants)) := by
  have hone (text : String) : answers policy.delimiters ctx [.permission text] =
      .of (.ok (ctx.grants.contains (.ofText ':' text))) := by
    rw [hd]
    exact Audited.both_pass _
  cases e with
  | documents | me | users => exact hone _
  | document =>
    show (answers _ _ [.permission "write"]).either (answers _ _ [.permission "moderator"]) = _
    rw [hone, hone]
    show _ = Audited.of (Except.ok (ctx.grants.contains (.ofText ':' "write") || _))
    cases ctx.grants.contains (.ofText ':' "write") <;> rfl
  | feed =>
    show (answers _ _ [.permission "read"]).both (answers _ _ [.permission "suspended"]).negated = _
    rw [hone, hone]
    show _ = Audited.of (Except.ok (ctx.grants.contains (.ofText ':' "read") && _))
    cases ctx.grants.contains (.ofText ':' "read") <;> rfl
  | admin => rfl
  | health => exact absurd rfl he

/-! ## The usual policy -/

/-- Claims are the token, with their member `scope` for the claim and `admin` for the admin flag. -/
structure Usual (policy : Policy) : Prop where
  token : policy.tokenKey.segments = ["user"]
  scope : policy.scopeKey.segments = ["scope"]
  admin : ∃ p, policy.admin = some (.path p) ∧ p.segments = ["admin"]
  delimiters : policy.delimiters = .default
  credentials : policy.credentialsRequired = true
  grantless : policy.scopeRequired = false
  property : policy.requestProperty.map DocPath.dotted = some "permissions"

variable {q : Request} {c : Json} {grants : Grants}

theorem Usual.tokenOf_eq (hp : Usual policy) (hq : q.document = some (document c)) : policy.tokenOf q = c := by
  rw [Policy.tokenOf, hq]
  exact DocPath.valueAt_member hp.token rfl (document c)

theorem Usual.claimOf_eq (hp : Usual policy) (hq : q.document = some (document c)) :
    policy.claimOf q = c.member "scope" := by
  rw [Policy.claimOf, hp.tokenOf_eq hq, DocPath.valueAt_member hp.scope rfl]

theorem Usual.adminAnswer_eq (hp : Usual policy) (hq : q.document = some (document c)) :
    policy.adminAnswer q grants = .of (.ok (c.member "admin" == .bool true)) := by
  obtain ⟨p, hadmin, hsegments⟩ := hp.admin
  rw [Policy.adminAnswer, hadmin]
  show Audited.of (Except.ok (p.valueAt (policy.tokenOf q) == .bool true)) = _
  rw [hp.tokenOf_eq hq, DocPath.valueAt_member hsegments rfl]

theorem Usual.readable (hp : Usual policy) (hq : q.document = some (document c)) (hc : c ≠ .null)
    (hg : Delimiters.default.grants? (c.member "scope") = .ok grants) : Readable policy q grants where
  token := by rwa [hp.tokenOf_eq hq]
  claim := by rwa [hp.claimOf_eq hq, hp.delimiters]

/-- The claims let the caller in. -/
def Admitted (e : Endpoint) (c : Json) (grants : Grants) : Prop :=
  c.member "admin" = .bool true ∨ e.opens grants = true

instance (e : Endpoint) (c : Json) (grants : Grants) : Decidable (Admitted e c grants) :=
  inferInstanceAs (Decidable (_ ∨ _))

theorem examine_guard (hp : Usual policy) (hs : ofPolicy? policy = .ok s) (hr : s.guard? e = some r)
    (hq : q.document = some (document c)) (hc : c ≠ .null)
    (hg : Delimiters.default.grants? (c.member "scope") = .ok grants) :
    (r.examine q).1 = .of (if Admitted e c grants then
      .ok (.granted ⟨policy.contextOf q grants (c.member "admin" == .bool true), policy⟩)
      else .error (.forbidden .ruleFailed)) := by
  have he : e ≠ .health := by rintro rfl; cases hr
  have hpass : ((c.member "admin" == .bool true) = true ∧ e.args ≠ [] ∨
      (if e = .admin then c.member "admin" == .bool true else e.opens grants) = true) ↔ Admitted e c grants := by
    cases e with
    | admin => simp [Admitted, Endpoint.args, Endpoint.opens]
    | health => exact absurd rfl he
    | _ => simp [Admitted, Endpoint.args]
  rw [examine_silent (guard?_as hs hr) (hp.readable hq hc hg) hp.grantless (hp.adminAnswer_eq hq)
    (asked_endpoint hp.delimiters he)]
  simp only [← hpass]
  rfl

/-! ## Handlers -/

theorem lists_texts {d : Delimiters} {claim : Json} (h : d.grants? claim = .ok grants) :
    Claim.Lists d.claim (some claim) grants.texts := by
  replace h : d.grants? ((some claim).getD .null) = .ok grants := h
  obtain ⟨xs, hlists, -, rfl⟩ := Delimiters.grants?_ok_iff.mp h
  rwa [Delimiters.texts_ofText]

theorem account_eq {cap : Capability} (hq : q.attached? "permissions" = some cap)
    (hscope : cap.policy.delimiters.scope = ':') :
    account q = .of (.json 200 (.object [
      ("admin", .bool cap.isAdmin),
      ("canAddUsers", .bool (cap.grants.contains (.ofText ':' "user:add"))),
      ("granted", .array (cap.grants.texts.map .string))])) := by
  have hrequested : cap.policy.delimiters.isRequested "user:add" = true := by
    rw [Delimiters.isRequested, hscope]
    decide
  have hrule : Rule.ofArguments? cap.policy.delimiters [.permission "user:add"] =
      .ok (.permission (.ofText ':' "user:add")) := by
    rw [Rule.ofArguments?, Delimiters.requirements?, if_neg (by decide), Delimiters.requirementsFrom,
      Delimiters.permission?, if_pos hrequested, hscope]
    rfl
  have hhas : cap.has [.permission "user:add"] = .of (.ok (cap.grants.contains (.ofText ':' "user:add"))) :=
    Capability.has_eq hrule
  obtain ⟨held, hheld, hcap⟩ := Request.held_of_attached? hq
  rw [account, hheld]
  simp only [hcap, hhas]
  cases cap.grants.contains (.ofText ':' "user:add") <;> rfl

theorem handle_status {cap : Capability} (hq : q.attached? "permissions" = some cap)
    (hd : cap.policy.delimiters = .default) : (handle q e).result.status = e.success := by
  cases e with
  | me => rw [handle, account_eq hq (by rw [hd]; rfl)]; rfl
  | _ => rfl

/-! ## Answers -/

theorem respond_refused {error : AccessError} (h : (r.examine q).1 = .of (.error error))
    (handler : Request → Audited Response) : Http.respond [r] handler q = .of error.response := by
  rw [Http.respond, through_cons, h, Audited.of_error_andThen]
  rfl

theorem respond_served {outcome : Outcome} (h : (r.examine q).1 = .of (.ok outcome))
    (handler : Request → Audited Response) : Http.respond [r] handler q = handler (r.examine q).2 := by
  rw [Http.respond, through_cons, h, Audited.of_ok_andThen]
  rfl

/-- The message asks for the endpoint, with its method. -/
structure AsksFor (m : Message) (e : Endpoint) : Prop where
  method : m.method = e.method
  path : e.At (Target.path m.target)

/-- The request that guards are given. -/
def Message.request (m : Message) (document : Option Json) : Request :=
  { document, summary := summary m.method (Target.path m.target) }

variable {m : Message}

theorem Endpoint.answers_method (e : Endpoint) : e.answers e.method = true := by simp [answers]

theorem finish_method (e : Endpoint) (response : Response) : finish e e.method response = response := by
  have hhead : e.method ≠ "HEAD" := by cases e <;> decide
  rw [finish, e.answers_method, if_neg (by decide), if_neg hhead]

theorem respond_asked (s : Service) (h : AsksFor m e) {document : Option Json}
    (hd : documentOf? m.claims = some document) :
    s.respond m = Http.respond (s.guard? e).toList (handle · e) (m.request document) := by
  have hfinish : finish e e.method = id := funext (finish_method e)
  simp only [respond, Endpoint.ofPath?_at h.path, hd, answer, h.method, e.answers_method, hfinish]
  rw [← h.method]
  rfl

theorem guard?_exists (s : Service) (he : e ≠ .health) : ∃ r, s.guard? e = some r := by
  cases e with
  | health => exact absurd rfl he
  | _ => exact ⟨_, rfl⟩

/-- A refusal by the guard of an endpoint is the answer of the service. -/
theorem respond_guarded (h : AsksFor m e) {document : Option Json} (hd : documentOf? m.claims = some document)
    (hr : s.guard? e = some r) {error : AccessError} (he : (r.examine (m.request document)).1 = .of (.error error)) :
    s.respond m = .of error.response := by
  rw [respond_asked s h hd, hr]
  exact respond_refused he _

/-- But for the methods it may name, an answer leaves its endpoint as it is, and for HEAD alone without its body. -/
theorem finish_keeps (e : Endpoint) (method : String) (response : Response) :
    (finish e method response).status = response.status ∧
      (finish e method response).contentType = response.contentType ∧
      (method ≠ "HEAD" → (finish e method response).body = response.body) := by
  rw [finish]
  split
  · exact ⟨rfl, rfl, fun _ => rfl⟩
  · split
    · rename_i hhead
      exact ⟨rfl, rfl, fun h => absurd hhead h⟩
    · exact ⟨rfl, rfl, fun _ => rfl⟩

/-- Claims that cannot be read are answered without a look at the guards. -/
theorem respond_unreadable (hd : documentOf? m.claims = none) :
    ∃ response : Response, (response.status = badClaims.status ∧ response.contentType = badClaims.contentType ∧
      (m.method ≠ "HEAD" → response.body = badClaims.body)) ∧ ∀ s : Service, s.respond m = .of response := by
  cases hpath : Endpoint.ofPath? (Target.path m.target) with
  | none => exact ⟨badClaims, ⟨rfl, rfl, fun _ => rfl⟩, fun s => by simp only [respond, hpath, hd]⟩
  | some e => exact ⟨_, finish_keeps e m.method badClaims, fun s => by simp only [respond, hpath, hd]⟩

section

variable (hp : Usual policy) (hs : ofPolicy? policy = .ok s) (h : AsksFor m e) (he : e ≠ .health)
include hp hs h he

theorem respond_noToken {doc : Option Json} (hd : documentOf? m.claims = some doc)
    (ht : policy.tokenOf (m.request doc) = .null) :
    s.respond m = .of (.report 401 "unauthorized" "No authorization token was found") := by
  obtain ⟨r, hr⟩ := guard?_exists s he
  exact respond_guarded h hd hr (examine_of_decision (guard?_as hs hr) (.unauthorized ht hp.credentials))

variable (hd : documentOf? m.claims = some (some (document c))) (hc : c ≠ .null)
include hd hc

theorem respond_malformed {fault : ClaimFault} (hf : Delimiters.default.grants? (c.member "scope") = .error fault) :
    s.respond m = .of (.report 500 "data_integrity" "Internal server error") := by
  obtain ⟨r, hr⟩ := guard?_exists s he
  have ht : policy.tokenOf (m.request (some (document c))) ≠ .null := by rwa [hp.tokenOf_eq rfl]
  have hclaim : policy.delimiters.grants? (policy.claimOf (m.request (some (document c)))) = .error fault := by
    rwa [hp.claimOf_eq rfl, hp.delimiters]
  exact respond_guarded h hd hr (examine_of_decision (guard?_as hs hr) (.malformed ht hclaim))

variable (hg : Delimiters.default.grants? (c.member "scope") = .ok grants)
include hg

theorem respond_forbidden (hn : ¬Admitted e c grants) :
    s.respond m = .of (.report 403 "forbidden" "Permission denied") := by
  obtain ⟨r, hr⟩ := guard?_exists s he
  have hexamine := examine_guard hp hs hr (q := m.request (some (document c))) rfl hc hg
  rw [if_neg hn] at hexamine
  exact respond_guarded h hd hr hexamine

/-- An admitted request is handled with the capability of the claims attached. -/
theorem respond_admitted (ha : Admitted e c grants) :
    ∃ q cap, s.respond m = handle q e ∧ q.attached? "permissions" = some cap ∧ cap.policy.delimiters = .default ∧
      cap.isAdmin = (c.member "admin" == .bool true) ∧ cap.grants = grants := by
  obtain ⟨r, hr⟩ := guard?_exists s he
  have hexamine := examine_guard hp hs hr (q := m.request (some (document c))) rfl hc hg
  rw [if_pos ha] at hexamine
  have hresponse : s.respond m = handle (r.examine (m.request (some (document c)))).2 e := by
    rw [respond_asked s h hd, hr]
    exact respond_served hexamine _
  have hproperty : r.policy.requestProperty.map DocPath.dotted = some "permissions" := by
    rw [(guard?_as hs hr).policy_eq]
    exact hp.property
  have hattached : (r.examine (m.request (some (document c)))).2.attached? "permissions" =
      some ⟨policy.contextOf (m.request (some (document c))) grants (c.member "admin" == .bool true), policy⟩ := by
    rw [attached?_examine, hexamine, Audited.result_of, attachedBy, if_pos hproperty]
    rfl
  exact ⟨_, _, hresponse, hattached, hp.delimiters, rfl, rfl⟩

theorem status_success_iff : (s.respond m).result.status = e.success ↔ Admitted e c grants := by
  by_cases ha : Admitted e c grants
  · obtain ⟨q, cap, hresponse, hattached, hdelimiters, -⟩ := respond_admitted hp hs h he hd hc hg ha
    rw [hresponse, handle_status hattached hdelimiters]
    exact iff_of_true rfl ha
  · have hne : 403 ≠ e.success := by cases e <;> decide
    rw [respond_forbidden hp hs h he hd hc hg ha]
    exact iff_of_false hne ha

end

theorem respond_account (hp : Usual policy) (hs : ofPolicy? policy = .ok s) (h : AsksFor m .me)
    (hd : documentOf? m.claims = some (some (document c))) (hc : c ≠ .null)
    (hg : Delimiters.default.grants? (c.member "scope") = .ok grants) (ha : Admitted .me c grants) :
    s.respond m = .of (.json 200 (.object [
      ("admin", .bool (c.member "admin" == .bool true)),
      ("canAddUsers", .bool (grants.contains (.ofText ':' "user:add"))),
      ("granted", .array (grants.texts.map .string))])) := by
  obtain ⟨q, cap, hresponse, hattached, hdelimiters, hadmin, rfl⟩ := respond_admitted hp hs h nofun hd hc hg ha
  rw [hresponse, handle, account_eq hattached (by rw [hdelimiters]; rfl), hadmin]

/-! ## The table -/

theorem usual_of_admin : ∃ policy s, Policy.of? { adminKey := some (.dotted "admin") } = .ok policy ∧
    ofPolicy? policy = .ok s ∧ Usual policy :=
  ⟨_, _, rfl, rfl, rfl, rfl, ⟨_, rfl, rfl⟩, rfl, rfl, rfl, rfl⟩

/-- The service can be set up for admins told by their claims. A request for a guarded endpoint is
    unauthorized if its claims are null, fails if their member `scope` grants nothing that can be
    read, and is otherwise served if and only if the flag `admin` is true or the grants open the
    endpoint; else it is forbidden. A caller's account lists the elements of `scope` in their order. Without
    claims, guarded endpoints are unauthorized and the health of the service is told. Claims that
    cannot be read are a bad request, whatever is asked for and whatever the guards of the service. -/
theorem access_table :
    ∃ s, ofOptions? { adminKey := some (.dotted "admin") } = .ok s ∧
      (∀ m e value c, AsksFor m e → e ≠ .health → m.claims = some value → claims? value = some c →
        (c = .null → s.respond m = .of (.report 401 "unauthorized" "No authorization token was found")) ∧
        (∀ fault, c ≠ .null → Delimiters.default.grants? (c.member "scope") = .error fault →
          s.respond m = .of (.report 500 "data_integrity" "Internal server error")) ∧
        ∀ grants, c ≠ .null → Delimiters.default.grants? (c.member "scope") = .ok grants →
          ((s.respond m).result.status = e.success ↔ Admitted e c grants) ∧
          (¬Admitted e c grants → s.respond m = .of (.report 403 "forbidden" "Permission denied")) ∧
          (e = .me → Admitted e c grants → ∃ es, Claim.Lists ',' (some (c.member "scope")) es ∧
            s.respond m = .of (.json 200 (.object [
              ("admin", .bool (c.member "admin" == .bool true)),
              ("canAddUsers", .bool (grants.contains (.ofText ':' "user:add"))),
              ("granted", .array (es.map .string))])))) ∧
      (∀ m e, AsksFor m e → m.claims = none →
        (e ≠ .health → s.respond m = .of (.report 401 "unauthorized" "No authorization token was found")) ∧
        (e = .health → (s.respond m).result.status = 200)) ∧
      ∀ m value, m.claims = some value → claims? value = none →
        ∃ response : Response, (response.status = 400 ∧ response.contentType = some "application/json" ∧
          (m.method ≠ "HEAD" → response.body =
            (Response.report 400 "bad_request" "x-claims must be base64url-encoded JSON").body)) ∧
          ∀ other : Service, other.respond m = .of response := by
  obtain ⟨policy, s, hpolicy, hs, hp⟩ := usual_of_admin
  have hservice : ofOptions? { adminKey := some (.dotted "admin") } = .ok s := by
    rw [ofOptions?, hpolicy]
    exact hs
  refine ⟨s, hservice, fun m e value c h he hclaims hread => ?_, fun m e h hclaims => ?_,
    fun m value hclaims hread => respond_unreadable (by rw [hclaims, documentOf?, hread]; rfl)⟩
  · have hd : documentOf? m.claims = some (some (document c)) := by
      rw [hclaims, documentOf?, hread]
      rfl
    refine ⟨fun hc => respond_noToken hp hs h he hd (by rw [hp.tokenOf_eq rfl, hc]),
      fun fault hc hf => respond_malformed hp hs h he hd hc hf, fun grants hc hg => ?_⟩
    refine ⟨status_success_iff hp hs h he hd hc hg, respond_forbidden hp hs h he hd hc hg, ?_⟩
    rintro rfl ha
    exact ⟨grants.texts, lists_texts hg, respond_account hp hs h hd hc hg ha⟩
  · have hd : documentOf? m.claims = some none := by rw [hclaims]; rfl
    refine ⟨fun he => respond_noToken hp hs h he hd rfl, ?_⟩
    rintro rfl
    rw [respond_asked s h hd]
    rfl

/-- A moderator deletes a document, an admin's account is served though nothing is granted to read it, and a
    header without JSON is refused at a path that the service does not know. -/
theorem access_table_moderator :
    let header (text : String) : List UInt8 := text.toList.map fun c => c.toNat.toUInt8
    let moderator : Message := ⟨"DELETE", "/documents/7?force", some (header "eyJzY29wZSI6WyJtb2RlcmF0b3IiXX0")⟩
    let admin : Message := ⟨"GET", "/me", some (header "eyJhZG1pbiI6dHJ1ZX0")⟩
    let broken : Message := ⟨"PUT", "/nowhere", some (header "e30=")⟩
    ∃ s, ofOptions? { adminKey := some (.dotted "admin") } = .ok s ∧
      AsksFor moderator .document ∧
      claims? (header "eyJzY29wZSI6WyJtb2RlcmF0b3IiXX0") = some (.object [("scope", .array [.string "moderator"])]) ∧
      (s.respond moderator).result.status = 204 ∧
      AsksFor admin .me ∧ claims? (header "eyJhZG1pbiI6dHJ1ZX0") = some (.object [("admin", .bool true)]) ∧
      s.respond admin = .of (.json 200 (.object [("admin", .bool true), ("canAddUsers", .bool false),
        ("granted", .array [])])) ∧
      claims? (header "e30=") = none ∧ (s.respond broken).result.status = 400 := by
  intro header moderator admin broken
  have hmoderator : claims? (header "eyJzY29wZSI6WyJtb2RlcmF0b3IiXX0") =
      some (.object [("scope", .array [.string "moderator"])]) := by decide +kernel
  have hadmin : claims? (header "eyJhZG1pbiI6dHJ1ZX0") = some (.object [("admin", .bool true)]) := by decide +kernel
  have hbroken : claims? (header "e30=") = none := by decide +kernel
  have hdelete : AsksFor moderator .document := by
    have hpath : Target.path moderator.target = "/documents/" ++ "7" := by decide +kernel
    refine ⟨rfl, ?_⟩
    rw [hpath]
    exact .document (by decide) (by decide)
  have hme : AsksFor admin .me := by
    have hpath : Target.path admin.target = "/me" := by decide +kernel
    refine ⟨rfl, ?_⟩
    rw [hpath]
    exact .me
  obtain ⟨s, hs, hanswers, -, hunreadable⟩ := access_table
  refine ⟨s, hs, hdelete, hmoderator, ?_, hme, hadmin, ?_, hbroken, ?_⟩
  · have hgrants := hanswers moderator .document _ _ hdelete nofun rfl hmoderator
    exact (hgrants.2.2 ⟨[.ofText ':' "moderator"]⟩ nofun rfl).1.mpr (.inr rfl)
  · have hgrants := hanswers admin .me _ _ hme nofun rfl hadmin
    obtain ⟨es, hes, hresponse⟩ := (hgrants.2.2 ⟨[]⟩ nofun rfl).2.2 rfl (.inl rfl)
    cases hes
    exact hresponse
  · obtain ⟨response, ⟨hstatus, -⟩, hresponse⟩ := hunreadable broken _ rfl hbroken
    rw [hresponse s]
    exact hstatus

end Service

end Warden
