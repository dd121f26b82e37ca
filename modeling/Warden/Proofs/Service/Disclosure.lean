/-
  Warden.Proofs.Service.Disclosure — what the answers of the document service to refused requests
  give away.

  Around the guard of an endpoint stands the router, which answers a known path with another
  method as well: the guard decides first, and the answer names the methods of the path,
  whatever became of the request. So of two requests that are refused for a malformed claim,
  or for a missing token, the answers can tell the methods of the paths apart, which the
  requests name themselves, and nothing else. The answer to HEAD is kept out: it has no body
  where HEAD is one of the methods.

  - `finish_eq`: what the router makes of an answer.
  - `refusals_agree`: two such answers agree but for the methods they name.
  - `refusals_agree_across_methods`: two that differ in those.
-/

import Warden.Proofs.Http.Disclosure
import Warden.Proofs.Service.Access

namespace Warden.Service

open Http

variable {s s' : Service} {m m' : Message} {e e' : Endpoint} {error error' : AccessError}

/-- The message asks for the endpoint, by any method, and the guard refuses it with the error. -/
structure Refuses (s : Service) (m : Message) (e : Endpoint) (error : AccessError) : Prop where
  path : Endpoint.ofPath? (Target.path m.target) = some e
  refused : ∃ document r, documentOf? m.claims = some document ∧ s.guard? e = some r ∧
    (r.examine (m.request document)).1.result = .error error

/-- The methods that the answer to a method names. -/
def Endpoint.named (e : Endpoint) (method : String) : Option String :=
  if e.answers method then none else some e.allowed

theorem finish_eq (e : Endpoint) {method : String} (hm : method ≠ "HEAD") {response : Response}
    (hr : response.allow = none) : finish e method response = { response with allow := e.named method } := by
  unfold finish Endpoint.named
  cases e.answers method with
  | false => rfl
  | true =>
    rw [if_neg (by decide), if_neg hm, if_pos rfl, ← hr]

theorem through_guard {r : Route} {q : Request} (h : (r.examine q).1.result = .error error) :
    (through [r] q).result = .error error := by
  rw [through_cons, Audited.andThen_error h]

theorem respond_refuses (h : Refuses s m e error) : (s.respond m).result = finish e m.method error.response := by
  obtain ⟨document, r, hd, hr, hrefused⟩ := h.refused
  have hanswer : (s.answer e m.method (m.request document)).result = error.response := by
    rw [answer, hr, Option.toList_some, respond_error (through_guard hrefused)]
  simp only [respond, h.path, hd, Audited.result_map]
  exact congrArg (finish e m.method) hanswer

/-- Two requests that are refused for a malformed claim, or for a missing token, by services under any
    policies and at any endpoints, get the same answer but for the methods that it names, and
    those are told by the method and the path that were asked for. -/
theorem refusals_agree (h : Refuses s m e error) (h' : Refuses s' m' e' error') (hk : Kin error error')
    (hm : m.method ≠ "HEAD") (hm' : m'.method ≠ "HEAD") :
    (s.respond m).result = { (s'.respond m').result with allow := e.named m.method } ∧
      (s'.respond m').result.allow = e'.named m'.method := by
  obtain ⟨document, r, -, -, hrefused⟩ := h.refused
  obtain ⟨document', r', -, -, hrefused'⟩ := h'.refused
  have hsame : error.response = error'.response :=
    response_eq_of_kin (through_guard hrefused) (through_guard hrefused') hk
  rw [respond_refuses h, respond_refuses h', finish_eq e hm rfl, finish_eq e' hm' rfl, hsame]
  exact ⟨rfl, rfl⟩

/-- A claim that is a number and one with a blank in it: of the two answers only that to POST names
    the methods of its path, and that is all the difference there is. -/
theorem refusals_agree_across_methods :
    let header (text : String) : List UInt8 := text.toList.map fun c => c.toNat.toUInt8
    let number : Message := ⟨"GET", "/documents", some (header "eyJzY29wZSI6MX0")⟩
    let blank : Message := ⟨"POST", "/me?all", some (header "eyJzY29wZSI6ImEgYiJ9")⟩
    ∃ s, ofOptions? { adminKey := some (.dotted "admin") } = .ok s ∧
      (s.respond number).result = { (s.respond blank).result with allow := none } ∧
      (s.respond blank).result.allow = some "GET,HEAD" := by
  intro header number blank
  have hnumber : claims? (header "eyJzY29wZSI6MX0") = some (.object [("scope", .number (.integer 1))]) := by
    decide +kernel
  have hblank : claims? (header "eyJzY29wZSI6ImEgYiJ9") = some (.object [("scope", .string "a b")]) := by
    decide +kernel
  let document (claims : Json) : Option Json := some (.object [("user", claims)])
  obtain ⟨s, r, r', fault, fault', hs, hr, hr', hrefused, hrefused'⟩ : ∃ s r r' fault fault',
      ofOptions? { adminKey := some (.dotted "admin") } = .ok s ∧ s.guard? .documents = some r ∧ s.guard? .me = some r' ∧
      (r.examine (number.request (document (.object [("scope", .number (.integer 1))])))).1.result =
        .error (.dataIntegrity fault) ∧
      (r'.examine (blank.request (document (.object [("scope", .string "a b")])))).1.result =
        .error (.dataIntegrity fault') := ⟨_, _, _, _, _, rfl, rfl, rfl, rfl, rfl⟩
  have h : Refuses s number .documents (.dataIntegrity fault) := by
    refine ⟨by decide +kernel, _, r, ?_, hr, hrefused⟩
    rw [documentOf?, hnumber]
    rfl
  have h' : Refuses s blank .me (.dataIntegrity fault') := by
    refine ⟨by decide +kernel, _, r', ?_, hr', hrefused'⟩
    rw [documentOf?, hblank]
    rfl
  obtain ⟨hsame, hallow⟩ := refusals_agree h h' (.malformed fault fault') (by decide) (by decide)
  exact ⟨s, hs, hsame, hallow⟩

end Warden.Service
