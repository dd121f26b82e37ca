/-
  Warden.Proofs.Http.Disclosure — what the answer to a refused request gives away.

  A refusal is answered with a report of its code and of a message. For a malformed claim the
  message is masked, and for a missing token it is fixed, so that any two such answers are the
  same, whatever the requests and the routes. A request that is turned down is told the reason
  in a JSON text that is read back to it: the words of the predicate that denied, which is the
  last one called, or one of two fixed texts if none did.

  - `through_told`: what a stack says of its calls is what the route that refuses says of them.
  - `response_eq_of_kin`: refusals that are answered alike.
  - `read?_report`: a report is read back from its body.
  - `refusals_tell`: all of this about the answers.
-/

import Warden.Predicate.Stock
import Warden.Proofs.Http.Mediation
import Warden.Proofs.Json.ReadBack
import Warden.Proofs.Refusal

namespace Warden.Http

open Route
open Rule (Answered)

variable {routes others : List Route} {p q : Request}

/-! ## Along a stack -/

theorem through_told (routes : List Route) (q : Request) : Told (through routes q).calls (through routes q).result := by
  induction routes generalizing q with
  | nil => exact told_ok q
  | cons r inner ih => exact (examine_told r q).andThen fun _ => ih (r.examine q).2

theorem noToken_of_unauthorized {fault : CredentialFault}
    (h : (through routes q).result = .error (.unauthorized fault)) : fault = .noToken := by
  have ht := through_told routes q
  rw [h] at ht
  generalize (through routes q).calls = calls at ht
  cases ht with
  | unprompted _ he => cases he; rfl

/-- The reason for turning a request down. -/
theorem forbidden_reason {cause : DenialCause} (h : (through routes q).result = .error (.forbidden cause)) :
    (∃ c d, (through routes q).calls.getLast? = some c ∧ c.verdict = .error d ∧ cause.reason = d.reason) ∨
      (∀ c ∈ (through routes q).calls, Answered c) ∧
        (cause.reason = "Permission denied" ∨ cause.reason = "Permission denied: the token grants no permissions") := by
  have ht := through_told routes q
  rw [h] at ht
  generalize (through routes q).calls = calls at ht ⊢
  cases ht with
  | unprompted hc he =>
    cases he with
    | nothingGranted => exact .inr ⟨hc, .inr rfl⟩
    | ruleFailed => exact .inr ⟨hc, .inl rfl⟩
  | denied _ hd => exact .inl ⟨_, _, List.getLast?_concat, hd, rfl⟩

/-- Both errors are malformed claims, or both are missing tokens. -/
inductive Kin : AccessError → AccessError → Prop
  | malformed (fault fault' : ClaimFault) : Kin (.dataIntegrity fault) (.dataIntegrity fault')
  | noToken (fault fault' : CredentialFault) : Kin (.unauthorized fault) (.unauthorized fault')

theorem response_eq_of_kin {e e' : AccessError} (hp : (through routes p).result = .error e)
    (hq : (through others q).result = .error e') (h : Kin e e') : e.response = e'.response := by
  cases h with
  | malformed => rfl
  | noToken => rw [noToken_of_unauthorized hp, noToken_of_unauthorized hq]

/-! ## Reports -/

theorem object?_report (duplicates : Json.Duplicates) (code message : Json) :
    Json.Reader.object? duplicates [("error", code), ("message", message)] =
      some (.object [("error", code), ("message", message)]) := by
  have hdup : Json.Reader.hasDuplicate ["error", "message"] = false := by decide
  have hlt : ¬ "message" < "error" := by decide
  simp [Json.Reader.object?, hdup, Json.ofMembers, Json.insert, hlt]

theorem read?_report (status : Nat) (code message : String) (duplicates : Json.Duplicates) :
    Json.read? duplicates (Response.report status code message).body =
      some (.object [("error", .string code), ("message", .string message)]) := by
  refine Json.read?_texts (by simp) (fun m hm => ?_) (object?_report duplicates _ _)
  rcases List.mem_cons.mp hm with rfl | hm
  · exact ⟨code, rfl⟩
  · exact ⟨message, by rw [List.mem_singleton.mp hm]⟩

/-! ## Answers -/

/-- Any two requests that are refused for a malformed claim get the same answer, whatever the routes,
    the handlers and the faults, and so do any two that are refused for a missing token. A request
    that is turned down is answered with status 403 and a body that is read back as an object of the
    code and the reason: that of the last call if it denied, and otherwise no call did and the
    reason is one of two texts. -/
theorem refusals_tell (routes others : List Route) (handler other : Request → Audited Response) (p q : Request) :
    (∀ fault fault', (through routes p).result = .error (.dataIntegrity fault) →
      (through others q).result = .error (.dataIntegrity fault') →
      (respond routes handler p).result = (respond others other q).result) ∧
    (∀ fault fault', (through routes p).result = .error (.unauthorized fault) →
      (through others q).result = .error (.unauthorized fault') →
      (respond routes handler p).result = (respond others other q).result) ∧
    ∀ cause, (through routes p).result = .error (.forbidden cause) →
      (respond routes handler p).result.status = 403 ∧
      ∃ message,
        (∀ duplicates, Json.read? duplicates (respond routes handler p).result.body =
          some (.object [("error", .string "forbidden"), ("message", .string message)])) ∧
        ((∃ c d, (respond routes handler p).calls.getLast? = some c ∧ c.verdict = .error d ∧ message = d.reason) ∨
          (∀ c ∈ (respond routes handler p).calls, Answered c) ∧
            (message = "Permission denied" ∨ message = "Permission denied: the token grants no permissions")) := by
  refine ⟨fun fault fault' hp hq => ?_, fun fault fault' hp hq => ?_, fun cause hp => ?_⟩
  · rw [respond_error hp, respond_error hq]
    exact response_eq_of_kin hp hq (.malformed fault fault')
  · rw [respond_error hp, respond_error hq]
    exact response_eq_of_kin hp hq (.noToken fault fault')
  · rw [respond_error hp]
    exact ⟨rfl, cause.reason, fun duplicates => read?_report _ _ _ duplicates, forbidden_reason hp⟩

/-- A reason with quotation marks, a backslash and a control character is read back as it is, and
    two claims that are malformed in different ways are answered alike by different routes. -/
theorem refusals_tell_reason :
    let reason := "not \"yours\" \\ \x07"
    let deny := Predicate.ofStock "deny" false (.deny reason)
    let withScope (scope : Json) : Request := { document := some (.object [("user", .object [("scope", scope)])]) }
    ∃ policy r s, Policy.of? {} = .ok policy ∧ declare? policy [.predicate deny] = .ok r ∧
      declare? policy [.permission "read"] = .ok s ∧
      ∀ handler, (respond [r] handler (withScope (.string "read"))).result.status = 403 ∧
        (∀ duplicates, Json.read? duplicates (respond [r] handler (withScope (.string "read"))).result.body =
          some (.object [("error", .string "forbidden"), ("message", .string reason)])) ∧
        (respond [r] handler (withScope (.bool true))).result =
          (respond [s, r] handler (withScope (.array [.string "a b"]))).result := by
  intro reason deny withScope
  have hrun : ∃ policy r s fault fault', Policy.of? {} = .ok policy ∧ declare? policy [.predicate deny] = .ok r ∧
      declare? policy [.permission "read"] = .ok s ∧
      (through [r] (withScope (.string "read"))).result = .error (.forbidden (.denied reason)) ∧
      (through [r] (withScope (.string "read"))).calls.map (·.verdict) = [.error ⟨reason⟩] ∧
      (through [r] (withScope (.bool true))).result = .error (.dataIntegrity fault) ∧
      (through [s, r] (withScope (.array [.string "a b"]))).result = .error (.dataIntegrity fault') := by
    dsimp only [reason, deny, withScope]
    exact ⟨_, _, _, _, _, rfl, rfl, rfl, rfl, rfl, rfl, rfl⟩
  obtain ⟨policy, r, s, fault, fault', hpolicy, hr, hs, hdenied, hcalls, hbad, hworse⟩ := hrun
  refine ⟨policy, r, s, hpolicy, hr, hs, fun handler => ?_⟩
  obtain ⟨hstatus, message, hbody, hmessage⟩ :=
    (refusals_tell [r] [] handler handler (withScope (.string "read")) (withScope .null)).2.2 _ hdenied
  have halike := (refusals_tell [r] [s, r] handler handler _ _).1 fault fault' hbad hworse
  refine ⟨hstatus, ?_, halike⟩
  obtain ⟨last, hlast, hverdict⟩ := List.map_eq_singleton_iff.mp hcalls
  rw [respond_error hdenied, hlast] at hmessage
  rcases hmessage with ⟨c, d, hc, hd, rfl⟩ | ⟨hall, -⟩
  · cases hc
    cases hd.symm.trans hverdict
    exact hbody
  · obtain ⟨b, hb⟩ := hall last (List.mem_singleton.mpr rfl)
    rw [hverdict] at hb
    cases hb

end Warden.Http
