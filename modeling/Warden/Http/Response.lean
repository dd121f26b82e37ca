/-
  Warden.Http.Response — HTTP answers.

  An error is answered with its status and a JSON body of its code and message; a message
  that is not for clients is masked.
-/

import Warden.Error

namespace Warden.Http

structure Response where
  status : Nat
  contentType : Option String := none
  /-- The methods that the path knows, on an answer to another one. -/
  allow : Option String := none
  body : String := ""
  deriving DecidableEq, Repr

namespace Response

def empty (status : Nat) : Response := ⟨status, none, none, ""⟩

def plain (status : Nat) (body : String) : Response := ⟨status, some "text/plain; charset=utf-8", none, body⟩

def json (status : Nat) (body : Json) : Response := ⟨status, some "application/json", none, body.text⟩

/-- An error report: a code for machines and a message for people. -/
def report (status : Nat) (code message : String) : Response :=
  json status (.object [("error", .string code), ("message", .string message)])

end Response

end Warden.Http

namespace Warden.AccessError

/-- The message as a client reads it. -/
def publicMessage (e : AccessError) : String := if e.exposed then e.message else "Internal server error"

def response (e : AccessError) : Http.Response := .report e.status e.code e.publicMessage

end Warden.AccessError
