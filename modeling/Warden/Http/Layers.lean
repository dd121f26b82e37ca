/-
  Warden.Http.Layers — routes around a handler.

  A stack of routes guards one handler. The outermost route decides first and what it
  attaches is there for the next one; a request that all admit reaches the handler with
  everything attached, and the first refusal is the answer. A stack is set up from the
  inside: of several faulty routes the innermost is reported.
-/

import Warden.Http.Response
import Warden.Route

namespace Warden.Http

/-- The summary of a request that predicates read. -/
def summary (method path : String) : Json := .object [("method", .string method), ("path", .string path)]

/-- The routes of a stack, outermost first, each of which may have failed to be set up. -/
def stack? : List (Except AccessError Route) → Except AccessError (List Route)
  | [] => .ok []
  | route :: inner => do
    let inner ← stack? inner
    let route ← route
    return route :: inner

/-- The request as it reaches the handler behind the routes, outermost first. -/
def through : List Route → Request → Audited (Except AccessError Request)
  | [], q => .of (.ok q)
  | route :: inner, q =>
    let (decision, q) := route.examine q
    decision.andThen fun _ => through inner q

/-- The answer of a handler behind routes. -/
def respond (routes : List Route) (handler : Request → Audited Response) (q : Request) : Audited Response :=
  (through routes q).bind fun
    | .ok q => handler q
    | .error e => .of e.response

end Warden.Http
