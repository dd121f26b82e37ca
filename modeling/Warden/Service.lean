/-
  Warden.Service — a document service behind permission guards.

  Reading documents, one's own account and the feed takes `read`, and the feed is closed to
  the `suspended`; adding a user takes `user:add`; deleting a document takes `write` or
  `moderator`; the admin page is for admins only. The health of the service is open to all.

  A header of claims that cannot be read is answered before anything else. A known path with
  another method is still guarded, and its answer names the methods that the path has.
-/

import Warden.Http.Layers
import Warden.Http.Target
import Warden.Service.Claims
import Warden.Service.Endpoint

namespace Warden

/-- The guards of the service. -/
structure Service where
  read : Route
  addUser : Route
  remove : Route
  feed : Route
  admin : Route

namespace Service

open Http

def version : String := "0.1.0"

/-- The guards under a policy, set up in the order of the fields. -/
def ofPolicy? (policy : Policy) : Except AccessError Service := do
  let read ← Route.declare? policy [.permission "read"]
  let addUser ← Route.declare? policy [.permission "user:add"]
  let remove ← Route.build? policy [.permission "write"] [.or [.permission "moderator"]]
  let feed ← Route.build? policy [.permission "read"] [.butNot [.permission "suspended"]]
  let admin ← Route.declare? policy []
  return { read, addUser, remove, feed, admin }

def ofOptions? (o : Options) : Except AccessError Service := do
  ofPolicy? (← (Policy.of? o).mapError .options)

/-- The guard of an endpoint. -/
def guard? (s : Service) : Endpoint → Option Route
  | .documents | .me => some s.read
  | .users => some s.addUser
  | .document => some s.remove
  | .feed => some s.feed
  | .admin => some s.admin
  | .health => none

/-! ## Handlers -/

/-- The answer to a handler that asks for capabilities where none was ever attached. -/
def nothingAttached : Response :=
  .plain 500 ("Missing request extension: Extension of type " ++
    "`cretoai_permissions::guard::request::AttachedPermissions` was not found. " ++
    "Perhaps you forgot to add it? See `axum::Extension`.")

/-- The caller's account, from the capability under `permissions`. -/
def account (q : Request) : Audited Response :=
  match q.held with
  | none => .of nothingAttached
  | some held =>
    match held.lookup "permissions" with
    | none => .of (.json 200 (.object [("admin", .bool false), ("granted", .array [])]))
    | some c =>
      (c.has [.permission "user:add"]).map fun canAddUsers =>
        .json 200 (.object [
          ("admin", .bool c.isAdmin),
          ("canAddUsers", .bool (canAddUsers matches .ok true)),
          ("granted", .array (c.grants.texts.map .string))])

def handle (q : Request) : Endpoint → Audited Response
  | .documents => .of (.plain 200 "documents")
  | .me => account q
  | .users => .of (.empty 201)
  | .document => .of (.empty 204)
  | .feed => .of (.plain 200 "feed")
  | .admin => .of (.plain 200 "admin")
  | .health => .of (.json 200 (.object [("status", .string "healthy"), ("version", .string version)]))

/-! ## Answers -/

/-- A request as it arrives. -/
structure Message where
  method : String
  target : String
  /-- The octets of the claims header. -/
  claims : Option (List UInt8)

/-- The document that a claims header stands for, if it can be read: none without a header. -/
def documentOf? : Option (List UInt8) → Option (Option Json)
  | none => some none
  | some value => (claims? value).map fun claims => some (document claims)

def badClaims : Response := .report 400 "bad_request" "x-claims must be base64url-encoded JSON"

/-- The answer of an endpoint behind its guard. -/
def answer (s : Service) (e : Endpoint) (method : String) (q : Request) : Audited Response :=
  Http.respond (s.guard? e).toList (fun q => if e.answers method then handle q e else .of (.empty 405)) q

/-- An answer as it leaves an endpoint: with the methods allowed if it was another one, without body for HEAD. -/
def finish (e : Endpoint) (method : String) (r : Response) : Response :=
  if !e.answers method then { r with allow := some e.allowed }
  else if method = "HEAD" then { r with body := "" }
  else r

def respond (s : Service) (m : Message) : Audited Response :=
  let path := Target.path m.target
  match Endpoint.ofPath? path, documentOf? m.claims with
  | none, none => .of badClaims
  | none, some _ => .of (.empty 404)
  | some e, none => .of (finish e m.method badClaims)
  | some e, some document =>
    (s.answer e m.method { document, summary := summary m.method path }).map (finish e m.method)

end Service

end Warden
