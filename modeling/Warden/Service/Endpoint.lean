/-
  Warden.Service.Endpoint — what the document service can be asked for.

  An endpoint has a path and a method; one that can be read with GET can be asked for with
  HEAD as well. A document is named by one segment of the path, which is not empty.
-/

namespace Warden.Service

inductive Endpoint where
  /-- `GET /documents` -/
  | documents
  /-- `GET /me` -/
  | me
  /-- `POST /users` -/
  | users
  /-- `DELETE /documents/:id` -/
  | document
  /-- `GET /feed` -/
  | feed
  /-- `GET /admin` -/
  | admin
  /-- `GET /health` -/
  | health
  deriving DecidableEq, Repr

namespace Endpoint

/-- Whether a path is that of one document. -/
def namesDocument (path : String) : Bool :=
  match path.toList with
  | '/' :: 'd' :: 'o' :: 'c' :: 'u' :: 'm' :: 'e' :: 'n' :: 't' :: 's' :: '/' :: id => id != [] && !id.contains '/'
  | _ => false

def ofPath? (path : String) : Option Endpoint :=
  if path = "/documents" then some documents
  else if path = "/me" then some me
  else if path = "/users" then some users
  else if path = "/feed" then some feed
  else if path = "/admin" then some admin
  else if path = "/health" then some health
  else if namesDocument path then some document
  else none

def method : Endpoint → String
  | users => "POST"
  | document => "DELETE"
  | _ => "GET"

def answers (e : Endpoint) (method : String) : Bool :=
  method == e.method || (method == "HEAD" && e.method == "GET")

/-- The methods of the endpoint, for the answer to another method. -/
def allowed (e : Endpoint) : String := if e.method = "GET" then "GET,HEAD" else e.method

end Endpoint

end Warden.Service
