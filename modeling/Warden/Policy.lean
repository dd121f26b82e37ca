/-
  Warden.Policy — checked options, shared by the routes of a guard.

  `Policy.of?` fills in the defaults and checks the options one after another: token path,
  scope path, admin check, delimiters, request property. The first fault is reported.
-/

import Warden.Delimiters
import Warden.Options

namespace Warden

/-- How a request is found to be an admin's. -/
inductive AdminCheck where
  /-- The value at this path of the token is true. -/
  | path (p : DocPath)
  | predicate (p : Predicate)

structure Policy where
  tokenKey : DocPath
  scopeKey : DocPath
  admin : Option AdminCheck
  delimiters : Delimiters
  credentialsRequired : Bool
  scopeRequired : Bool
  requestProperty : Option DocPath

namespace Policy

def adminCheck? : Option PathInput → Option Predicate → Except OptionsError (Option AdminCheck)
  | some _, some _ => .error (.invalidAdmin .pathAndPredicate)
  | some path, none => (DocPath.of? .adminKey path).map fun p => some (.path p)
  | none, some p => .ok (some (.predicate p))
  | none, none => .ok none

def requestProperty? : Attachment → Except OptionsError (Option DocPath)
  | .unset => (DocPath.of? .requestProperty (.dotted "permissions")).map some
  | .disabled => .ok none
  | .path p => (DocPath.of? .requestProperty p).map some

def of? (o : Options) : Except OptionsError Policy := do
  let tokenKey ← DocPath.of? .tokenKey (o.tokenKey.getD (.dotted "user"))
  let scopeKey ← DocPath.of? .scopeKey (o.scopeKey.getD (.dotted "scope"))
  let admin ← adminCheck? o.adminKey o.adminPredicate
  let delimiters ← Delimiters.of? (o.claimDelimiter.getD ",") (o.claimScopeDelimiter.getD ":")
  let requestProperty ← requestProperty? o.requestProperty
  return {
    tokenKey, scopeKey, admin, delimiters, requestProperty
    credentialsRequired := o.credentialsRequired.getD true
    scopeRequired := o.scopeRequired.getD false }

end Policy

end Warden
