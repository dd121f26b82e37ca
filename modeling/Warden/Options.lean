/-
  Warden.Options — the options of a guard, before they are checked.

  An option that is not set is taken at its default. The request property is the name under
  which a capability is attached to an admitted request; it can be left unset, disabled or
  given as a path.
-/

import Warden.DocPath
import Warden.Predicate

namespace Warden

inductive Attachment where
  | unset
  | disabled
  | path (p : PathInput)
  deriving DecidableEq, Repr

structure Options where
  tokenKey : Option PathInput := none
  scopeKey : Option PathInput := none
  adminKey : Option PathInput := none
  claimDelimiter : Option String := none
  claimScopeDelimiter : Option String := none
  credentialsRequired : Option Bool := none
  scopeRequired : Option Bool := none
  requestProperty : Attachment := .unset
  adminPredicate : Option Predicate := none

end Warden
