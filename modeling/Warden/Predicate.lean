/-
  Warden.Predicate — checks that a caller supplies.

  A predicate is a function of the granted permissions and of a view of the request. It
  passes, fails or denies; a denial ends the check it is part of. A call is recorded with
  what the predicate was shown and what it answered, and an `Audited` result carries the
  calls that were made for it, in order.
-/

import Warden.Json.Basic
import Warden.Permission
import Warden.Text.Quoted

namespace Warden

/-- What a predicate may see of a request. -/
structure View where
  token : Json
  /-- The claim as found in the token, null if absent. -/
  claim : Json
  /-- The summary of the request. -/
  request : Json
  isAdmin : Bool
  deriving DecidableEq

/-- A refusal with a reason. -/
structure Denial where
  reason : String
  deriving DecidableEq, Repr

abbrev Verdict := Except Denial Bool

structure Predicate where
  name : String := "predicate"
  check : Grants → View → Verdict
  /-- Whether a log of its calls also tells what it was shown. -/
  verbose : Bool := false

/-- A call of a predicate. -/
structure Call where
  predicate : Predicate
  grants : Grants
  view : View
  verdict : Verdict

/-- A result, and the calls made for it. -/
structure Audited (α : Type) where
  calls : List Call
  result : α

namespace Audited

/-- A result for which no predicate was called. -/
def of {α : Type} (result : α) : Audited α := ⟨[], result⟩

def map {α β : Type} (f : α → β) (a : Audited α) : Audited β := ⟨a.calls, f a.result⟩

/-- Goes on with a result, keeping the calls made for it. -/
def bind {α β : Type} (a : Audited α) (f : α → Audited β) : Audited β :=
  ⟨a.calls ++ (f a.result).calls, (f a.result).result⟩

/-- Goes on with a result that is no error. -/
def andThen {ε α β : Type} (a : Audited (Except ε α)) (f : α → Audited (Except ε β)) :
    Audited (Except ε β) :=
  a.bind fun
    | .ok x => f x
    | .error e => of (.error e)

end Audited

/-- The predicate as a diagnostic names it. -/
def Predicate.described (p : Predicate) : String := "Predicate \x7b name: " ++ Text.quoted p.name ++ " \x7d"

/-- Calls a predicate. -/
def Predicate.call (p : Predicate) (grants : Grants) (view : View) : Audited Verdict :=
  let verdict := p.check grants view
  ⟨[⟨p, grants, view, verdict⟩], verdict⟩

end Warden
