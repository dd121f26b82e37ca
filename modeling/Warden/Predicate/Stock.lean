/-
  Warden.Predicate.Stock — ready-made predicates.

  A stock check compares a value of the request, asks for a permission or answers the same
  thing every time. One that is itself badly written, with a path or a permission that cannot
  be read, denies and says so.
-/

import Warden.Argument
import Warden.Claim
import Warden.DocPath

namespace Warden

/-- The documents that a predicate sees. -/
inductive Root where
  | token
  | claim
  | request
  deriving DecidableEq, Repr

def View.root (v : View) : Root → Json
  | .token => v.token
  | .claim => v.claim
  | .request => v.request

inductive StockCheck where
  | constant (answer : Bool)
  | deny (reason : String)
  /-- The request passed the admin check. -/
  | isAdmin
  /-- A document agrees with a value, as a whole or at the end of a path. -/
  | agrees (root : Root) (path : Option PathInput) (value : Json)
  /-- The grants cover a permission, written with the given delimiters. -/
  | covers (permission claimDelimiter scopeDelimiter : String)
  /-- The value is the number of permissions granted, repeated ones included. -/
  | grantCount (value : Json)

namespace StockCheck

/-- Whether the grants cover the permission written as `text`. -/
def coversText (grants : Grants) (text claim scope : String) : Except AccessError Bool := do
  let d ← (Delimiters.of? claim scope).mapError .options
  let p ← (d.permission? text).mapError (.invalidArgument 0 text)
  return grants.contains p

def run (grants : Grants) (view : View) : StockCheck → Verdict
  | constant answer => .ok answer
  | deny reason => .error ⟨reason⟩
  | isAdmin => .ok view.isAdmin
  | agrees root none value => .ok ((view.root root).agrees value)
  | agrees root (some path) value =>
    match DocPath.of? .tokenKey path with
    | .error e => .error ⟨e.message⟩
    | .ok p => .ok ((p.find? (view.root root)).any (·.agrees value))
  | covers text claim scope => (coversText grants text claim scope).mapError fun e => ⟨e.message⟩
  | grantCount value => .ok (value == .number (.integer grants.size))

end StockCheck

def Predicate.ofStock (name : String) (verbose : Bool) (check : StockCheck) : Predicate :=
  ⟨name, fun grants view => check.run grants view, verbose⟩

end Warden
