/-
  Warden.Request — requests and the capabilities attached to them.

  A request has a document in which the token is looked up, if authentication left one, and
  a summary for predicates to read. An admitted request carries capabilities, each under a
  property; a later one under the same property takes the place of an earlier one. The first
  one also brings the place where they are held: a request without one and a request with an
  empty one answer every look-up alike, but a handler that asks for the place itself can tell.

  - `attached?_attach_self` / `attached?_attach_ne`: a look-up after an attachment.
  - `attached?_of_held_none`, `held_of_attached?`: a look-up, and whether there is a place.
-/

import Warden.Policy
import Warden.Rule

namespace Warden

/-- What an admitted request may do: the context it was checked in and the policy it was checked under. -/
structure Capability where
  context : Context
  policy : Policy

namespace Capability

def isAdmin (c : Capability) : Bool := c.context.view.isAdmin

def grants (c : Capability) : Grants := c.context.grants

/-- Whether the request passes all arguments. The admin flag is for predicates to read and lets nothing pass. -/
def has (c : Capability) (args : List Argument) : Audited (Except AccessError Bool) :=
  match Rule.ofArguments? c.policy.delimiters args with
  | .error e => .of (.error e)
  | .ok rule => (rule.eval c.context).map (·.mapError fun d => .forbidden (.denied d.reason))

end Capability

structure Request where
  document : Option Json
  summary : Json := .null
  /-- The place where capabilities are attached, each under its property. There is none before the first one. -/
  held : Option (List (String × Capability)) := none

namespace Request

/-- The capabilities attached, the last one first. -/
def attached (q : Request) : List (String × Capability) := q.held.getD []

/-- Attaches a capability, and makes the place for it if it is the first. -/
def attach (q : Request) (property : DocPath) (c : Capability) : Request :=
  { q with held := some ((property.dotted, c) :: q.attached) }

def attached? (q : Request) (property : String) : Option Capability := q.attached.lookup property

@[simp] theorem attached?_attach_self (q : Request) (property : DocPath) (c : Capability) :
    (q.attach property c).attached? property.dotted = some c := by
  simp [attached?, attached, attach]

theorem attached?_attach_ne (q : Request) {property : DocPath} {other : String} (h : other ≠ property.dotted)
    (c : Capability) : (q.attach property c).attached? other = q.attached? other := by
  have hb : (other == property.dotted) = false := by simpa using h
  simp [attached?, attached, attach, List.lookup_cons, hb]

theorem attached?_of_held_none {q : Request} (h : q.held = none) (property : String) : q.attached? property = none := by
  rw [attached?, attached, h]
  rfl

theorem held_of_attached? {q : Request} {property : String} {c : Capability} (h : q.attached? property = some c) :
    ∃ held, q.held = some held ∧ held.lookup property = some c := by
  cases hq : q.held with
  | none =>
    rw [attached?_of_held_none hq] at h
    cases h
  | some held =>
    rw [attached?, attached, hq] at h
    exact ⟨held, rfl, h⟩

end Request

end Warden
