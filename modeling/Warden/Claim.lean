/-
  Warden.Claim — the permissions that the claim of a token grants.

  A claim is a text with the claim delimiter between its permissions, or an array of texts.
  Null and the empty text grant nothing, and so does the empty array. A claim is read as a
  whole: one element that is no granted permission spoils it. In an array, an item that is no
  text is reported before any text that is no permission.
-/

import Warden.Grammar

namespace Warden

namespace Claim

/-- The texts of array items, the first of which has the given index. -/
def strings (index : Nat) : List Json → Except ClaimFault (List String)
  | [] => .ok []
  | .string s :: items => (strings (index + 1) items).map (s :: ·)
  | item :: _ => .error (.notString index item)

/-- The elements of a claim. -/
def elements (delimiter : Char) : Json → Except ClaimFault (List String)
  | .null => .ok []
  | .string s => .ok (if s = "" then [] else Text.pieces delimiter s)
  | .array items => strings 0 items
  | claim => .error (.wrongType claim)

end Claim

namespace Delimiters

/-- The granted permission that a text is. -/
def granted? (d : Delimiters) (s : String) : Except ClaimFault Permission :=
  if d.isGranted s then .ok (.ofText d.scope s) else .error (.notPermission s)

/-- What a claim grants. -/
def grants? (d : Delimiters) (claim : Json) : Except ClaimFault Grants := do
  let elements ← Claim.elements d.claim claim
  let permissions ← elements.mapM d.granted?
  return ⟨permissions⟩

end Delimiters

end Warden
