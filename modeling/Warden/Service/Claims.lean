/-
  Warden.Service.Claims — the claims that a request brings along.

  The header `x-claims` holds the claims as base64url text of JSON, with spaces and tabs
  around it. It is trusted as it is. The claims become the document `{"user": claims}`.
-/

import Warden.Json.Reader
import Warden.Text.Base64Url

namespace Warden.Service

/-- The characters of a header value, if all of them are visible, spaces or tabs. -/
def headerChars? (value : List UInt8) : Option (List Char) :=
  value.mapM fun octet =>
    if octet = 0x09 ∨ 0x20 ≤ octet ∧ octet ≤ 0x7e then some (Char.ofNat octet.toNat) else none

def isHeaderBlank (c : Char) : Bool := c == ' ' || c == '\t'

def trim (cs : List Char) : List Char :=
  ((cs.dropWhile isHeaderBlank).reverse.dropWhile isHeaderBlank).reverse

/-- The claims in a header value. -/
def claims? (value : List UInt8) : Option Json := do
  let cs ← headerChars? value
  let octets ← Text.Base64Url.decode? (trim cs)
  let text ← String.fromUTF8? ⟨octets.toArray⟩
  Json.read? .lastWins text

/-- The document in which guards look for the token. -/
def document (claims : Json) : Json := .object [("user", claims)]

end Warden.Service
