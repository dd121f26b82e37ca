/-
  Warden.Json.Printer — compact JSON text.

  No blank is written. In strings the quotation mark, the backslash and the control
  characters below the space are escaped, by a letter where there is one and by four lower
  case hexadecimal digits where there is none; every other character stands for itself.
-/

import Warden.Json.Basic
import Warden.Double.Shortest

namespace Warden.Json

/-- The character as it stands inside a written string. -/
def escape (c : Char) : List Char :=
  if c = '"' then ['\\', '"']
  else if c = '\\' then ['\\', '\\']
  else if c = '\n' then ['\\', 'n']
  else if c = '\r' then ['\\', 'r']
  else if c = '\t' then ['\\', 't']
  else if c = '\x08' then ['\\', 'b']
  else if c = '\x0c' then ['\\', 'f']
  else if c.toNat < 0x20 then
    ['\\', 'u', '0', '0', Nat.digitChar (c.toNat / 16), Nat.digitChar (c.toNat % 16)]
  else [c]

def quoted (s : String) : List Char := '"' :: s.toList.flatMap escape ++ ['"']

def Number.chars : Number → List Char
  | .integer n => (if n < 0 then ['-'] else []) ++ Nat.toDigits 10 n.natAbs
  | .double d => d.chars

mutual

def chars : Json → List Char
  | .null => ['n', 'u', 'l', 'l']
  | .bool true => ['t', 'r', 'u', 'e']
  | .bool false => ['f', 'a', 'l', 's', 'e']
  | .number n => n.chars
  | .string s => quoted s
  | .array items => '[' :: charsItems items ++ [']']
  | .object members => '{' :: charsMembers members ++ ['}']

def charsItems : List Json → List Char
  | [] => []
  | [item] => chars item
  | item :: items => chars item ++ ',' :: charsItems items

def charsMembers : List (String × Json) → List Char
  | [] => []
  | [(key, value)] => quoted key ++ ':' :: chars value
  | (key, value) :: members => quoted key ++ ':' :: chars value ++ ',' :: charsMembers members

end

/-- The compact text of a value. -/
def text (v : Json) : String := String.ofList v.chars

end Warden.Json
