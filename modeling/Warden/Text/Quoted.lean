/-
  Warden.Text.Quoted — text in quotation marks, for messages.

  The quotation mark, the backslash, the tab, the line feed, the carriage return and NUL have
  a two-character escape. Any other invisible character is written as its code point in
  braces, and a visible one stands for itself.
-/

import Warden.Text.Invisible

namespace Warden.Text

def escapeQuoted (c : Char) : List Char :=
  if c = '"' ∨ c = '\\' then ['\\', c]
  else if c = '\n' then ['\\', 'n']
  else if c = '\r' then ['\\', 'r']
  else if c = '\t' then ['\\', 't']
  else if c = '\x00' then ['\\', '0']
  else if isInvisible c then ['\\', 'u', '{'] ++ Nat.toDigits 16 c.toNat ++ ['}']
  else [c]

def quoted (s : String) : String := String.ofList ('"' :: s.toList.flatMap escapeQuoted ++ ['"'])

end Warden.Text
