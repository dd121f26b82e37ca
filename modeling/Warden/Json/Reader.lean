/-
  Warden.Json.Reader — strict reading of JSON text.

  Blank is space, tab, line feed and carriage return. A string holds no raw control
  character, and a `\u` escape of a surrogate is the first half of a pair or an error. At
  most 127 arrays and objects stand inside one another; that bound is what the reader
  recurses on. An object that gives a key twice keeps the last value or is refused, as the
  caller says. Text after the value is an error.
-/

import Warden.Json.Literal

namespace Warden.Json

/-- What becomes of an object that gives a key twice. -/
inductive Duplicates where
  | lastWins
  | refused
  deriving DecidableEq

namespace Reader

/-- What is read at the front of a text, and the text after it. -/
abbrev Step (α : Type) := List Char → Option (α × List Char)

def isBlank (c : Char) : Bool := c == ' ' || c == '\t' || c == '\n' || c == '\r'

def skip (cs : List Char) : List Char := cs.dropWhile isBlank

/-! ## Strings -/

/-- One element of a string: a character, or the 16-bit unit of a `\u` escape. -/
inductive Element where
  | char (c : Char)
  | unit (n : Nat)

def hexDigit? (c : Char) : Option Nat :=
  if c.isDigit then some (c.toNat - 48)
  else if 'a' ≤ c ∧ c ≤ 'f' then some (c.toNat - 87)
  else if 'A' ≤ c ∧ c ≤ 'F' then some (c.toNat - 55)
  else none

def unit? (a b c d : Char) : Option Nat := do
  return 4096 * (← hexDigit? a) + 256 * (← hexDigit? b) + 16 * (← hexDigit? c) + (← hexDigit? d)

/-- The character that a backslash and a letter stand for. -/
def unescape? (c : Char) : Option Char :=
  if c = '"' ∨ c = '\\' ∨ c = '/' then some c
  else if c = 'b' then some '\x08'
  else if c = 'f' then some '\x0c'
  else if c = 'n' then some '\n'
  else if c = 'r' then some '\r'
  else if c = 't' then some '\t'
  else none

/-- The elements up to the closing quotation mark. -/
def elements : Step (List Element)
  | [] => none
  | '"' :: rest => some ([], rest)
  | '\\' :: 'u' :: a :: b :: c :: d :: rest => do
    let n ← unit? a b c d
    let (es, rest) ← elements rest
    some (.unit n :: es, rest)
  | '\\' :: c :: rest => do
    let c ← unescape? c
    let (es, rest) ← elements rest
    some (.char c :: es, rest)
  | c :: rest =>
    if c.toNat < 0x20 then none
    else do
      let (es, rest) ← elements rest
      some (.char c :: es, rest)

def isHigh (n : Nat) : Bool := 0xD800 ≤ n && n < 0xDC00

def isLow (n : Nat) : Bool := 0xDC00 ≤ n && n < 0xE000

/-- The characters of the elements, halves of surrogate pairs put together. -/
def combine : List Element → Option (List Char)
  | [] => some []
  | .char c :: es => (c :: ·) <$> combine es
  | .unit h :: .unit l :: es =>
    if isHigh h then
      if isLow l then (Char.ofNat (0x10000 + 1024 * (h - 0xD800) + (l - 0xDC00)) :: ·) <$> combine es
      else none
    else if isLow h then none
    else (Char.ofNat h :: ·) <$> combine (.unit l :: es)
  | .unit n :: es => if isHigh n || isLow n then none else (Char.ofNat n :: ·) <$> combine es

/-- A string, from behind its opening quotation mark. -/
def string : Step String := fun cs => do
  let (es, rest) ← elements cs
  let content ← combine es
  some (String.ofList content, rest)

/-! ## Values -/

/-- Items up to the closing bracket, one or more. -/
def items (value : Step Json) (cs : List Char) : Option (List Json × List Char) :=
  match value cs with
  | none => none
  | some (v, rest) =>
    match skip rest with
    | ']' :: rest => some ([v], rest)
    | ',' :: rest =>
      if rest.length < cs.length then (items value rest).map fun (vs, rest) => (v :: vs, rest) else none
    | _ => none
termination_by cs.length

/-- A member: key, colon, value. -/
def member (value : Step Json) : Step (String × Json) := fun cs =>
  match skip cs with
  | '"' :: rest => do
    let (key, rest) ← string rest
    match skip rest with
    | ':' :: rest =>
      let (v, rest) ← value rest
      some ((key, v), rest)
    | _ => none
  | _ => none

/-- Members up to the closing brace, one or more. -/
def members (value : Step Json) (cs : List Char) : Option (List (String × Json) × List Char) :=
  match member value cs with
  | none => none
  | some (m, rest) =>
    match skip rest with
    | '}' :: rest => some ([m], rest)
    | ',' :: rest =>
      if rest.length < cs.length then (members value rest).map fun (ms, rest) => (m :: ms, rest) else none
    | _ => none
termination_by cs.length

def hasDuplicate : List String → Bool
  | [] => false
  | k :: ks => ks.contains k || hasDuplicate ks

def object? (duplicates : Duplicates) (ms : List (String × Json)) : Option Json :=
  if duplicates = .refused ∧ hasDuplicate (ms.map (·.1)) then none else some (ofMembers ms)

def number : Step Json := fun cs => do
  let (l, rest) ← Literal.scan cs
  let n ← l.number?
  some (.number n, rest)

/-- A word that stands for a value. -/
def word (letters : List Char) (v : Json) : Step Json := fun cs =>
  if letters.isPrefixOf cs then some (v, cs.drop letters.length) else none

/-- A value without others inside. -/
def scalar : Step Json
  | '"' :: rest => (string rest).map fun (s, rest) => (.string s, rest)
  | 'n' :: rest => word ['u', 'l', 'l'] .null rest
  | 't' :: rest => word ['r', 'u', 'e'] (.bool true) rest
  | 'f' :: rest => word ['a', 'l', 's', 'e'] (.bool false) rest
  | cs => number cs

/-- An array, from behind its opening bracket. -/
def array (value : Step Json) : Step Json := fun cs =>
  match skip cs with
  | ']' :: rest => some (.array [], rest)
  | cs => (items value cs).map fun (vs, rest) => (.array vs, rest)

/-- An object, from behind its opening brace. -/
def object (duplicates : Duplicates) (value : Step Json) : Step Json := fun cs =>
  match skip cs with
  | '}' :: rest => some (.object [], rest)
  | cs => do
    let (ms, rest) ← members value cs
    let o ← object? duplicates ms
    some (o, rest)

/-- A value with up to `levels` arrays and objects inside one another. -/
def value (duplicates : Duplicates) : (levels : Nat) → Step Json
  | 0, cs => scalar (skip cs)
  | levels + 1, cs =>
    match skip cs with
    | '[' :: rest => array (value duplicates levels) rest
    | '{' :: rest => object duplicates (value duplicates levels) rest
    | cs => scalar cs

end Reader

/-- How many arrays and objects may stand inside one another. -/
def nestingLimit : Nat := 127

/-- The value that a text stands for, if it is JSON. -/
def read? (duplicates : Duplicates) (s : String) : Option Json :=
  match Reader.value duplicates nestingLimit s.toList with
  | some (v, rest) => if (Reader.skip rest).isEmpty then some v else none
  | none => none

end Warden.Json
