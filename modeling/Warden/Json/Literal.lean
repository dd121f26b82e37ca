/-
  Warden.Json.Literal — number literals and the numbers they denote.

  A literal is taken apart into its sign, digits and exponent (`scan`) and then evaluated
  (`Literal.number?`). A literal without fraction and exponent is an integer if it fits 64
  bits, with or without a sign; "-0" is the negative double zero. Any other literal is a
  double, made from a significand of at most 64 bits and a power of ten: a digit of the
  integer part that no longer fits counts as a power of ten, and so do all digits after it;
  fraction digits are taken as long as they fit. A literal past the largest double denotes
  nothing.
-/

import Warden.Json.Basic

namespace Warden.Json

structure Literal where
  negative : Bool
  whole : List Char
  fraction : Option (List Char)
  exponent : Option Int

namespace Literal

/-! ## Scanning -/

def digits (cs : List Char) : List Char × List Char := (cs.takeWhile Char.isDigit, cs.dropWhile Char.isDigit)

def natOf (ds : List Char) : Nat := ds.foldl (fun n d => 10 * n + (d.toNat - 48)) 0

/-- The integer part: no zero in front of other digits. -/
def scanWhole : List Char → Option (List Char × List Char)
  | '0' :: rest => some (['0'], rest)
  | cs =>
    match digits cs with
    | ([], _) => none
    | found => some found

/-- A fraction, if a point follows: one digit or more. -/
def scanFraction : List Char → Option (Option (List Char) × List Char)
  | '.' :: cs =>
    match digits cs with
    | ([], _) => none
    | (ds, rest) => some (some ds, rest)
  | cs => some (none, cs)

def scanExponent : List Char → Option (Option Int × List Char)
  | c :: cs =>
    if c = 'e' ∨ c = 'E' then
      let (negative, cs) := match cs with
        | '-' :: rest => (true, rest)
        | '+' :: rest => (false, rest)
        | rest => (false, rest)
      match digits cs with
      | ([], _) => none
      | (ds, rest) => some (some (if negative then -(natOf ds : Int) else natOf ds), rest)
    else some (none, c :: cs)
  | [] => some (none, [])

/-- The literal at the front of a text, and the text after it. -/
def scan (cs : List Char) : Option (Literal × List Char) := do
  let (negative, cs) := match cs with
    | '-' :: rest => (true, rest)
    | rest => (false, rest)
  let (whole, cs) ← scanWhole cs
  let (fraction, cs) ← scanFraction cs
  let (exponent, cs) ← scanExponent cs
  some (⟨negative, whole, fraction, exponent⟩, cs)

/-! ## Evaluation -/

/-- The greatest significand. -/
def wordLimit : Nat := Nat.pow 2 64

/-- Appends digits to a significand while it fits, and gives the digits left over. -/
def take (n : Nat) : List Char → Nat × List Char
  | [] => (n, [])
  | d :: ds =>
    let m := 10 * n + (d.toNat - 48)
    if m < wordLimit then take m ds else (n, d :: ds)

def number? (l : Literal) : Option Number :=
  let (n, left) := take 0 l.whole
  match l.fraction, l.exponent, left with
  | none, none, [] =>
    if !l.negative then some (.integer n)
    else if n = 0 ∨ Nat.pow 2 63 < n then (Double.ofNat? true n).map .double
    else some (.integer (-n))
  | fraction, exponent, left =>
    let ds := fraction.getD []
    let (m, rest) := take n ds
    let e : Int := left.length - (ds.length - rest.length : Nat) + exponent.getD 0
    (Double.ofDecimal? l.negative m e).map .double

end Literal

end Warden.Json
