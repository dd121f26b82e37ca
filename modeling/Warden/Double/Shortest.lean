/-
  Warden.Double.Shortest — the shortest decimal text that reads back as a given double.

  The reals that round to a magnitude form an interval around it, whose ends belong to it
  when its significand is even. `shortest` walks the decimal grids from coarse to fine and
  stops at the first grid with a point in that interval; of two such points the nearer one
  is taken, the even one when both are as near. `text` writes these digits: plainly for an
  exponent from -5 to 15, with an exponent mark outside.
-/

import Warden.Double

namespace Warden.Double

/-- The reals that round to a magnitude, in quarters of its last place. -/
structure Interval where
  low : Nat
  mid : Nat
  high : Nat
  closed : Bool

/-- Below a power of two the neighbour is only half as far away. -/
def interval (magnitude : Nat) : Interval :=
  let m := significand magnitude
  let down := if m = Nat.pow 2 52 ∧ Nat.pow 2 53 ≤ magnitude then 1 else 2
  ⟨4 * m - down, 4 * m, 4 * m + 2, m % 2 == 0⟩

/-- The point of the grid `10 ^ e` taken for a magnitude, if one lies in its interval. -/
def onGrid? (magnitude : Nat) (e : Int) : Option Nat :=
  let i := interval magnitude
  let (num, den) := scaled 1 (unit magnitude - 2)
  -- in units of 1 / (den * 10 ^ |e|): a grid step is `step`, a quarter place is `quarter`
  let quarter := num * Nat.pow 10 (-e).toNat
  let step := den * Nat.pow 10 e.toNat
  let inside (n : Nat) : Bool :=
    if i.closed then i.low * quarter ≤ n * step && n * step ≤ i.high * quarter
    else i.low * quarter < n * step && n * step < i.high * quarter
  let n := i.mid * quarter / step
  let below := i.mid * quarter - n * step
  let above := (n + 1) * step - i.mid * quarter
  match inside n, inside (n + 1) with
  | true, true => some (if below < above then n else if above < below then n + 1 else n + n % 2)
  | true, false => some n
  | false, true => some (n + 1)
  | false, false => none

/-- The exponents of the grids, from the coarsest one to the last decimal place below the least double. -/
def gridExponents : List Int := (List.range 634).map fun i : Nat => 309 - (i : Int)

/-- `(n, e)` with `n * 10 ^ e` the shortest decimal for a magnitude; `(0, 0)` for zero. -/
def shortest (magnitude : Nat) : Nat × Int :=
  if magnitude = 0 then (0, 0)
  else (gridExponents.findSome? fun e => (onGrid? magnitude e).map fun n => (n, e)).getD (0, 0)

def zeros (n : Nat) : List Char := List.replicate n '0'

/-- Digits and the decimal exponent of the first one, written plainly or with an exponent mark. -/
def layout (digits : List Char) (x : Int) : List Char :=
  if x < -5 ∨ 15 < x then
    let fraction := if digits.length ≤ 1 then [] else '.' :: digits.drop 1
    digits.take 1 ++ fraction ++ ['e', if x < 0 then '-' else '+'] ++ Nat.toDigits 10 x.natAbs
  else if x < 0 then '0' :: '.' :: zeros (-x - 1).toNat ++ digits
  else
    let whole := x.toNat + 1
    if digits.length ≤ whole then digits ++ zeros (whole - digits.length) ++ ['.', '0']
    else digits.take whole ++ '.' :: digits.drop whole

def chars (d : Double) : List Char :=
  let (n, e) := shortest d.magnitude
  let digits := Nat.toDigits 10 n
  (if d.negative then ['-'] else []) ++ layout digits (digits.length - 1 + e)

def text (d : Double) : String := String.ofList d.chars

example : chars ⟨false, 0x3FB999999999999A, by decide⟩ = ['0', '.', '1'] := by decide +kernel
example : chars ⟨true, 0, by decide⟩ = ['-', '0', '.', '0'] := by decide +kernel

end Warden.Double
