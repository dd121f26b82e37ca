/-
  Warden.Double — finite binary64 numbers, in exact natural-number arithmetic.

  A double is a sign and a magnitude. The magnitude counts the doubles between it and zero:
  exponent and fraction bits read as one number, so magnitudes are ordered as their values
  and the carry of a rounded significand into the exponent is plain addition. `value` gives
  the number as a quotient, `nearest` the magnitude nearest to a quotient, a half going to
  the even neighbour. A result past the largest double has a magnitude of `limit` or more,
  and `ofMagnitude?` refuses it.
-/

namespace Warden

namespace Double

/-- The magnitude of infinity; every finite one is below. -/
def limit : Nat := 2047 * Nat.pow 2 52

end Double

structure Double where
  negative : Bool
  magnitude : Nat
  finite : magnitude < Double.limit
  deriving DecidableEq, Repr

namespace Double

def ofMagnitude? (negative : Bool) (magnitude : Nat) : Option Double :=
  if h : magnitude < limit then some ⟨negative, magnitude, h⟩ else none

/-- Zero with a sign. -/
def zero (negative : Bool) : Double := ⟨negative, 0, by decide⟩

/-! ## Magnitudes and quotients -/

/-- The integer `m` of a magnitude worth `m * 2 ^ unit`. -/
def significand (magnitude : Nat) : Nat :=
  if magnitude < Nat.pow 2 52 then magnitude else Nat.pow 2 52 + magnitude % Nat.pow 2 52

/-- The exponent of the last binary place of a magnitude. -/
def unit (magnitude : Nat) : Int := max (magnitude / Nat.pow 2 52 : Nat) 1 - 1075

/-- `n * 2 ^ e` as numerator and denominator. -/
def scaled (n : Nat) (e : Int) : Nat × Nat := (n * Nat.pow 2 e.toNat, Nat.pow 2 (-e).toNat)

def value (magnitude : Nat) : Nat × Nat := scaled (significand magnitude) (unit magnitude)

/-- The nearest integer to `num / den`, a half going to the even one. -/
def roundHalfEven (num den : Nat) : Nat :=
  let q := num / den
  let r := num % den
  if 2 * r < den then q else if den < 2 * r then q + 1 else q + q % 2

/-- The place of the leading binary digit of `num / den`: 2 to it is the greatest power not above the quotient. -/
def leadingPlace (num den : Nat) : Int :=
  let p : Int := num.log2 - den.log2
  if num * Nat.pow 2 (-p).toNat < den * Nat.pow 2 p.toNat then p - 1 else p

/-- The magnitude nearest to `num / den`: 53 binary digits, or as many as reach down to place -1074. -/
def nearest (num den : Nat) : Nat :=
  if num = 0 then 0
  else
    let u : Int := max (leadingPlace num den - 52) (-1074)
    (u + 1074).toNat * Nat.pow 2 52 + roundHalfEven (num * Nat.pow 2 (-u).toNat) (den * Nat.pow 2 u.toNat)

/-- The rounded product of two magnitudes. -/
def product (a b : Nat) : Nat := nearest ((value a).1 * (value b).1) ((value a).2 * (value b).2)

/-- The rounded quotient of two magnitudes. -/
def quotient (a b : Nat) : Nat := nearest ((value a).1 * (value b).2) ((value a).2 * (value b).1)

/-! ## Decimal scaling -/

/-- The double nearest to `10 ^ n`. -/
def tenTo (n : Nat) : Nat := nearest (Nat.pow 10 n) 1

/--
  A magnitude times a power of ten: one rounded multiplication or division by the rounded power
  of ten where the table of powers, which ends at 308, has it; a smaller power divides by
  `10 ^ 308` first. Twice that is below every magnitude that a 64-bit integer scales to, so
  it leaves zero. A greater power has no finite result.
-/
def scaleByTen (magnitude : Nat) (e : Int) : Option Nat :=
  if magnitude = 0 then some 0
  else if 308 < e then none
  else if 0 ≤ e then some (product magnitude (tenTo e.toNat))
  else if -308 ≤ e then some (quotient magnitude (tenTo (-e).toNat))
  else if -616 ≤ e then some (quotient (quotient magnitude (tenTo 308)) (tenTo (-e - 308).toNat))
  else some 0

/-- `± n * 10 ^ e` for an integer `n` of 64 bits, or `none` past the largest double. -/
def ofDecimal? (negative : Bool) (n : Nat) (e : Int) : Option Double :=
  scaleByTen (nearest n 1) e >>= ofMagnitude? negative

/-- The nearest double to an integer. -/
def ofNat? (negative : Bool) (n : Nat) : Option Double := ofMagnitude? negative (nearest n 1)

example : nearest 1 10 = 0x3FB999999999999A := by decide +kernel
example : nearest 5 (10 ^ 324) = 1 ∧ nearest 2 (10 ^ 324) = 0 := by decide +kernel
example : nearest (2 ^ 53 + 1) 1 = nearest (2 ^ 53) 1 ∧ nearest (2 ^ 1024) 1 = limit := by decide +kernel

end Double

end Warden
