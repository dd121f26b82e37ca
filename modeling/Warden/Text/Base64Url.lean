/-
  Warden.Text.Base64Url — octets as text of the URL-safe base64 alphabet, without padding.

  Three octets make four characters; one octet left over makes two and two make three, with
  the unused bits zero. `decode?` accepts no other text.

  - `decode?_encode`: reading gives back what was written.
-/

namespace Warden.Text.Base64Url

/-- The character of a six-bit number. -/
def digit (n : Nat) : Char :=
  if n < 26 then Char.ofNat (65 + n)
  else if n < 52 then Char.ofNat (71 + n)
  else if n < 62 then Char.ofNat (n - 4)
  else if n = 62 then '-'
  else '_'

def value? (c : Char) : Option Nat :=
  let n := c.toNat
  if 65 ≤ n ∧ n ≤ 90 then some (n - 65)
  else if 97 ≤ n ∧ n ≤ 122 then some (n - 71)
  else if 48 ≤ n ∧ n ≤ 57 then some (n + 4)
  else if c = '-' then some 62
  else if c = '_' then some 63
  else none

def encode : List UInt8 → List Char
  | [] => []
  | [a] => [digit (a.toNat / 4), digit (a.toNat % 4 * 16)]
  | [a, b] => [digit (a.toNat / 4), digit (a.toNat % 4 * 16 + b.toNat / 16), digit (b.toNat % 16 * 4)]
  | a :: b :: c :: rest =>
    digit (a.toNat / 4) :: digit (a.toNat % 4 * 16 + b.toNat / 16) ::
      digit (b.toNat % 16 * 4 + c.toNat / 64) :: digit (c.toNat % 64) :: encode rest

def decode? : List Char → Option (List UInt8)
  | [] => some []
  | [_] => none
  | [a, b] => do
    let a ← value? a
    let b ← value? b
    if b % 16 = 0 then some [.ofNat (a * 4 + b / 16)] else none
  | [a, b, c] => do
    let a ← value? a
    let b ← value? b
    let c ← value? c
    if c % 4 = 0 then some [.ofNat (a * 4 + b / 16), .ofNat (b % 16 * 16 + c / 4)] else none
  | a :: b :: c :: d :: rest => do
    let a ← value? a
    let b ← value? b
    let c ← value? c
    let d ← value? d
    let octets ← decode? rest
    some (.ofNat (a * 4 + b / 16) :: .ofNat (b % 16 * 16 + c / 4) :: .ofNat (c % 4 * 64 + d) :: octets)

/-! ## Reading what was written -/

theorem value?_digit {n : Nat} (h : n < 64) : value? (digit n) = some n := by
  have all : ∀ m : Fin 64, value? (digit m) = some m.val := by decide
  exact all ⟨n, h⟩

theorem octet_eq {n : Nat} {a : UInt8} (h : n = a.toNat) : UInt8.ofNat n = a := by simp [h]

theorem decode?_encode (octets : List UInt8) : decode? (encode octets) = some octets := by
  fun_induction encode octets with
  | case1 => rfl
  | case2 a =>
    have ha := a.toNat_lt
    simp only [decode?, value?_digit (n := a.toNat / 4) (by omega), value?_digit (n := a.toNat % 4 * 16) (by omega),
      Option.bind_eq_bind, Option.bind_some, Nat.mul_mod_left, if_true]
    rw [octet_eq (a := a) (by omega)]
  | case3 a b =>
    have ha := a.toNat_lt
    have hb := b.toNat_lt
    simp only [decode?, value?_digit (n := a.toNat / 4) (by omega),
      value?_digit (n := a.toNat % 4 * 16 + b.toNat / 16) (by omega),
      value?_digit (n := b.toNat % 16 * 4) (by omega),
      Option.bind_eq_bind, Option.bind_some, Nat.mul_mod_left, if_true]
    rw [octet_eq (a := a) (by omega), octet_eq (a := b) (by omega)]
  | case4 a b c rest ih =>
    have ha := a.toNat_lt
    have hb := b.toNat_lt
    have hc := c.toNat_lt
    simp only [decode?, ih, value?_digit (n := a.toNat / 4) (by omega),
      value?_digit (n := a.toNat % 4 * 16 + b.toNat / 16) (by omega),
      value?_digit (n := b.toNat % 16 * 4 + c.toNat / 64) (by omega), value?_digit (n := c.toNat % 64) (by omega),
      Option.bind_eq_bind, Option.bind_some]
    rw [octet_eq (a := a) (by omega), octet_eq (a := b) (by omega), octet_eq (a := c) (by omega)]

end Warden.Text.Base64Url
