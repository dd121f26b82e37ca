/-
  Warden.Permission — permissions and when one covers another.

  A permission is a name with qualifiers: `user:add` has the name `user` and one qualifier.
  Only a granted permission may hold wildcards, in the places of qualifiers. A granted
  permission covers a requested one of the same length if they agree place by place up to
  wildcards, and a shorter one if it continues that very permission with wildcards alone:
  `user:*` covers `user`. It never covers a longer one.

  - `covers_of_length_eq`, `covers_append`, `covers_eq_false_of_length_lt`: the three cases.
-/

import Warden.Text

namespace Warden

/-- Any qualifier, in a granted permission. -/
def wildcard : String := "*"

/-- Whether granted segments cover requested ones. -/
def covers (granted requested : List String) : Bool :=
  if granted.length = requested.length then
    (granted.zip requested).all fun (g, r) => g == wildcard || g == r
  else
    granted.take requested.length == requested && (granted.drop requested.length).all (· == wildcard)

structure Permission where
  /-- The permission as written. -/
  text : String
  name : String
  qualifiers : List String
  deriving DecidableEq, Repr

namespace Permission

/-- The permission written as `text`, cut at the scope delimiter. -/
def ofText (scope : Char) (text : String) : Permission :=
  let (name, qualifiers) := Text.cut scope text.toList
  ⟨text, String.ofList name, qualifiers.map String.ofList⟩

def segments (p : Permission) : List String := p.name :: p.qualifiers

def hasWildcard (p : Permission) : Bool := p.qualifiers.contains wildcard

/-- The segments with `separator` between them. -/
def join (p : Permission) (separator : Char) : String := Text.glue separator p.segments

def covers (granted requested : Permission) : Bool := Warden.covers granted.segments requested.segments

@[simp] theorem text_ofText (scope : Char) (text : String) : (ofText scope text).text = text := rfl

theorem segments_ofText (scope : Char) (text : String) : (ofText scope text).segments = Text.pieces scope text := rfl

theorem join_ofText (scope : Char) (text : String) : (ofText scope text).join scope = text := by
  rw [join, segments_ofText, Text.glue_pieces]

end Permission

/-- The permissions that a token grants, in the order of its claim. -/
structure Grants where
  permissions : List Permission
  deriving DecidableEq, Repr

namespace Grants

def empty : Grants := ⟨[]⟩

def size (g : Grants) : Nat := g.permissions.length

def isEmpty (g : Grants) : Bool := g.permissions.isEmpty

/-- Whether a requested permission is covered. -/
def contains (g : Grants) (requested : Permission) : Bool := g.permissions.any (·.covers requested)

/-- The granted permissions as written. -/
def texts (g : Grants) : List String := g.permissions.map Permission.text

end Grants

/-! ## The three cases of covering -/

theorem covers_of_length_eq {g r : List String} (h : g.length = r.length) :
    covers g r = true ↔ ∀ x ∈ g.zip r, x.1 = wildcard ∨ x.1 = x.2 := by
  simp [covers, h]

theorem covers_append (r tail : List String) (h : tail ≠ []) :
    covers (r ++ tail) r = true ↔ ∀ x ∈ tail, x = wildcard := by
  have hl : (r ++ tail).length ≠ r.length := by simpa using h
  rw [covers, if_neg hl]
  simp

theorem covers_eq_false_of_length_lt {g r : List String} (h : g.length < r.length) : covers g r = false := by
  have hne : g.length ≠ r.length := by omega
  have ht : g.take r.length ≠ r := by
    rw [List.take_of_length_le (by omega)]
    exact fun e => hne (by rw [e])
  simp [covers, hne, ht]

end Warden
