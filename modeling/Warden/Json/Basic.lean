/-
  Warden.Json.Basic — JSON values.

  An object keeps its members sorted by key, each key once: `ofMembers` builds one from
  members in any order, the last of several with one key being kept. A number is an integer
  or a double and stays what it is: 1 and 1.0 are different values.

  - `member?_insert_self` / `member?_insert_ne`: what a look-up finds after an insertion.
  - `agrees`: equality of values, with the two double zeros as one number.
-/

import Warden.Double

namespace Warden

namespace Json

inductive Number where
  | integer (n : Int)
  | double (d : Double)
  deriving DecidableEq, Repr

end Json

inductive Json where
  | null
  | bool (b : Bool)
  | number (n : Json.Number)
  | string (s : String)
  | array (items : List Json)
  | object (members : List (String × Json))
  deriving Repr

namespace Json

instance : Inhabited Json := ⟨.null⟩

/-! ## Decidable equality -/

mutual

def decEq : (a b : Json) → Decidable (a = b)
  | .null, .null => isTrue rfl
  | .bool x, .bool y => if h : x = y then isTrue (h ▸ rfl) else isFalse (by simp [h])
  | .number x, .number y => if h : x = y then isTrue (h ▸ rfl) else isFalse (by simp [h])
  | .string x, .string y => if h : x = y then isTrue (h ▸ rfl) else isFalse (by simp [h])
  | .array xs, .array ys =>
    match decEqItems xs ys with
    | isTrue h => isTrue (h ▸ rfl)
    | isFalse h => isFalse (by simp [h])
  | .object xs, .object ys =>
    match decEqMembers xs ys with
    | isTrue h => isTrue (h ▸ rfl)
    | isFalse h => isFalse (by simp [h])
  | .null, .bool _ | .null, .number _ | .null, .string _ | .null, .array _ | .null, .object _ => isFalse nofun
  | .bool _, .null | .bool _, .number _ | .bool _, .string _ | .bool _, .array _ | .bool _, .object _ => isFalse nofun
  | .number _, .null | .number _, .bool _ | .number _, .string _ | .number _, .array _
  | .number _, .object _ => isFalse nofun
  | .string _, .null | .string _, .bool _ | .string _, .number _ | .string _, .array _
  | .string _, .object _ => isFalse nofun
  | .array _, .null | .array _, .bool _ | .array _, .number _ | .array _, .string _
  | .array _, .object _ => isFalse nofun
  | .object _, .null | .object _, .bool _ | .object _, .number _ | .object _, .string _
  | .object _, .array _ => isFalse nofun

def decEqItems : (xs ys : List Json) → Decidable (xs = ys)
  | [], [] => isTrue rfl
  | x :: xs, y :: ys =>
    match decEq x y, decEqItems xs ys with
    | isTrue h, isTrue hs => isTrue (h ▸ hs ▸ rfl)
    | isFalse h, _ => isFalse (by simp [h])
    | _, isFalse hs => isFalse (by simp [hs])
  | [], _ :: _ | _ :: _, [] => isFalse nofun

def decEqMembers : (xs ys : List (String × Json)) → Decidable (xs = ys)
  | [], [] => isTrue rfl
  | (k, x) :: xs, (l, y) :: ys =>
    match decEq x y, decEqMembers xs ys with
    | isTrue h, isTrue hs => if hk : k = l then isTrue (h ▸ hs ▸ hk ▸ rfl) else isFalse (by simp [hk])
    | isFalse h, _ => isFalse (by simp [h])
    | _, isFalse hs => isFalse (by simp [hs])
  | [], _ :: _ | _ :: _, [] => isFalse nofun

end

instance : DecidableEq Json := decEq

/-! ## Equality of numbers -/

mutual

/-- The value with every negative zero written as zero. -/
def unsignZeros : Json → Json
  | .number (.double d) => .number (.double (if d.magnitude = 0 then .zero false else d))
  | .array items => .array (unsignItems items)
  | .object members => .object (unsignMembers members)
  | value => value

def unsignItems : List Json → List Json
  | [] => []
  | item :: items => unsignZeros item :: unsignItems items

def unsignMembers : List (String × Json) → List (String × Json)
  | [] => []
  | (key, value) :: members => (key, unsignZeros value) :: unsignMembers members

end

/-- Whether two values are the same to a reader of JSON. -/
def agrees (a b : Json) : Bool := a.unsignZeros == b.unsignZeros

/-! ## Members -/

/-- Adds a member at its place in the order of keys, in the place of one with its key. -/
def insert (key : String) (value : Json) : List (String × Json) → List (String × Json)
  | [] => [(key, value)]
  | (k, v) :: rest =>
    if key < k then (key, value) :: (k, v) :: rest
    else if key = k then (key, value) :: rest
    else (k, v) :: insert key value rest

/-- The object with the given members; a later one replaces an earlier one with its key. -/
def ofMembers (members : List (String × Json)) : Json :=
  .object (members.foldl (fun sorted (key, value) => insert key value sorted) [])

def member? (key : String) (members : List (String × Json)) : Option Json := members.lookup key

def isNull : Json → Bool
  | .null => true
  | _ => false

theorem isNull_iff {v : Json} : v.isNull = true ↔ v = .null := by cases v <;> simp [isNull]

@[simp] theorem member?_insert_self (key : String) (value : Json) (members : List (String × Json)) :
    member? key (insert key value members) = some value := by
  induction members with
  | nil => simp [insert, member?]
  | cons m rest ih =>
    obtain ⟨k, v⟩ := m
    rw [insert]
    split
    · simp [member?]
    · split
      · simp [member?]
      · rename_i _ h
        have hb : (key == k) = false := by simpa using h
        simpa [member?, List.lookup_cons, hb] using ih

theorem member?_insert_ne {key other : String} (h : other ≠ key) (value : Json) (members : List (String × Json)) :
    member? other (insert key value members) = member? other members := by
  have hb : (other == key) = false := by simpa using h
  induction members with
  | nil => simp [insert, member?, List.lookup_cons, hb]
  | cons m rest ih =>
    obtain ⟨k, v⟩ := m
    rw [insert]
    split
    · simp [member?, List.lookup_cons, hb]
    · split
      · rename_i _ hk
        have hm : (other == k) = false := by simpa [← hk] using h
        simp [member?, List.lookup_cons, hb, hm]
      · simp only [member?, List.lookup_cons] at ih ⊢
        rw [ih]

end Json

end Warden
