/-
  Warden.DocPath — paths into JSON documents.

  A path is a list of segments, written with points between them: `auth.user`. It can be
  given in that form or as a list, whose elements may themselves be dotted; both come to the
  same path (`of?`). A path has a segment, and each of its segments is a text without points
  that is not empty.

  `find?` follows a path. A segment names a member of an object or, as a decimal number, an
  item of an array. A path that ends in null finds nothing, as if the value were not there.
-/

import Warden.Error
import Warden.Text

namespace Warden

/-- A path as an option gives it. -/
inductive PathInput where
  | dotted (text : String)
  | list (segments : List String)
  deriving DecidableEq, Repr

structure DocPath where
  segments : List String
  nonempty : segments ≠ []
  plain : ∀ s ∈ segments, s ≠ "" ∧ '.' ∉ s.toList
  deriving DecidableEq

namespace DocPath

def dotted (p : DocPath) : String := Text.glue '.' p.segments

/-! ## Reading -/

/-- The path with the given dotted form. -/
def ofDotted? (text : String) : Except PathFault DocPath :=
  if text = "" then .error .empty
  else if h : ∀ s ∈ Text.pieces '.' text, s ≠ "" then
    .ok ⟨Text.pieces '.' text, Text.pieces_ne_nil _ _, fun s hs => ⟨h s hs, Text.not_mem_of_mem_pieces hs⟩⟩
  else .error (.emptySegment text)

def ofInput? : PathInput → Except PathFault DocPath
  | .dotted text => ofDotted? text
  | .list [] => .error .noSegments
  | .list segments => ofDotted? (Text.glue '.' segments)

/-- The path that an option gives. -/
def of? (option : Options.Key) (input : PathInput) : Except OptionsError DocPath :=
  (ofInput? input).mapError (.invalidPath option)

/-! ## Following a path -/

/-- The greatest index is one below this number. -/
def indexLimit : Nat := Nat.pow 2 64

/-- The item that a segment names: decimal digits, with leading zeros or a plus sign if need be. -/
def index? (segment : String) : Option Nat :=
  let ds := match segment.toList with
    | '+' :: rest => rest
    | ds => ds
  if ds ≠ [] ∧ ds.all Char.isDigit then
    let n := ds.foldl (fun n d => 10 * n + (d.toNat - 48)) 0
    if n < indexLimit then some n else none
  else none

/-- The value one segment below another. -/
def step? (segment : String) : Json → Option Json
  | .object members => Json.member? segment members
  | .array items => index? segment >>= (items[·]?)
  | _ => none

def walk? : List String → Json → Option Json
  | [], value => some value
  | segment :: rest, value => step? segment value >>= walk? rest

/-- The value at the end of a path, unless it is null. -/
def find? (p : DocPath) (root : Json) : Option Json := (walk? p.segments root).filter (!·.isNull)

/-! ## Dotted forms and segments -/

theorem pieces_dotted (p : DocPath) : Text.pieces '.' p.dotted = p.segments :=
  Text.pieces_glue p.nonempty fun s hs => (p.plain s hs).2

theorem ofDotted?_ok {text : String} {p : DocPath} (h : ofDotted? text = .ok p) : p.dotted = text := by
  unfold ofDotted? at h
  split at h
  · cases h
  · split at h
    · cases h; exact Text.glue_pieces '.' text
    · cases h

theorem walk?_append (xs ys : List String) (root : Json) :
    walk? (xs ++ ys) root = walk? xs root >>= walk? ys := by
  induction xs generalizing root with
  | nil => rfl
  | cons x xs ih =>
    cases h : step? x root with
    | none => simp [walk?, h]
    | some v => simpa [walk?, h] using ih v

theorem find?_ne_null {p : DocPath} {root v : Json} (h : p.find? root = some v) : v ≠ .null := by
  rintro rfl
  simp [find?, Option.filter_eq_some_iff, Json.isNull] at h

end DocPath

end Warden
