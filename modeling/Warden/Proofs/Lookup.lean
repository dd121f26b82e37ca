/-
  Warden.Proofs.Lookup — values at the end of paths.

  `valueAt` takes a value that is not there for null, which is how the policy on missing
  tokens and claims reads a document: `find?` finds what is at the end of a path if that is
  not null, and nothing otherwise.
-/

import Warden.DocPath

namespace Warden.DocPath

/-- The value at the end of a path, null if there is none. -/
def valueAt (p : DocPath) (root : Json) : Json := (walk? p.segments root).getD .null

theorem find?_of_null {p : DocPath} {root : Json} (h : p.valueAt root = .null) : p.find? root = none := by
  unfold valueAt at h
  unfold find?
  cases hw : walk? p.segments root with
  | none => rfl
  | some v =>
    rw [hw, Option.getD_some] at h
    rw [h]
    rfl

theorem find?_of_ne_null {p : DocPath} {root : Json} (h : p.valueAt root ≠ .null) :
    p.find? root = some (p.valueAt root) := by
  unfold valueAt at h ⊢
  unfold find?
  cases hw : walk? p.segments root with
  | none => rw [hw] at h; exact absurd rfl h
  | some v =>
    rw [hw, Option.getD_some] at h
    have hv : v.isNull = false := by
      cases hn : v.isNull with
      | false => rfl
      | true => exact absurd (Json.isNull_iff.mp hn) h
    simp [hv]

theorem getD_find? (p : DocPath) (root : Json) : (p.find? root).getD .null = p.valueAt root := by
  by_cases h : p.valueAt root = .null
  · rw [find?_of_null h, h]; rfl
  · rw [find?_of_ne_null h]; rfl

theorem find?_eq_true (p : DocPath) (root : Json) :
    (p.find? root == some (.bool true)) = (p.valueAt root == .bool true) := by
  by_cases h : p.valueAt root = .null
  · rw [find?_of_null h, h]; rfl
  · rw [find?_of_ne_null h]; rfl

end Warden.DocPath
