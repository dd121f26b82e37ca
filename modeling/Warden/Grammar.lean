/-
  Warden.Grammar — which texts are permissions.

  A requested permission is one or more words with the scope delimiter between them; a
  granted one may have a wildcard in the place of any word but the first. A word is one or
  more of `A-Z a-z 0-9 _`. With `c` for that class and `d` for the delimiter, taken literally,
  these are the texts that match `^c+(?:dc+)*$` and `^c+(?:d(?:c+|\*))*$` as a whole.

  The recognisers read a text once, from left to right, `requestedFrom` for the first pattern
  and `grantedFrom` for the second: from `Place.name` they are at the start of the pattern,
  from `Place.qualifier` behind a `d`, and `Place.word` and `Place.wildcard` are where the
  text may end. That they decide the patterns is shown in `Proofs.Grammar.Patterns`.

  - `isRequested_iff`: the requested permissions are the granted ones without a wildcard.
-/

import Warden.Delimiters
import Warden.Permission

namespace Warden

namespace Grammar

/-- Where a recogniser stands in a text. -/
inductive Place where
  /-- In front of the name. -/
  | name
  /-- In front of a qualifier. -/
  | qualifier
  | word
  | wildcard
  deriving DecidableEq, Repr

/-- Whether a permission may end here. -/
def Place.complete : Place → Bool
  | word | wildcard => true
  | name | qualifier => false

/-- Whether words and delimiters complete a requested permission. -/
def requestedFrom (scope : Char) : Place → List Char → Bool
  | p, [] => p.complete
  | p, c :: cs =>
    if isWordChar c then requestedFrom scope .word cs
    else c == scope && p.complete && requestedFrom scope .qualifier cs

/-- Whether words, wildcards and delimiters complete a granted permission. -/
def grantedFrom (scope : Char) : Place → List Char → Bool
  | p, [] => p.complete
  | p, c :: cs =>
    if isWordChar c then p != .wildcard && grantedFrom scope .word cs
    else if c = '*' then p == .qualifier && grantedFrom scope .wildcard cs
    else c == scope && p.complete && grantedFrom scope .qualifier cs

end Grammar

namespace Delimiters

def isRequested (d : Delimiters) (s : String) : Bool := Grammar.requestedFrom d.scope .name s.toList

def isGranted (d : Delimiters) (s : String) : Bool := Grammar.grantedFrom d.scope .name s.toList

/-- Why a text is no requested permission. -/
def requestFault (d : Delimiters) (s : String) : ArgumentFault :=
  if s = "" then .empty else if '*' ∈ s.toList then .wildcard else .notRuns d.scope

/-- The requested permission that a text is. -/
def permission? (d : Delimiters) (s : String) : Except ArgumentFault Permission :=
  if d.isRequested s then .ok (.ofText d.scope s) else .error (d.requestFault s)

end Delimiters

/-! ## Requested permissions are granted ones without a wildcard -/

namespace Grammar

theorem requestedFrom_iff {scope : Char} (hs : scope ≠ '*') (cs : List Char) :
    ∀ p ≠ Place.wildcard, requestedFrom scope p cs = true ↔ grantedFrom scope p cs = true ∧ '*' ∉ cs := by
  induction cs with
  | nil => intro p _; simp [requestedFrom, grantedFrom]
  | cons c cs ih =>
    intro p hp
    have hw := ih .word (by decide)
    have hq := ih .qualifier (by decide)
    rw [requestedFrom, grantedFrom]
    by_cases h : isWordChar c = true
    · have hc : '*' ≠ c := by rintro rfl; revert h; decide
      simp [h, hw, hp, hc]
    · by_cases hc : c = '*'
      · subst hc
        simp [h, Ne.symm hs]
      · simp [h, hc, hq, Ne.symm hc, and_assoc]

end Grammar

theorem Delimiters.isRequested_iff (d : Delimiters) (s : String) :
    d.isRequested s = true ↔ d.isGranted s = true ∧ '*' ∉ s.toList :=
  Grammar.requestedFrom_iff d.scope_ne_wildcard s.toList .name (by decide)

end Warden
