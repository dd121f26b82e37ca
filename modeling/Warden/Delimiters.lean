/-
  Warden.Delimiters — the two separators of the permission grammar.

  The claim delimiter stands between the permissions of a claim, the scope delimiter between
  the name of a permission and its qualifiers. Both are one punctuation character other than
  `_` and `*`, which the grammar keeps for itself; the claim delimiter may be a space
  instead. They differ. `of?` reads a pair, and reports the first fault: the claim
  delimiter's, the scope delimiter's, their equality.
-/

import Warden.Error

namespace Warden

/-- The characters that may be a delimiter. -/
def punctuation : List Char := "-!\"#$%&'()+,./:;<=>?@[]^`\x7b|\x7d~".toList

/-- A character of a permission name or qualifier. -/
def isWordChar (c : Char) : Bool := c.isAlphanum || c == '_'

structure Delimiters where
  claim : Char
  scope : Char
  claim_allowed : claim = ' ' ∨ claim ∈ punctuation
  scope_allowed : scope ∈ punctuation
  differ : claim ≠ scope
  deriving DecidableEq

namespace Delimiters

/-- The one character of a delimiter option, if it may be one. -/
def single (option : Options.Key) (spaceAllowed : Bool) (value : String) :
    Except OptionsError { c : Char // c = ' ' ∧ spaceAllowed ∨ c ∈ punctuation } :=
  let fault (f : DelimiterFault) := .error (.invalidDelimiter option value f)
  match value.toList with
  | [c] =>
    if hs : c = ' ' then
      if ha : spaceAllowed then .ok ⟨c, .inl ⟨hs, ha⟩⟩ else fault .spaceBetweenScopes
    else if hp : c ∈ punctuation then .ok ⟨c, .inr hp⟩
    else fault .notPunctuation
  | _ => fault .notOneCharacter

def of? (claim scope : String) : Except OptionsError Delimiters := do
  let ⟨c, hc⟩ ← single .claimDelimiter true claim
  let ⟨s, hs⟩ ← single .claimScopeDelimiter false scope
  if h : c = s then .error (.sameDelimiters c)
  else .ok ⟨c, s, hc.imp And.left id, hs.resolve_left (by simp), h⟩

/-- `read,user:add` -/
def default : Delimiters := ⟨',', ':', .inr (by decide), by decide, by decide⟩

instance : Inhabited Delimiters := ⟨default⟩

/-! ## Delimiters stay out of words -/

theorem not_wordChar_of_mem {c : Char} (h : c ∈ punctuation) : isWordChar c = false ∧ c ≠ '*' ∧ c ≠ ' ' := by
  have all : punctuation.all (fun c => !isWordChar c && c != '*' && c != ' ') = true := by decide
  simpa [and_assoc] using List.all_eq_true.mp all c h

theorem scope_not_wordChar (d : Delimiters) : isWordChar d.scope = false := (not_wordChar_of_mem d.scope_allowed).1

theorem scope_ne_wildcard (d : Delimiters) : d.scope ≠ '*' := (not_wordChar_of_mem d.scope_allowed).2.1

theorem claim_not_wordChar (d : Delimiters) : isWordChar d.claim = false := by
  rcases d.claim_allowed with h | h
  · rw [h]; decide
  · exact (not_wordChar_of_mem h).1

theorem claim_ne_wildcard (d : Delimiters) : d.claim ≠ '*' := by
  rcases d.claim_allowed with h | h
  · rw [h]; decide
  · exact (not_wordChar_of_mem h).2.1

end Delimiters

end Warden
