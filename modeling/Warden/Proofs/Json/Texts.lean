/-
  Warden.Proofs.Json.Texts — the grammar of values, whatever they stand for.

  A text is a value with another text behind it if the grammar says so (`Phrase.Text`): numbers may
  be past the largest double, strings may hold half of a surrogate pair, objects may give a key
  twice, and there is no bound on the nesting. The reader need not read such a text, but if it does it
  reads just what the grammar says, and it reads the keys of an object as they are written. So no
  text that gives a key twice is read where that is refused. What is not in the grammar is not
  read either.

  - `Phrase.Text.read`: what is read ends where the grammar says.
  - `Phrase.text_of_value`: what is read is in the grammar.
  - `read?_refused`: an object with a repeated key is not read.
-/

import Warden.Proofs.Json.Reading

namespace Warden.Json

open Reader

/-- The words of the grammar. -/
def words : List (List Char) := [['n', 'u', 'l', 'l'], ['t', 'r', 'u', 'e'], ['f', 'a', 'l', 's', 'e']]

/-- What a text can be a part of: a value, the items of an array or the members of an object. -/
inductive Phrase where
  | value
  | items
  | member (key : String)
  | members (keys : List String)

/-- The text `cs` is the phrase, blanks in front of it allowed, and then `rest`. -/
inductive Phrase.Text : Phrase → List Char → List Char → Prop
  | word {cs letters rest : List Char} :
      letters ∈ words → skip cs = letters ++ rest → Text value cs rest
  | string {cs body rest : List Char} {es : List Element} :
      skip cs = '"' :: body → elements body = some (es, rest) → Text value cs rest
  | number {cs rest : List Char} {l : Literal} : Literal.scan (skip cs) = some (l, rest) → Text value cs rest
  | emptyArray {cs inner rest : List Char} :
      skip cs = '[' :: inner → skip inner = ']' :: rest → Text value cs rest
  | array {cs inner rest : List Char} : skip cs = '[' :: inner → Text items (skip inner) rest → Text value cs rest
  | emptyObject {cs inner rest : List Char} :
      skip cs = '{' :: inner → skip inner = '}' :: rest → Text value cs rest
  | object {cs inner rest : List Char} {keys : List String} :
      skip cs = '{' :: inner → Text (members keys) (skip inner) rest → Text value cs rest
  | lastItem {cs after rest : List Char} : Text value cs after → skip after = ']' :: rest → Text items cs rest
  | item {cs after next rest : List Char} :
      Text value cs after → skip after = ',' :: next → Text items next rest → Text items cs rest
  | keyed {cs body after inner rest : List Char} {key : String} :
      skip cs = '"' :: body → Reader.string body = some (key, after) → skip after = ':' :: inner →
      Text value inner rest → Text (member key) cs rest
  | lastMember {cs after rest : List Char} {key : String} :
      Text (member key) cs after → skip after = '}' :: rest → Text (members [key]) cs rest
  | member {cs after next rest : List Char} {key : String} {keys : List String} :
      Text (member key) cs after → skip after = ',' :: next → Text (members keys) next rest →
      Text (members (key :: keys)) cs rest

variable {cs rest after tail : List Char} {duplicates : Duplicates} {levels : Nat}

theorem value_word {letters : List Char} {v : Json} (hmem : letters ∈ words) (hskip : skip cs = letters ++ rest)
    (h : Reader.value duplicates levels cs = some (v, after)) : after = rest := by
  simp only [words, List.mem_cons, List.not_mem_nil, or_false] at hmem
  rcases hmem with rfl | rfl | rfl <;>
    · rw [value_scalar hskip (by decide) (by decide)] at h
      cases h
      rfl

namespace Phrase

/-- Reading the phrase, where it succeeds, ends in front of `rest`. -/
def Read (duplicates : Duplicates) (cs rest : List Char) : Phrase → Prop
  | value => ∀ {levels after v}, Reader.value duplicates levels cs = some (v, after) → after = rest
  | items => ∀ {levels after vs}, Reader.items (Reader.value duplicates levels) cs = some (vs, after) → after = rest
  | member key => ∀ {levels after m}, Reader.member (Reader.value duplicates levels) cs = some (m, after) →
      after = rest ∧ m.1 = key
  | members keys => ∀ {levels after ms}, Reader.members (Reader.value duplicates levels) cs = some (ms, after) →
      after = rest ∧ ms.map (·.1) = keys

theorem not_value_close : ¬ Text value (']' :: cs) rest := by
  intro h
  cases h with
  | word hmem hskip =>
    simp only [words, List.mem_cons, List.not_mem_nil, or_false] at hmem
    rcases hmem with rfl | rfl | rfl <;> cases hskip
  | number hscan =>
    obtain ⟨c, tail, hskip, hc⟩ := scan_starts hscan
    cases hskip
    exact absurd hc (by decide)
  | string hskip | emptyArray hskip | array hskip | emptyObject hskip | object hskip => cases hskip

theorem not_items_close : ¬ Text items (']' :: cs) rest := by
  intro h
  cases h with
  | lastItem hv | item hv => exact not_value_close hv

theorem not_members_close {keys : List String} : ¬ Text (members keys) ('}' :: cs) rest := by
  intro h
  cases h with
  | lastMember hm | member hm =>
    cases hm with
    | keyed hskip => cases hskip

theorem Text.read {phrase : Phrase} (ht : Text phrase cs rest) : phrase.Read duplicates cs rest := by
  induction ht with
  | word hmem hskip =>
    intro levels after v h
    exact value_word hmem hskip h
  | string hskip hes =>
    intro levels after v h
    rw [value_scalar hskip (by decide) (by decide), scalar] at h
    obtain ⟨⟨s, _⟩, hs, h⟩ := Option.map_eq_some_iff.mp h
    cases h
    obtain ⟨es, hread⟩ := elements_of_string hs
    rw [hes] at hread
    cases hread
    rfl
  | number hscan =>
    intro levels after v h
    obtain ⟨c, tail, hskip, hc⟩ := scan_starts hscan
    rw [value_scalar hskip (hc.ne (by decide)) (hc.ne (by decide)), scalar_number hc, ← hskip, Reader.number, hscan] at h
    obtain ⟨n, hn, h⟩ := Option.bind_eq_some_iff.mp ((Option.bind_some _ _).symm.trans h)
    cases h
    rfl
  | emptyArray hskip hclose =>
    intro levels after v h
    rcases value_array_cases hskip h with hafter | ⟨hopen, -⟩
    · exact (List.cons.inj (hafter.symm.trans hclose)).2
    · exact absurd hclose (hopen _)
  | array hskip hitems ih =>
    intro levels after v h
    rcases value_array_cases hskip h with hclose | ⟨-, _, _, -, hvs⟩
    · exact absurd (hclose ▸ hitems) not_items_close
    · exact ih hvs
  | emptyObject hskip hclose =>
    intro levels after v h
    rcases value_object_cases hskip h with hafter | ⟨hopen, -⟩
    · exact (List.cons.inj (hafter.symm.trans hclose)).2
    · exact absurd hclose (hopen _)
  | object hskip hmembers ih =>
    intro levels after v h
    rcases value_object_cases hskip h with hclose | ⟨-, _, _, -, hms, -⟩
    · exact absurd (hclose ▸ hmembers) not_members_close
    · exact (ih hms).1
  | lastItem hv hclose ih =>
    intro levels after vs h
    obtain ⟨v, behind, hread, hvs⟩ := items_cases h
    obtain rfl := ih hread
    rw [hclose] at hvs
    rcases hvs with ⟨-, hrest⟩ | ⟨_, _, hcomma, -, -⟩
    · exact ((List.cons.inj hrest).2).symm
    · cases hcomma
  | item hv hcomma hnext ih ihnext =>
    intro levels after vs h
    obtain ⟨v, behind, hread, hvs⟩ := items_cases h
    obtain rfl := ih hread
    rw [hcomma] at hvs
    rcases hvs with ⟨-, hclose⟩ | ⟨_, _, hnext', htail, -⟩
    · cases hclose
    · cases hnext'
      exact ihnext htail
  | keyed hskip hkey hcolon hv ih =>
    intro levels after m h
    obtain ⟨body', after', inner', hskip', hkey', hcolon', hv'⟩ := member_cases h
    rw [hskip] at hskip'
    cases hskip'
    rw [hkey] at hkey'
    cases hkey'
    rw [hcolon] at hcolon'
    cases hcolon'
    exact ⟨ih hv', rfl⟩
  | lastMember hm hclose ih =>
    intro levels after ms h
    obtain ⟨m, behind, hread, hms⟩ := members_cases h
    obtain ⟨rfl, rfl⟩ := ih hread
    rw [hclose] at hms
    rcases hms with ⟨rfl, hrest⟩ | ⟨_, _, hcomma, -, -⟩
    · exact ⟨((List.cons.inj hrest).2).symm, rfl⟩
    · cases hcomma
  | member hm hcomma hnext ih ihnext =>
    intro levels after ms h
    obtain ⟨m, behind, hread, hms⟩ := members_cases h
    obtain ⟨rfl, rfl⟩ := ih hread
    rw [hcomma] at hms
    rcases hms with ⟨-, hclose⟩ | ⟨_, _, hnext', htail, rfl⟩
    · cases hclose
    · cases hnext'
      obtain ⟨rfl, rfl⟩ := ihnext htail
      exact ⟨rfl, rfl⟩

/-! ## What is read is in the grammar -/

variable {value : Step Json}

theorem word_eq_some {letters : List Char} {v w : Json} (h : word letters v cs = some (w, rest)) : cs = letters ++ rest := by
  rw [word] at h
  split at h
  · rename_i hletters
    cases h
    exact (List.prefix_iff_eq_append.mp (List.isPrefixOf_iff_prefix.mp hletters)).symm
  · cases h

theorem text_of_scalar {v : Json} (h : scalar (skip cs) = some (v, rest)) : Text .value cs rest := by
  generalize hskip : skip cs = start at h
  unfold scalar at h
  split at h
  · obtain ⟨⟨s, _⟩, hs, h⟩ := Option.map_eq_some_iff.mp h
    cases h
    obtain ⟨es, hes⟩ := elements_of_string hs
    exact .string hskip hes
  · have hword : skip cs = ['n', 'u', 'l', 'l'] ++ rest := hskip.trans (congrArg ('n' :: ·) (word_eq_some h))
    exact .word (by decide) hword
  · have hword : skip cs = ['t', 'r', 'u', 'e'] ++ rest := hskip.trans (congrArg ('t' :: ·) (word_eq_some h))
    exact .word (by decide) hword
  · have hword : skip cs = ['f', 'a', 'l', 's', 'e'] ++ rest := hskip.trans (congrArg ('f' :: ·) (word_eq_some h))
    exact .word (by decide) hword
  · obtain ⟨⟨l, _⟩, hscan, h⟩ := Option.bind_eq_some_iff.mp h
    obtain ⟨n, _, h⟩ := Option.bind_eq_some_iff.mp h
    cases h
    exact .number (hskip ▸ hscan)

theorem text_of_items (hvalue : ∀ {cs v rest}, value cs = some (v, rest) → Text .value cs rest) {vs : List Json}
    (h : Reader.items value cs = some (vs, rest)) : Text .items cs rest := by
  induction vs generalizing cs with
  | nil =>
    obtain ⟨_, _, _, ⟨hvs, -⟩ | ⟨_, _, -, -, hvs⟩⟩ := items_cases h <;> cases hvs
  | cons _ vs ih =>
    obtain ⟨v, behind, hv, ⟨-, hclose⟩ | ⟨_, _, hcomma, htail, hvs⟩⟩ := items_cases h
    · exact .lastItem (hvalue hv) hclose
    · cases hvs
      exact .item (hvalue hv) hcomma (ih htail)

theorem text_of_member (hvalue : ∀ {cs v rest}, value cs = some (v, rest) → Text .value cs rest) {m : String × Json}
    (h : Reader.member value cs = some (m, rest)) : Text (.member m.1) cs rest := by
  obtain ⟨_, _, _, hskip, hkey, hcolon, hv⟩ := member_cases h
  exact .keyed hskip hkey hcolon (hvalue hv)

theorem text_of_members (hvalue : ∀ {cs v rest}, value cs = some (v, rest) → Text .value cs rest)
    {ms : List (String × Json)} (h : Reader.members value cs = some (ms, rest)) :
    Text (.members (ms.map (·.1))) cs rest := by
  induction ms generalizing cs with
  | nil =>
    obtain ⟨_, _, _, ⟨hms, -⟩ | ⟨_, _, -, -, hms⟩⟩ := members_cases h <;> cases hms
  | cons _ ms ih =>
    obtain ⟨m, behind, hm, ⟨hms, hclose⟩ | ⟨_, _, hcomma, htail, hms⟩⟩ := members_cases h
    · cases hms
      exact .lastMember (text_of_member hvalue hm) hclose
    · cases hms
      exact .member (text_of_member hvalue hm) hcomma (ih htail)

theorem text_of_value {v : Json} (h : Reader.value duplicates levels cs = some (v, rest)) : Text .value cs rest := by
  induction levels generalizing cs v rest with
  | zero => exact text_of_scalar h
  | succ levels ih =>
    have hread := h
    rw [Reader.value] at h
    split at h
    · rename_i hskip
      rcases value_array_cases hskip hread with hclose | ⟨-, _, vs, hlevels, hvs⟩
      · exact .emptyArray hskip hclose
      · cases hlevels
        exact .array hskip (text_of_items ih hvs)
    · rename_i hskip
      rcases value_object_cases hskip hread with hclose | ⟨-, _, ms, hlevels, hms, -⟩
      · exact .emptyObject hskip hclose
      · cases hlevels
        exact .object hskip (text_of_members ih hms)
    · exact text_of_scalar h

end Phrase

/-- The keys are refused where they stand, whatever the values are and whatever stands behind the object. -/
theorem read?_refused {s : String} {keys : List String} (hskip : skip s.toList = '{' :: tail)
    (hkeys : Phrase.Text (.members keys) (skip tail) rest) (hd : ¬ keys.Nodup) : read? .refused s = none := by
  rw [read?]
  split
  · rename_i v after h
    rcases value_object_cases hskip h with hclose | ⟨-, _, ms, -, hms, hobject⟩
    · exact absurd (hclose ▸ hkeys) Phrase.not_members_close
    · have hread : ms.map (·.1) = keys := (hkeys.read hms).2
      exact absurd (hread ▸ (object?_refused hobject).1) hd
  · rfl

end Warden.Json
