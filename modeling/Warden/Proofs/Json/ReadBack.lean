/-
  Warden.Proofs.Json.ReadBack — written text read back.

  A written string is made of elements that the reader finds one by one: a character stands
  for itself, is escaped by a letter, or is the unit of a `\u` escape (`written`). No such
  unit is half of a surrogate pair, so the elements are put together to what was written,
  whatever its characters. A reader reads a value back (`ReadsBack`) if it does so in front of
  all that may follow the value inside another one; from a reader for its values the members
  of an object are read back one after another.

  - `string_written`: strings, in front of any text.
  - `members_written`, `value_object`: objects, from their values.
  - `read?_texts`: an object of texts is read back from its text.
-/

import Warden.Json.Printer
import Warden.Json.Reader

namespace Warden.Json

open Reader

variable {rest : List Char}

/-! ## Elements of a string -/

/-- One more element in front of those that were read. -/
def prepend (e : Element) : List Element × List Char → List Element × List Char := fun (es, rest) => (e :: es, rest)

theorem elements_unit {a b c d : Char} {n : Nat} (h : unit? a b c d = some n) (rest : List Char) :
    elements ('\\' :: 'u' :: a :: b :: c :: d :: rest) = (elements rest).map (prepend (.unit n)) := by
  rw [elements, h]
  cases elements rest <;> rfl

theorem elements_letter {letter c : Char} (hu : letter ≠ 'u') (h : unescape? letter = some c) (rest : List Char) :
    elements ('\\' :: letter :: rest) = (elements rest).map (prepend (.char c)) := by
  rw [elements, h]
  · cases elements rest <;> rfl
  · intro _ _ _ _ _ he
    exact absurd he hu

theorem elements_plain {c : Char} (hq : c ≠ '"') (hb : c ≠ '\\') (h : ¬ c.toNat < 0x20) (rest : List Char) :
    elements (c :: rest) = (elements rest).map (prepend (.char c)) := by
  rw [elements, if_neg h]
  · cases elements rest <;> rfl
  · exact hq
  · intro _ _ _ _ _ hc
    exact absurd hc hb
  · intro _ _ hc
    exact absurd hc hb

theorem hexDigit?_digitChar : ∀ n < 16, hexDigit? (Nat.digitChar n) = some n := by decide

theorem unit?_digits {n : Nat} (h : n < 0x20) :
    unit? '0' '0' (Nat.digitChar (n / 16)) (Nat.digitChar (n % 16)) = some n := by
  have hzero : hexDigit? '0' = some 0 := by decide
  have hhigh := hexDigit?_digitChar (n / 16) (by omega)
  have hlow := hexDigit?_digitChar (n % 16) (by omega)
  have hn : 16 * (n / 16) + n % 16 = n := by omega
  simp [unit?, hzero, hhigh, hlow, hn]

/-- What the reader finds where the character was written: a control character without a letter
    of its own is a unit. -/
def written (c : Char) : Element :=
  if c.toNat < 0x20 ∧ c ∉ ['\n', '\r', '\t', '\x08', '\x0c'] then .unit c.toNat else .char c

theorem elements_escape (c : Char) (rest : List Char) :
    elements (escape c ++ rest) = (elements rest).map (prepend (written c)) := by
  unfold escape
  -- the seven characters with a letter of their own
  iterate 7
    split
    · subst c
      exact elements_letter (by decide) rfl rest
  split
  · rename_i hn hr ht hb hf hc
    have hw : written c = .unit c.toNat := if_pos ⟨hc, by simp [hn, hr, ht, hb, hf]⟩
    rw [hw]
    exact elements_unit (unit?_digits hc) rest
  · rename_i hq hs _ _ _ _ _ hc
    have hw : written c = .char c := if_neg fun h => hc h.1
    rw [hw]
    exact elements_plain hq hs hc rest

theorem elements_written (cs rest : List Char) :
    elements (cs.flatMap escape ++ '"' :: rest) = some (cs.map written, rest) := by
  induction cs with
  | nil => rfl
  | cons c cs ih => rw [List.flatMap_cons, List.append_assoc, elements_escape, ih]; rfl

/-! ## Strings -/

/-- A unit that is no half of a pair is a character by itself. -/
theorem combine_unit {n : Nat} (h : n < 0xD800) (es : List Element) :
    combine (.unit n :: es) = (Char.ofNat n :: ·) <$> combine es := by
  have hhigh : isHigh n = false := by simp [isHigh]; omega
  have hlow : isLow n = false := by simp [isLow]; omega
  cases es with
  | nil => simp [combine, hhigh, hlow]
  | cons e es => cases e <;> simp [combine, hhigh, hlow]

theorem combine_written (cs : List Char) : combine (cs.map written) = some cs := by
  induction cs with
  | nil => rfl
  | cons c cs ih =>
    rw [List.map_cons]
    by_cases h : c.toNat < 0x20 ∧ c ∉ ['\n', '\r', '\t', '\x08', '\x0c']
    · have hw : written c = .unit c.toNat := if_pos h
      rw [hw, combine_unit (by omega), ih, Char.ofNat_toNat]
      rfl
    · have hw : written c = .char c := if_neg h
      rw [hw, combine, ih]
      rfl

theorem string_written (s : String) (rest : List Char) :
    Reader.string (s.toList.flatMap escape ++ '"' :: rest) = some (s, rest) := by
  simp [Reader.string, elements_written, combine_written]

/-! ## Members -/

theorem skip_cons {c : Char} (h : isBlank c = false) (rest : List Char) : skip (c :: rest) = c :: rest := by
  simp [skip, h]

/-- What may follow a value: the end of the text, or a mark that is no part of the value. -/
def Ends (rest : List Char) : Prop := ∀ c, rest.head? = some c → c ∈ [',', ']', '}']

theorem ends_nil : Ends [] := by simp [Ends]

def ReadsBack (value : Step Json) (v : Json) : Prop := ∀ rest, Ends rest → value (chars v ++ rest) = some (v, rest)

variable {value : Step Json}

theorem member_chars (key : String) (v : Json) (rest : List Char) :
    member value (quoted key ++ ':' :: chars v ++ rest) =
      (value (chars v ++ rest)).bind fun (w, rest) => some ((key, w), rest) := by
  have hq : quoted key ++ ':' :: chars v ++ rest =
      '"' :: (key.toList.flatMap escape ++ '"' :: ':' :: (chars v ++ rest)) := by
    simp [quoted]
  rw [hq, member, skip_cons (by decide)]
  simp only [string_written, Option.bind_eq_bind, Option.bind_some, skip_cons (show isBlank ':' = false by decide)]

theorem member_written {key : String} {v : Json} (hv : ReadsBack value v) (hr : Ends rest) :
    member value (quoted key ++ ':' :: chars v ++ rest) = some ((key, v), rest) := by
  rw [member_chars, hv rest hr]
  rfl

theorem charsMembers_cons (key : String) (v : Json) (m : String × Json) (ms : List (String × Json)) (rest : List Char) :
    charsMembers ((key, v) :: m :: ms) ++ rest =
      quoted key ++ ':' :: chars v ++ ',' :: (charsMembers (m :: ms) ++ rest) :=
  List.append_assoc _ _ _

theorem members_written {ms : List (String × Json)} (hne : ms ≠ []) (h : ∀ m ∈ ms, ReadsBack value m.2)
    (rest : List Char) : members value (charsMembers ms ++ '}' :: rest) = some (ms, rest) := by
  induction ms with
  | nil => exact absurd rfl hne
  | cons m ms ih =>
    obtain ⟨key, v⟩ := m
    have hv : ReadsBack value v := h (key, v) (by simp)
    cases ms with
    | nil =>
      have hm : member value (charsMembers [(key, v)] ++ '}' :: rest) = some ((key, v), '}' :: rest) :=
        member_written hv (by simp [Ends])
      rw [members, hm]
      simp only [skip_cons (show isBlank '}' = false by decide)]
    | cons m' ms =>
      have hrest := ih (by simp) fun m hm => h m (by simp [hm])
      have hcs := charsMembers_cons key v m' ms ('}' :: rest)
      have hm : member value (quoted key ++ ':' :: chars v ++ ',' :: (charsMembers (m' :: ms) ++ '}' :: rest)) =
          some ((key, v), ',' :: (charsMembers (m' :: ms) ++ '}' :: rest)) :=
        member_written hv (by simp [Ends])
      rw [hcs, members, hm]
      simp only [skip_cons (show isBlank ',' = false by decide)]
      rw [if_pos (by simp; omega), hrest]
      rfl

/-! ## Values -/

variable {duplicates : Duplicates} {levels : Nat}

theorem readsBack_string (s : String) : ReadsBack (Reader.value duplicates levels) (.string s) := by
  intro rest _
  have hq : chars (.string s) ++ rest = '"' :: (s.toList.flatMap escape ++ '"' :: rest) := by simp [chars, quoted]
  have hscalar : scalar ('"' :: (s.toList.flatMap escape ++ '"' :: rest)) = some (.string s, rest) := by
    rw [scalar, string_written]
    rfl
  cases levels with
  | zero => rw [hq, Reader.value, skip_cons (by decide), hscalar]
  | succ levels =>
    rw [hq, Reader.value, skip_cons (by decide)]
    exact hscalar

/-- The members of an object are read with one level less. -/
theorem value_chars_object {ms : List (String × Json)} (hne : ms ≠ []) (rest : List Char) :
    Reader.value duplicates (levels + 1) (chars (.object ms) ++ rest) =
      (members (Reader.value duplicates levels) (charsMembers ms ++ '}' :: rest)).bind
        fun (ms, rest) => (object? duplicates ms).bind fun o => some (o, rest) := by
  have hcs : chars (.object ms) ++ rest = '{' :: (charsMembers ms ++ '}' :: rest) := by simp [chars]
  obtain ⟨cs, hkey⟩ : ∃ cs, charsMembers ms ++ '}' :: rest = '"' :: cs := by
    match ms, hne with
    | [(key, v)], _ => exact ⟨_, rfl⟩
    | (key, v) :: m :: ms, _ => exact ⟨_, rfl⟩
  rw [hcs, Reader.value, skip_cons (by decide)]
  show Reader.object _ _ _ = _
  rw [hkey, Reader.object, skip_cons (by decide)]
  rfl

theorem value_object {ms : List (String × Json)} (hne : ms ≠ [])
    (h : ∀ m ∈ ms, ReadsBack (Reader.value duplicates levels) m.2) {o : Json} (ho : object? duplicates ms = some o) :
    Reader.value duplicates (levels + 1) (chars (.object ms) ++ rest) = some (o, rest) := by
  rw [value_chars_object hne, members_written hne h]
  simp [ho]

/-- An object of texts is read back from its text, if its keys are in order. -/
theorem read?_texts {ms : List (String × Json)} (hne : ms ≠ []) (h : ∀ m ∈ ms, ∃ s, m.2 = .string s)
    (ho : object? duplicates ms = some (.object ms)) : read? duplicates (text (.object ms)) = some (.object ms) := by
  have hms : ∀ m ∈ ms, ReadsBack (Reader.value duplicates 126) m.2 := by
    intro m hm
    obtain ⟨s, hs⟩ := h m hm
    rw [hs]
    exact readsBack_string s
  have hv : Reader.value duplicates 127 (chars (.object ms) ++ []) = some (.object ms, []) := value_object hne hms ho
  rw [List.append_nil] at hv
  rw [read?, text, String.toList_ofList, nestingLimit, hv]
  rfl

end Warden.Json
