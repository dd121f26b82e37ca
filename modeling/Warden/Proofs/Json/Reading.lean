/-
  Warden.Proofs.Json.Reading — what the reader has found.

  The reader is turned around here: from what was read to the parts it was read from. The first
  character behind the blanks says how a value is taken. A number starts with a sign or a digit
  and nothing else does.

  - `value_scalar`, `value_array_cases`, `value_object_cases`: how a value is taken.
  - `items_cases`, `members_cases`, `member_cases`: one step of the loops.
  - `object?_refused`: an object that was not refused has no key twice.
  - `value_number`, `scan_starts`: what starts like a number is read as one or not at all, and no
    other literal is.
-/

import Warden.Json.Reader

namespace Warden.Json

open Reader

variable {value : Step Json} {cs rest after tail : List Char} {c : Char} {duplicates : Duplicates} {levels : Nat}

/-! ## Values -/

theorem value_scalar (hskip : skip cs = c :: tail) (harray : c ≠ '[') (hobject : c ≠ '{') :
    Reader.value duplicates levels cs = scalar (c :: tail) := by
  cases levels with
  | zero => rw [Reader.value, hskip]
  | succ levels =>
    rw [Reader.value, hskip]
    split <;> simp_all

theorem value_array_cases {v : Json} (hskip : skip cs = '[' :: tail)
    (h : Reader.value duplicates levels cs = some (v, after)) : skip tail = ']' :: after ∨
      (∀ r, skip tail ≠ ']' :: r) ∧
        ∃ fewer vs, levels = fewer + 1 ∧
          Reader.items (Reader.value duplicates fewer) (skip tail) = some (vs, after) := by
  cases levels with
  | zero => rw [Reader.value, hskip] at h; cases h
  | succ levels =>
    rw [Reader.value, hskip] at h
    change Reader.array _ _ = _ at h
    rw [Reader.array] at h
    split at h
    · rename_i hclose
      cases h
      exact .inl hclose
    · rename_i hopen
      obtain ⟨⟨vs, _⟩, hvs, h⟩ := Option.map_eq_some_iff.mp h
      cases h
      exact .inr ⟨hopen, levels, vs, rfl, hvs⟩

theorem value_object_cases {v : Json} (hskip : skip cs = '{' :: tail)
    (h : Reader.value duplicates levels cs = some (v, after)) : skip tail = '}' :: after ∨
      (∀ r, skip tail ≠ '}' :: r) ∧ ∃ fewer ms, levels = fewer + 1 ∧
        Reader.members (Reader.value duplicates fewer) (skip tail) = some (ms, after) ∧ object? duplicates ms = some v := by
  cases levels with
  | zero => rw [Reader.value, hskip] at h; cases h
  | succ levels =>
    rw [Reader.value, hskip] at h
    change Reader.object _ _ _ = _ at h
    rw [Reader.object] at h
    split at h
    · rename_i hclose
      cases h
      exact .inl hclose
    · rename_i hopen
      obtain ⟨⟨ms, _⟩, hms, h⟩ := Option.bind_eq_some_iff.mp h
      obtain ⟨o, ho, h⟩ := Option.bind_eq_some_iff.mp h
      cases h
      exact .inr ⟨hopen, levels, ms, rfl, hms, ho⟩

theorem elements_of_string {s : String} (h : Reader.string cs = some (s, rest)) : ∃ es, elements cs = some (es, rest) := by
  obtain ⟨⟨es, _⟩, helements, h⟩ := Option.bind_eq_some_iff.mp h
  obtain ⟨_, _, h⟩ := Option.bind_eq_some_iff.mp h
  cases h
  exact ⟨es, helements⟩

/-! ## Loops -/

theorem items_cases {vs : List Json} (h : items value cs = some (vs, rest)) :
    ∃ v after, value cs = some (v, after) ∧ (vs = [v] ∧ skip after = ']' :: rest ∨
      ∃ next tail, skip after = ',' :: next ∧ items value next = some (tail, rest) ∧ vs = v :: tail) := by
  rw [items] at h
  split at h
  · cases h
  · rename_i v after hv
    refine ⟨v, after, hv, ?_⟩
    split at h
    · rename_i hskip
      cases h
      exact .inl ⟨rfl, hskip⟩
    · rename_i next hskip
      split at h
      · obtain ⟨⟨tail, _⟩, htail, h⟩ := Option.map_eq_some_iff.mp h
        cases h
        exact .inr ⟨next, tail, hskip, htail, rfl⟩
      · cases h
    · cases h

theorem member_cases {key : String} {v : Json} (h : member value cs = some ((key, v), rest)) :
    ∃ body after next, skip cs = '"' :: body ∧ Reader.string body = some (key, after) ∧
      skip after = ':' :: next ∧ value next = some (v, rest) := by
  rw [member] at h
  split at h
  · rename_i body hskip
    obtain ⟨⟨key', after⟩, hkey, h⟩ := Option.bind_eq_some_iff.mp h
    dsimp only at h
    split at h
    · rename_i next hcolon
      obtain ⟨⟨v', rest'⟩, hv, h⟩ := Option.bind_eq_some_iff.mp h
      cases h
      exact ⟨body, after, next, hskip, hkey, hcolon, hv⟩
    · cases h
  · cases h

theorem members_cases {ms : List (String × Json)} (h : members value cs = some (ms, rest)) :
    ∃ m after, member value cs = some (m, after) ∧ (ms = [m] ∧ skip after = '}' :: rest ∨
      ∃ next tail, skip after = ',' :: next ∧ members value next = some (tail, rest) ∧ ms = m :: tail) := by
  rw [members] at h
  split at h
  · cases h
  · rename_i m after hm
    refine ⟨m, after, hm, ?_⟩
    split at h
    · rename_i hskip
      cases h
      exact .inl ⟨rfl, hskip⟩
    · rename_i next hskip
      split at h
      · obtain ⟨⟨tail, _⟩, htail, h⟩ := Option.map_eq_some_iff.mp h
        cases h
        exact .inr ⟨next, tail, hskip, htail, rfl⟩
      · cases h
    · cases h

/-! ## Keys given twice -/

theorem hasDuplicate_iff {keys : List String} : hasDuplicate keys = true ↔ ¬ keys.Nodup := by
  induction keys with
  | nil => exact ⟨nofun, fun h => absurd List.nodup_nil h⟩
  | cons key keys ih =>
    rw [hasDuplicate, Bool.or_eq_true, ih, List.contains_iff_mem, List.nodup_cons,
      Decidable.not_and_iff_not_or_not, Decidable.not_not]

theorem object?_refused {ms : List (String × Json)} {o : Json} (h : object? .refused ms = some o) :
    (ms.map (·.1)).Nodup ∧ o = ofMembers ms := by
  rw [object?] at h
  split at h
  · cases h
  · rename_i hdup
    refine ⟨Classical.byContradiction fun hd => hdup ⟨rfl, hasDuplicate_iff.mpr hd⟩, (Option.some.inj h).symm⟩

/-! ## Numbers -/

/-- A character that a number can start with. -/
def Leads (c : Char) : Prop := c = '-' ∨ c.isDigit

theorem scanWhole_eq_none (h : ¬ c.isDigit) (cs : List Char) : Literal.scanWhole (c :: cs) = none := by
  have hdigits : Literal.digits (c :: cs) = ([], c :: cs) := by simp [Literal.digits, h]
  rw [Literal.scanWhole, hdigits]
  rintro _ ⟨⟩
  exact h rfl

theorem scan_starts {l : Literal} (h : Literal.scan cs = some (l, rest)) : ∃ c tail, cs = c :: tail ∧ Leads c := by
  cases cs with
  | nil => cases h
  | cons c tail =>
    refine ⟨c, tail, rfl, Decidable.or_iff_not_imp_left.mpr fun hsign => ?_⟩
    refine Decidable.byContradiction fun hdigit => ?_
    rw [Literal.scan, scanWhole_eq_none hdigit] at h
    · cases h
    · intro _ he
      exact hsign (List.cons.inj he).1

theorem Leads.ne {d : Char} (h : Leads c) (hd : ¬ Leads d) : c ≠ d := fun he => hd (he ▸ h)

instance (c : Char) : Decidable (Leads c) := inferInstanceAs (Decidable (c = '-' ∨ c.isDigit))

theorem Leads.not_blank (h : Leads c) : isBlank c = false := by
  have hspace := h.ne (d := ' ') (by decide)
  have htab := h.ne (d := '\t') (by decide)
  have hline := h.ne (d := '\n') (by decide)
  have hreturn := h.ne (d := '\r') (by decide)
  simp [isBlank, hspace, htab, hline, hreturn]

theorem scalar_number (h : Leads c) (cs : List Char) : scalar (c :: cs) = Reader.number (c :: cs) := by
  have hquote := h.ne (d := '"') (by decide)
  have hn := h.ne (d := 'n') (by decide)
  have ht := h.ne (d := 't') (by decide)
  have hf := h.ne (d := 'f') (by decide)
  unfold scalar
  split <;> simp_all

theorem value_number (h : Leads c) (cs : List Char) :
    Reader.value duplicates levels (c :: cs) = Reader.number (c :: cs) := by
  have hskip : skip (c :: cs) = c :: cs := by simp [skip, h.not_blank]
  rw [value_scalar hskip (h.ne (by decide)) (h.ne (by decide)), scalar_number h]

end Warden.Json
