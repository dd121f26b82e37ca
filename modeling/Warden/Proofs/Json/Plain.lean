/-
  Warden.Proofs.Json.Plain — values without numbers, written and read back.

  A number need not be read as the one that was written: it is read by two roundings. A value
  without numbers (`Plain`) is read back from its text whenever it nests no deeper than the reader
  goes. The other way round, the text of a number starts as no other text does, so a text that is
  read as a plain value was not written of anything with a number in it.

  - `Plain.readsBack`, `read?_text`: a plain value is read back.
  - `gives_value`, `eq_of_read?`: a value whose text is read as a plain one is plain, and the same.
-/

import Warden.Proofs.Json.Ordered
import Warden.Proofs.Json.ReadBack
import Warden.Proofs.Json.Reading

namespace Warden.Json

open Reader

/-- No number stands in the value, and at most `levels` arrays and objects stand inside one another. -/
inductive Plain : Nat → Json → Prop
  | null {levels : Nat} : Plain levels .null
  | bool {levels : Nat} (b : Bool) : Plain levels (.bool b)
  | string {levels : Nat} (s : String) : Plain levels (.string s)
  | array {levels : Nat} {items : List Json} : (∀ v ∈ items, Plain levels v) → Plain (levels + 1) (.array items)
  | object {levels : Nat} {members : List (String × Json)} : (∀ m ∈ members, Plain levels m.2) →
      Plain (levels + 1) (.object members)

variable {duplicates : Duplicates} {levels : Nat} {value : Step Json} {v : Json} {rest : List Char}

theorem Plain.mono {more : Nat} (h : Plain levels v) (hle : levels ≤ more) : Plain more v := by
  induction h generalizing more with
  | null => exact .null
  | bool b => exact .bool b
  | string s => exact .string s
  | array _ ih =>
    obtain ⟨more, rfl⟩ := Nat.exists_eq_add_of_le' hle
    exact .array fun v hv => ih v hv (Nat.le_add_left _ _)
  | object _ ih =>
    obtain ⟨more, rfl⟩ := Nat.exists_eq_add_of_le' hle
    exact .object fun m hm => ih m hm (Nat.le_add_left _ _)

/-! ## Starts -/

theorem toDigits_leads (n : Nat) : ∃ c cs, Nat.toDigits 10 n = c :: cs ∧ Leads c := by
  obtain ⟨c, cs, h⟩ := List.exists_cons_of_ne_nil (Nat.toDigits_ne_nil (b := 10) (n := n))
  exact ⟨c, cs, h, .inr (Nat.isDigit_of_mem_toDigits (by decide) (by decide) (h ▸ List.mem_cons_self))⟩

theorem layout_leads {digits : List Char} {x : Int} (h : ∃ c cs, digits = c :: cs ∧ Leads c) :
    ∃ c cs, Double.layout digits x = c :: cs ∧ Leads c := by
  obtain ⟨c, cs, rfl, hc⟩ := h
  unfold Double.layout
  split
  · exact ⟨c, _, rfl, hc⟩
  · split
    · exact ⟨'0', _, rfl, by decide⟩
    · dsimp only
      split
      · exact ⟨c, _, rfl, hc⟩
      · exact ⟨c, _, rfl, hc⟩

theorem number_leads (n : Json.Number) : ∃ c cs, n.chars = c :: cs ∧ Leads c := by
  cases n with
  | integer n =>
    rw [Number.chars]
    split
    · exact ⟨'-', _, rfl, .inl rfl⟩
    · exact toDigits_leads _
  | double d =>
    rw [Number.chars, Double.chars]
    dsimp only
    split
    · exact ⟨'-', _, rfl, .inl rfl⟩
    · exact layout_leads (toDigits_leads _)

/-- No written value starts with a blank or as the end of an array. -/
theorem chars_starts (v : Json) : ∃ c cs, chars v = c :: cs ∧ isBlank c = false ∧ c ≠ ']' := by
  cases v with
  | null => exact ⟨'n', _, rfl, by decide, by decide⟩
  | bool b => cases b with
    | true => exact ⟨'t', _, rfl, by decide, by decide⟩
    | false => exact ⟨'f', _, rfl, by decide, by decide⟩
  | number n =>
    obtain ⟨c, cs, h, hc⟩ := number_leads n
    exact ⟨c, cs, h, hc.not_blank, hc.ne (by decide)⟩
  | string s => exact ⟨'"', _, rfl, by decide, by decide⟩
  | array items => exact ⟨'[', _, rfl, by decide, by decide⟩
  | object members => exact ⟨'{', _, rfl, by decide, by decide⟩

/-! ## Arrays and objects -/

theorem charsItems_cons (v w : Json) (items : List Json) (rest : List Char) :
    charsItems (v :: w :: items) ++ rest = chars v ++ ',' :: (charsItems (w :: items) ++ rest) :=
  List.append_assoc _ _ _

theorem charsItems_starts {items : List Json} (hne : items ≠ []) (rest : List Char) :
    ∃ c cs, charsItems items ++ rest = c :: cs ∧ isBlank c = false ∧ c ≠ ']' := by
  obtain ⟨v, items, rfl⟩ := List.exists_cons_of_ne_nil hne
  obtain ⟨c, cs, h, hc⟩ := chars_starts v
  cases items with
  | nil => exact ⟨c, cs ++ rest, congrArg (· ++ rest) h, hc⟩
  | cons w items =>
    rw [charsItems_cons, h]
    exact ⟨c, _, rfl, hc⟩

theorem value_chars_array {items : List Json} (hne : items ≠ []) (rest : List Char) :
    Reader.value duplicates (levels + 1) (chars (.array items) ++ rest) =
      (Reader.items (Reader.value duplicates levels) (charsItems items ++ ']' :: rest)).map
        fun found => (.array found.1, found.2) := by
  have hcs : chars (.array items) ++ rest = '[' :: (charsItems items ++ ']' :: rest) := by simp [chars]
  obtain ⟨c, cs, hstart, hblank, hclose⟩ := charsItems_starts hne (']' :: rest)
  rw [hcs, Reader.value, skip_cons (by decide)]
  show Reader.array _ _ = _
  rw [hstart, Reader.array, skip_cons hblank]
  split
  · rename_i he
    exact absurd (List.cons.inj he).1 hclose
  · rfl

theorem items_written {items : List Json} (hne : items ≠ []) (h : ∀ v ∈ items, ReadsBack value v) (rest : List Char) :
    Reader.items value (charsItems items ++ ']' :: rest) = some (items, rest) := by
  induction items with
  | nil => exact absurd rfl hne
  | cons v items ih =>
    obtain ⟨hv, hitems⟩ := List.forall_mem_cons.mp h
    cases items with
    | nil =>
      have hread : value (charsItems [v] ++ ']' :: rest) = some (v, ']' :: rest) := hv _ (by simp [Ends])
      rw [Reader.items, hread]
      simp only [skip_cons (show isBlank ']' = false by decide)]
    | cons w items =>
      have hread := hv (',' :: (charsItems (w :: items) ++ ']' :: rest)) (by simp [Ends])
      rw [charsItems_cons, Reader.items, hread]
      simp only [skip_cons (show isBlank ',' = false by decide)]
      rw [if_pos (by simp; omega), ih (by simp) hitems]
      rfl

/-- Members in order are no duplicates and stay where they are. -/
theorem object?_of_pairwise {ms : List (String × Json)} (h : ms.Pairwise (·.1 < ·.1)) :
    object? duplicates ms = some (.object ms) := by
  have hnone : ¬ (duplicates = .refused ∧ hasDuplicate (ms.map (·.1))) := fun hdup => hasDuplicate_iff.mp hdup.2 (nodup_of_pairwise h)
  rw [object?, if_neg hnone, ofMembers_of_pairwise h]

theorem Plain.readsBack (h : Plain levels v) (ho : Ordered v) : ReadsBack (Reader.value duplicates levels) v := by
  induction h with
  | @null levels =>
    intro rest _
    cases levels <;> rfl
  | @bool levels b =>
    intro rest _
    cases levels <;> cases b <;> rfl
  | string s => exact readsBack_string s
  | @array levels items _ ih =>
    intro rest _
    by_cases hne : items = []
    · subst hne
      rfl
    · cases ho with
      | array ho =>
        rw [value_chars_array hne, items_written hne fun v hv => ih v hv (ho v hv)]
        rfl
  | @object levels ms _ ih =>
    intro rest _
    by_cases hne : ms = []
    · subst hne
      rfl
    · cases ho with
      | object hsorted ho => exact value_object hne (fun m hm => ih m hm (ho m hm)) (object?_of_pairwise hsorted)

/-! ## From the text -/

/-- What is read of a written value is plain only if the value is. -/
def Gives (value : Step Json) (levels : Nat) (v : Json) : Prop :=
  ∀ {rest after : List Char} {w : Json} {depth : Nat}, Ends rest → value (chars v ++ rest) = some (w, after) →
    Plain depth w → Plain levels v

variable {depth : Nat}

theorem not_plain_of_number {n : Json.Number} {after : List Char} {w : Json}
    (h : Reader.value duplicates levels (chars (.number n) ++ rest) = some (w, after)) : ¬ Plain depth w := by
  obtain ⟨c, cs, hcs, hc⟩ := number_leads n
  rw [chars, hcs, List.cons_append, value_number hc] at h
  obtain ⟨⟨l, _⟩, _, h⟩ := Option.bind_eq_some_iff.mp h
  obtain ⟨m, _, h⟩ := Option.bind_eq_some_iff.mp h
  cases h
  intro hplain
  cases hplain

theorem plain_of_items {items vs : List Json} {after : List Char} (hne : items ≠ []) (ho : ∀ v ∈ items, Ordered v)
    (hgives : ∀ v ∈ items, Gives (Reader.value duplicates levels) levels v)
    (h : Reader.items (Reader.value duplicates levels) (charsItems items ++ ']' :: rest) = some (vs, after))
    (hvs : ∀ w ∈ vs, Plain depth w) : ∀ v ∈ items, Plain levels v := by
  induction items generalizing vs with
  | nil => exact absurd rfl hne
  | cons v items ih =>
    obtain ⟨hov, hoitems⟩ := List.forall_mem_cons.mp ho
    obtain ⟨hv, hitems⟩ := List.forall_mem_cons.mp hgives
    obtain ⟨w, behind, hw, hvs'⟩ := items_cases h
    have hplainw : Plain depth w := by
      rcases hvs' with ⟨rfl, -⟩ | ⟨_, _, -, -, rfl⟩
      · exact hvs w List.mem_cons_self
      · exact hvs w List.mem_cons_self
    cases items with
    | nil =>
      have hplain : Plain levels v := hv (by simp [Ends]) hw hplainw
      exact List.forall_mem_singleton.mpr hplain
    | cons v' items =>
      rw [charsItems_cons] at hw
      have hends : Ends (',' :: (charsItems (v' :: items) ++ ']' :: rest)) := by simp [Ends]
      have hplain : Plain levels v := hv hends hw hplainw
      -- the first item is read back, so the others are read behind it
      rw [hplain.readsBack hov _ hends] at hw
      cases hw
      rw [skip_cons (by decide)] at hvs'
      rcases hvs' with ⟨-, hclose⟩ | ⟨next, tail, hnext, htail, rfl⟩
      · cases hclose
      · cases hnext
        exact List.forall_mem_cons.mpr
          ⟨hplain, ih (by simp) hoitems hitems htail fun w hw => hvs w (List.mem_cons_of_mem _ hw)⟩

theorem plain_of_members {members ms : List (String × Json)} {after : List Char} (hne : members ≠ [])
    (ho : ∀ m ∈ members, Ordered m.2) (hgives : ∀ m ∈ members, Gives (Reader.value duplicates levels) levels m.2)
    (h : Reader.members (Reader.value duplicates levels) (charsMembers members ++ '}' :: rest) = some (ms, after))
    (hms : ∀ m ∈ ms, Plain depth m.2) : ∀ m ∈ members, Plain levels m.2 := by
  induction members generalizing ms with
  | nil => exact absurd rfl hne
  | cons m members ih =>
    obtain ⟨key, v⟩ := m
    obtain ⟨hov, homembers⟩ := List.forall_mem_cons.mp ho
    obtain ⟨hv, hmembers⟩ := List.forall_mem_cons.mp hgives
    obtain ⟨m', behind, hm', hms'⟩ := members_cases h
    have hplain' : Plain depth m'.2 := by
      rcases hms' with ⟨rfl, -⟩ | ⟨_, _, -, -, rfl⟩
      · exact hms m' List.mem_cons_self
      · exact hms m' List.mem_cons_self
    cases members with
    | nil =>
      have hcs : charsMembers [(key, v)] ++ '}' :: rest = quoted key ++ ':' :: chars v ++ '}' :: rest := rfl
      rw [hcs, member_chars] at hm'
      obtain ⟨⟨w, _⟩, hw, hm'⟩ := Option.bind_eq_some_iff.mp hm'
      cases hm'
      have hplain : Plain levels v := hv (by simp [Ends]) hw hplain'
      exact List.forall_mem_singleton.mpr hplain
    | cons next members =>
      have hends : Ends (',' :: (charsMembers (next :: members) ++ '}' :: rest)) := by simp [Ends]
      rw [charsMembers_cons, member_chars] at hm'
      obtain ⟨⟨w, _⟩, hw, hm'⟩ := Option.bind_eq_some_iff.mp hm'
      cases hm'
      have hplain : Plain levels v := hv hends hw hplain'
      -- the first value is read back, so the other members are read behind it
      rw [hplain.readsBack hov _ hends] at hw
      cases hw
      rw [skip_cons (by decide)] at hms'
      rcases hms' with ⟨-, hclose⟩ | ⟨_, tail, hnext, htail, rfl⟩
      · cases hclose
      · cases hnext
        exact List.forall_mem_cons.mpr
          ⟨hplain, ih (by simp) homembers hmembers htail fun m hm => hms m (List.mem_cons_of_mem _ hm)⟩

/-- Whatever was written: what is read as a plain value was one. -/
theorem gives_value (levels : Nat) (v : Json) (ho : Ordered v) : Gives (Reader.value .refused levels) levels v := by
  intro rest after w depth hends h hw
  induction levels generalizing v rest after w depth with
  | zero =>
    cases v with
    | null => exact .null
    | bool b => exact .bool b
    | string s => exact .string s
    | number n => exact absurd hw (not_plain_of_number h)
    | array items => cases h
    | object members => cases h
  | succ levels ih =>
    cases v with
    | null => exact .null
    | bool b => exact .bool b
    | string s => exact .string s
    | number n => exact absurd hw (not_plain_of_number h)
    | array items =>
      cases ho with
      | array ho =>
        by_cases hne : items = []
        · subst hne
          exact .array nofun
        · rw [value_chars_array hne] at h
          obtain ⟨⟨vs, _⟩, hvs, h⟩ := Option.map_eq_some_iff.mp h
          cases h
          cases hw with
          | array hw => exact .array (plain_of_items hne ho (fun v hv => ih v (ho v hv)) hvs hw)
    | object members =>
      cases ho with
      | object _ ho =>
        by_cases hne : members = []
        · subst hne
          exact .object nofun
        · rw [value_chars_object hne] at h
          obtain ⟨⟨ms, _⟩, hms, h⟩ := Option.bind_eq_some_iff.mp h
          obtain ⟨o, hobject, h⟩ := Option.bind_eq_some_iff.mp h
          cases h
          obtain ⟨hd, rfl⟩ := object?_refused hobject
          obtain ⟨sorted, hsorted, -⟩ := ofMembers_ordered hd
          rw [hsorted] at hw
          cases hw with
          | object hw =>
            have hplain (m : String × Json) (hm : m ∈ ms) := hw m ((mem_ofMembers_iff hd hsorted).mpr hm)
            exact .object (plain_of_members hne ho (fun m hm => ih m.2 (ho m hm)) hms hplain)

/-! ## Texts -/

theorem read?_text (h : Plain nestingLimit v) (ho : Ordered v) : read? duplicates v.text = some v := by
  have hread := (h.readsBack ho : ReadsBack (Reader.value duplicates nestingLimit) v) [] ends_nil
  rw [List.append_nil] at hread
  rw [read?, text, String.toList_ofList, hread]
  rfl

theorem eq_of_read? {w : Json} (h : read? .refused v.text = some w) (hw : Plain depth w) (ho : Ordered v) :
    w = v := by
  have hplain : Plain nestingLimit v := by
    rw [read?, text, String.toList_ofList] at h
    split at h
    · rename_i w' after hread
      split at h
      · cases h
        rw [← List.append_nil v.chars] at hread
        exact gives_value nestingLimit v ho ends_nil hread hw
      · cases h
    · cases h
  rw [read?_text hplain ho] at h
  exact (Option.some.inj h).symm

end Warden.Json
