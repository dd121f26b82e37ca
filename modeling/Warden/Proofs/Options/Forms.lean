/-
  Warden.Proofs.Options.Forms — the three ways of writing options.

  Options are given as an object, as the list of their values or as a text of either. A list is
  the object that gives its values to the keys in their order, a text is what it was written
  of, and an object is read member by member, in the order of its keys.

  - `array_ok_iff`: lists and objects.
  - `plain_of_ofJson?`: options hold no number and nest two levels deep at most, so that their texts are
    read back.
  - `forms_agree`: all that is said of the three forms together.
-/

import Warden.Proofs.Json.Plain
import Warden.Proofs.Json.Texts
import Warden.Proofs.Options.Written

namespace Warden.Options

variable {v : Json} {vs : List Json} {ms : List (String × Json)} {o : Options} {k : Key}

theorem ofDocument_ok_iff : ofDocument v = .ok o ↔ ofJson? v = .ok o := mapError_ok_iff

theorem ofDocument_error_iff {e : OptionsError} :
    ofDocument v = .error e ↔ ∃ fault, ofJson? v = .error fault ∧ .malformed fault = e := by
  refine ⟨mapError_error, ?_⟩
  rintro ⟨fault, hfault, rfl⟩
  rw [ofDocument, hfault]
  rfl

theorem ofText_ok_iff {text : String} :
    ofText text = .ok o ↔ ∃ v, Json.read? .refused text = some v ∧ ofJson? v = .ok o := by
  rw [ofText]
  cases Json.read? .refused text with
  | none => exact ⟨(nomatch ·), fun ⟨_, h, _⟩ => nomatch h⟩
  | some v =>
    refine mapError_ok_iff.trans ⟨fun h => ⟨v, rfl, h⟩, ?_⟩
    rintro ⟨_, hv, h⟩
    cases hv
    exact h

/-! ## Lists -/

theorem length_all : Key.all.length = 8 := rfl

theorem nodup_names_zip (vs : List Json) : (((Key.all.map Key.name).zip vs).map (·.1)).Nodup := by
  have hnames : (Key.all.map Key.name).Nodup := by decide
  rw [List.zip_eq_zip_take_min, List.map_fst_zip (by simp)]
  exact hnames.sublist (List.take_sublist _ _)

theorem ofJson?_array (h : vs.length = 7 ∨ vs.length = 8) :
    ofJson? (.array vs) = setMembers {} ((Key.all.map Key.name).zip vs) := by
  have hshort : ¬ vs.length + 1 < Key.all.length := by
    rw [length_all]
    omega
  have hlong : ¬ Key.all.length < vs.length := by
    rw [length_all]
    omega
  rw [ofJson?, setInOrder_eq]
  cases setMembers {} ((Key.all.map Key.name).zip vs) with
  | ok o => simp only [bind, Except.bind, if_neg hshort, if_neg hlong]
  | error fault => rfl

theorem ofJson?_array_length (hseven : vs.length ≠ 7) (height : vs.length ≠ 8) :
    ∃ fault, ofJson? (.array vs) = .error fault := by
  rw [ofJson?]
  cases setInOrder {} Key.all vs with
  | error fault => exact ⟨fault, rfl⟩
  | ok o =>
    simp only [bind, Except.bind]
    split
    · exact ⟨_, rfl⟩
    · split
      · exact ⟨_, rfl⟩
      · rename_i hshort hlong
        rw [length_all] at hshort hlong
        omega

theorem array_ok_iff (h : vs.length = 7 ∨ vs.length = 8) :
    ofJson? (.array vs) = .ok o ↔ ofJson? (.ofMembers ((Key.all.map Key.name).zip vs)) = .ok o := by
  obtain ⟨sorted, hsorted, -⟩ := Json.ofMembers_ordered (nodup_names_zip vs)
  rw [ofJson?_array h, hsorted]
  exact (setMembers_sorted (nodup_names_zip vs) hsorted).symm

/-! ## Objects -/

theorem ofJson?_insert_null (hk : k ≠ .requestProperty) (hms : ∀ m ∈ ms, m.1 ≠ k.name) :
    ofJson? (.object (Json.insert k.name .null ms)) = ofJson? (.object ms) :=
  setMembers_insert_null (by cases k <;> first | rfl | exact absurd rfl hk) hms

/-- The fault of an object is that of the least key at fault. -/
theorem ofJson?_object_error_iff {fault : DocumentFault} (h : ms.Pairwise (·.1 < ·.1)) :
    ofJson? (.object ms) = .error fault ↔
      ∃ m ∈ ms, Faulty m fault ∧ ∀ m' ∈ ms, ¬ Sound m' → m.1 ≤ m'.1 := by
  rw [ofJson?, setMembers_error_iff]
  constructor
  · rintro ⟨before, m, after, rfl, hbefore, hm⟩
    refine ⟨m, List.mem_append_cons_self, hm, fun m' hm' hunsound => ?_⟩
    rcases List.mem_append.mp hm' with hm' | hm'
    · exact absurd (hbefore m' hm') hunsound
    · rcases List.mem_cons.mp hm' with rfl | hm'
      · exact String.le_refl _
      · have hafter := (List.pairwise_cons.mp (List.pairwise_append.mp h).2.1).1
        exact Std.le_of_lt (hafter m' hm')
  · rintro ⟨m, hm, hfaulty, hleast⟩
    obtain ⟨before, after, rfl⟩ := List.append_of_mem hm
    refine ⟨before, m, after, rfl, fun b hb => Classical.byContradiction fun hunsound => ?_, hfaulty⟩
    have hlt : b.1 < m.1 := (List.pairwise_append.mp h).2.2 b hb m List.mem_cons_self
    exact String.not_lt.mpr (hleast b (List.mem_append_left _ hb) hunsound) hlt

/-! ## Texts -/

theorem plain_of_fits {kind : Kind} (h : kind.Fits v) : Json.Plain 1 v := by
  cases h with
  | null => exact .null
  | dotted s | text s => exact .string s
  | flag b => exact .bool b
  | list segments =>
    refine .array fun v hv => ?_
    obtain ⟨s, -, rfl⟩ := List.mem_map.mp hv
    exact .string s

theorem plain_of_sound {m : String × Json} (h : Sound m) : Json.Plain 1 m.2 := by
  obtain ⟨_, -, hfits⟩ := h
  exact plain_of_fits hfits

theorem plain_of_ofJson? (h : ofJson? v = .ok o) : Json.Plain 2 v := by
  cases v with
  | null => exact .null
  | bool b => exact .bool b
  | string s => exact .string s
  | number n => cases h
  | object ms => exact .object fun m hm => plain_of_sound ((setMembers_exists_iff {}).mp ⟨o, h⟩ m hm)
  | array vs =>
    by_cases hlength : vs.length = 7 ∨ vs.length = 8
    · rw [ofJson?_array hlength] at h
      have hsound := (setMembers_exists_iff {}).mp ⟨o, h⟩
      -- no value is left over behind the last key
      have hvs : ((Key.all.map Key.name).zip vs).map (·.2) = vs := List.map_snd_zip (by
        rw [List.length_map, length_all]
        omega)
      refine .array fun v hv => ?_
      rw [← hvs] at hv
      obtain ⟨m, hm, rfl⟩ := List.mem_map.mp hv
      exact plain_of_sound (hsound m hm)
    · obtain ⟨fault, hfault⟩ := ofJson?_array_length (fun h => hlength (.inl h)) fun h => hlength (.inr h)
      rw [hfault] at h
      cases h

theorem text_ok_iff (hv : v.Ordered) : ofText v.text = .ok o ↔ ofJson? v = .ok o := by
  rw [ofText_ok_iff]
  constructor
  · rintro ⟨w, hread, hw⟩
    obtain rfl := Json.eq_of_read? hread (plain_of_ofJson? hw) hv
    exact hw
  · intro h
    exact ⟨v, Json.read?_text ((plain_of_ofJson? h).mono (by decide)) hv, h⟩

/-! ## The three forms -/

theorem forms_agree :
    -- a list of values is the object that gives them to the keys in their order
    (∀ vs : List Json, vs.length = 7 ∨ vs.length = 8 → ∀ o : Options,
      ofDocument (.array vs) = .ok o ↔
        ofDocument (.ofMembers (["tokenKey", "scopeKey", "adminKey", "claimDelimiter", "claimScopeDelimiter",
          "credentialsRequired", "scopeRequired", "requestProperty"].zip vs)) = .ok o) ∧
    (∀ vs : List Json, vs.length ≠ 7 → vs.length ≠ 8 →
      ∃ fault, ofDocument (.array vs) = .error (.malformed fault)) ∧
    -- an object is read if each member names an option and has a value for it
    (∀ ms : List (String × Json), (∃ o, ofDocument (.object ms) = .ok o) ↔
      ∀ m ∈ ms, ∃ k : Key, k.name = m.1 ∧ k.kind.Fits m.2) ∧
    (∀ (ms : List (String × Json)) (k : Key), k ≠ .requestProperty → (∀ m ∈ ms, m.1 ≠ k.name) →
      ofDocument (.object (Json.insert k.name .null ms)) = ofDocument (.object ms)) ∧
    (∀ ms : List (String × Json), ms.Pairwise (·.1 < ·.1) → ∀ e : OptionsError,
      ofDocument (.object ms) = .error e ↔
        ∃ m ∈ ms, ∃ fault, Faulty m fault ∧ (∀ m' ∈ ms, ¬ Sound m' → m.1 ≤ m'.1) ∧ e = .malformed fault) ∧
    -- a text is read as the value it was written of, and no key may be given twice in one
    (∀ v : Json, v.Ordered → ∀ o : Options, ofText v.text = .ok o ↔ ofDocument v = .ok o) ∧
    (∀ (s : String) (keys : List String) (inner rest : List Char), Json.Reader.skip s.toList = '{' :: inner →
      Json.Phrase.Text (.members keys) (Json.Reader.skip inner) rest → ¬ keys.Nodup →
      ofText s = .error (.malformed .unreadableText)) := by
  refine ⟨fun vs h o => ?_, fun vs hseven height => ?_, fun ms => ?_, fun ms k hk hms => ?_, fun ms h e => ?_,
    fun v hv o => ?_, fun s keys inner rest hskip hkeys hd => ?_⟩
  · rw [ofDocument_ok_iff, ofDocument_ok_iff]
    exact array_ok_iff h
  · obtain ⟨fault, hfault⟩ := ofJson?_array_length hseven height
    exact ⟨fault, ofDocument_error_iff.mpr ⟨fault, hfault, rfl⟩⟩
  · simp only [ofDocument_ok_iff]
    exact setMembers_exists_iff {}
  · exact congrArg (Except.mapError OptionsError.malformed) (ofJson?_insert_null hk hms)
  · simp only [ofDocument_error_iff, ofJson?_object_error_iff h]
    constructor
    · rintro ⟨fault, ⟨m, hm, hfaulty, hleast⟩, rfl⟩
      exact ⟨m, hm, fault, hfaulty, hleast, rfl⟩
    · rintro ⟨m, hm, fault, hfaulty, hleast, rfl⟩
      exact ⟨fault, ⟨m, hm, hfaulty, hleast⟩, rfl⟩
  · rw [ofDocument_ok_iff]
    exact text_ok_iff hv
  · rw [ofText, Json.read?_refused hskip hkeys hd]

/-- Eight values of which the last one is null; two keys at fault, the first of them for its value; and a key
    that is given twice, once with an escape and with a number past the largest double. -/
theorem forms_agree_on_settings :
    let values : List Json := [.array [.string "auth", .string "token"], .null, .string "admin", .null, .null,
      .bool false, .null, .null]
    let o : Options :=
      { tokenKey := some (.list ["auth", "token"]), adminKey := some (.dotted "admin"),
        credentialsRequired := some false, requestProperty := .disabled }
    let faulty : List (String × Json) := [("adminKey", .bool true), ("color", .null)]
    let inner := ['"', 'a', '"', ':', '1', 'e', '9', '9', '9', ' ', ',', '"', '\\', 'u', '0', '0', '6', '1', '"', ':',
      '[', ']', '}']
    ofDocument (.ofMembers (["tokenKey", "scopeKey", "adminKey", "claimDelimiter", "claimScopeDelimiter",
      "credentialsRequired", "scopeRequired", "requestProperty"].zip values)) = .ok o ∧
    (∃ fault, ofDocument (.array (values.take 6)) = .error (.malformed fault)) ∧
    (¬ ∃ o, ofDocument (.object faulty) = .ok o) ∧
    ofDocument (.object (Json.insert "scopeKey" .null faulty)) = .error (.malformed .notPath) ∧
    ofText (Json.text (.array values)) = .ok o ∧
    ofText (String.ofList (' ' :: '{' :: inner)) = .error (.malformed .unreadableText) := by
  intro values o faulty inner
  obtain ⟨harray, hlength, hobject, hnull, hfault, htext, hkeys⟩ := forms_agree
  have hread : ofDocument (.array values) = .ok o := rfl
  have hordered : (Json.array values).Ordered := by
    refine .array fun v hv => ?_
    simp only [values, List.mem_cons, List.not_mem_nil, or_false] at hv
    rcases hv with rfl | rfl | rfl | rfl | rfl | rfl | rfl | rfl
    · refine .array fun s hs => ?_
      simp only [List.mem_cons, List.not_mem_nil, or_false] at hs
      rcases hs with rfl | rfl <;> exact .string _
    all_goals constructor
  have hmisfit : ¬ (Key.kind .adminKey).Fits (.bool true) := nofun
  have hunsound : ¬ Sound ("adminKey", .bool true) := Faulty.not_sound (Faulty.misfit (k := .adminKey) hmisfit)
  have hfirst : ofDocument (.object faulty) = .error (.malformed .notPath) := by
    refine (hfault faulty (by decide) _).mpr ⟨_, List.mem_cons_self, _, .misfit (k := .adminKey) hmisfit, ?_, rfl⟩
    have hleast : ∀ m ∈ faulty, "adminKey" ≤ m.1 := by decide
    exact fun m hm _ => hleast m hm
  refine ⟨(harray values (.inr rfl) o).mp hread, hlength _ (by decide) (by decide), ?_,
    (hnull faulty .scopeKey (by decide) (by decide)).trans hfirst, (htext _ hordered o).mpr hread, ?_⟩
  · rw [hobject]
    exact fun h => hunsound (h _ List.mem_cons_self)
  · refine hkeys _ ["a", "a"] inner [] ?_ ?_ (by decide)
    · rw [String.toList_ofList]
      rfl
    · have hfirst : Json.Phrase.Text (.member "a") inner (inner.drop 9) := .keyed rfl rfl rfl (.number rfl)
      have hsecond : Json.Phrase.Text (.member "a") (inner.drop 11) (inner.drop 22) :=
        .keyed rfl rfl rfl (.emptyArray rfl rfl)
      exact .member hfirst rfl (.lastMember hsecond rfl)

end Warden.Options
