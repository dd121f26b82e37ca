/-
  Warden.Proofs.Options.Written — options as the values that describe them.

  Each option is of a kind, and a value describes it if it is null or of that kind (`Fits`).
  A value that fits is read as one setting of the option only, and that setting is written as
  no other value: `written` gives it back, with null for an option that is not set and
  nothing at all where the request property was left unset. So what a document is read as is
  said by what it would be written as, and the order of its members plays no part.

  - `set_written`, `set_misfit`: one option from a value.
  - `setMembers_ok_iff`: the options that members of distinct keys describe.
  - `setMembers_exists_iff`, `setMembers_error_iff`: which members are read, and the first
    fault of others.
  - `setMembers_insert_null`: a member that may as well be left out.
  - `setInOrder_eq`: values in order are members.
-/

import Warden.Proofs.Json.Ordered
import Warden.Proofs.Options.ReadBack

namespace Warden

/-- The value that a path is written as. -/
def PathInput.json : PathInput → Json
  | .dotted text => .string text
  | .list segments => .array (segments.map .string)

namespace Options

/-- What the value of an option can be. -/
inductive Kind where
  | path
  | text
  | flag
  deriving DecidableEq, Repr

def Key.kind : Key → Kind
  | tokenKey | scopeKey | adminKey | requestProperty => .path
  | claimDelimiter | claimScopeDelimiter => .text
  | credentialsRequired | scopeRequired => .flag

namespace Kind

/-- The value is null or of the kind: a text or a list of texts for a path, a text, or a truth value. -/
inductive Fits : Kind → Json → Prop
  | null {kind : Kind} : Fits kind .null
  | dotted (text : String) : Fits path (.string text)
  | list (segments : List String) : Fits path (.array (segments.map .string))
  | text (s : String) : Fits text (.string s)
  | flag (b : Bool) : Fits flag (.bool b)

/-- The fault of a value that does not fit. -/
def fault (found : Json) : Kind → DocumentFault
  | path => .notPath
  | text => .notString found
  | flag => .notBoolean found

end Kind

/-- The value that an option is written as, if it is written at all. -/
def written (o : Options) : Key → Option Json
  | .tokenKey => some ((o.tokenKey.map PathInput.json).getD .null)
  | .scopeKey => some ((o.scopeKey.map PathInput.json).getD .null)
  | .adminKey => some ((o.adminKey.map PathInput.json).getD .null)
  | .claimDelimiter => some ((o.claimDelimiter.map .string).getD .null)
  | .claimScopeDelimiter => some ((o.claimScopeDelimiter.map .string).getD .null)
  | .credentialsRequired => some ((o.credentialsRequired.map .bool).getD .null)
  | .scopeRequired => some ((o.scopeRequired.map .bool).getD .null)
  | .requestProperty =>
    match o.requestProperty with
    | .unset => none
    | .disabled => some .null
    | .path p => some p.json

/-! ## One value -/

theorem eq_map_of_mapM {α β : Type} {read : β → Option α} {write : α → β} (h : ∀ b a, read b = some a → b = write a)
    {bs : List β} {as : List α} (hread : bs.mapM read = some as) : bs = as.map write := by
  induction bs generalizing as with
  | nil => cases hread; rfl
  | cons b bs ih =>
    rw [List.mapM_cons] at hread
    obtain ⟨a, ha, hread⟩ := Option.bind_eq_some_iff.mp hread
    obtain ⟨rest, hrest, hread⟩ := Option.bind_eq_some_iff.mp hread
    cases hread
    rw [h b a ha, ih hrest, List.map_cons]

/-- A list of texts is read as it is, and another list is at fault. -/
theorem pathInput?_array (items : List Json) :
    (∃ segments, items = segments.map .string ∧ pathInput? (.array items) = .ok (.list segments)) ∨
      ((∀ segments : List String, items ≠ segments.map .string) ∧ pathInput? (.array items) = .error .notPath) := by
  by_cases h : ∃ segments : List String, items = segments.map .string
  · obtain ⟨segments, rfl⟩ := h
    exact .inl ⟨segments, rfl, pathInput?_strings segments⟩
  · refine .inr ⟨fun segments hs => h ⟨segments, hs⟩, ?_⟩
    simp only [pathInput?]
    split
    · rename_i segments hread
      refine absurd ⟨segments, eq_map_of_mapM (fun item s hs => ?_) hread⟩ h
      cases item <;> cases hs
      rfl
    · rfl

variable {o o' s : Options} {k l : Key} {v : Json}

theorem nullable_misfit_path (h : ¬ Kind.path.Fits v) : nullable pathInput? v = .error .notPath := by
  cases v with
  | null => exact absurd .null h
  | string text => exact absurd (.dotted text) h
  | array items =>
    rcases pathInput?_array items with ⟨segments, rfl, -⟩ | ⟨-, hread⟩
    · exact absurd (.list segments) h
    · exact congrArg (Except.map some) hread
  | bool | number | object => rfl

theorem nullable_misfit_text (h : ¬ Kind.text.Fits v) : nullable string? v = .error (.notString v) := by
  cases v with
  | null => exact absurd .null h
  | string s => exact absurd (.text s) h
  | bool | number | array | object => rfl

theorem nullable_misfit_flag (h : ¬ Kind.flag.Fits v) : nullable boolean? v = .error (.notBoolean v) := by
  cases v with
  | null => exact absurd .null h
  | bool b => exact absurd (.flag b) h
  | string | number | array | object => rfl

theorem nullable_written {α : Type} {read : Json → Except DocumentFault α} {write : α → Json}
    (hread : ∀ a, nullable read (write a) = .ok (some a)) (x : Option α) :
    nullable read ((x.map write).getD .null) = .ok x := by
  cases x with
  | none => rfl
  | some a => exact hread a

theorem nullable_json_path (p : PathInput) : nullable pathInput? p.json = .ok (some p) := by
  cases p with
  | dotted text => rfl
  | list segments => exact congrArg (Except.map some) (pathInput?_strings segments)

theorem Kind.Fits.path_value (h : Kind.path.Fits v) : ∃ x : Option PathInput, v = (x.map PathInput.json).getD .null := by
  cases h with
  | null => exact ⟨none, rfl⟩
  | dotted text => exact ⟨some (.dotted text), rfl⟩
  | list segments => exact ⟨some (.list segments), rfl⟩

theorem Kind.Fits.text_value (h : Kind.text.Fits v) : ∃ x : Option String, v = (x.map .string).getD .null := by
  cases h with
  | null => exact ⟨none, rfl⟩
  | text s => exact ⟨some s, rfl⟩

theorem Kind.Fits.flag_value (h : Kind.flag.Fits v) : ∃ x : Option Bool, v = (x.map .bool).getD .null := by
  cases h with
  | null => exact ⟨none, rfl⟩
  | flag b => exact ⟨some b, rfl⟩

/-! ## One option -/

theorem written_taking_self (o s : Options) (k : Key) : (o.taking s k).written k = s.written k := by cases k <;> rfl

theorem written_taking_ne (o s : Options) (h : l ≠ k) : (o.taking s k).written l = o.written l := by
  cases k <;> cases l <;> first | rfl | exact absurd rfl h

theorem taking_own (o : Options) (k : Key) : o.taking o k = o := by cases k <;> rfl

theorem adminPredicate_taking (o s : Options) (k : Key) : (o.taking s k).adminPredicate = o.adminPredicate := by
  cases k <;> rfl

theorem set_misfit (o : Options) (h : ¬ k.kind.Fits v) : o.set k v = .error (k.kind.fault v) := by
  cases k with
  | tokenKey | scopeKey | adminKey => exact congrArg (Except.map _) (nullable_misfit_path h)
  | requestProperty => exact congrArg (Except.map _) (congrArg (Except.map _) (nullable_misfit_path h))
  | claimDelimiter | claimScopeDelimiter => exact congrArg (Except.map _) (nullable_misfit_text h)
  | credentialsRequired | scopeRequired => exact congrArg (Except.map _) (nullable_misfit_flag h)

/-- Every value that fits is what some setting of the option is written as. -/
theorem exists_written (h : k.kind.Fits v) : ∃ s : Options, s.written k = some v := by
  cases k with
  | tokenKey => obtain ⟨x, rfl⟩ := Kind.Fits.path_value h; exact ⟨{ tokenKey := x }, rfl⟩
  | scopeKey => obtain ⟨x, rfl⟩ := Kind.Fits.path_value h; exact ⟨{ scopeKey := x }, rfl⟩
  | adminKey => obtain ⟨x, rfl⟩ := Kind.Fits.path_value h; exact ⟨{ adminKey := x }, rfl⟩
  | claimDelimiter => obtain ⟨x, rfl⟩ := Kind.Fits.text_value h; exact ⟨{ claimDelimiter := x }, rfl⟩
  | claimScopeDelimiter => obtain ⟨x, rfl⟩ := Kind.Fits.text_value h; exact ⟨{ claimScopeDelimiter := x }, rfl⟩
  | credentialsRequired => obtain ⟨x, rfl⟩ := Kind.Fits.flag_value h; exact ⟨{ credentialsRequired := x }, rfl⟩
  | scopeRequired => obtain ⟨x, rfl⟩ := Kind.Fits.flag_value h; exact ⟨{ scopeRequired := x }, rfl⟩
  | requestProperty =>
    obtain ⟨x, rfl⟩ := Kind.Fits.path_value h
    cases x with
    | none => exact ⟨{ requestProperty := .disabled }, rfl⟩
    | some p => exact ⟨{ requestProperty := .path p }, rfl⟩

/-- What an option is written as is read as the option. -/
theorem set_written (o : Options) (h : s.written k = some v) : o.set k v = .ok (o.taking s k) := by
  cases k with
  | tokenKey | scopeKey | adminKey =>
    cases h
    exact congrArg (Except.map _) (nullable_written nullable_json_path _)
  | claimDelimiter | claimScopeDelimiter | credentialsRequired | scopeRequired =>
    cases h
    exact congrArg (Except.map _) (nullable_written (fun _ => rfl) _)
  | requestProperty =>
    cases hp : s.requestProperty with
    | unset => rw [written, hp] at h; cases h
    | disabled => rw [written, hp] at h; cases h; rw [taking, hp]; rfl
    | path p =>
      rw [written, hp] at h
      cases h
      rw [set, attachment?, nullable_json_path, taking, hp]
      rfl

theorem fits_of_written (h : s.written k = some v) : k.kind.Fits v := by
  refine Classical.byContradiction fun hmisfit => ?_
  have hset := set_written s h
  rw [set_misfit s hmisfit] at hset
  cases hset

/-- A value sets its option to what would be written as it, or does not fit. -/
theorem set_cases (o : Options) (k : Key) (v : Json) :
    (k.kind.Fits v ∧ ∃ s : Options, s.written k = some v ∧ o.set k v = .ok (o.taking s k)) ∨
      (¬ k.kind.Fits v ∧ o.set k v = .error (k.kind.fault v)) := by
  by_cases h : k.kind.Fits v
  · obtain ⟨s, hs⟩ := exists_written h
    exact .inl ⟨h, s, hs, set_written o hs⟩
  · exact .inr ⟨h, set_misfit o h⟩

theorem written_eq_none (h : o.written k = none) : k = .requestProperty ∧ o.requestProperty = .unset := by
  cases k with
  | requestProperty =>
    cases hp : o.requestProperty with
    | unset => exact ⟨rfl, rfl⟩
    | disabled | path => rw [written, hp] at h; cases h
  | _ => cases h

theorem ext_written (hp : o.adminPredicate = s.adminPredicate) (h : ∀ k, o.written k = s.written k) : o = s := by
  refine eq_of_taking hp fun k => ?_
  cases hk : s.written k with
  | some v =>
    -- both settings are read from the value that they are written as
    have ho : o.set k v = .ok (o.taking o k) := set_written o (by rw [h, hk])
    have hs : o.set k v = .ok (o.taking s k) := set_written o hk
    rw [hs] at ho
    rw [Except.ok.inj ho, taking_own]
  | none =>
    obtain ⟨rfl, hs⟩ := written_eq_none hk
    obtain ⟨-, ho⟩ := written_eq_none ((h .requestProperty).trans hk)
    rw [taking, hs, ← ho]

/-! ## Members -/

variable {ms : List (String × Json)} {m : String × Json} {fault : DocumentFault}

/-- The member names an option and has a value for it. -/
def Sound (m : String × Json) : Prop := ∃ k : Key, k.name = m.1 ∧ k.kind.Fits m.2

/-- What is wrong with a member. -/
inductive Faulty : String × Json → DocumentFault → Prop
  | unknown {key : String} {v : Json} : (∀ k : Key, k.name ≠ key) → Faulty (key, v) (.unknownKey key)
  | misfit {k : Key} {v : Json} : ¬ k.kind.Fits v → Faulty (k.name, v) (k.kind.fault v)

theorem Faulty.not_sound (h : Faulty m fault) : ¬ Sound m := by
  rintro ⟨k, hk, hfits⟩
  cases h with
  | unknown hne => exact hne k hk
  | misfit hmisfit =>
    obtain rfl := Key.name_injective hk
    exact hmisfit hfits

theorem Faulty.unique {fault' : DocumentFault} (h : Faulty m fault) (h' : Faulty m fault') : fault = fault' := by
  cases h with
  | unknown hne =>
    cases h' with
    | unknown => rfl
    | misfit => exact absurd rfl (hne _)
  | @misfit k v _ =>
    generalize hkey : k.name = key at h'
    cases h' with
    | unknown hne => exact absurd hkey (hne k)
    | misfit =>
      obtain rfl := Key.name_injective hkey
      rfl

theorem ofName?_cases (key : String) :
    (∃ k : Key, k.name = key ∧ Key.ofName? key = some k) ∨ ((∀ k : Key, k.name ≠ key) ∧ Key.ofName? key = none) := by
  cases h : Key.ofName? key with
  | some k => exact .inl ⟨k, Key.ofName?_eq_some h, rfl⟩
  | none =>
    refine .inr ⟨?_, rfl⟩
    rintro k rfl
    rw [Key.ofName?_name] at h
    cases h

theorem setMembers_cons (o : Options) (k : Key) (v : Json) (ms : List (String × Json)) :
    setMembers o ((k.name, v) :: ms) = o.set k v >>= (setMembers · ms) := by
  rw [setMembers, Key.ofName?_name]

/-- A member sets its option and the others are read after it, or its fault is reported. -/
theorem setMembers_cases (o : Options) (m : String × Json) :
    (∃ k s, k.name = m.1 ∧ k.kind.Fits m.2 ∧ s.written k = some m.2 ∧
      ∀ ms, setMembers o (m :: ms) = setMembers (o.taking s k) ms) ∨
    ∃ fault, Faulty m fault ∧ ∀ ms, setMembers o (m :: ms) = .error fault := by
  obtain ⟨key, v⟩ := m
  rcases ofName?_cases key with ⟨k, rfl, -⟩ | ⟨hne, hnone⟩
  · rcases set_cases o k v with ⟨hfits, s, hs, hset⟩ | ⟨hmisfit, hset⟩
    · exact .inl ⟨k, s, rfl, hfits, hs, fun ms => by rw [setMembers_cons, hset]; rfl⟩
    · exact .inr ⟨_, .misfit hmisfit, fun ms => by rw [setMembers_cons, hset]; rfl⟩
  · exact .inr ⟨_, .unknown hne, fun ms => by rw [setMembers, hnone]⟩

theorem setMembers_exists_iff (o : Options) : (∃ o', setMembers o ms = .ok o') ↔ ∀ m ∈ ms, Sound m := by
  induction ms generalizing o with
  | nil => exact ⟨fun _ => nofun, fun _ => ⟨o, rfl⟩⟩
  | cons m ms ih =>
    rw [List.forall_mem_cons]
    rcases setMembers_cases o m with ⟨k, s, hk, hfits, -, hset⟩ | ⟨fault, hfaulty, hset⟩
    · rw [hset, ih]
      exact ⟨fun h => ⟨⟨k, hk, hfits⟩, h⟩, fun h => h.2⟩
    · rw [hset]
      refine ⟨?_, fun h => absurd h.1 hfaulty.not_sound⟩
      rintro ⟨o', h⟩
      cases h

/-- The first member that is not sound is at fault. -/
theorem setMembers_error_iff (o : Options) : setMembers o ms = .error fault ↔
    ∃ before m after, ms = before ++ m :: after ∧ (∀ b ∈ before, Sound b) ∧ Faulty m fault := by
  induction ms generalizing o with
  | nil =>
    refine ⟨nofun, ?_⟩
    rintro ⟨before, m, after, hms, -⟩
    simp at hms
  | cons first ms ih =>
    rcases setMembers_cases o first with ⟨k, s, hk, hfits, -, hset⟩ | ⟨fault', hfaulty, hset⟩
    · have hsound : Sound first := ⟨k, hk, hfits⟩
      rw [hset, ih]
      constructor
      · rintro ⟨before, m, after, rfl, hbefore, hm⟩
        exact ⟨first :: before, m, after, rfl, List.forall_mem_cons.mpr ⟨hsound, hbefore⟩, hm⟩
      · rintro ⟨before, m, after, hms, hbefore, hm⟩
        cases before with
        | nil =>
          obtain ⟨rfl, -⟩ := List.cons.inj hms
          exact absurd hsound hm.not_sound
        | cons b before =>
          obtain ⟨-, rfl⟩ := List.cons.inj hms
          exact ⟨before, m, after, rfl, fun b hb => hbefore b (List.mem_cons_of_mem _ hb), hm⟩
    · rw [hset]
      constructor
      · intro h
        obtain rfl := Except.error.inj h
        exact ⟨[], first, ms, rfl, nofun, hfaulty⟩
      · rintro ⟨before, m, after, hms, hbefore, hm⟩
        cases before with
        | nil =>
          obtain ⟨rfl, -⟩ := List.cons.inj hms
          rw [hfaulty.unique hm]
        | cons b before =>
          obtain ⟨rfl, -⟩ := List.cons.inj hms
          exact absurd (hbefore first List.mem_cons_self) hfaulty.not_sound

/-- Members of distinct keys set each option to what is written as the value of its key, and the options
    that they do not name stay as they are. -/
theorem setMembers_ok_iff (hd : (ms.map (·.1)).Nodup) : setMembers o ms = .ok o' ↔
    o'.adminPredicate = o.adminPredicate ∧ (∀ m ∈ ms, ∃ k : Key, k.name = m.1) ∧
      ∀ k, o'.written k = (ms.lookup k.name).or (o.written k) := by
  induction ms generalizing o with
  | nil =>
    constructor
    · intro h
      obtain rfl := Except.ok.inj h
      exact ⟨rfl, nofun, fun _ => rfl⟩
    · rintro ⟨hp, -, hw⟩
      exact congrArg Except.ok (ext_written hp hw).symm
  | cons first ms ih =>
    obtain ⟨hfirst, hd⟩ := List.nodup_cons.mp hd
    have hnone : ms.lookup first.1 = none := Json.lookup_eq_none hfirst
    rw [List.forall_mem_cons]
    rcases setMembers_cases o first with ⟨k, s, hk, -, hs, hset⟩ | ⟨fault, hfaulty, hset⟩
    · -- what is looked up behind the first member or found in the options it leaves
      have hlookup (l : Key) : ((first :: ms).lookup l.name).or (o.written l) =
          (ms.lookup l.name).or ((o.taking s k).written l) := by
        by_cases hl : l = k
        · subst hl
          rw [hk, List.lookup_cons_self, hnone, written_taking_self, hs]
          rfl
        · have hb : (l.name == first.1) = false := by
            rw [← hk]
            exact beq_false_of_ne fun h => hl (Key.name_injective h)
          rw [List.lookup_cons, hb, written_taking_ne o s hl]
      simp only [hset, ih hd, adminPredicate_taking, hlookup]
      exact ⟨fun ⟨hp, hms, hw⟩ => ⟨hp, ⟨⟨k, hk⟩, hms⟩, hw⟩, fun ⟨hp, hms, hw⟩ => ⟨hp, hms.2, hw⟩⟩
    · rw [hset]
      refine ⟨nofun, ?_⟩
      rintro ⟨-, ⟨⟨k, hk⟩, -⟩, hw⟩
      -- the options would be written as the value at fault
      have hv : o'.written k = some first.2 := by rw [hw, hk, List.lookup_cons_self]; rfl
      exact absurd ⟨k, hk, fits_of_written hv⟩ hfaulty.not_sound

/-- The order of members plays no part, unless they are at fault. -/
theorem setMembers_sorted {sorted : List (String × Json)} (hd : (ms.map (·.1)).Nodup)
    (hsorted : Json.ofMembers ms = .object sorted) : setMembers o sorted = .ok o' ↔ setMembers o ms = .ok o' := by
  have hmem (m : String × Json) : m ∈ sorted ↔ m ∈ ms := Json.mem_ofMembers_iff hd hsorted
  obtain ⟨_, hsorted', hpairwise, hlookup⟩ := Json.ofMembers_ordered hd
  rw [hsorted] at hsorted'
  cases hsorted'
  rw [setMembers_ok_iff hd, setMembers_ok_iff (Json.nodup_of_pairwise hpairwise)]
  simp only [hmem, hlookup]

theorem setMembers_null_cons (hk : o.written k = some .null) (ms : List (String × Json)) :
    setMembers o ((k.name, .null) :: ms) = setMembers o ms := by
  rw [setMembers_cons, set_written o hk, taking_own]
  rfl

/-- An option that is written as null anyway may be given as null at any place. -/
theorem setMembers_insert_null (hk : o.written k = some .null) (hms : ∀ m ∈ ms, m.1 ≠ k.name) :
    setMembers o (Json.insert k.name .null ms) = setMembers o ms := by
  induction ms generalizing o with
  | nil => exact setMembers_null_cons hk []
  | cons first ms ih =>
    obtain ⟨hfirst, hms⟩ := List.forall_mem_cons.mp hms
    rw [Json.insert]
    split
    · exact setMembers_null_cons hk _
    · rw [if_neg (Ne.symm hfirst)]
      rcases setMembers_cases o first with ⟨l, s, hl, -, -, hset⟩ | ⟨fault, -, hset⟩
      · have hne : k ≠ l := fun h => hfirst (h ▸ hl.symm)
        have hk' : (o.taking s l).written k = some .null := (written_taking_ne o s hne).trans hk
        rw [hset, hset, ih hk' hms]
      · rw [hset, hset]

theorem setInOrder_eq (o : Options) (ks : List Key) (vs : List Json) :
    setInOrder o ks vs = setMembers o ((ks.map Key.name).zip vs) := by
  induction ks generalizing o vs with
  | nil => cases vs <;> rfl
  | cons k ks ih =>
    cases vs with
    | nil => rfl
    | cons v vs =>
      rw [List.map_cons, List.zip_cons_cons, setMembers_cons, setInOrder]
      exact congrArg _ (funext fun o => ih o vs)

end Options

end Warden
