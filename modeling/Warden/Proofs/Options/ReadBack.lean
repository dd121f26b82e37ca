/-
  Warden.Proofs.Options.ReadBack — policies written as options and read back.

  A policy is described by an options document that gives every option: a path in one of two
  forms, a delimiter as a text of one character, and null where there is no admin path or
  nothing is attached. The document is read one member after the other; each sets its own option
  (`set_value`), so that the order of the keys plays no part (`foldl_taking`). The paths and
  delimiters of a policy are checked by their types and pass the same checks once more
  (`ofInput?_input`, `Delimiters.of?_toString`).

  - `ofDocument_document`: the document is read as the options that it was made of.
  - `of?_settings`: these options are accepted and make the same policy.
  - `reads_back`: both, for every policy that options without a predicate have made.
-/

import Warden.Options.Document
import Warden.Policy
import Warden.Proofs.Audited

namespace Warden

/-! ## Paths and delimiters -/

/-- The two forms of a path in an option. -/
inductive PathForm where
  | dotted
  | listed
  deriving DecidableEq, Repr

namespace DocPath

def input : PathForm → DocPath → PathInput
  | .dotted, p => .dotted p.dotted
  | .listed, p => .list p.segments

def json : PathForm → DocPath → Json
  | .dotted, p => .string p.dotted
  | .listed, p => .array (p.segments.map .string)

theorem dotted_ne_empty (p : DocPath) : p.dotted ≠ "" := by
  intro h
  have hpieces := p.pieces_dotted
  rw [h] at hpieces
  have hmem : "" ∈ p.segments := by
    rw [← hpieces]
    exact List.mem_singleton.mpr rfl
  exact (p.plain "" hmem).1 rfl

theorem ofDotted?_dotted (p : DocPath) : ofDotted? p.dotted = .ok p := by
  have hplain : ∀ s ∈ Text.pieces '.' p.dotted, s ≠ "" := by
    rw [p.pieces_dotted]
    exact fun s hs => (p.plain s hs).1
  rw [ofDotted?, if_neg p.dotted_ne_empty, dif_pos hplain]
  congr
  exact p.pieces_dotted

theorem ofInput?_input (form : PathForm) (p : DocPath) : ofInput? (p.input form) = .ok p := by
  cases form with
  | dotted => exact p.ofDotted?_dotted
  | listed =>
    obtain ⟨s, rest, hs⟩ := List.exists_cons_of_ne_nil p.nonempty
    have hlist : ofInput? (.list p.segments) = ofDotted? p.dotted := by
      rw [dotted, hs]
      rfl
    exact hlist.trans p.ofDotted?_dotted

theorem of?_input (option : Options.Key) (form : PathForm) (p : DocPath) :
    of? option (p.input form) = .ok p := by
  rw [of?, ofInput?_input]
  rfl

end DocPath

namespace Delimiters

theorem single_toString (option : Options.Key) {spaceAllowed : Bool} {c : Char}
    (h : c = ' ' ∧ spaceAllowed ∨ c ∈ punctuation) : single option spaceAllowed c.toString = .ok ⟨c, h⟩ := by
  have hchars : c.toString.toList = [c] := by simp [Char.toString]
  have hread : single option spaceAllowed (String.ofList [c]) = .ok ⟨c, h⟩ := by
    unfold single
    simp only [String.toList_ofList]
    rcases h with ⟨hspace, hallowed⟩ | hmem
    · rw [dif_pos hspace, dif_pos hallowed]
    · rw [dif_neg (not_wordChar_of_mem hmem).2.2, dif_pos hmem]
  rwa [← hchars, String.ofList_toList] at hread

theorem of?_toString (d : Delimiters) : of? d.claim.toString d.scope.toString = .ok d := by
  have hclaim : d.claim = ' ' ∧ true ∨ d.claim ∈ punctuation := d.claim_allowed.imp (⟨·, rfl⟩) id
  have hscope : d.scope = ' ' ∧ false ∨ d.scope ∈ punctuation := .inr d.scope_allowed
  unfold of?
  rw [single_toString .claimDelimiter hclaim, single_toString .claimScopeDelimiter hscope]
  exact dif_neg d.differ

end Delimiters

/-! ## The document of a policy -/

/-- Values of options as the members of a document. -/
def Options.members (value : Options.Key → Json) (ks : List Options.Key) : List (String × Json) :=
  ks.map fun k => (k.name, value k)

namespace Policy

variable (token scope : PathForm) (policy : Policy)

/-- The path of the admin flag, if admins are known by one. -/
def adminPath : Option DocPath :=
  match policy.admin with
  | some (.path p) => some p
  | _ => none

def value : Options.Key → Json
  | .tokenKey => policy.tokenKey.json token
  | .scopeKey => policy.scopeKey.json scope
  | .adminKey => (policy.adminPath.map (·.json .dotted)).getD .null
  | .claimDelimiter => .string policy.delimiters.claim.toString
  | .claimScopeDelimiter => .string policy.delimiters.scope.toString
  | .credentialsRequired => .bool policy.credentialsRequired
  | .scopeRequired => .bool policy.scopeRequired
  | .requestProperty => (policy.requestProperty.map (·.json .dotted)).getD .null

/-- The options of a policy as a document, which gives every one of them. -/
def document : Json := .ofMembers (Options.members (policy.value token scope) Options.Key.all)

/-- The options that the document of a policy is read as. -/
def settings : Options where
  tokenKey := some (policy.tokenKey.input token)
  scopeKey := some (policy.scopeKey.input scope)
  adminKey := policy.adminPath.map (·.input .dotted)
  claimDelimiter := some policy.delimiters.claim.toString
  claimScopeDelimiter := some policy.delimiters.scope.toString
  credentialsRequired := some policy.credentialsRequired
  scopeRequired := some policy.scopeRequired
  requestProperty := (policy.requestProperty.map fun p => .path (p.input .dotted)).getD .disabled

end Policy

/-! ## Reading one option -/

namespace Options

/-- The options `o` with one of them as in `s`. -/
def taking (o s : Options) : Key → Options
  | .tokenKey => { o with tokenKey := s.tokenKey }
  | .scopeKey => { o with scopeKey := s.scopeKey }
  | .adminKey => { o with adminKey := s.adminKey }
  | .claimDelimiter => { o with claimDelimiter := s.claimDelimiter }
  | .claimScopeDelimiter => { o with claimScopeDelimiter := s.claimScopeDelimiter }
  | .credentialsRequired => { o with credentialsRequired := s.credentialsRequired }
  | .scopeRequired => { o with scopeRequired := s.scopeRequired }
  | .requestProperty => { o with requestProperty := s.requestProperty }

theorem mapM_map_of_left_inverse {α β : Type} {read : β → Option α} {write : α → β}
    (h : ∀ a, read (write a) = some a) (as : List α) : (as.map write).mapM read = some as := by
  induction as with
  | nil => rfl
  | cons a as ih =>
    rw [List.map_cons, List.mapM_cons, h, ih]
    rfl

theorem pathInput?_strings (segments : List String) :
    pathInput? (.array (segments.map .string)) = .ok (.list segments) := by
  simp only [pathInput?]
  rw [mapM_map_of_left_inverse]
  exact fun _ => rfl

theorem nullable_json (form : PathForm) (p : DocPath) :
    nullable pathInput? (p.json form) = .ok (some (p.input form)) := by
  cases form with
  | dotted => rfl
  | listed =>
    show (pathInput? (.array (p.segments.map .string))).map some = _
    rw [pathInput?_strings]
    rfl

variable (token scope : PathForm) (policy : Policy)

theorem set_value (o : Options) (k : Key) :
    o.set k (policy.value token scope k) = .ok (o.taking (policy.settings token scope) k) := by
  cases k with
  | tokenKey | scopeKey =>
    show (nullable pathInput? (DocPath.json _ _)).map _ = _
    rw [nullable_json]
    rfl
  | adminKey =>
    unfold set Policy.value taking Policy.settings
    cases policy.adminPath <;> rfl
  | requestProperty =>
    unfold set Policy.value taking Policy.settings
    cases policy.requestProperty <;> rfl
  | claimDelimiter | claimScopeDelimiter | credentialsRequired | scopeRequired => rfl

theorem taking_taking (o s : Options) (k : Key) : (o.taking s k).taking s k = o.taking s k := by cases k <;> rfl

theorem taking_comm (o s : Options) (k l : Key) : (o.taking s k).taking s l = (o.taking s l).taking s k := by
  cases k <;> cases l <;> rfl

theorem eq_of_taking {o s : Options} (hp : o.adminPredicate = s.adminPredicate) (h : ∀ k, o.taking s k = o) :
    o = s := by
  -- the keys name every option but the predicate
  have hall : Key.all.foldl (fun o k => o.taking s k) o = s := by
    cases o
    cases s
    cases hp
    rfl
  simpa only [Key.all, List.foldl_cons, List.foldl_nil, h] using hall

/-- Every option is taken over, whatever the order and however often. -/
theorem foldl_taking {o s : Options} {ks : List Key} (hp : o.adminPredicate = s.adminPredicate)
    (h : ∀ k, k ∈ ks ∨ o.taking s k = o) : ks.foldl (fun o k => o.taking s k) o = s := by
  induction ks generalizing o with
  | nil => exact eq_of_taking hp fun k => (h k).resolve_left List.not_mem_nil
  | cons k ks ih =>
    have hp' : (o.taking s k).adminPredicate = s.adminPredicate := by
      rw [← hp]
      cases k <;> rfl
    refine ih hp' fun l => ?_
    rcases h l with hmem | hsame
    · rcases List.mem_cons.mp hmem with rfl | hmem
      · exact .inr (taking_taking o s l)
      · exact .inl hmem
    · exact .inr (by rw [taking_comm, hsame])

/-! ## Reading the document -/

/-- Members are read from left to right, each without a look at the others. -/
theorem setMembers_members (o : Options) (ks : List Key) :
    setMembers o (members (policy.value token scope) ks) =
      .ok (ks.foldl (fun o k => o.taking (policy.settings token scope) k) o) := by
  induction ks generalizing o with
  | nil => rfl
  | cons k ks ih =>
    rw [members, List.map_cons, setMembers, Key.ofName?_name]
    show (o.set k (policy.value token scope k) >>= fun o => setMembers o _) = _
    rw [set_value]
    exact ih _

theorem insert_members (value : Key → Json) (k : Key) (ks : List Key) :
    ∃ ls, Json.insert k.name (value k) (members value ks) = members value ls ∧ ∀ l, l ∈ ls ↔ l = k ∨ l ∈ ks := by
  induction ks with
  | nil => exact ⟨[k], rfl, fun l => by simp⟩
  | cons first rest ih =>
    rw [members, List.map_cons, Json.insert]
    split
    · exact ⟨k :: first :: rest, rfl, fun l => List.mem_cons⟩
    · split
      · rename_i hname
        obtain rfl := Key.name_injective hname
        exact ⟨k :: rest, rfl, fun l => by simp⟩
      · obtain ⟨ls, hls, hmem⟩ := ih
        exact ⟨first :: ls, congrArg _ hls, fun l => by simp [hmem, or_left_comm]⟩

/-- Sorting the members of an object loses no option and makes none up. -/
theorem foldl_insert_members (value : Key → Json) (ks sorted : List Key) :
    ∃ ls, (members value ks).foldl (fun sorted (key, value) => Json.insert key value sorted) (members value sorted) =
        members value ls ∧ ∀ l, l ∈ ls ↔ l ∈ ks ∨ l ∈ sorted := by
  induction ks generalizing sorted with
  | nil => exact ⟨sorted, rfl, fun l => by simp⟩
  | cons k ks ih =>
    obtain ⟨next, hnext, hmem⟩ := insert_members value k sorted
    obtain ⟨ls, hls, hmems⟩ := ih next
    rw [← hnext] at hls
    refine ⟨ls, hls, fun l => ?_⟩
    rw [hmems, hmem, List.mem_cons, or_left_comm, or_assoc]

theorem ofDocument_document : ofDocument (policy.document token scope) = .ok (policy.settings token scope) := by
  obtain ⟨ks, hks, hmem⟩ := foldl_insert_members (policy.value token scope) Key.all []
  have hmembers : policy.document token scope = .object (members (policy.value token scope) ks) :=
    congrArg Json.object hks
  have hread : ofJson? (policy.document token scope) = .ok (policy.settings token scope) := by
    rw [hmembers, ofJson?, setMembers_members]
    exact congrArg Except.ok (foldl_taking rfl fun k => .inl ((hmem k).mpr (.inl k.mem_all)))
  rw [ofDocument, hread]
  rfl

end Options

/-! ## Back to the policy -/

namespace Policy

variable {policy : Policy}

theorem adminCheck?_ne_predicate {path : Option PathInput} {check : Option AdminCheck}
    (h : adminCheck? path none = .ok check) (q : Predicate) : check ≠ some (.predicate q) := by
  rintro rfl
  cases path with
  | none => cases h
  | some path =>
    obtain ⟨p, _, hp⟩ := map_ok h
    cases hp

/-- Options without a predicate make no policy that asks one. -/
theorem admin_of_ok {o : Options} (hp : o.adminPredicate = none) (h : of? o = .ok policy) (q : Predicate) :
    policy.admin ≠ some (.predicate q) := by
  obtain ⟨_, _, h⟩ := bind_ok h
  obtain ⟨_, _, h⟩ := bind_ok h
  obtain ⟨check, hcheck, h⟩ := bind_ok h
  obtain ⟨_, _, h⟩ := bind_ok h
  obtain ⟨_, _, h⟩ := bind_ok h
  cases h
  rw [hp] at hcheck
  exact adminCheck?_ne_predicate hcheck q

theorem adminCheck?_adminPath (h : ∀ q, policy.admin ≠ some (.predicate q)) :
    adminCheck? (policy.adminPath.map (·.input .dotted)) none = .ok policy.admin := by
  cases hadmin : policy.admin with
  | none => rw [adminPath, hadmin]; rfl
  | some check =>
    cases check with
    | predicate q => exact absurd hadmin (h q)
    | path p =>
      rw [adminPath, hadmin]
      show (DocPath.of? .adminKey (p.input .dotted)).map _ = _
      rw [DocPath.of?_input]
      rfl

theorem requestProperty?_input (property : Option DocPath) :
    requestProperty? ((property.map fun p => .path (p.input .dotted)).getD .disabled) = .ok property := by
  cases property with
  | none => rfl
  | some p =>
    show (DocPath.of? .requestProperty (p.input .dotted)).map some = _
    rw [DocPath.of?_input]
    rfl

theorem of?_settings (h : ∀ q, policy.admin ≠ some (.predicate q)) (token scope : PathForm) :
    of? (policy.settings token scope) = .ok policy := by
  unfold of? settings
  simp only [Option.getD_some, DocPath.of?_input, adminCheck?_adminPath h, Delimiters.of?_toString,
    requestProperty?_input]
  rfl

theorem reads_back {o : Options} (hp : o.adminPredicate = none) (h : of? o = .ok policy) (token scope : PathForm) :
    ∃ o', Options.ofDocument (policy.document token scope) = .ok o' ∧ of? o' = .ok policy :=
  ⟨policy.settings token scope, Options.ofDocument_document token scope policy,
    of?_settings (admin_of_ok hp h) token scope⟩

/-- Dotted elements of a list come back as segments of their own, an option that was not set as its
    default, a request property as its dotted path, and disabled attaching as null. -/
theorem reads_back_flattened :
    let o (property : Attachment) : Options :=
      { tokenKey := some (.list ["auth.user", "token"]), adminKey := some (.dotted "roles.admin"),
        claimDelimiter := some " ", requestProperty := property }
    let written (property : Json) : Json := .ofMembers [
      ("tokenKey", .array [.string "auth", .string "user", .string "token"]), ("scopeKey", .string "scope"),
      ("adminKey", .string "roles.admin"), ("claimDelimiter", .string " "), ("claimScopeDelimiter", .string ":"),
      ("credentialsRequired", .bool true), ("scopeRequired", .bool false), ("requestProperty", property)]
    let disabled := o .disabled
    let attached := o (.path (.list ["caller", "rights.held"]))
    (∃ policy, disabled.adminPredicate = none ∧ of? disabled = .ok policy ∧
      policy.document .listed .dotted = written .null ∧
      ∃ o', Options.ofDocument (policy.document .listed .dotted) = .ok o' ∧ of? o' = .ok policy) ∧
    ∃ policy, attached.adminPredicate = none ∧ of? attached = .ok policy ∧
      policy.document .listed .dotted = written (.string "caller.rights.held") ∧
      ∃ o', Options.ofDocument (policy.document .listed .dotted) = .ok o' ∧ of? o' = .ok policy := by
  intro o written disabled attached
  have hdisabled {policy : Policy} (h : of? disabled = .ok policy) := reads_back rfl h .listed .dotted
  have hattached {policy : Policy} (h : of? attached = .ok policy) := reads_back rfl h .listed .dotted
  dsimp only [o, written, disabled, attached] at hdisabled hattached ⊢
  exact ⟨⟨_, rfl, rfl, rfl, hdisabled rfl⟩, ⟨_, rfl, rfl, rfl, hattached rfl⟩⟩

end Policy

end Warden
