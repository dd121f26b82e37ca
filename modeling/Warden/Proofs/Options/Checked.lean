/-
  Warden.Proofs.Options.Checked — which options make a policy, and what is reported of others.

  Options are checked at one gate after the other (`gates`). A gate looks for one kind of flaw
  (`Flaw`): a path that is not sound, an admin path beside an admin predicate, a text that can
  be no delimiter, the same delimiter twice. It looks at an option as it is given, or at its
  default where that may be flawed together with another option. The first flaw is the error
  (`First`), and options without a flaw make a policy (`Clear`).

  - `settles_path`, `settles_admin`, `settles_delimiters`, `settles_requestProperty`: each
    step of the check at its gates, and `Settles.bind` for steps one after the other.
  - `clear_gates_iff`: no flaw at any gate, said without the gates.
  - `made_of_ok`: the policy is made of the options and of the defaults.
  - `checked_in_order`: all of it, for every set of options.
-/

import Warden.Policy
import Warden.Predicate.Stock
import Warden.Proofs.Grammar
import Warden.Proofs.Path

namespace Warden

/-! ## Flawed paths -/

/-- What is wrong with a path that is not sound. -/
inductive PathInput.Flawed : PathInput → PathFault → Prop
  | noSegments : Flawed (.list []) .noSegments
  | empty {input : PathInput} : input ≠ .list [] → input.text = "" → Flawed input .empty
  | emptySegment {input : PathInput} : input.text ≠ "" → "" ∈ input.pieces →
      Flawed input (.emptySegment input.text)

namespace DocPath

variable {input : PathInput} {fault : PathFault}

theorem ofInput?_eq (h : input ≠ .list []) : ofInput? input = ofDotted? input.text := by
  match input, h with
  | .dotted text, _ => rfl
  | .list (first :: rest), _ => rfl

theorem pieces_text (h : input ≠ .list []) : Text.pieces '.' input.text = input.pieces := by
  match input, h with
  | .dotted text, _ => rfl
  | .list (first :: rest), _ => exact Text.pieces_glue_flatMap '.' (List.cons_ne_nil _ _)

theorem ofInput?_of_flawed (h : input.Flawed fault) : ofInput? input = .error fault := by
  cases h with
  | noSegments => rfl
  | empty hlist htext => rw [ofInput?_eq hlist, ofDotted?, if_pos htext]
  | emptySegment htext hmem =>
    have hlist : input ≠ .list [] := by
      rintro rfl
      exact htext rfl
    have hpieces : ¬∀ s ∈ Text.pieces '.' input.text, s ≠ "" := by
      rw [pieces_text hlist]
      exact fun h => h "" hmem rfl
    rw [ofInput?_eq hlist, ofDotted?, if_neg htext, dif_neg hpieces]

theorem sound_or_flawed (input : PathInput) : input.Sound ∨ ∃ fault, input.Flawed fault := by
  by_cases hlist : input = .list []
  · subst hlist
    exact .inr ⟨_, .noSegments⟩
  by_cases htext : input.text = ""
  · exact .inr ⟨_, .empty hlist htext⟩
  by_cases hmem : "" ∈ input.pieces
  · exact .inr ⟨_, .emptySegment htext hmem⟩
  · refine .inl ⟨?_, hlist, fun s hs he => hmem (he ▸ hs)⟩
    rintro rfl
    exact htext rfl

theorem of?_of_flawed (option : Options.Key) (h : input.Flawed fault) :
    of? option input = .error (.invalidPath option fault) := by
  rw [of?, ofInput?_of_flawed h]
  rfl

theorem of?_of_sound (option : Options.Key) (h : input.Sound) :
    ∃ p, of? option input = .ok p ∧ p.segments = input.pieces := by
  obtain ⟨p, hp⟩ := exists_ofInput? h
  exact ⟨p, of?_ok_iff.mpr hp, (ofInput?_ok_iff.mp hp).2⟩

end DocPath

theorem PathInput.Flawed.unique {input : PathInput} {fault fault' : PathFault} (h : input.Flawed fault)
    (h' : input.Flawed fault') : fault = fault' :=
  Except.error.inj ((DocPath.ofInput?_of_flawed h).symm.trans (DocPath.ofInput?_of_flawed h'))

theorem PathInput.Flawed.not_sound {input : PathInput} {fault : PathFault} (h : input.Flawed fault) : ¬input.Sound := by
  intro hs
  obtain ⟨p, hp⟩ := DocPath.exists_ofInput? hs
  rw [DocPath.ofInput?_of_flawed h] at hp
  cases hp

/-! ## Flawed delimiters -/

namespace Delimiters

/-- What is wrong with a text that can be no delimiter. -/
inductive Flawed (spaceAllowed : Bool) : String → DelimiterFault → Prop
  | notOneCharacter {value : String} : value.toList.length ≠ 1 → Flawed spaceAllowed value .notOneCharacter
  | space : spaceAllowed = false → Flawed spaceAllowed " " .spaceBetweenScopes
  | notPunctuation {c : Char} : c ≠ ' ' → c ∉ punctuation → Flawed spaceAllowed c.toString .notPunctuation

/-- The characters that can be one of the delimiters. -/
def May (spaceAllowed : Bool) (c : Char) : Prop := c = ' ' ∧ spaceAllowed ∨ c ∈ punctuation

variable {option : Options.Key} {spaceAllowed : Bool} {value : String} {fault : DelimiterFault}

theorem toString_eq (c : Char) : c.toString = String.ofList [c] := by simp [Char.toString]

theorem single_of_flawed (h : Flawed spaceAllowed value fault) :
    single option spaceAllowed value = .error (.invalidDelimiter option value fault) := by
  cases h with
  | notOneCharacter hlength =>
    unfold single
    dsimp only
    split
    · rename_i c hc
      rw [hc] at hlength
      exact absurd rfl hlength
    · rfl
  | space hspace =>
    subst hspace
    rfl
  | @notPunctuation c hspace hmem =>
    rw [toString_eq]
    unfold single
    simp only [String.toList_ofList]
    rw [dif_neg hspace, dif_neg hmem]

theorem may_or_flawed (spaceAllowed : Bool) (value : String) :
    (∃ c, value = c.toString ∧ May spaceAllowed c) ∨ ∃ fault, Flawed spaceAllowed value fault := by
  by_cases hlength : value.toList.length = 1
  · obtain ⟨c, hc⟩ := List.length_eq_one_iff.mp hlength
    obtain rfl : value = c.toString := by rw [toString_eq, ← hc, String.ofList_toList]
    by_cases hmem : c ∈ punctuation
    · exact .inl ⟨c, rfl, .inr hmem⟩
    by_cases hspace : c = ' '
    · subst hspace
      cases spaceAllowed with
      | true => exact .inl ⟨' ', rfl, .inl ⟨rfl, rfl⟩⟩
      | false => exact .inr ⟨_, .space rfl⟩
    · exact .inr ⟨_, .notPunctuation hspace hmem⟩
  · exact .inr ⟨_, .notOneCharacter hlength⟩

theorem Flawed.not_may (h : Flawed spaceAllowed value fault) {c : Char} (hc : May spaceAllowed c) : value ≠ c.toString := by
  rintro rfl
  have hflawed : single .claimDelimiter spaceAllowed c.toString = .error _ := single_of_flawed h
  rw [single_toString .claimDelimiter hc] at hflawed
  cases hflawed

theorem toString_inj {c c' : Char} (h : c.toString = c'.toString) : c = c' := by
  rw [toString_eq, toString_eq, String.ofList_inj] at h
  exact (List.cons.inj h).1

theorem eq_of_single {c : { c : Char // May spaceAllowed c }} (h : single option spaceAllowed value = .ok c) :
    value = c.val.toString := by
  rcases may_or_flawed spaceAllowed value with ⟨c', rfl, hmay⟩ | ⟨fault, hflawed⟩
  · rw [single_toString option hmay] at h
    cases h
    rfl
  · rw [single_of_flawed hflawed] at h
    cases h

theorem toString_of_ok {claim scope : String} {d : Delimiters} (h : of? claim scope = .ok d) :
    d.claim.toString = claim ∧ d.scope.toString = scope := by
  obtain ⟨⟨c, hc⟩, hclaim, h⟩ := bind_ok h
  obtain ⟨⟨s, hs⟩, hscope, h⟩ := bind_ok h
  replace hclaim : claim = c.toString := eq_of_single hclaim
  replace hscope : scope = s.toString := eq_of_single hscope
  dsimp only at h
  split at h
  · cases h
  · cases h
    exact ⟨hclaim.symm, hscope.symm⟩

theorem Flawed.unique {fault' : DelimiterFault} (h : Flawed spaceAllowed value fault)
    (h' : Flawed spaceAllowed value fault') : fault = fault' := by
  have hsingle : single .claimDelimiter spaceAllowed value = .error _ := single_of_flawed h
  rw [single_of_flawed h'] at hsingle
  cases hsingle
  rfl

end Delimiters

/-! ## Gates -/

namespace Options

/-- Which of the two delimiters. -/
inductive Separator where
  | claim
  | scope
  deriving DecidableEq, Repr

namespace Separator

def key : Separator → Key
  | claim => .claimDelimiter
  | scope => .claimScopeDelimiter

/-- Only permissions may have spaces between them. -/
def spaceAllowed : Separator → Bool
  | claim => true
  | scope => false

end Separator

/-- What is looked at when options are checked. -/
inductive Gate where
  | path (k : Key)
  | conflict
  | delimiter (separator : Separator)
  | same
  deriving DecidableEq, Repr

/-- The gates in their order. -/
def gates : List Gate :=
  [.path .tokenKey, .path .scopeKey, .conflict, .path .adminKey, .delimiter .claim, .delimiter .scope, .same,
    .path .requestProperty]

/-- The path that an option is given as, if it is given. -/
def path? (o : Options) : Key → Option PathInput
  | .tokenKey => o.tokenKey
  | .scopeKey => o.scopeKey
  | .adminKey => o.adminKey
  | .requestProperty =>
    match o.requestProperty with
    | .path input => some input
    | .unset | .disabled => none
  | .claimDelimiter | .claimScopeDelimiter | .credentialsRequired | .scopeRequired => none

/-- A delimiter as it is given, or its default. -/
def delimiter (o : Options) : Separator → String
  | .claim => o.claimDelimiter.getD ","
  | .scope => o.claimScopeDelimiter.getD ":"

/-- The options have a flaw at the gate, and this is its error. -/
inductive Flaw (o : Options) : Gate → OptionsError → Prop
  | path {k : Key} {input : PathInput} {fault : PathFault} : o.path? k = some input → input.Flawed fault →
      Flaw o (.path k) (.invalidPath k fault)
  | conflict : o.adminKey.isSome = true → o.adminPredicate.isSome = true →
      Flaw o .conflict (.invalidAdmin .pathAndPredicate)
  | delimiter {separator : Separator} {fault : DelimiterFault} :
      Delimiters.Flawed separator.spaceAllowed (o.delimiter separator) fault →
      Flaw o (.delimiter separator) (.invalidDelimiter separator.key (o.delimiter separator) fault)
  | same {c : Char} : o.delimiter .claim = c.toString → o.delimiter .scope = c.toString →
      Flaw o .same (.sameDelimiters c)

/-- The first flaw at gates in order. -/
inductive First (o : Options) : List Gate → OptionsError → Prop
  | here {g : Gate} {gs : List Gate} {e : OptionsError} : Flaw o g e → First o (g :: gs) e
  | later {g : Gate} {gs : List Gate} {e : OptionsError} : (∀ e', ¬Flaw o g e') → First o gs e → First o (g :: gs) e

/-- There is no flaw at any of the gates. -/
def Clear (o : Options) (gs : List Gate) : Prop := ∀ g ∈ gs, ∀ e, ¬Flaw o g e

variable {o : Options} {g : Gate} {gs more : List Gate} {e e' : OptionsError}

theorem Flaw.unique (h : Flaw o g e) (h' : Flaw o g e') : e = e' := by
  cases h with
  | path hpath hflawed =>
    cases h' with
    | path hpath' hflawed' =>
      rw [hpath] at hpath'
      cases hpath'
      rw [hflawed.unique hflawed']
  | conflict => cases h'; rfl
  | delimiter hflawed =>
    cases h' with
    | delimiter hflawed' => rw [hflawed.unique hflawed']
  | same hclaim =>
    cases h' with
    | same hclaim' =>
      rw [Delimiters.toString_inj (hclaim.symm.trans hclaim')]

theorem First.unique (h : First o gs e) (h' : First o gs e') : e = e' := by
  induction h with
  | here hflaw =>
    cases h' with
    | here hflaw' => exact hflaw.unique hflaw'
    | later hnone _ => exact absurd hflaw (hnone _)
  | later hnone _ ih =>
    cases h' with
    | here hflaw' => exact absurd hflaw' (hnone _)
    | later _ hrest => exact ih hrest

theorem First.not_clear (h : First o gs e) : ¬Clear o gs := by
  induction h with
  | here hflaw => exact fun hclear => hclear _ List.mem_cons_self _ hflaw
  | later _ _ ih => exact fun hclear => ih fun g hg => hclear g (List.mem_cons_of_mem _ hg)

theorem First.append_left (h : First o gs e) (more : List Gate) : First o (gs ++ more) e := by
  induction h with
  | here hflaw => exact .here hflaw
  | later hnone _ ih => exact .later hnone ih

theorem First.append_right (hclear : Clear o gs) (h : First o more e) : First o (gs ++ more) e := by
  induction gs with
  | nil => exact h
  | cons g gs ih =>
    obtain ⟨hg, hgs⟩ := List.forall_mem_cons.mp hclear
    exact .later hg (ih hgs)

/-! ## The check at its gates -/

/-- A step of the check ends well if there is no flaw at its gates, and otherwise with the first. -/
def Settles {α : Type} (o : Options) (gs : List Gate) (x : Except OptionsError α) : Prop :=
  (Clear o gs ∧ ∃ a, x = .ok a) ∨ ∃ e, First o gs e ∧ x = .error e

variable {α β : Type} {x : Except OptionsError α}

theorem Settles.bind {f : α → Except OptionsError β} (hx : Settles o gs x) (hf : ∀ a, x = .ok a → Settles o more (f a)) :
    Settles o (gs ++ more) (x >>= f) := by
  rcases hx with ⟨hclear, a, rfl⟩ | ⟨e, hfirst, rfl⟩
  · rcases hf a rfl with ⟨hmore, b, hb⟩ | ⟨e, hfirst, he⟩
    · exact .inl ⟨List.forall_mem_append.mpr ⟨hclear, hmore⟩, b, hb⟩
    · exact .inr ⟨e, hfirst.append_right hclear, he⟩
  · exact .inr ⟨e, hfirst.append_left more, rfl⟩

theorem Settles.map (hx : Settles o gs x) (f : α → β) : Settles o gs (x.map f) := by
  rcases hx with ⟨hclear, a, rfl⟩ | ⟨e, hfirst, rfl⟩
  · exact .inl ⟨hclear, f a, rfl⟩
  · exact .inr ⟨e, hfirst, rfl⟩

theorem Settles.cons (hg : ∀ e, ¬Flaw o g e) (hx : Settles o gs x) : Settles o (g :: gs) x := by
  rcases hx with ⟨hclear, hok⟩ | ⟨e, hfirst, he⟩
  · exact .inl ⟨List.forall_mem_cons.mpr ⟨hg, hclear⟩, hok⟩
  · exact .inr ⟨e, .later hg hfirst, he⟩

theorem Settles.ok (a : α) : Settles o [] (.ok a) := .inl ⟨fun _ h => absurd h List.not_mem_nil, a, rfl⟩

/-! ### Paths -/

theorem no_flaw_path_iff {k : Key} : (∀ e, ¬Flaw o (.path k) e) ↔ ∀ input, o.path? k = some input → input.Sound := by
  constructor
  · intro hnone input hpath
    rcases DocPath.sound_or_flawed input with hsound | ⟨fault, hflawed⟩
    · exact hsound
    · exact absurd (.path hpath hflawed) (hnone _)
  · intro hsound e h
    cases h with
    | path hpath hflawed => exact hflawed.not_sound (hsound _ hpath)

theorem settles_given {k : Key} {input : PathInput} (h : o.path? k = some input) :
    Settles o [.path k] (DocPath.of? k input) := by
  rcases DocPath.sound_or_flawed input with hsound | ⟨fault, hflawed⟩
  · obtain ⟨p, hp, -⟩ := DocPath.of?_of_sound k hsound
    rw [hp]
    refine .cons (no_flaw_path_iff.mpr fun input' h' => ?_) (.ok p)
    rw [h] at h'
    cases h'
    exact hsound
  · exact .inr ⟨_, .here (.path h hflawed), DocPath.of?_of_flawed k hflawed⟩

theorem settles_default {k : Key} {default : PathInput} (h : o.path? k = none) (hd : default.Sound) :
    Settles o [.path k] (DocPath.of? k default) := by
  obtain ⟨p, hp, -⟩ := DocPath.of?_of_sound k hd
  rw [hp]
  refine .cons (no_flaw_path_iff.mpr fun input h' => ?_) (.ok p)
  rw [h] at h'
  cases h'

theorem settles_path {k : Key} {default : PathInput} (hd : default.Sound) :
    Settles o [.path k] (DocPath.of? k ((o.path? k).getD default)) := by
  cases h : o.path? k with
  | none => exact settles_default h hd
  | some input => exact settles_given h

theorem settles_requestProperty : Settles o [.path .requestProperty] (Policy.requestProperty? o.requestProperty) := by
  cases h : o.requestProperty with
  | unset =>
    have hnone : o.path? .requestProperty = none := by rw [path?, h]
    have hdefault : (PathInput.dotted "permissions").Sound := ⟨nofun, nofun, by decide⟩
    exact (settles_default hnone hdefault).map _
  | disabled =>
    refine .cons (no_flaw_path_iff.mpr fun input hpath => ?_) (.ok _)
    rw [path?, h] at hpath
    cases hpath
  | path input =>
    have hgiven : o.path? .requestProperty = some input := by rw [path?, h]
    exact (settles_given hgiven).map _

/-! ### The admin check -/

theorem no_flaw_conflict_iff :
    (∀ e, ¬Flaw o .conflict e) ↔ ¬(o.adminKey.isSome = true ∧ o.adminPredicate.isSome = true) := by
  constructor
  · rintro hnone ⟨hkey, hpredicate⟩
    exact hnone _ (.conflict hkey hpredicate)
  · intro hboth e h
    cases h with
    | conflict hkey hpredicate => exact hboth ⟨hkey, hpredicate⟩

theorem settles_admin : Settles o [.conflict, .path .adminKey] (Policy.adminCheck? o.adminKey o.adminPredicate) := by
  cases hkey : o.adminKey with
  | some input =>
    cases hpredicate : o.adminPredicate with
    | some p =>
      have hboth : o.adminKey.isSome = true ∧ o.adminPredicate.isSome = true := by rw [hkey, hpredicate]; exact ⟨rfl, rfl⟩
      exact .inr ⟨_, .here (.conflict hboth.1 hboth.2), rfl⟩
    | none =>
      have hone : ¬(o.adminKey.isSome = true ∧ o.adminPredicate.isSome = true) := by simp [hpredicate]
      have hgiven : o.path? .adminKey = some input := hkey
      exact .cons (no_flaw_conflict_iff.mpr hone) ((settles_given hgiven).map _)
  | none =>
    have hone : ¬(o.adminKey.isSome = true ∧ o.adminPredicate.isSome = true) := by simp [hkey]
    have hpath : ∀ input, o.path? .adminKey = some input → input.Sound := by
      intro input h
      rw [path?, hkey] at h
      cases h
    have hclear (check : Option AdminCheck) : Settles o [.conflict, .path .adminKey] (.ok check) :=
      .cons (no_flaw_conflict_iff.mpr hone) (.cons (no_flaw_path_iff.mpr hpath) (.ok check))
    cases o.adminPredicate with
    | some p => exact hclear _
    | none => exact hclear _

/-! ### Delimiters -/

theorem no_flaw_delimiter_iff {separator : Separator} :
    (∀ e, ¬Flaw o (.delimiter separator) e) ↔
      ∃ c, o.delimiter separator = c.toString ∧ Delimiters.May separator.spaceAllowed c := by
  constructor
  · intro hnone
    rcases Delimiters.may_or_flawed separator.spaceAllowed (o.delimiter separator) with hmay | ⟨fault, hflawed⟩
    · exact hmay
    · exact absurd (.delimiter hflawed) (hnone _)
  · rintro ⟨c, hc, hmay⟩ e h
    cases h with
    | delimiter hflawed => exact hflawed.not_may hmay hc

theorem settles_delimiter (separator : Separator) :
    Settles o [.delimiter separator]
      (Delimiters.single separator.key separator.spaceAllowed (o.delimiter separator)) := by
  rcases Delimiters.may_or_flawed separator.spaceAllowed (o.delimiter separator) with ⟨c, hc, hmay⟩ | ⟨fault, hflawed⟩
  · refine .cons (no_flaw_delimiter_iff.mpr ⟨c, hc, hmay⟩) ?_
    rw [hc, Delimiters.single_toString _ hmay]
    exact .ok _
  · exact .inr ⟨_, .here (.delimiter hflawed), Delimiters.single_of_flawed hflawed⟩

theorem settles_delimiters :
    Settles o [.delimiter .claim, .delimiter .scope, .same]
      (Delimiters.of? (o.delimiter .claim) (o.delimiter .scope)) := by
  refine (settles_delimiter .claim).bind fun ⟨c, hc⟩ hclaim => ?_
  refine (settles_delimiter .scope).bind fun ⟨s, hs⟩ hscope => ?_
  replace hclaim : o.delimiter .claim = c.toString := Delimiters.eq_of_single hclaim
  replace hscope : o.delimiter .scope = s.toString := Delimiters.eq_of_single hscope
  dsimp only
  split
  · rename_i h
    subst h
    exact .inr ⟨_, .here (.same hclaim hscope), rfl⟩
  · rename_i h
    refine .cons (fun e hflaw => ?_) (.ok _)
    cases hflaw with
    | same hclaim' hscope' =>
      exact h (Delimiters.toString_inj (hclaim.symm.trans (hclaim'.trans (hscope'.symm.trans hscope))))

theorem settles_policy (o : Options) : Settles o gates (Policy.of? o) := by
  have huser : (PathInput.dotted "user").Sound := ⟨nofun, nofun, by decide⟩
  have hscope : (PathInput.dotted "scope").Sound := ⟨nofun, nofun, by decide⟩
  refine (settles_path (k := .tokenKey) huser).bind fun tokenKey _ => ?_
  refine (settles_path (k := .scopeKey) hscope).bind fun scopeKey _ => ?_
  refine settles_admin.bind fun admin _ => ?_
  refine settles_delimiters.bind fun delimiters _ => ?_
  exact settles_requestProperty.bind fun requestProperty _ => .ok _

theorem of?_error_iff : Policy.of? o = .error e ↔ First o gates e := by
  rcases settles_policy o with ⟨hclear, policy, hok⟩ | ⟨e', hfirst, herror⟩
  · rw [hok]
    exact ⟨nofun, fun h => absurd hclear h.not_clear⟩
  · rw [herror]
    constructor
    · rintro ⟨⟩
      exact hfirst
    · intro h
      rw [hfirst.unique h]

theorem of?_exists_iff : (∃ policy, Policy.of? o = .ok policy) ↔ Clear o gates := by
  rcases settles_policy o with ⟨hclear, hok⟩ | ⟨e, hfirst, herror⟩
  · exact ⟨fun _ => hclear, fun _ => hok⟩
  · rw [herror]
    constructor
    · rintro ⟨policy, h⟩
      cases h
    · exact fun hclear => absurd hclear hfirst.not_clear

theorem First.exists_flaw (h : First o gs e) : ∃ g ∈ gs, Flaw o g e := by
  induction h with
  | here hflaw => exact ⟨_, List.mem_cons_self, hflaw⟩
  | later _ _ ih =>
    obtain ⟨g, hg, hflaw⟩ := ih
    exact ⟨g, List.mem_cons_of_mem _ hg, hflaw⟩

/-! ## Options without a flaw -/

theorem no_flaw_same_iff :
    (∀ e, ¬Flaw o .same e) ↔
      ∀ c s : Char, o.delimiter .claim = c.toString → o.delimiter .scope = s.toString → c ≠ s := by
  constructor
  · rintro hnone c s hclaim hscope rfl
    exact hnone _ (.same hclaim hscope)
  · intro hdiffer e h
    cases h with
    | same hclaim hscope => exact hdiffer _ _ hclaim hscope rfl

/-- No gate is left out, and none looks at what makes no difference. -/
theorem clear_gates_iff :
    Clear o gates ↔
      (∀ k input, o.path? k = some input → input.Sound) ∧
      ¬(o.adminKey.isSome = true ∧ o.adminPredicate.isSome = true) ∧
      ∃ c s, o.delimiter .claim = c.toString ∧ (c = ' ' ∨ c ∈ punctuation) ∧
        o.delimiter .scope = s.toString ∧ s ∈ punctuation ∧ c ≠ s := by
  simp only [Clear, gates, List.forall_mem_cons, no_flaw_path_iff, no_flaw_conflict_iff, no_flaw_delimiter_iff,
    no_flaw_same_iff]
  constructor
  · rintro ⟨htoken, hscopeKey, hone, hadmin, ⟨c, hclaim, hc⟩, ⟨s, hscope, hs⟩, hdiffer, hproperty, -⟩
    refine ⟨fun k input h => ?_, hone, c, s, hclaim, hc.imp_left And.left, hscope, hs.resolve_left nofun,
      hdiffer c s hclaim hscope⟩
    cases k with
    | tokenKey => exact htoken input h
    | scopeKey => exact hscopeKey input h
    | adminKey => exact hadmin input h
    | requestProperty => exact hproperty input h
    | claimDelimiter | claimScopeDelimiter | credentialsRequired | scopeRequired => cases h
  · rintro ⟨hpaths, hone, c, s, hclaim, hc, hscope, hs, hne⟩
    refine ⟨hpaths _, hpaths _, hone, hpaths _, ⟨c, hclaim, hc.imp_left (⟨·, rfl⟩)⟩, ⟨s, hscope, .inr hs⟩, ?_,
      hpaths _, nofun⟩
    intro c' s' hclaim' hscope'
    obtain rfl := Delimiters.toString_inj (hclaim.symm.trans hclaim')
    obtain rfl := Delimiters.toString_inj (hscope.symm.trans hscope')
    exact hne

/-! ## The policy -/

/-- The policy is made of the options, and of the default of each one that is not set. -/
structure Made (o : Options) (policy : Policy) : Prop where
  tokenKey : policy.tokenKey.segments = (o.tokenKey.getD (.dotted "user")).pieces
  scopeKey : policy.scopeKey.segments = (o.scopeKey.getD (.dotted "scope")).pieces
  adminKey : ∀ input, o.adminKey = some input → ∃ p, policy.admin = some (.path p) ∧ p.segments = input.pieces
  adminPredicate : ∀ p, o.adminPredicate = some p → policy.admin = some (.predicate p)
  noAdmin : o.adminKey = none → o.adminPredicate = none → policy.admin = none
  claim : policy.delimiters.claim.toString = o.delimiter .claim
  scope : policy.delimiters.scope.toString = o.delimiter .scope
  credentialsRequired : policy.credentialsRequired = o.credentialsRequired.getD true
  scopeRequired : policy.scopeRequired = o.scopeRequired.getD false
  attached : ∀ input, o.requestProperty = .path input ∨ o.requestProperty = .unset ∧ input = .dotted "permissions" →
    ∃ p, policy.requestProperty = some p ∧ p.segments = input.pieces
  disabled : o.requestProperty = .disabled → policy.requestProperty = none

variable {policy : Policy}

theorem made_of_ok (h : Policy.of? o = .ok policy) : Made o policy := by
  have hpieces {k : Key} {input : PathInput} {p : DocPath} (hp : DocPath.of? k input = .ok p) :
      p.segments = input.pieces := (DocPath.ofInput?_ok_iff.mp (DocPath.of?_ok_iff.mp hp)).2
  obtain ⟨tokenKey, htoken, h⟩ := bind_ok h
  obtain ⟨scopeKey, hscope, h⟩ := bind_ok h
  obtain ⟨admin, hadmin, h⟩ := bind_ok h
  obtain ⟨delimiters, hdelimiters, h⟩ := bind_ok h
  obtain ⟨requestProperty, hproperty, h⟩ := bind_ok h
  cases h
  obtain ⟨hclaimText, hscopeText⟩ := Delimiters.toString_of_ok hdelimiters
  refine ⟨hpieces htoken, hpieces hscope, fun input hkey => ?_, fun p hp => ?_, fun hkey hp => ?_, hclaimText, hscopeText,
    rfl, rfl, fun input hgiven => ?_, fun hdisabled => ?_⟩
  · rw [hkey] at hadmin
    cases hp : o.adminPredicate with
    | some p => rw [hp] at hadmin; cases hadmin
    | none =>
      rw [hp] at hadmin
      obtain ⟨p, hpath, rfl⟩ := map_ok hadmin
      exact ⟨p, rfl, hpieces hpath⟩
  · rw [hp] at hadmin
    cases hkey : o.adminKey with
    | some input => rw [hkey] at hadmin; cases hadmin
    | none => rw [hkey] at hadmin; cases hadmin; rfl
  · rw [hkey, hp] at hadmin
    cases hadmin
    rfl
  · rcases hgiven with hgiven | ⟨hgiven, rfl⟩
    · rw [hgiven] at hproperty
      obtain ⟨p, hpath, rfl⟩ := map_ok hproperty
      exact ⟨p, rfl, hpieces hpath⟩
    · rw [hgiven] at hproperty
      replace hproperty : (DocPath.of? .requestProperty (.dotted "permissions")).map some = .ok requestProperty :=
        hproperty
      obtain ⟨p, hpath, rfl⟩ := map_ok hproperty
      exact ⟨p, rfl, hpieces hpath⟩
  · rw [hdisabled] at hproperty
    cases hproperty
    rfl

/-- Options make a policy if each path that they give is sound, if they do not tell admins in two
    ways, and if the delimiters, as given or by default, are two different characters, the one
    between permissions a space or punctuation and the other one punctuation. Of other options the
    first flaw in the order of the gates is reported, and the error of a path or a delimiter
    names the option. The policy is made of the options and of the defaults. Its delimiters stay
    out of words and wildcards, the scope delimiter is no space, and permissions and claims are
    cut at these two characters. -/
theorem checked_in_order (o : Options) :
    ((∃ policy, Policy.of? o = .ok policy) ↔
      (∀ k input, o.path? k = some input → input.Sound) ∧
      ¬(o.adminKey.isSome = true ∧ o.adminPredicate.isSome = true) ∧
      ∃ c s, o.delimiter .claim = c.toString ∧ (c = ' ' ∨ c ∈ punctuation) ∧
        o.delimiter .scope = s.toString ∧ s ∈ punctuation ∧ c ≠ s) ∧
    (∀ e, Policy.of? o = .error e ↔ First o gates e) ∧
    (∀ k fault, Policy.of? o = .error (.invalidPath k fault) →
      (∃ input, o.path? k = some input ∧ input.Flawed fault) ∧
      (OptionsError.invalidPath k fault).message = "invalid " ++ k.name ++ ": " ++ fault.reason) ∧
    (∀ k value fault, Policy.of? o = .error (.invalidDelimiter k value fault) →
      (∃ separator : Separator, k = separator.key ∧ value = o.delimiter separator ∧
        Delimiters.Flawed separator.spaceAllowed value fault) ∧
      (OptionsError.invalidDelimiter k value fault).message =
        "invalid " ++ k.name ++ " '" ++ value ++ "': " ++ fault.reason) ∧
    ∀ policy, Policy.of? o = .ok policy → Made o policy ∧
      ∃ c s, o.delimiter .claim = c.toString ∧ o.delimiter .scope = s.toString ∧
        c ≠ s ∧ isWordChar c = false ∧ isWordChar s = false ∧ c ≠ '*' ∧ s ≠ '*' ∧ s ≠ ' ' ∧
        (∀ text, policy.delimiters.isRequested text = true ↔ Requestable (Text.pieces s text)) ∧
        (∀ text, policy.delimiters.isGranted text = true ↔ Grantable (Text.pieces s text)) ∧
        ∀ text grants, text ≠ "" → policy.delimiters.grants? (.string text) = .ok grants →
          grants.texts = Text.pieces c text := by
  refine ⟨of?_exists_iff.trans clear_gates_iff, fun e => of?_error_iff, fun k fault h => ⟨?_, rfl⟩,
    fun k value fault h => ⟨?_, rfl⟩, fun policy h => ⟨made_of_ok h, ?_⟩⟩
  · obtain ⟨g, -, hflaw⟩ := (of?_error_iff.mp h).exists_flaw
    cases hflaw with
    | path hpath hflawed => exact ⟨_, hpath, hflawed⟩
  · obtain ⟨g, -, hflaw⟩ := (of?_error_iff.mp h).exists_flaw
    cases hflaw with
    | delimiter hflawed => exact ⟨_, rfl, rfl, hflawed⟩
  · have hmade := made_of_ok h
    let d := policy.delimiters
    refine ⟨d.claim, d.scope, hmade.claim.symm, hmade.scope.symm, d.differ, d.claim_not_wordChar, d.scope_not_wordChar,
      d.claim_ne_wildcard, d.scope_ne_wildcard, (Delimiters.not_wordChar_of_mem d.scope_allowed).2.2,
      fun text => Delimiters.isRequested_iff_pieces, fun text => Delimiters.isGranted_iff_pieces, ?_⟩
    intro text grants htext hread
    obtain ⟨elements, helements, -, hpermissions⟩ := Delimiters.grants?_ok hread
    rw [Claim.elements, if_neg htext] at helements
    cases helements
    rw [Grants.texts, hpermissions, List.map_map]
    exact List.map_id _

/-- Of several flaws the scope path's is the first. One delimiter alone can be the other's default.
    With a space and a comma for delimiters, `user,add` is a permission and `user:add` is none. -/
theorem checked_in_order_several :
    (Policy.of? {
        scopeKey := some (.dotted "a..b"), adminKey := some (.dotted "role")
        adminPredicate := some (.ofStock "owner" false (.agrees .token (some (.dotted "id")) (.string "ada")))
        claimDelimiter := some ":", requestProperty := .path (.dotted "") } =
      .error (.invalidPath .scopeKey (.emptySegment "a..b"))) ∧
    Policy.of? { claimDelimiter := some ":" } = .error (.sameDelimiters ':') ∧
    ∃ policy, Policy.of? { claimDelimiter := some " ", claimScopeDelimiter := some "," } = .ok policy ∧
      policy.delimiters.isRequested "user,add" = true ∧ policy.delimiters.isRequested "user:add" = false := by
  refine ⟨((checked_in_order _).2.1 _).mpr ?_, ((checked_in_order _).2.1 _).mpr ?_, ?_⟩
  · exact .later (no_flaw_path_iff.mpr nofun) (.here (.path rfl (.emptySegment (by decide) (by decide))))
  · refine .later (no_flaw_path_iff.mpr nofun) (.later (no_flaw_path_iff.mpr nofun) ?_)
    refine .later (no_flaw_conflict_iff.mpr (by simp)) (.later (no_flaw_path_iff.mpr nofun) ?_)
    have hcolon : ":" = ':'.toString := by decide
    refine .later (no_flaw_delimiter_iff.mpr ⟨':', hcolon, .inr (by decide)⟩) ?_
    exact .later (no_flaw_delimiter_iff.mpr ⟨':', hcolon, .inr (by decide)⟩) (.here (.same hcolon hcolon))
  · have hspace : " " = ' '.toString := by decide
    have hcomma : "," = ','.toString := by decide
    obtain ⟨policy, hpolicy⟩ := (checked_in_order { claimDelimiter := some " ", claimScopeDelimiter := some "," }).1.mpr
      ⟨by rintro ⟨⟩ <;> exact nofun, by simp, ' ', ',', hspace, .inl rfl, hcomma, by decide, by decide⟩
    obtain ⟨-, c, s, -, hs, -, -, -, -, -, -, hrequested, -⟩ := (checked_in_order _).2.2.2.2 policy hpolicy
    obtain rfl : s = ',' := Delimiters.toString_inj (hs.symm.trans hcomma)
    refine ⟨policy, hpolicy, (hrequested _).mpr (by decide), ?_⟩
    rw [Bool.eq_false_iff, ne_eq, hrequested]
    decide

end Options

end Warden
