/-
  Warden.Proofs.Rule.Unambiguous — the text of a rule of permissions tells the rule.

  Permissions can be named `AND`, `OR`, `NOT` or `ADMIN`, and brackets can be the scope delimiter,
  so no word and no bracket of a text is an operator or a bracket of the rule by itself. What
  a permission cannot have is a space, or a bracket at its ends (`Spelled`). A text is therefore
  cut at its spaces and read from its end: the last word closes the rule, and with two brackets also a
  part of several permissions, which begins at the last word with a bracket in front (`Tail`).
  The words before that part are the joint, and the rest is what stood there before (`Inside`).

  - `Tail.split`: the last part is found, whatever stands before it.
  - `clause_inj`: lists of permissions from their texts.
  - `Chain.text_inj`: rules that arguments and extensions make, by the last extension first.
  - `told_by_text`: all of it, for routes.
-/

import Warden.Proofs.Construction
import Warden.Proofs.Privileges
import Warden.Proofs.Requirements

namespace Warden

/-! ## What a permission is spelled with -/

/-- Word characters at both ends, and no space. -/
structure Spelled (cs : List Char) : Prop where
  first : ∃ c rest, cs = c :: rest ∧ isWordChar c = true
  last : ∀ c, cs.getLast? = some c → isWordChar c = true
  space : ' ' ∉ cs

theorem Grammar.requestedFrom_getLast? {scope : Char} {cs : List Char} {p : Place} (h : requestedFrom scope p cs = true)
    {c : Char} (hc : cs.getLast? = some c) : isWordChar c = true := by
  induction cs generalizing p with
  | nil => cases hc
  | cons x rest ih =>
    rw [requestedFrom] at h
    cases rest with
    | nil =>
      cases hc
      split at h
      · assumption
      · simp [requestedFrom, Place.complete] at h
    | cons y ys =>
      rw [List.getLast?_cons_cons] at hc
      split at h
      · exact ih h hc
      · exact ih (Bool.and_eq_true_iff.mp h).2 hc

theorem Delimiters.spelled_of_requested {d : Delimiters} {s : String} (h : d.isRequested s = true) : Spelled s.toList where
  first := by
    unfold isRequested at h
    cases hs : s.toList with
    | nil => rw [hs] at h; cases h
    | cons c rest =>
      rw [hs, Grammar.requestedFrom] at h
      split at h
      · exact ⟨c, rest, rfl, ‹_›⟩
      · simp [Grammar.Place.complete] at h
  last _ hc := Grammar.requestedFrom_getLast? h hc
  space := by
    intro hmem
    rcases Grammar.grantedFrom_chars ((d.isRequested_iff s).mp h).1 ' ' hmem with hword | hstar | hscope
    · exact absurd hword (by decide)
    · exact absurd hstar (by decide)
    · exact (not_wordChar_of_mem d.scope_allowed).2.2 hscope.symm

theorem Spelled.append_bracket_ne {cs ds : List Char} (h : Spelled cs) : cs ≠ ds ++ [')'] := by
  rintro rfl
  have hword := h.last ')' (by simp)
  revert hword
  decide

theorem Text.split_inj {d : Char} {cs ds : List Char} (h : split d cs = split d ds) : cs = ds := by
  rw [← join_split d cs, h, join_split]

namespace Rule

/-! ## The end of a rule -/

/-- A bracket stands in front of the word. -/
def Opens (word : List Char) : Prop := word.head? = some '('

theorem not_opens_append {cs : List Char} (h : Spelled cs) (closing : List Char) : ¬Opens (cs ++ closing) := by
  obtain ⟨c, rest, rfl, hword⟩ := h.first
  intro hopens
  obtain rfl : c = '(' := Option.some.inj hopens
  revert hword
  decide

theorem not_opens {cs : List Char} (h : Spelled cs) : ¬Opens cs := by
  have hopens := not_opens_append h []
  rwa [List.append_nil] at hopens

theorem ne_bracket_cons {cs : List Char} (h : Spelled cs) (rest : List Char) : cs ≠ '(' :: rest := by
  rintro rfl
  exact not_opens h rfl

/-- The last word with a bracket in front is found from the end. -/
theorem last_opening {before before' after after' : List (List Char)} {word word' : List Char} (hw : Opens word)
    (hw' : Opens word') (ha : ∀ w ∈ after, ¬Opens w) (ha' : ∀ w ∈ after', ¬Opens w)
    (h : before ++ word :: after = before' ++ word' :: after') : before = before' ∧ word :: after = word' :: after' := by
  rcases List.append_eq_append_iff.mp h with ⟨more, rfl, hmore⟩ | ⟨more, rfl, hmore⟩
  · cases more with
    | nil => exact ⟨(List.append_nil _).symm, hmore⟩
    | cons x more =>
      obtain ⟨-, rfl⟩ := List.cons.inj hmore
      exact absurd hw' (ha word' (by simp))
  · cases more with
    | nil => exact ⟨List.append_nil _, hmore.symm⟩
    | cons x more =>
      obtain ⟨-, rfl⟩ := List.cons.inj hmore
      exact absurd hw (ha' word (by simp))

/-- The words of the last part of a rule, up to the bracket that closes the rule: one permission or
    several ones in brackets of their own. -/
inductive Tail : List (List Char) → Prop
  | one {last : List Char} : Spelled last → Tail [last ++ [')']]
  | several {word last : List Char} {between : List (List Char)} : Opens word → (∀ w ∈ between, ¬Opens w) →
      Spelled last → Tail (word :: (between ++ [last ++ [')', ')']]))

theorem Tail.split {before before' tail tail' : List (List Char)} (ht : Tail tail) (ht' : Tail tail')
    (h : before ++ tail = before' ++ tail') : before = before' ∧ tail = tail' := by
  -- two brackets at the end of one and a single one at the end of the other
  have hone {word last last' : List Char} {before before' between : List (List Char)} (hlast : Spelled last) :
      before ++ [last ++ [')']] ≠ before' ++ word :: (between ++ [last' ++ [')', ')']]) := by
    intro h
    have hend : before ++ [last ++ [')']] = (before' ++ word :: between) ++ [(last' ++ [')']) ++ [')']] := by
      rw [h]
      simp
    obtain ⟨-, hword⟩ := List.append_inj' hend rfl
    exact hlast.append_bracket_ne (List.append_inj' (List.cons.inj hword).1 rfl).1
  cases ht with
  | one hlast =>
    cases ht' with
    | one hlast' => exact List.append_inj' h rfl
    | several _ _ _ => exact absurd h (hone hlast)
  | several hword hbetween hlast =>
    cases ht' with
    | one hlast' => exact absurd h.symm (hone hlast')
    | several hword' hbetween' hlast' =>
      refine last_opening hword hword' ?_ ?_ h
      · exact List.forall_mem_append.mpr ⟨hbetween, by simpa using not_opens_append hlast _⟩
      · exact List.forall_mem_append.mpr ⟨hbetween', by simpa using not_opens_append hlast' _⟩

/-! ## Permissions that are asked for together -/

/-- The rule of one permission. -/
def leaf (d : Delimiters) (text : String) : Rule := .permission (.ofText d.scope text)

/-- The rule of permissions with the texts. -/
def clause (d : Delimiters) (texts : List String) : Rule :=
  ofRequirements (texts.map fun text => .permission (.ofText d.scope text))

/-- There is a text, and the texts are permissions that can be requested. -/
structure Requested (d : Delimiters) (texts : List String) : Prop where
  ne_nil : texts ≠ []
  requested : ∀ text ∈ texts, d.isRequested text = true

/-- The words of the texts with `AND` between them, the last with what closes them. -/
def joined (closing : List Char) : List String → List (List Char)
  | [] => []
  | [text] => [text.toList ++ closing]
  | text :: texts => text.toList :: ['A', 'N', 'D'] :: joined closing texts

/-- The operator between the permissions of a clause. -/
def conjunction : List Char := [' ', 'A', 'N', 'D', ' ']

variable {d : Delimiters} {texts others : List String} {text other : String} {closing : List Char}

theorem Requested.spelled (h : Requested d texts) : ∀ text ∈ texts, Spelled text.toList :=
  fun text hmem => Delimiters.spelled_of_requested (h.requested text hmem)

theorem clause_several (d : Delimiters) (text other : String) (texts : List String) :
    clause d (text :: other :: texts) = .all ((text :: other :: texts).map (leaf d)) := by
  simp [clause, ofRequirements, ofRequirement, leaf]

theorem chars_clause_one (d : Delimiters) (text : String) : (clause d [text]).chars = text.toList := rfl

theorem chars_clause_several (d : Delimiters) (text other : String) (texts : List String) :
    (clause d (text :: other :: texts)).chars =
      '(' :: (charsJoined conjunction ((text :: other :: texts).map (leaf d)) ++ [')']) := by
  rw [clause_several, chars]
  rfl

theorem charsJoined_leaves (d : Delimiters) (text other : String) (texts : List String) :
    charsJoined conjunction ((text :: other :: texts).map (leaf d)) =
      text.toList ++ ' ' :: (['A', 'N', 'D'] ++ ' ' :: charsJoined conjunction ((other :: texts).map (leaf d))) := by
  rw [List.map_cons, List.map_cons, charsJoined]
  · simp [leaf, chars, conjunction]
  · exact nofun

theorem joined_cons_cons (closing : List Char) (text other : String) (texts : List String) :
    joined closing (text :: other :: texts) = text.toList :: ['A', 'N', 'D'] :: joined closing (other :: texts) := rfl

theorem split_leaves (h : ∀ text ∈ texts, Spelled text.toList) (hne : texts ≠ []) (hclosing : ' ' ∉ closing) :
    Text.split ' ' (charsJoined conjunction (texts.map (leaf d)) ++ closing) = joined closing texts := by
  induction texts with
  | nil => exact absurd rfl hne
  | cons text texts ih =>
    obtain ⟨htext, hrest⟩ := List.forall_mem_cons.mp h
    cases texts with
    | nil =>
      have hspace : ' ' ∉ text.toList ++ closing := by simp [htext.space, hclosing]
      exact Text.split_of_not_mem hspace
    | cons other texts =>
      have hand : ' ' ∉ ['A', 'N', 'D'] := by decide
      have hchars : charsJoined conjunction ((text :: other :: texts).map (leaf d)) ++ closing =
          text.toList ++ ' ' :: (['A', 'N', 'D'] ++ ' ' ::
            (charsJoined conjunction ((other :: texts).map (leaf d)) ++ closing)) := by
        rw [charsJoined_leaves]
        simp
      rw [hchars, Text.split_append_sep htext.space, Text.split_append_sep hand, ih hrest (List.cons_ne_nil _ _),
        joined_cons_cons]

/-- The words of two texts or more: no bracket stands in front of any, and the last but one is `AND`. -/
theorem joined_several (closing : List Char) (h : ∀ t ∈ text :: other :: texts, Spelled t.toList) :
    ∃ between last, (∀ w ∈ between, ¬Opens w) ∧ Spelled last ∧
      joined closing (text :: other :: texts) = text.toList :: (between ++ [['A', 'N', 'D']] ++ [last ++ closing]) := by
  induction texts generalizing text other with
  | nil => exact ⟨[], other.toList, by simp, h other (by simp), rfl⟩
  | cons third texts ih =>
    obtain ⟨-, hrest⟩ := List.forall_mem_cons.mp h
    obtain ⟨between, last, hbetween, hlast, heq⟩ := ih hrest
    have hand : ¬Opens ['A', 'N', 'D'] := by simp [Opens]
    refine ⟨['A', 'N', 'D'] :: other.toList :: between, last, ?_, hlast, ?_⟩
    · exact List.forall_mem_cons.mpr ⟨hand, List.forall_mem_cons.mpr ⟨not_opens (hrest other (by simp)), hbetween⟩⟩
    · rw [joined_cons_cons, heq]
      rfl

theorem joined_inj (h : joined closing texts = joined closing others) : texts = others := by
  induction texts generalizing others with
  | nil =>
    match others with
    | [] => rfl
    | [_] => exact absurd h.symm (List.cons_ne_nil _ _)
    | _ :: _ :: _ => exact absurd h.symm (List.cons_ne_nil _ _)
  | cons text texts ih =>
    match texts, others with
    | [], [] => exact absurd h (List.cons_ne_nil _ _)
    | _ :: _, [] => exact absurd h (List.cons_ne_nil _ _)
    | [], [other] =>
      have htext := List.append_cancel_right (List.cons.inj h).1
      rw [String.toList_inj.mp htext]
    | [], _ :: _ :: _ => exact absurd (List.cons.inj h).2.symm (List.cons_ne_nil _ _)
    | _ :: _, [_] => exact absurd (List.cons.inj h).2 (List.cons_ne_nil _ _)
    | second :: texts, other :: third :: others =>
      rw [joined_cons_cons, joined_cons_cons] at h
      obtain ⟨htext, hrest⟩ := List.cons.inj h
      rw [String.toList_inj.mp htext, ih (List.cons.inj hrest).2]

theorem tail_clause (h : Requested d texts) : Tail (Text.split ' ' ((clause d texts).chars ++ [')'])) := by
  have hspelled := h.spelled
  match texts, h.ne_nil with
  | [text], _ =>
    have htext := hspelled text (by simp)
    have hspace : ' ' ∉ text.toList ++ [')'] := by simp [htext.space]
    rw [chars_clause_one, Text.split_of_not_mem hspace]
    exact .one htext
  | text :: other :: texts, hne =>
    obtain ⟨between, last, hbetween, hlast, heq⟩ := joined_several [')', ')'] hspelled
    have hsplit : Text.split ' ' (charsJoined conjunction ((text :: other :: texts).map (leaf d)) ++ [')', ')']) = _ :=
      split_leaves hspelled hne (by decide)
    rw [heq, Text.split, List.cons.injEq] at hsplit
    rw [chars_clause_several, List.cons_append, List.append_assoc, List.singleton_append,
      Text.split_cons_ne (by decide), hsplit.1, hsplit.2]
    exact .several rfl (List.forall_mem_append.mpr ⟨hbetween, by simp [Opens]⟩) hlast

/-- Different lists of permissions are written in different ways. -/
theorem clause_inj (h : Requested d texts) (h' : Requested d others) (heq : (clause d texts).chars = (clause d others).chars) :
    texts = others := by
  match texts, others, h.ne_nil, h'.ne_nil with
  | [text], [other], _, _ =>
    replace heq : text.toList = other.toList := heq
    rw [String.toList_inj.mp heq]
  | [text], _ :: _ :: _, _, _ =>
    rw [chars_clause_several] at heq
    exact absurd heq (ne_bracket_cons (h.spelled text (by simp)) _)
  | _ :: _ :: _, [other], _, _ =>
    rw [chars_clause_several] at heq
    exact absurd heq.symm (ne_bracket_cons (h'.spelled other (by simp)) _)
  | text :: second :: texts, other :: third :: others, hne, hne' =>
    rw [chars_clause_several, chars_clause_several] at heq
    have hwords := congrArg (Text.split ' ') (List.cons.inj heq).2
    rw [split_leaves h.spelled hne (by decide), split_leaves h'.spelled hne' (by decide)] at hwords
    exact joined_inj hwords

/-! ## Between the brackets -/

/-- What stands in front of the last part of a rule in brackets. -/
inductive Joint where
  | or
  | butNot
  | and
  deriving DecidableEq, Repr

def Joint.words : Joint → List (List Char)
  | or => [['O', 'R']]
  | butNot => [['A', 'N', 'D'], ['N', 'O', 'T']]
  | and => [['A', 'N', 'D']]

/-- The last word tells the joint. -/
theorem Joint.split {before before' : List (List Char)} {joint joint' : Joint}
    (h : before ++ joint.words = before' ++ joint'.words) : before = before' ∧ joint = joint' := by
  have hlast := congrArg List.getLast? h
  have hjoint : joint = joint' := by
    cases joint <;> cases joint' <;> first | rfl | simp [words] at hlast
  subst hjoint
  exact ⟨List.append_cancel_right h, rfl⟩

/-- The words between the outer brackets of a rule: what stands first, the joint, and the last part. -/
structure Inside (cs : List Char) (before : List (List Char)) (joint : Joint) (tail : List (List Char)) : Prop where
  words : ∃ inner, cs = '(' :: inner ∧ Text.split ' ' inner = before ++ joint.words ++ tail
  tail : Tail tail

theorem Inside.unique {cs : List Char} {before before' tail tail' : List (List Char)} {joint joint' : Joint}
    (h : Inside cs before joint tail) (h' : Inside cs before' joint' tail') :
    before = before' ∧ joint = joint' ∧ tail = tail' := by
  obtain ⟨inner, rfl, hwords⟩ := h.words
  obtain ⟨inner', hinner, hwords'⟩ := h'.words
  obtain ⟨-, rfl⟩ := List.cons.inj hinner
  obtain ⟨hfront, htail⟩ := h.tail.split h'.tail (hwords.symm.trans hwords')
  obtain ⟨hbefore, hjoint⟩ := Joint.split hfront
  exact ⟨hbefore, hjoint, htail⟩

/-- A clause has brackets if it is of several permissions, and then the last of them is joined with `AND`. -/
theorem inside_clause {before tail : List (List Char)} {joint : Joint} (h : Requested d texts)
    (hinside : Inside (clause d texts).chars before joint tail) : joint = .and := by
  match texts, h.ne_nil with
  | [text], _ =>
    obtain ⟨inner, hinner, -⟩ := hinside.words
    exact absurd hinner (ne_bracket_cons (h.spelled text (by simp)) inner)
  | text :: other :: texts, hne =>
    obtain ⟨between, last, -, hlast, heq⟩ := joined_several [')'] h.spelled
    have hjoined : Inside (clause d (text :: other :: texts)).chars (text.toList :: between) .and [last ++ [')']] := by
      refine ⟨⟨_, chars_clause_several d text other texts, ?_⟩, .one hlast⟩
      rw [split_leaves h.spelled hne (by decide), heq]
      rfl
    exact (hinside.unique hjoined).2.1

/-! ## Rules that are extended -/

/-- The rules of permissions that a route can have, for admins only or not. -/
inductive Chain (d : Delimiters) : Bool → Rule → Prop
  | admin : Chain d true .admin
  | clause {texts : List String} : Requested d texts → Chain d false (clause d texts)
  | extend {adminOnly : Bool} {r : Rule} {texts : List String} (e : Route.Extension) : Chain d adminOnly r →
      Requested d texts → Chain d adminOnly (e.around r (clause d texts))

end Rule

/-- What an extension puts between the rule before it and what it is made with. -/
def Route.Extension.joint : Extension → Rule.Joint
  | .or _ => .or
  | .butNot _ => .butNot

namespace Rule

open Route

variable {r r' : Rule} {adminOnly : Bool}

theorem around_of_joint {e e' : Extension} (h : e.joint = e'.joint) : e.around = e'.around := by
  cases e <;> cases e' <;> first | rfl | cases h

theorem joint_ne_and (e : Extension) : e.joint ≠ .and := by
  cases e <;> exact nofun

theorem inside_around (e : Extension) (r : Rule) (h : Requested d texts) :
    Inside (e.around r (clause d texts)).chars (Text.split ' ' r.chars) e.joint
      (Text.split ' ' ((clause d texts).chars ++ [')'])) := by
  refine ⟨?_, tail_clause h⟩
  have hor : ' ' ∉ ['O', 'R'] := by decide
  have hand : ' ' ∉ ['A', 'N', 'D'] := by decide
  have hnot : ' ' ∉ ['N', 'O', 'T'] := by decide
  cases e with
  | or _ =>
    have hchars : (r.or (clause d texts)).chars =
        '(' :: (r.chars ++ ' ' :: (['O', 'R'] ++ ' ' :: ((clause d texts).chars ++ [')']))) := by
      simp [Rule.or, chars, charsJoined]
    refine ⟨_, hchars, ?_⟩
    rw [Text.split_append, Text.split_append_sep hor, List.append_assoc]
    rfl
  | butNot _ =>
    have hchars : (r.butNot (clause d texts)).chars = '(' :: (r.chars ++ ' ' :: (['A', 'N', 'D'] ++ ' ' ::
        (['N', 'O', 'T'] ++ ' ' :: ((clause d texts).chars ++ [')'])))) := by
      simp [butNot, chars, charsJoined]
    refine ⟨_, hchars, ?_⟩
    rw [Text.split_append, Text.split_append_sep hand, Text.split_append_sep hnot, List.append_assoc]
    rfl

theorem chars_admin_ne_around (e : Extension) (r s : Rule) : chars .admin ≠ (e.around r s).chars := by
  cases e <;> simp [Extension.around, Rule.or, butNot, chars]

theorem chars_clause_ne_around (h : Requested d texts) (h' : Requested d others) (e : Extension) (r : Rule) :
    (clause d texts).chars ≠ (e.around r (clause d others)).chars := by
  intro heq
  have hinside := inside_around e r h'
  rw [← heq] at hinside
  exact joint_ne_and e (inside_clause h hinside)

/-- Of two rules with the same text, both or none for admins only, the last extension is the same and
    so is what stood before it. -/
theorem Chain.text_inj (h : Chain d adminOnly r) (h' : Chain d adminOnly r') (heq : r.chars = r'.chars) : r = r' := by
  induction h generalizing r' with
  | admin =>
    cases h' with
    | admin => rfl
    | extend e _ _ => exact absurd heq (chars_admin_ne_around e _ _)
  | clause htexts =>
    cases h' with
    | clause hothers => rw [clause_inj htexts hothers heq]
    | extend e _ hothers => exact absurd heq (chars_clause_ne_around htexts hothers e _)
  | @extend _ before _ e _ htexts ih =>
    cases h' with
    | admin => exact absurd heq.symm (chars_admin_ne_around e _ _)
    | clause hothers => exact absurd heq.symm (chars_clause_ne_around hothers htexts e _)
    | @extend _ before' _ e' hr' hothers =>
      have hinside := inside_around e' before' hothers
      rw [← heq] at hinside
      obtain ⟨hbefore, hjoint, htail⟩ := (inside_around e before htexts).unique hinside
      have hclause := List.append_cancel_right (Text.split_inj htail)
      rw [ih hr' (Text.split_inj hbefore), clause_inj htexts hothers hclause, around_of_joint hjoint]

end Rule

/-! ## The rules of routes -/

namespace Route

variable {policy : Policy} {args args' : List Argument} {extensions extensions' : List Extension} {r r' : Route}

open Rule

theorem exists_texts (h : ∀ arg ∈ args, arg.IsPermission) : ∃ texts : List String, args = texts.map .permission := by
  induction args with
  | nil => exact ⟨[], rfl⟩
  | cons arg args ih =>
    obtain ⟨⟨text, rfl⟩, hrest⟩ := List.forall_mem_cons.mp h
    obtain ⟨texts, rfl⟩ := ih hrest
    exact ⟨text :: texts, rfl⟩

theorem kept_sublist (args : List Argument) : (Argument.kept args).Sublist args := by
  have hkept : (Argument.kept args).Sublist (args.zipIdx.map (·.1)) := List.filter_sublist.map _
  rwa [List.zipIdx_map_fst] at hkept

/-- Arguments that are permissions make a clause, of the texts that are kept. -/
theorem clause_ofArguments? {d : Delimiters} (hargs : ∀ arg ∈ args, arg.IsPermission) {rule : Rule}
    (h : ofArguments? d args = .ok rule) : ∃ texts, Requested d texts ∧ rule = clause d texts := by
  obtain ⟨rs, hrs, rfl⟩ := map_ok h
  have hne := Delimiters.requirements?_ne_nil hrs
  obtain ⟨-, hvalid, rfl⟩ := Delimiters.requirements?_eq_ok_iff.mp hrs
  have hkept := (kept_sublist args).subset
  obtain ⟨texts, htexts⟩ := exists_texts fun arg harg => hargs arg (hkept harg)
  rw [htexts] at hne hkept ⊢
  refine ⟨texts, ⟨?_, fun text hmem => hvalid text (hkept (List.mem_map_of_mem hmem))⟩, ?_⟩
  · rintro rfl
    exact hne rfl
  · rw [List.map_map]
    rfl

theorem chain_declare? (hargs : ∀ arg ∈ args, arg.IsPermission) (h : declare? policy args = .ok r) :
    Chain policy.delimiters r.adminOnly r.rule := by
  unfold declare? at h
  split at h
  · cases h
    exact .admin
  · obtain ⟨rule, hrule, rfl⟩ := map_ok h
    obtain ⟨texts, htexts, rfl⟩ := clause_ofArguments? hargs hrule
    exact .clause htexts

theorem chain_extendAll (more : List Extension) (hmore : ∀ e ∈ more, ∀ arg ∈ e.args, arg.IsPermission)
    (hr : Chain r.policy.delimiters r.adminOnly r.rule) (h : more.foldlM extend? r = .ok r') :
    Chain r'.policy.delimiters r'.adminOnly r'.rule := by
  induction more generalizing r with
  | nil => cases h; exact hr
  | cons e more ih =>
    obtain ⟨he, hrest⟩ := List.forall_mem_cons.mp hmore
    rw [List.foldlM_cons] at h
    obtain ⟨s, hs, h⟩ := bind_ok h
    rw [extend?_eq] at hs
    obtain ⟨made, hmade, rfl⟩ := map_ok hs
    obtain ⟨texts, htexts, rfl⟩ := clause_ofArguments? he hmade
    exact ih hrest (.extend e hr htexts) h

theorem chain_build? (hargs : ∀ arg ∈ args, arg.IsPermission)
    (hextensions : ∀ e ∈ extensions, ∀ arg ∈ e.args, arg.IsPermission) (h : build? policy args extensions = .ok r) :
    Chain policy.delimiters r.adminOnly r.rule := by
  have hpolicy : r.policy = policy := (built_as h).policy_eq
  obtain ⟨s, hs, h⟩ := bind_ok h
  have hstart := chain_declare? hargs hs
  rw [← (declared_as hs).policy_eq] at hstart
  have hchain := chain_extendAll extensions hextensions hstart h
  rwa [hpolicy] at hchain

/-- Two routes of a guard that are declared and extended with permissions alone have the same rule if
    their rules have the same text and both or none of them is for admins only. -/
theorem told_by_text (hr : build? policy args extensions = .ok r) (hr' : build? policy args' extensions' = .ok r')
    (hargs : ∀ arg ∈ args, arg.IsPermission) (hargs' : ∀ arg ∈ args', arg.IsPermission)
    (hextensions : ∀ e ∈ extensions, ∀ arg ∈ e.args, arg.IsPermission)
    (hextensions' : ∀ e ∈ extensions', ∀ arg ∈ e.args, arg.IsPermission) (htext : r.rule.text = r'.rule.text)
    (hadmin : r.adminOnly = r'.adminOnly) : r.rule = r'.rule := by
  have hchain := chain_build? hargs hextensions hr
  rw [hadmin] at hchain
  exact hchain.text_inj (chain_build? hargs' hextensions' hr') (String.ofList_inj.mp htext)

/-- With brackets for the scope delimiter and operators for names. A permission given twice is written
    once. The permission `ADMIN` is written like the rule for admins, and only the flag tells them apart. -/
theorem told_by_text_of_operators :
    ∃ policy r r' named admins, Policy.of? { adminKey := some (.dotted "admin"), claimScopeDelimiter := some ")" } =
        .ok policy ∧
      build? policy [.permission "NOT)OR", .permission "AND"] [.butNot [.permission "ADMIN", .permission "NOT"]] =
        .ok r ∧
      build? policy [.permission "NOT)OR", .permission "AND", .permission "AND"]
        [.butNot [.permission "ADMIN", .permission "NOT", .permission "ADMIN"]] = .ok r' ∧
      r.rule.text = "((NOT)OR AND AND) AND NOT (ADMIN AND NOT))" ∧ r.rule = r'.rule ∧
      build? policy [.permission "ADMIN"] [] = .ok named ∧ build? policy [] [] = .ok admins ∧
      named.rule.text = admins.rule.text ∧ named.rule ≠ admins.rule := by
  have hrun : ∃ policy r r' named admins,
      Policy.of? { adminKey := some (.dotted "admin"), claimScopeDelimiter := some ")" } = .ok policy ∧
      build? policy [.permission "NOT)OR", .permission "AND"] [.butNot [.permission "ADMIN", .permission "NOT"]] =
        .ok r ∧
      build? policy [.permission "NOT)OR", .permission "AND", .permission "AND"]
        [.butNot [.permission "ADMIN", .permission "NOT", .permission "ADMIN"]] = .ok r' ∧
      r.rule.text = "((NOT)OR AND AND) AND NOT (ADMIN AND NOT))" ∧ r.rule.text = r'.rule.text ∧
      r.adminOnly = r'.adminOnly ∧
      build? policy [.permission "ADMIN"] [] = .ok named ∧ build? policy [] [] = .ok admins ∧
      named.rule.text = admins.rule.text ∧ named.rule = .permission (.ofText ')' "ADMIN") ∧ admins.rule = .admin :=
    ⟨_, _, _, _, _, rfl, rfl, rfl, rfl, rfl, rfl, rfl, rfl, rfl, rfl, rfl⟩
  obtain ⟨policy, r, r', named, admins, hpolicy, hr, hr', htext, hsame, hflag, hnamed, hadmins, hadmin, hname, hrule⟩ :=
    hrun
  refine ⟨policy, r, r', named, admins, hpolicy, hr, hr', htext, ?_, hnamed, hadmins, hadmin, ?_⟩
  · exact told_by_text hr hr' (by simp [Argument.IsPermission]) (by simp [Argument.IsPermission])
      (by simp [Extension.args, Argument.IsPermission]) (by simp [Extension.args, Argument.IsPermission]) hsame hflag
  · intro h
    rw [hname, hrule] at h
    cases h

end Route

end Warden
