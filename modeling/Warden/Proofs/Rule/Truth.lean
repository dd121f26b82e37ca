/-
  Warden.Proofs.Rule.Truth — what the result of a rule says of its truth.

  Classically a rule is true or false once each occurrence of a predicate in it is given a
  truth value (`truth`): an `all` is true if every child is, an `any` if some child is. An
  evaluation leaves occurrences uncalled, and its result is the truth of the rule whatever
  those may be.

  - `truth_eq`: a result that is no denial is the truth of the rule under every assignment
    that agrees with the occurrences called.
  - `eval_ok`: without an occurrence that would deny there is such a result.
  - `eval_rearranged`: and then the order of children does not matter, at any depth.
-/

import Warden.Predicate.Stock
import Warden.Proofs.Rule.Occurrence

namespace Warden.Rule

mutual

/-- The truth of a rule, with a truth value for each place of a predicate. -/
def truth (ctx : Context) (assignment : Place → Bool) : Rule → Bool
  | .permission p => ctx.grants.contains p
  | .predicate _ => assignment []
  | .all children => (truths ctx assignment 0 children).all id
  | .any children => (truths ctx assignment 0 children).any id
  | .not child => !truth ctx (fun place => assignment (0 :: place)) child
  | .admin => ctx.view.isAdmin

/-- The same for the children of a node, the first of which has the given index. -/
def truths (ctx : Context) (assignment : Place → Bool) (index : Nat) : List Rule → List Bool
  | [] => []
  | child :: children =>
    truth ctx (fun place => assignment (index :: place)) child :: truths ctx assignment (index + 1) children

end

/-- What the children of a `group` come to: every one for an `all`, some for an `any`. -/
def gathered : Bool → List Bool → Bool
  | true, bs => bs.all id
  | false, bs => bs.any id

@[simp] theorem truth_group (ctx : Context) (assignment : Place → Bool) (go : Bool) (children : List Rule) :
    truth ctx assignment (group go children) = gathered go (truths ctx assignment 0 children) := by
  cases go <;> rw [group, truth, gathered]

theorem gathered_nil (go : Bool) : gathered go [] = go := by cases go <;> rfl

theorem gathered_go (go : Bool) (bs : List Bool) : gathered go (go :: bs) = gathered go bs := by cases go <;> rfl

theorem gathered_stop (go : Bool) (bs : List Bool) : gathered go ((!go) :: bs) = !go := by cases go <;> rfl

theorem gathered_perm (go : Bool) {bs cs : List Bool} (h : bs.Perm cs) : gathered go bs = gathered go cs := by
  cases go
  · exact h.any_eq
  · exact h.all_eq

variable {ctx : Context} {go : Bool}

/-! ## The result is the truth -/

/-- The occurrences answer what the assignment says. -/
def Matches (ctx : Context) (assignment : Place → Bool) (os : List Occurrence) : Prop :=
  ∀ o ∈ os, o.verdict ctx = .ok (assignment o.place)

theorem matches_below {assignment : Place → Bool} {index : Nat} {os : List Occurrence}
    (h : Matches ctx assignment (os.map (·.below index))) : Matches ctx (fun place => assignment (index :: place)) os :=
  fun o ho => h (o.below index) (List.mem_map_of_mem ho)

/-- What is to be shown of a rule, for the induction. -/
def Sound (ctx : Context) (r : Rule) : Prop :=
  ∀ assignment b, (eval ctx r).result = .ok b → Matches ctx assignment (called ctx r) → truth ctx assignment r = b

theorem sound_sweep (children : List Rule) (ih : ∀ child ∈ children, Sound ctx child) (index : Nat)
    (assignment : Place → Bool) {b : Bool} (hb : (sweep ctx go children).result = .ok b)
    (ha : Matches ctx assignment (calledWhile ctx go index children)) :
    gathered go (truths ctx assignment index children) = b := by
  induction children generalizing index with
  | nil =>
    rw [sweep_nil] at hb
    cases hb
    rw [truths, gathered_nil]
  | cons child children ihs =>
    have hchild := ih child (by simp) fun place => assignment (index :: place)
    rw [truths]
    by_cases h : (eval ctx child).result = .ok go
    · rw [calledWhile_go h] at ha
      rw [sweep_cons_go h] at hb
      rw [hchild go h (matches_below fun o ho => ha o (List.mem_append_left _ ho)), gathered_go]
      exact ihs (fun c hc => ih c (by simp [hc])) (index + 1) hb fun o ho => ha o (List.mem_append_right _ ho)
    · rw [calledWhile_end h] at ha
      rw [sweep_cons_end h] at hb
      have hne : b ≠ go := fun e => h (by rw [hb, e])
      rw [hchild b hb (matches_below ha), Bool.eq_not_of_ne hne, gathered_stop]

theorem sound (ctx : Context) (r : Rule) : Sound ctx r := by
  induction r using groupInduction with
  | permission p =>
    intro assignment b hb _
    rw [eval_permission] at hb
    cases hb
    rw [truth]
  | predicate p =>
    intro assignment b hb ha
    rw [called] at ha
    have hv := ha ⟨[], p⟩ (List.mem_singleton.mpr rfl)
    rw [eval_predicate] at hb
    have he : Except.ok (assignment []) = Except.ok b := hv.symm.trans hb
    cases he
    rw [truth]
  | group go children ih =>
    intro assignment b hb ha
    rw [eval_group] at hb
    rw [called_group] at ha
    rw [truth_group]
    exact sound_sweep children ih 0 assignment hb ha
  | not child ih =>
    intro assignment b hb ha
    rw [called] at ha
    rw [eval_not] at hb
    obtain ⟨b', hb', rfl⟩ := map_ok hb
    rw [truth, ih _ b' hb' (matches_below ha)]
  | admin =>
    intro assignment b hb _
    rw [eval_admin] at hb
    cases hb
    rw [truth]

/-- A result that is no denial is the truth of the rule, whatever the occurrences that were not called stand for. -/
theorem truth_eq {r : Rule} {b : Bool} (h : (eval ctx r).result = .ok b) {assignment : Place → Bool}
    (ha : Matches ctx assignment (called ctx r)) : truth ctx assignment r = b :=
  sound ctx r assignment b h ha

/-! ## Without denials -/

/-- No occurrence in the rule would deny. -/
def Undenied (ctx : Context) (r : Rule) : Prop := ∀ o ∈ occurrences r, ∃ b, o.verdict ctx = .ok b

theorem forall_below {index : Nat} {os : List Occurrence} :
    (∀ o ∈ os.map (·.below index), ∃ b, o.verdict ctx = .ok b) ↔ ∀ o ∈ os, ∃ b, o.verdict ctx = .ok b := by
  constructor
  · intro h o ho
    exact h (o.below index) (List.mem_map_of_mem ho)
  · intro h o ho
    obtain ⟨inner, hi, rfl⟩ := List.mem_map.mp ho
    exact h inner hi

theorem undenied_from (children : List Rule) (index : Nat) :
    (∀ o ∈ occurrencesFrom index children, ∃ b, o.verdict ctx = .ok b) ↔ ∀ child ∈ children, Undenied ctx child := by
  induction children generalizing index with
  | nil => rw [occurrencesFrom]; simp
  | cons child children ih =>
    rw [occurrencesFrom, List.forall_mem_append, forall_below, ih, List.forall_mem_cons]
    rfl

theorem undenied_group (children : List Rule) :
    Undenied ctx (group go children) ↔ ∀ child ∈ children, Undenied ctx child := by
  unfold Undenied
  rw [occurrences_group]
  exact undenied_from children 0

theorem undenied_not (child : Rule) : Undenied ctx (.not child) ↔ Undenied ctx child := by
  unfold Undenied
  rw [occurrences]
  exact forall_below

/-- The result of a rule that does not deny. -/
def value (ctx : Context) (r : Rule) : Bool := (eval ctx r).result.toOption.getD false

theorem value_of_ok {r : Rule} {b : Bool} (h : (eval ctx r).result = .ok b) : value ctx r = b := by
  rw [value, h]; rfl

theorem sweep_ok (children : List Rule) (h : ∀ child ∈ children, (eval ctx child).result = .ok (value ctx child)) :
    (sweep ctx go children).result = .ok (gathered go (children.map (value ctx))) := by
  induction children with
  | nil => rw [sweep_nil, List.map_nil, gathered_nil]; rfl
  | cons child children ih =>
    have hrest := ih fun c hc => h c (by simp [hc])
    have hchild := h child (by simp)
    rw [List.map_cons]
    by_cases hv : value ctx child = go
    · rw [hv] at hchild
      rw [sweep_cons_go hchild, hv, gathered_go]
      exact hrest
    · have hend : (eval ctx child).result ≠ .ok go := fun e => hv (value_of_ok e)
      rw [sweep_cons_end hend, hchild, Bool.eq_not_of_ne hv, gathered_stop]

theorem eval_ok {r : Rule} (h : Undenied ctx r) : (eval ctx r).result = .ok (value ctx r) := by
  suffices hb : ∃ b, (eval ctx r).result = .ok b by
    obtain ⟨b, hb⟩ := hb
    rw [hb, value_of_ok hb]
  induction r using groupInduction with
  | permission p => exact ⟨_, by rw [eval_permission]; rfl⟩
  | predicate p =>
    rw [Undenied, occurrences] at h
    have hp : ∃ b, (⟨[], p⟩ : Occurrence).verdict ctx = .ok b := h _ (List.mem_singleton.mpr rfl)
    rw [eval_predicate]
    exact hp
  | group go children ih =>
    rw [undenied_group] at h
    have hchildren : ∀ child ∈ children, (eval ctx child).result = .ok (value ctx child) := by
      intro child hc
      obtain ⟨b, hb⟩ := ih child hc (h child hc)
      rw [hb, value_of_ok hb]
    rw [eval_group]
    exact ⟨_, sweep_ok children hchildren⟩
  | not child ih =>
    obtain ⟨b, hb⟩ := ih ((undenied_not child).mp h)
    rw [eval_not, Audited.negated, Audited.result_map, hb]
    exact ⟨!b, rfl⟩
  | admin => exact ⟨_, by rw [eval_admin]; rfl⟩

/-! ## The order of children -/

/-- The rules differ in the order of the children of their nodes, at any depth. -/
inductive Rearranged : Rule → Rule → Prop
  | refl (r : Rule) : Rearranged r r
  | trans {r s t : Rule} : Rearranged r s → Rearranged s t → Rearranged r t
  | perm (go : Bool) {children others : List Rule} : children.Perm others →
      Rearranged (group go children) (group go others)
  | child (go : Bool) (before after : List Rule) {c d : Rule} : Rearranged c d →
      Rearranged (group go (before ++ c :: after)) (group go (before ++ d :: after))
  | not {c d : Rule} : Rearranged c d → Rearranged (.not c) (.not d)

theorem undenied_middle {before after : List Rule} {c : Rule} :
    Undenied ctx (group go (before ++ c :: after)) ↔
      (∀ r ∈ before, Undenied ctx r) ∧ Undenied ctx c ∧ ∀ r ∈ after, Undenied ctx r := by
  rw [undenied_group, List.forall_mem_append, List.forall_mem_cons]

theorem undenied_rearranged {r s : Rule} (h : Rearranged r s) (hr : Undenied ctx r) : Undenied ctx s := by
  induction h with
  | refl => exact hr
  | trans _ _ ih ih' => exact ih' (ih hr)
  | perm go hp =>
    rw [undenied_group] at hr ⊢
    exact fun child hc => hr child (hp.mem_iff.mpr hc)
  | child go before after _ ih =>
    obtain ⟨hb, hc, ha⟩ := undenied_middle.mp hr
    exact undenied_middle.mpr ⟨hb, ih hc, ha⟩
  | not _ ih => rw [undenied_not] at hr ⊢; exact ih hr

theorem eval_group_ok {children : List Rule} (h : Undenied ctx (group go children)) :
    (eval ctx (group go children)).result = .ok (gathered go (children.map (value ctx))) := by
  rw [eval_group]
  exact sweep_ok children fun child hc => eval_ok ((undenied_group children).mp h child hc)

theorem eval_rearranged {r s : Rule} (h : Rearranged r s) (hr : Undenied ctx r) :
    (eval ctx s).result = (eval ctx r).result := by
  induction h with
  | refl => rfl
  | trans hrs _ ih ih' => rw [ih' (undenied_rearranged hrs hr), ih hr]
  | perm go hp =>
    rw [eval_group_ok hr, eval_group_ok (undenied_rearranged (.perm go hp) hr)]
    rw [gathered_perm go (hp.map (value ctx))]
  | child go before after hcd ih =>
    rename_i c d
    obtain ⟨-, hc, -⟩ := undenied_middle.mp hr
    have hv : value ctx d = value ctx c := by rw [value, value, ih hc]
    rw [eval_group_ok hr, eval_group_ok (undenied_rearranged (.child go before after hcd) hr), List.map_append,
      List.map_append, List.map_cons, List.map_cons, hv]
  | not _ ih =>
    rw [eval_not, eval_not, Audited.negated, Audited.negated, Audited.result_map, Audited.result_map,
      ih ((undenied_not _).mp hr)]

/-- The occurrences an evaluation comes to are those it calls. A result that is no denial is the
    truth of the rule under every assignment that agrees with them, and there is one if no
    occurrence would deny; then every order of children, at any depth, gives the same. -/
theorem eval_sound (ctx : Context) (r : Rule) :
    (eval ctx r).calls = (called ctx r).map (·.call ctx) ∧
    (∀ b assignment, (eval ctx r).result = .ok b → Matches ctx assignment (called ctx r) →
      truth ctx assignment r = b) ∧
    (Undenied ctx r → (∃ b, (eval ctx r).result = .ok b) ∧
      ∀ s, Rearranged r s → (eval ctx s).result = (eval ctx r).result) := by
  refine ⟨calls_eq ctx r, fun b assignment hb ha => truth_eq hb ha, fun hr => ⟨⟨_, eval_ok hr⟩, fun s hs => ?_⟩⟩
  exact eval_rearranged hs hr

/-- The first conjunct is a permission that a wildcard grants, and the last one is never come to. -/
theorem truth_past_conjunction :
    let pass := Predicate.ofStock "pass" false (.constant true)
    let fail := Predicate.ofStock "fail" false (.constant false)
    let add := Permission.ofText ':' "user:add"
    let ctx : Context := ⟨⟨[.ofText ':' "read", .ofText ':' "user:*"]⟩, ⟨.null, .null, .null, false⟩⟩
    let r := any [.all [.permission add, .predicate fail, .predicate pass], .predicate pass]
    (eval ctx r).result = .ok true ∧ (eval ctx (.permission add)).result = .ok true ∧
      (eval ctx r).calls.map (·.predicate.name) = ["fail", "pass"] ∧
      truth ctx (fun place => place = [1]) r = true ∧
      (eval ctx (.any [.predicate pass, .all [.permission add, .predicate fail, .predicate pass]])).result =
        .ok true := by
  intro pass fail add ctx r
  obtain ⟨hcalls, htruth, hundenied⟩ := eval_sound ctx r
  have ha : Matches ctx (fun place => place = [1]) (called ctx r) :=
    List.forall_mem_cons.mpr ⟨rfl, List.forall_mem_singleton.mpr rfl⟩
  have hu : Undenied ctx r :=
    List.forall_mem_cons.mpr ⟨⟨_, rfl⟩, List.forall_mem_cons.mpr ⟨⟨_, rfl⟩, List.forall_mem_singleton.mpr ⟨_, rfl⟩⟩⟩
  refine ⟨rfl, rfl, ?_, htruth true _ rfl ha, (hundenied hu).2 _ (.perm false (.swap _ _ _))⟩
  rw [hcalls]
  rfl

end Warden.Rule
