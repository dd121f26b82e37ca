/-
  Warden.Proofs.Rule.Occurrence — the predicates of a rule, and those an evaluation calls.

  A predicate may occur in a rule more than once. An occurrence is told by its place, the
  indices of the children on the way down to it, and no two have the same
  (`occurrences_nodup`). `occurrences` lists them from left to right; `called` lists those
  that an evaluation comes to, in a node those of its children up to the one that ends the
  sweep.

  - `calls_eq`: the calls an evaluation records are those of the occurrences it comes to.
  - `called_sublist`: it comes to each occurrence at most once, from left to right.
-/

import Warden.Proofs.Rule.Sweep

namespace Warden.Rule

abbrev Place := List Nat

structure Occurrence where
  place : Place
  predicate : Predicate

namespace Occurrence

/-- The occurrence as it is placed in a node whose child at this index has it. -/
def below (index : Nat) (o : Occurrence) : Occurrence := ⟨index :: o.place, o.predicate⟩

/-- What the occurrence answers. -/
def verdict (ctx : Context) (o : Occurrence) : Verdict := o.predicate.check ctx.grants ctx.view

def call (ctx : Context) (o : Occurrence) : Call := ⟨o.predicate, ctx.grants, ctx.view, o.verdict ctx⟩

end Occurrence

mutual

/-- The occurrences of predicates, from left to right. -/
def occurrences : Rule → List Occurrence
  | .permission _ | .admin => []
  | .predicate p => [⟨[], p⟩]
  | .all children | .any children => occurrencesFrom 0 children
  | .not child => (occurrences child).map (·.below 0)

/-- The same in the children of a node, the first of which has the given index. -/
def occurrencesFrom (index : Nat) : List Rule → List Occurrence
  | [] => []
  | child :: children => (occurrences child).map (·.below index) ++ occurrencesFrom (index + 1) children

end

mutual

/-- The occurrences that an evaluation comes to, in the order of its calls. -/
def called (ctx : Context) : Rule → List Occurrence
  | .permission _ | .admin => []
  | .predicate p => [⟨[], p⟩]
  | .all children => calledWhile ctx true 0 children
  | .any children => calledWhile ctx false 0 children
  | .not child => (called ctx child).map (·.below 0)

/-- The same in children that are evaluated as long as each comes out as `go`. -/
def calledWhile (ctx : Context) (go : Bool) (index : Nat) : List Rule → List Occurrence
  | [] => []
  | child :: children =>
    (called ctx child).map (·.below index) ++
      if (eval ctx child).result.toOption = some go then calledWhile ctx go (index + 1) children else []

end

@[simp] theorem occurrences_group (go : Bool) (children : List Rule) :
    occurrences (group go children) = occurrencesFrom 0 children := by
  cases go <;> rw [group, occurrences]

@[simp] theorem called_group (ctx : Context) (go : Bool) (children : List Rule) :
    called ctx (group go children) = calledWhile ctx go 0 children := by
  cases go <;> rw [group, called]

variable {ctx : Context} {go : Bool} {child : Rule}

theorem calledWhile_go (h : (eval ctx child).result = .ok go) (index : Nat) (children : List Rule) :
    calledWhile ctx go index (child :: children) =
      (called ctx child).map (·.below index) ++ calledWhile ctx go (index + 1) children := by
  rw [calledWhile, h, Except.toOption, if_pos rfl]

theorem calledWhile_end (h : (eval ctx child).result ≠ .ok go) (index : Nat) (children : List Rule) :
    calledWhile ctx go index (child :: children) = (called ctx child).map (·.below index) := by
  have hne : (eval ctx child).result.toOption ≠ some go := by
    intro e
    cases hr : (eval ctx child).result with
    | error d =>
      rw [hr] at e
      cases e
    | ok b =>
      rw [hr] at h e
      exact h (congrArg Except.ok (Option.some.inj e))
  rw [calledWhile, if_neg hne, List.append_nil]

/-! ## The recorded calls -/

theorem map_call_below (index : Nat) (os : List Occurrence) :
    (os.map (·.below index)).map (·.call ctx) = os.map (·.call ctx) := by
  rw [List.map_map]; rfl

theorem calls_sweep (children : List Rule)
    (ih : ∀ child ∈ children, (eval ctx child).calls = (called ctx child).map (·.call ctx)) (index : Nat) :
    (sweep ctx go children).calls = (calledWhile ctx go index children).map (·.call ctx) := by
  induction children generalizing index with
  | nil => rw [sweep_nil, calledWhile]; rfl
  | cons child children ihs =>
    have hchild := ih child (by simp)
    by_cases h : (eval ctx child).result = .ok go
    · have hrest := ihs (fun c hc => ih c (by simp [hc])) (index + 1)
      rw [sweep_cons_go h, calledWhile_go h, List.map_append, map_call_below, hchild, hrest]
    · rw [sweep_cons_end h, calledWhile_end h, map_call_below, hchild]

theorem calls_eq (ctx : Context) (r : Rule) : (eval ctx r).calls = (called ctx r).map (·.call ctx) := by
  induction r using groupInduction with
  | permission p => rw [eval_permission, called]; rfl
  | predicate p => rw [eval_predicate, called]; rfl
  | group go children ih => rw [eval_group, called_group]; exact calls_sweep children ih 0
  | not child ih => rw [eval_not, called, map_call_below]; exact ih
  | admin => rw [eval_admin, called]; rfl

/-! ## At most once, from left to right -/

theorem calledWhile_sublist (children : List Rule)
    (ih : ∀ child ∈ children, (called ctx child).Sublist (occurrences child)) (index : Nat) :
    (calledWhile ctx go index children).Sublist (occurrencesFrom index children) := by
  induction children generalizing index with
  | nil => unfold calledWhile occurrencesFrom; exact List.Sublist.refl _
  | cons child children ihs =>
    have hchild := (ih child (by simp)).map (·.below index)
    rw [occurrencesFrom]
    by_cases h : (eval ctx child).result = .ok go
    · rw [calledWhile_go h]
      exact hchild.append (ihs (fun c hc => ih c (by simp [hc])) (index + 1))
    · rw [calledWhile_end h]
      exact List.sublist_append_of_sublist_left hchild

theorem called_sublist (ctx : Context) (r : Rule) : (called ctx r).Sublist (occurrences r) := by
  induction r using groupInduction with
  | permission p => unfold called occurrences; exact List.Sublist.refl _
  | predicate p => unfold called occurrences; exact List.Sublist.refl _
  | group go children ih => rw [called_group, occurrences_group]; exact calledWhile_sublist children ih 0
  | not child ih => rw [called, occurrences]; exact ih.map _
  | admin => unfold called occurrences; exact List.Sublist.refl _

/-! ## Places -/

theorem place_of_mem_occurrencesFrom {children : List Rule} {index : Nat} {o : Occurrence}
    (h : o ∈ occurrencesFrom index children) : ∃ i rest, index ≤ i ∧ o.place = i :: rest := by
  induction children generalizing index with
  | nil => rw [occurrencesFrom] at h; cases h
  | cons child children ih =>
    rw [occurrencesFrom] at h
    rcases List.mem_append.mp h with h | h
    · obtain ⟨inner, -, rfl⟩ := List.mem_map.mp h
      exact ⟨index, inner.place, Nat.le_refl _, rfl⟩
    · obtain ⟨i, rest, hi, hp⟩ := ih h
      exact ⟨i, rest, by omega, hp⟩

theorem nodup_below {os : List Occurrence} (h : (os.map (·.place)).Nodup) (index : Nat) :
    ((os.map (·.below index)).map (·.place)).Nodup := by
  have hm : (os.map (·.below index)).map (·.place) = (os.map (·.place)).map (index :: ·) := by
    rw [List.map_map, List.map_map]; rfl
  rw [hm]
  exact List.Pairwise.map _ (fun a b hab e => hab (List.cons.inj e).2) h

theorem occurrencesFrom_nodup (children : List Rule)
    (ih : ∀ child ∈ children, ((occurrences child).map (·.place)).Nodup) (index : Nat) :
    ((occurrencesFrom index children).map (·.place)).Nodup := by
  induction children generalizing index with
  | nil => rw [occurrencesFrom]; exact List.nodup_nil
  | cons child children ihs =>
    rw [occurrencesFrom, List.map_append, List.nodup_append]
    refine ⟨nodup_below (ih child (by simp)) index, ihs (fun c hc => ih c (by simp [hc])) (index + 1), ?_⟩
    intro p hp q hq
    obtain ⟨o, ho, rfl⟩ := List.mem_map.mp hp
    obtain ⟨inner, -, rfl⟩ := List.mem_map.mp ho
    obtain ⟨o', ho', rfl⟩ := List.mem_map.mp hq
    obtain ⟨i, rest, hi, hplace⟩ := place_of_mem_occurrencesFrom ho'
    rw [hplace]
    intro e
    have := (List.cons.inj e).1
    omega

theorem occurrences_nodup (r : Rule) : ((occurrences r).map (·.place)).Nodup := by
  induction r using groupInduction with
  | permission p => rw [occurrences]; exact List.nodup_nil
  | predicate p => rw [occurrences]; simp
  | group go children ih => rw [occurrences_group]; exact occurrencesFrom_nodup children ih 0
  | not child ih => rw [occurrences]; exact nodup_below ih 0
  | admin => rw [occurrences]; exact List.nodup_nil

end Warden.Rule
