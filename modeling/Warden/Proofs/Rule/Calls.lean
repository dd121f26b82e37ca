/-
  Warden.Proofs.Rule.Calls — the discipline of predicate calls.

  The calls of an evaluation are orderly (`Orderly`): every predicate but the last one called
  passed or failed, and if the last one denied then its denial is the result, whatever nodes
  stand around it; no denial comes from elsewhere. What an evaluation does hangs on what the
  called predicates answer and on nothing else: with other predicates in their places that
  answer the same, and any predicates in the places it does not come to, it makes the same
  calls and comes to the same result (`sameRun`).

  - `call_discipline`: all of this about one evaluation, with the calls in terms of the
    occurrences they belong to.
-/

import Warden.Predicate.Stock
import Warden.Proofs.Rule.Occurrence

namespace Warden.Rule

/-! ## Denials -/

/-- The predicate passed or failed. -/
def Answered (c : Call) : Prop := ∃ b, c.verdict = .ok b

/-- Only the last call may be a denial, and a result is a denial exactly if the last call is that one. -/
inductive Orderly : List Call → Verdict → Prop
  | answered {calls : List Call} (b : Bool) : (∀ c ∈ calls, Answered c) → Orderly calls (.ok b)
  | denied {calls : List Call} {last : Call} {d : Denial} : (∀ c ∈ calls, Answered c) → last.verdict = .error d →
      Orderly (calls ++ [last]) (.error d)

theorem Orderly.nil (b : Bool) : Orderly [] (.ok b) := .answered b (fun _ hc => absurd hc List.not_mem_nil)

theorem Orderly.result {calls : List Call} {b : Bool} (h : Orderly calls (.ok b)) (b' : Bool) :
    Orderly calls (.ok b') := by
  cases h with
  | answered _ hc => exact .answered b' hc

theorem Orderly.append {calls more : List Call} {b : Bool} {v : Verdict} (h : Orderly calls (.ok b))
    (hm : Orderly more v) : Orderly (calls ++ more) v := by
  cases h with
  | answered _ hc =>
    have both {rest : List Call} (hr : ∀ c ∈ rest, Answered c) : ∀ c ∈ calls ++ rest, Answered c := by
      intro c hmem
      rcases List.mem_append.mp hmem with hmem | hmem
      · exact hc c hmem
      · exact hr c hmem
    cases hm with
    | answered b' hr => exact .answered b' (both hr)
    | denied hr hd => rw [← List.append_assoc]; exact .denied (both hr) hd

theorem Orderly.answered_of_dropLast {calls : List Call} {v : Verdict} (h : Orderly calls v) :
    ∀ c ∈ calls.dropLast, Answered c := by
  intro c hc
  cases h with
  | answered _ ha => exact ha c ((List.dropLast_sublist _).subset hc)
  | denied ha _ =>
    rw [List.dropLast_concat] at hc
    exact ha c hc

theorem Orderly.denied_iff {calls : List Call} {v : Verdict} (h : Orderly calls v) (d : Denial) :
    v = .error d ↔ ∃ c, calls.getLast? = some c ∧ c.verdict = .error d := by
  cases h with
  | answered b ha =>
    refine ⟨fun h => (nomatch h), fun ⟨c, hlast, hd⟩ => ?_⟩
    obtain ⟨b', hb⟩ := ha c (List.mem_of_getLast? hlast)
    rw [hb] at hd
    cases hd
  | denied ha hd =>
    rw [List.getLast?_concat]
    constructor
    · rintro ⟨⟩
      exact ⟨_, rfl, hd⟩
    · rintro ⟨c, hc, hd'⟩
      cases hc
      rw [← hd, hd']

variable {ctx : Context} {go : Bool}

theorem sweep_orderly (children : List Rule)
    (ih : ∀ child ∈ children, Orderly (eval ctx child).calls (eval ctx child).result) :
    Orderly (sweep ctx go children).calls (sweep ctx go children).result := by
  induction children with
  | nil => rw [sweep_nil]; exact .nil go
  | cons child children ihs =>
    have hchild := ih child (by simp)
    by_cases h : (eval ctx child).result = .ok go
    · rw [sweep_cons_go h]
      rw [h] at hchild
      exact hchild.append (ihs fun c hc => ih c (by simp [hc]))
    · rw [sweep_cons_end h]
      exact hchild

theorem call_orderly (ctx : Context) (p : Predicate) :
    Orderly (p.call ctx.grants ctx.view).calls (p.call ctx.grants ctx.view).result := by
  unfold Predicate.call
  cases hv : p.check ctx.grants ctx.view with
  | ok b => exact .answered b (fun c hc => ⟨b, by rw [List.mem_singleton.mp hc]⟩)
  | error d =>
    show Orderly ([] ++ [_]) (.error d)
    exact .denied (fun _ hc => absurd hc List.not_mem_nil) rfl

theorem eval_orderly (ctx : Context) (r : Rule) : Orderly (eval ctx r).calls (eval ctx r).result := by
  induction r using groupInduction with
  | permission p => rw [eval_permission]; exact .nil _
  | predicate p => rw [eval_predicate]; exact call_orderly ctx p
  | group go children ih => rw [eval_group]; exact sweep_orderly children ih
  | not child ih =>
    rw [eval_not, Audited.negated, Audited.calls_map, Audited.result_map]
    cases hr : (eval ctx child).result with
    | ok b => rw [hr] at ih; exact ih.result (!b)
    | error d => rw [hr] at ih; exact ih
  | admin => rw [eval_admin]; exact .nil _

/-! ## Other predicates in the same places -/

mutual

/-- The rule with the predicates of a family in the places of its own. -/
def withPredicates (family : Place → Predicate) : Rule → Rule
  | .permission p => .permission p
  | .predicate _ => .predicate (family [])
  | .all children => .all (withPredicatesFrom family 0 children)
  | .any children => .any (withPredicatesFrom family 0 children)
  | .not child => .not (withPredicates (fun place => family (0 :: place)) child)
  | .admin => .admin

def withPredicatesFrom (family : Place → Predicate) (index : Nat) : List Rule → List Rule
  | [] => []
  | child :: children =>
    withPredicates (fun place => family (index :: place)) child :: withPredicatesFrom family (index + 1) children

end

@[simp] theorem withPredicates_group (family : Place → Predicate) (children : List Rule) :
    withPredicates family (group go children) = group go (withPredicatesFrom family 0 children) := by
  cases go <;> rw [group, withPredicates, group]

/-- The predicate of the family in the place of an occurrence. -/
def Occurrence.replaced (family : Place → Predicate) (o : Occurrence) : Occurrence := ⟨o.place, family o.place⟩

/-- The predicates of the family answer what the occurrences answer. -/
def Agrees (ctx : Context) (family : Place → Predicate) (os : List Occurrence) : Prop :=
  ∀ o ∈ os, (o.replaced family).verdict ctx = o.verdict ctx

theorem map_replaced_below (family : Place → Predicate) (index : Nat) (os : List Occurrence) :
    (os.map (·.below index)).map (·.replaced family) =
      (os.map (·.replaced fun place => family (index :: place))).map (·.below index) := by
  rw [List.map_map, List.map_map]; rfl

theorem agrees_below {family : Place → Predicate} {index : Nat} {os : List Occurrence}
    (h : Agrees ctx family (os.map (·.below index))) : Agrees ctx (fun place => family (index :: place)) os :=
  fun o ho => h (o.below index) (List.mem_map_of_mem ho)

/-- What is to be shown of a rule, for the induction. -/
def SameRun (ctx : Context) (r : Rule) : Prop :=
  ∀ family, Agrees ctx family (called ctx r) →
    called ctx (withPredicates family r) = (called ctx r).map (·.replaced family) ∧
      (eval ctx (withPredicates family r)).result = (eval ctx r).result

theorem sameRun_sweep (children : List Rule) (ih : ∀ child ∈ children, SameRun ctx child) (index : Nat)
    (family : Place → Predicate) (hf : Agrees ctx family (calledWhile ctx go index children)) :
    calledWhile ctx go index (withPredicatesFrom family index children) =
        (calledWhile ctx go index children).map (·.replaced family) ∧
      (sweep ctx go (withPredicatesFrom family index children)).result = (sweep ctx go children).result := by
  induction children generalizing index with
  | nil => rw [withPredicatesFrom, calledWhile]; exact ⟨rfl, rfl⟩
  | cons child children ihs =>
    rw [withPredicatesFrom]
    have hchild := ih child (by simp) fun place => family (index :: place)
    by_cases h : (eval ctx child).result = .ok go
    · -- the child comes out the same, and so the second run goes on too
      rw [calledWhile_go h] at hf
      obtain ⟨hc, hr⟩ := hchild (agrees_below fun o ho => hf o (List.mem_append_left _ ho))
      obtain ⟨hcs, hrs⟩ :=
        ihs (fun c hc => ih c (by simp [hc])) (index + 1) fun o ho => hf o (List.mem_append_right _ ho)
      rw [h] at hr
      rw [calledWhile_go hr, calledWhile_go h, sweep_cons_go hr, sweep_cons_go h, List.map_append, map_replaced_below,
        hc, hcs]
      exact ⟨rfl, hrs⟩
    · rw [calledWhile_end h] at hf
      obtain ⟨hc, hr⟩ := hchild (agrees_below hf)
      have hend : (eval ctx (withPredicates (fun place => family (index :: place)) child)).result ≠ .ok go := by
        rw [hr]
        exact h
      rw [calledWhile_end hend, calledWhile_end h, sweep_cons_end hend, sweep_cons_end h, map_replaced_below, hc]
      exact ⟨rfl, hr⟩

theorem sameRun (ctx : Context) (r : Rule) : SameRun ctx r := by
  induction r using groupInduction with
  | permission p => intro family _; rw [withPredicates, called]; exact ⟨rfl, rfl⟩
  | predicate p =>
    intro family hf
    rw [called] at hf
    have hv := hf ⟨[], p⟩ (List.mem_singleton.mpr rfl)
    rw [withPredicates, called, called, eval_predicate, eval_predicate]
    exact ⟨rfl, hv⟩
  | group go children ih =>
    intro family hf
    rw [called_group] at hf
    rw [withPredicates_group, called_group, called_group, eval_group, eval_group]
    exact sameRun_sweep children ih 0 family hf
  | not child ih =>
    intro family hf
    rw [called] at hf
    obtain ⟨hc, hr⟩ := ih _ (agrees_below hf)
    rw [withPredicates, called, called, eval_not, eval_not, map_replaced_below, hc, Audited.negated, Audited.negated,
      Audited.result_map, Audited.result_map, hr]
    exact ⟨rfl, rfl⟩
  | admin => intro family _; rw [withPredicates, called]; exact ⟨rfl, rfl⟩

/-! ## The discipline -/

/-- The calls of an evaluation belong to a subsequence of the occurrences in the rule, each of
    which has a place of its own; only the last call may deny, and the evaluation denies
    exactly if it did, with its denial. A family of predicates that answers the calls made
    here as they were answered is called in the same places, answers the same, and comes to
    the same result. -/
theorem call_discipline (ctx : Context) (r : Rule) :
    ((eval ctx r).calls = (called ctx r).map (·.call ctx) ∧ (called ctx r).Sublist (occurrences r) ∧
      ((occurrences r).map (·.place)).Nodup) ∧
    (∀ c ∈ (eval ctx r).calls.dropLast, Answered c) ∧
    (∀ d, (eval ctx r).result = .error d ↔ ∃ c, (eval ctx r).calls.getLast? = some c ∧ c.verdict = .error d) ∧
    ∀ family, Agrees ctx family (called ctx r) →
      called ctx (withPredicates family r) = (called ctx r).map (·.replaced family) ∧
        (eval ctx (withPredicates family r)).calls.map (·.verdict) = (eval ctx r).calls.map (·.verdict) ∧
        (eval ctx (withPredicates family r)).result = (eval ctx r).result := by
  have horder := eval_orderly ctx r
  refine ⟨⟨calls_eq ctx r, called_sublist ctx r, occurrences_nodup r⟩, horder.answered_of_dropLast,
    horder.denied_iff, fun family hf => ?_⟩
  obtain ⟨hcalled, hresult⟩ := sameRun ctx r family hf
  refine ⟨hcalled, ?_, hresult⟩
  rw [calls_eq, calls_eq, hcalled, List.map_map, List.map_map, List.map_map]
  exact List.map_congr_left hf

/-- The conjunction ends at its first child, and the calls go on behind it. -/
theorem calls_past_conjunction :
    let pass := Predicate.ofStock "pass" false (.constant true)
    let fail := Predicate.ofStock "fail" false (.constant false)
    let deny := Predicate.ofStock "deny" false (.deny "not called")
    let ctx : Context := ⟨.empty, ⟨.null, .null, .null, false⟩⟩
    let r := any [.all [.predicate fail, .predicate pass], .predicate pass]
    let family : Place → Predicate := fun place =>
      if place = [0, 1] then deny else if place = [0, 0] then fail else pass
    (occurrences r).map (·.place) = [[0, 0], [0, 1], [1]] ∧ (called ctx r).map (·.place) = [[0, 0], [1]] ∧
      called ctx (withPredicates family r) = (called ctx r).map (·.replaced family) ∧
      (eval ctx (withPredicates family r)).result = .ok true := by
  intro pass fail deny ctx r family
  have hf : Agrees ctx family (called ctx r) := List.forall_mem_cons.mpr ⟨rfl, List.forall_mem_singleton.mpr rfl⟩
  obtain ⟨hcalled, -, hresult⟩ := (call_discipline ctx r).2.2.2 family hf
  exact ⟨rfl, rfl, hcalled, hresult⟩

end Warden.Rule
