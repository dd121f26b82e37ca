/-
  Warden.Proofs.Attachment — capabilities attached over a run of decisions.

  Routes of any guards decide one request after another, each on the request as the one
  before left it. A decision reads the document and the summary, which no decision changes,
  and none of what is attached; so it is the decision on the request as it came in. What is
  attached under a property is the capability of the last decision that attached there.

  - `examine_document`, `examine_summary`, `attached?_examine`, `examine_held_eq_none`: what one
    decision does to the request.
  - `examine_eq_self`: a decision that grants nothing, or by a route that attaches nothing,
    leaves the request as it was.
  - `attached_over_run`: a whole run.
-/

import Warden.Predicate.Stock
import Warden.Route

namespace Warden.Route

/-- The decisions of routes on a request, one after another, and the request after them. -/
def examineAll : List Route → Request → List (Audited (Except AccessError Outcome)) × Request
  | [], q => ([], q)
  | r :: routes, q =>
    let (decision, q) := r.examine q
    let (decisions, q) := examineAll routes q
    (decision :: decisions, q)

/-- The capability that a decision of the route attaches under the property. -/
def attachedBy (r : Route) (property : String) : Except AccessError Outcome → Option Capability
  | .ok (.granted c) => if r.policy.requestProperty.map DocPath.dotted = some property then some c else none
  | _ => none

/-- What the decisions of a run attach under the property, in their order. -/
def attachments (property : String) (routes : List Route) (decisions : List (Audited (Except AccessError Outcome))) :
    List Capability :=
  (routes.zip decisions).filterMap fun (r, decision) => r.attachedBy property decision.result

variable {r : Route} {q : Request}

/-! ## One decision -/

theorem attachTo_document (r : Route) (q : Request) (decision : Except AccessError Outcome) :
    (r.attachTo q decision).document = q.document := by
  unfold attachTo
  split
  · split <;> rfl
  · rfl

theorem attachTo_summary (r : Route) (q : Request) (decision : Except AccessError Outcome) :
    (r.attachTo q decision).summary = q.summary := by
  unfold attachTo
  split
  · split <;> rfl
  · rfl

/-- An attachment is seen under its own property, and what was attached before under the others. -/
theorem attached?_attachTo (r : Route) (q : Request) (decision : Except AccessError Outcome) (property : String) :
    (r.attachTo q decision).attached? property = (r.attachedBy property decision).or (q.attached? property) := by
  rcases decision with e | _ | c
  · rfl
  · cases hp : r.policy.requestProperty with
    | none => simp only [attachTo, attachedBy, hp, Option.map_none, reduceCtorEq, if_false, Option.none_or]
    | some p =>
      simp only [attachTo, attachedBy, hp, Option.map_some]
      by_cases h : p.dotted = property
      · subst h
        rw [if_pos rfl]
        exact Request.attached?_attach_self q p _
      · have hne : some p.dotted ≠ some property := fun e => h (Option.some.inj e)
        rw [if_neg hne]
        exact Request.attached?_attach_ne q (Ne.symm h) _
  · rfl

@[simp] theorem examine_document (r : Route) (q : Request) : (r.examine q).2.document = q.document :=
  attachTo_document r q _

@[simp] theorem examine_summary (r : Route) (q : Request) : (r.examine q).2.summary = q.summary :=
  attachTo_summary r q _

theorem attached?_examine (r : Route) (q : Request) (property : String) :
    (r.examine q).2.attached? property =
      (r.attachedBy property (r.examine q).1.result).or (q.attached? property) :=
  attached?_attachTo r q _ property

/-- What is attached plays no part in a decision. -/
theorem examine_congr (r : Route) {p q : Request} (hd : p.document = q.document) (hs : p.summary = q.summary) :
    (r.examine p).1 = (r.examine q).1 := by
  show r.judge p = r.judge q
  rw [judge, judge, hd, hs]

/-- There is a place for capabilities once a decision attaches one. -/
theorem attachTo_held_eq_none (r : Route) (q : Request) (decision : Except AccessError Outcome) :
    (r.attachTo q decision).held = none ↔ q.held = none ∧ ∀ property, r.attachedBy property decision = none := by
  rcases decision with e | c | _
  · exact (and_iff_left fun _ => rfl).symm
  · cases hp : r.policy.requestProperty with
    | none =>
      have hnone : ∀ property, r.attachedBy property (.ok (.granted c)) = none := by
        intro property
        rw [attachedBy, hp]
        rfl
      rw [attachTo, hp]
      exact (and_iff_left hnone).symm
    | some p =>
      have hsome : r.attachedBy p.dotted (.ok (.granted c)) = some c := by
        rw [attachedBy, hp]
        exact if_pos rfl
      rw [attachTo, hp]
      constructor
      · intro h
        cases h
      · intro h
        rw [h.2 p.dotted] at hsome
        cases hsome
  · exact (and_iff_left fun _ => rfl).symm

theorem examine_held_eq_none (r : Route) (q : Request) :
    (r.examine q).2.held = none ↔
      q.held = none ∧ ∀ property, r.attachedBy property (r.examine q).1.result = none :=
  attachTo_held_eq_none r q _

theorem examine_eq_self (h : ∀ c, (r.examine q).1.result = .ok (.granted c) → r.policy.requestProperty = none) :
    (r.examine q).2 = q := by
  show r.attachTo q (r.examine q).1.result = q
  unfold attachTo
  split
  · rename_i c hc
    rw [h c hc]
  · rfl

/-! ## A run -/

theorem examineAll_document (routes : List Route) (q : Request) : (examineAll routes q).2.document = q.document := by
  induction routes generalizing q with
  | nil => rfl
  | cons r routes ih =>
    have h := ih (r.examine q).2
    rw [examine_document] at h
    exact h

theorem examineAll_summary (routes : List Route) (q : Request) : (examineAll routes q).2.summary = q.summary := by
  induction routes generalizing q with
  | nil => rfl
  | cons r routes ih =>
    have h := ih (r.examine q).2
    rw [examine_summary] at h
    exact h

theorem examineAll_decisions (routes : List Route) {fresh : Request} (q : Request) (hd : q.document = fresh.document)
    (hs : q.summary = fresh.summary) : (examineAll routes q).1 = routes.map fun r => (r.examine fresh).1 := by
  induction routes generalizing q with
  | nil => rfl
  | cons r routes ih =>
    have h := ih (r.examine q).2 (by rw [examine_document, hd]) (by rw [examine_summary, hs])
    rw [List.map_cons, ← h, ← examine_congr r hd hs]
    rfl

/-- A run leaves no place for capabilities if none of its decisions attaches one. -/
theorem examineAll_held_eq_none (routes : List Route) {fresh : Request} (q : Request)
    (hd : q.document = fresh.document) (hs : q.summary = fresh.summary) :
    (examineAll routes q).2.held = none ↔
      q.held = none ∧ ∀ r ∈ routes, ∀ property, r.attachedBy property (r.examine fresh).1.result = none := by
  induction routes generalizing q with
  | nil => exact (and_iff_left fun _ h => nomatch h).symm
  | cons r routes ih =>
    have h := ih (r.examine q).2 (by rw [examine_document, hd]) (by rw [examine_summary, hs])
    rw [examine_held_eq_none, examine_congr r hd hs, and_assoc] at h
    rw [List.forall_mem_cons]
    exact h

theorem attachments_cons (property : String) (r : Route) (routes : List Route)
    (decision : Audited (Except AccessError Outcome)) (decisions : List (Audited (Except AccessError Outcome))) :
    attachments property (r :: routes) (decision :: decisions) =
      (r.attachedBy property decision.result).toList ++ attachments property routes decisions := by
  unfold attachments
  rw [List.zip_cons_cons]
  cases h : r.attachedBy property decision.result with
  | none => exact List.filterMap_cons_none h
  | some c => exact List.filterMap_cons_some h

theorem attached?_examineAll (routes : List Route) (q : Request) (property : String) :
    (examineAll routes q).2.attached? property =
      (attachments property routes (examineAll routes q).1).getLast?.or (q.attached? property) := by
  induction routes generalizing q with
  | nil => rfl
  | cons r routes ih =>
    have h := ih (r.examine q).2
    rw [attached?_examine] at h
    have hcons := attachments_cons property r routes (r.examine q).1 (examineAll routes (r.examine q).2).1
    show (examineAll routes (r.examine q).2).2.attached? property =
      (attachments property (r :: routes) ((r.examine q).1 :: (examineAll routes (r.examine q).2).1)).getLast?.or _
    rw [hcons, List.getLast?_append, Option.or_assoc]
    refine h.trans (congrArg _ ?_)
    cases r.attachedBy property (r.examine q).1.result <;> rfl

/-- A run of decisions: the document and the summary stay, each decision is the one on the same
    request with nothing attached to it, and what is attached under a property is what the last
    decision that attached there did. A further decision that grants nothing, or by a route that
    attaches nothing, leaves the request as it is. -/
theorem attached_over_run (routes : List Route) (q : Request) :
    let decisions := (examineAll routes q).1
    let after := (examineAll routes q).2
    after.document = q.document ∧ after.summary = q.summary ∧
      (∀ property, after.attached? property =
        (attachments property routes decisions).getLast?.or (q.attached? property)) ∧
      (∀ fresh : Request, fresh.document = q.document → fresh.summary = q.summary → fresh.attached = [] →
        decisions = routes.map (fun r => (r.examine fresh).1) ∧
        ∀ property, (examineAll routes fresh).2.attached? property =
          (attachments property routes decisions).getLast?) ∧
      ∀ r : Route, (∀ c, (r.examine after).1.result = .ok (.granted c) → r.policy.requestProperty = none) →
        (r.examine after).2 = after := by
  intro decisions after
  refine ⟨examineAll_document routes q, examineAll_summary routes q, attached?_examineAll routes q, ?_,
    fun r h => examine_eq_self h⟩
  intro fresh hd hs hnone
  have hq : decisions = routes.map fun r => (r.examine fresh).1 := examineAll_decisions routes q hd.symm hs.symm
  have hfresh : (examineAll routes fresh).1 = decisions := by
    rw [hq]
    exact examineAll_decisions routes fresh rfl rfl
  refine ⟨hq, fun property => ?_⟩
  rw [attached?_examineAll, hfresh, Request.attached?, hnone]
  exact Option.or_none

/-- Three guards find their tokens in different places. The last decision is a refusal and attaches
    nothing; what is seen is from the one before it. -/
theorem attached_by_last :
    let pass := Predicate.ofStock "pass" false (.constant true)
    let fail := Predicate.ofStock "fail" false (.constant false)
    let q : Request := { document := some (.object [("user", .object []), ("id", .object []), ("key", .object [])]) }
    ∃ policy other third r s t c c', Policy.of? {} = .ok policy ∧
      Policy.of? { tokenKey := some (.dotted "id") } = .ok other ∧
      Policy.of? { tokenKey := some (.dotted "key") } = .ok third ∧
      build? policy [.predicate pass] [] = .ok r ∧ build? other [.predicate pass] [] = .ok s ∧
      build? third [.predicate fail] [] = .ok t ∧
      (examineAll [r, s, t] q).1.map (·.result) =
        [.ok (.granted c), .ok (.granted c'), .error (.forbidden .ruleFailed)] ∧
      (examineAll [r, s, t] q).2.attached? "permissions" = some c' ∧ c'.policy.tokenKey.dotted = "id" := by
  intro pass fail q
  have hrun : ∃ policy other third r s t c c', Policy.of? {} = .ok policy ∧
      Policy.of? { tokenKey := some (.dotted "id") } = .ok other ∧
      Policy.of? { tokenKey := some (.dotted "key") } = .ok third ∧
      build? policy [.predicate pass] [] = .ok r ∧ build? other [.predicate pass] [] = .ok s ∧
      build? third [.predicate fail] [] = .ok t ∧ (r.examine q).1.result = .ok (.granted c) ∧
      (s.examine q).1.result = .ok (.granted c') ∧ (t.examine q).1.result = .error (.forbidden .ruleFailed) ∧
      r.attachedBy "permissions" (.ok (.granted c)) = some c ∧
      s.attachedBy "permissions" (.ok (.granted c')) = some c' ∧ c'.policy.tokenKey.dotted = "id" := by
    dsimp only [pass, fail, q]
    exact ⟨_, _, _, _, _, _, _, _, rfl, rfl, rfl, rfl, rfl, rfl, rfl, rfl, rfl, rfl, rfl, rfl⟩
  obtain ⟨policy, other, third, r, s, t, c, c', hpolicy, hother, hthird, hr, hs, ht, hc, hc', hrefused, hfirst,
    hsecond, hid⟩ := hrun
  obtain ⟨-, -, hattached, halone, -⟩ := attached_over_run [r, s, t] q
  have hdecisions := (halone q rfl rfl rfl).1
  refine ⟨policy, other, third, r, s, t, c, c', hpolicy, hother, hthird, hr, hs, ht, ?_, ?_, hid⟩
  · rw [hdecisions]
    simp [hc, hc', hrefused]
  · have hlast : (attachments "permissions" [r, s, t] (examineAll [r, s, t] q).1).getLast? = some c' := by
      rw [hdecisions]
      simp only [List.map_cons, List.map_nil, attachments_cons, hc, hc', hrefused, hfirst, hsecond]
      rfl
    rw [hattached, hlast]
    rfl

end Warden.Route
