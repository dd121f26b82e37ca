/-
  Warden.Proofs.Http.Mediation — what stands between a request and a handler.

  Every route of a stack decides for itself: the request that reaches it carries what the
  routes around it attached, and no decision reads that. So a stack is told by the decisions
  of its routes on the request as it came in. Either all admit it, and the handler is given
  what they would leave behind one after another, or the outermost one that refuses answers
  and nothing within it is called.

  - `through_admitted`, `through_refused`: the two ways a request goes, `through_cases` that
    there is no third.
  - `mediates`: the handler, the answer, the calls and what is attached.
-/

import Warden.Http.Layers
import Warden.Proofs.Attachment
import Warden.Proofs.Audited

namespace Warden

namespace Http

open Route

variable {routes outer inner : List Route} {r : Route} {p q : Request}

/-- The route lets the request pass. -/
def Admits (q : Request) (r : Route) : Prop := ∃ outcome, (r.examine q).1.result = .ok outcome

/-- The calls of the routes, each deciding the request by itself. -/
def callsOf (q : Request) (routes : List Route) : List Call := routes.flatMap fun r => (r.examine q).1.calls

/-! ## The way through -/

theorem through_cons (r : Route) (inner : List Route) (q : Request) :
    through (r :: inner) q = (r.examine q).1.andThen fun _ => through inner (r.examine q).2 := rfl

theorem through_append (outer inner : List Route) (q : Request) :
    through (outer ++ inner) q = (through outer q).andThen (through inner) := by
  induction outer generalizing q with
  | nil => exact (Audited.of_ok_andThen q _).symm
  | cons r outer ih =>
    rw [List.cons_append, through_cons, through_cons, Audited.andThen_assoc]
    congr 1
    funext _
    exact ih _

/-- A decision made within the stack is the one on the request as it came in. -/
theorem through_admitted (h : ∀ r ∈ routes, Admits p r) (hd : q.document = p.document) (hs : q.summary = p.summary) :
    through routes q = ⟨callsOf p routes, .ok (examineAll routes q).2⟩ := by
  induction routes generalizing q with
  | nil => rfl
  | cons r routes ih =>
    obtain ⟨outcome, ho⟩ := h r (by simp)
    have hr : (r.examine q).1 = (r.examine p).1 := examine_congr r hd hs
    have hrest : through routes (r.examine q).2 = ⟨callsOf p routes, .ok (examineAll routes (r.examine q).2).2⟩ :=
      ih (fun s hm => h s (by simp [hm])) (by rw [examine_document, hd]) (by rw [examine_summary, hs])
    rw [through_cons, hr, Audited.andThen_ok ho, hrest]
    rfl

theorem through_refused (h : ∀ s ∈ outer, Admits q s) {e : AccessError} (he : (r.examine q).1.result = .error e)
    (inner : List Route) : through (outer ++ r :: inner) q = ⟨callsOf q (outer ++ [r]), .error e⟩ := by
  have hr : (r.examine (examineAll outer q).2).1 = (r.examine q).1 :=
    examine_congr r (examineAll_document outer q) (examineAll_summary outer q)
  have hrest : through (r :: inner) (examineAll outer q).2 = ⟨(r.examine q).1.calls, .error e⟩ := by
    rw [through_cons, hr, Audited.andThen_error he]
  rw [through_append, through_admitted h rfl rfl, Audited.andThen_ok rfl, hrest]
  simp [callsOf]

/-- All routes admit the request, or there is an outermost one that refuses it. -/
theorem through_cases (routes : List Route) (q : Request) :
    (∀ r ∈ routes, Admits q r) ∨
      ∃ outer r inner e, routes = outer ++ r :: inner ∧ (∀ s ∈ outer, Admits q s) ∧
        (r.examine q).1.result = .error e := by
  induction routes with
  | nil => exact .inl (by simp)
  | cons r routes ih =>
    cases hr : (r.examine q).1.result with
    | error e => exact .inr ⟨[], r, routes, e, rfl, by simp, hr⟩
    | ok outcome =>
      have hadmits : Admits q r := ⟨outcome, hr⟩
      rcases ih with h | ⟨outer, s, inner, e, rfl, h, he⟩
      · exact .inl (List.forall_mem_cons.mpr ⟨hadmits, h⟩)
      · exact .inr ⟨r :: outer, s, inner, e, rfl, List.forall_mem_cons.mpr ⟨hadmits, h⟩, he⟩

theorem admitted_of_through_ok (h : (through routes q).result = .ok p) : ∀ r ∈ routes, Admits q r := by
  rcases through_cases routes q with hall | ⟨outer, r, inner, e, rfl, hall, he⟩
  · exact hall
  · rw [through_refused hall he] at h
    cases h

theorem respond_ok (h : (through routes q).result = .ok p) (handler : Request → Audited Response) :
    respond routes handler q = ⟨(through routes q).calls ++ (handler p).calls, (handler p).result⟩ := by
  simp only [respond, Audited.bind, h]

theorem respond_error {e : AccessError} (h : (through routes q).result = .error e)
    (handler : Request → Audited Response) : respond routes handler q = ⟨(through routes q).calls, e.response⟩ := by
  simp only [respond, Audited.bind, h, Audited.calls_of, Audited.result_of, List.append_nil]

/-! ## What the routes leave behind -/

/-- Deciding the request by itself, the route grants it and attaches the capability under the property. -/
def Attaches (q : Request) (property : String) (c : Capability) (r : Route) : Prop :=
  (r.examine q).1.result = .ok (.granted c) ∧ r.policy.requestProperty.map DocPath.dotted = some property

/-- What the route attaches under the property, if anything. -/
def leftBy (q : Request) (property : String) (r : Route) : Option Capability :=
  r.attachedBy property (r.examine q).1.result

theorem leftBy_eq_some {property : String} {c : Capability} :
    leftBy q property r = some c ↔ Attaches q property c r := by
  unfold leftBy attachedBy Attaches
  rcases (r.examine q).1.result with e | _ | granted
  · simp
  · by_cases hp : r.policy.requestProperty.map DocPath.dotted = some property
    · simp [hp]
    · simp [hp]
  · simp

theorem leftBy_eq_none {property : String} : leftBy q property r = none ↔ ∀ c, ¬ Attaches q property c r := by
  rw [Option.eq_none_iff_forall_ne_some]
  exact forall_congr' fun c => not_congr leftBy_eq_some

theorem attachments_eq (property : String) (routes : List Route) (q : Request) :
    attachments property routes (examineAll routes q).1 = routes.filterMap (leftBy q property) := by
  rw [attachments, examineAll_decisions routes q rfl rfl, ← List.map_prod_left_eq_zip, List.filterMap_map]
  rfl

/-- The innermost route that attaches anything under a property is the one that is seen there. -/
theorem attached?_eq_some (hq : q.held = none) {property : String} {c : Capability} :
    (examineAll routes q).2.attached? property = some c ↔
      ∃ outer r inner, routes = outer ++ r :: inner ∧ Attaches q property c r ∧
        ∀ s ∈ inner, ∀ c', ¬ Attaches q property c' s := by
  rw [attached?_examineAll, attachments_eq, Request.attached?_of_held_none hq, Option.or_none, List.getLast?_filterMap, List.findSome?_eq_some_iff]
  constructor
  · rintro ⟨inner, r, outer, hroutes, hr, hinner⟩
    refine ⟨outer.reverse, r, inner.reverse, ?_, leftBy_eq_some.mp hr, fun s hs => ?_⟩
    · rw [List.reverse_eq_append_iff] at hroutes
      simpa using hroutes
    · exact leftBy_eq_none.mp (hinner s (List.mem_reverse.mp hs))
  · rintro ⟨outer, r, inner, rfl, hr, hinner⟩
    refine ⟨inner.reverse, r, outer.reverse, by simp, leftBy_eq_some.mpr hr, fun s hs => ?_⟩
    exact leftBy_eq_none.mpr (hinner s (List.mem_reverse.mp hs))

/-- The place for capabilities is there once a route attaches one. -/
theorem held_eq_none (hq : q.held = none) :
    (examineAll routes q).2.held = none ↔ ∀ r ∈ routes, ∀ property c, ¬ Attaches q property c r := by
  rw [examineAll_held_eq_none routes q rfl rfl, and_iff_right hq]
  exact forall_congr' fun r => imp_congr_right fun _ => forall_congr' fun property => leftBy_eq_none

/-! ## Mediation -/

/-- A handler behind a stack of routes. It runs exactly if every route admits the request as it
    came in, after the calls of all of them, on that request with what they attached: under each
    property the capability of the innermost route that attached there, and no place for capabilities
    at all if none attached any. Otherwise the answer is that of the outermost route that refuses,
    whatever the handler, and no route within it makes a call. -/
theorem mediates (routes : List Route) (document : Option Json) (method path : String) :
    let q : Request := { document, summary := summary method path }
    ((∃ p, (through routes q).result = .ok p) ↔ ∀ r ∈ routes, Admits q r) ∧
    (∀ p, (through routes q).result = .ok p →
      (∀ handler, respond routes handler q = ⟨callsOf q routes ++ (handler p).calls, (handler p).result⟩) ∧
      p.document = document ∧ p.summary = summary method path ∧
      (∀ property c, p.attached? property = some c ↔
        ∃ outer r inner, routes = outer ++ r :: inner ∧ Attaches q property c r ∧
          ∀ s ∈ inner, ∀ c', ¬ Attaches q property c' s) ∧
      (p.held = none ↔ ∀ r ∈ routes, ∀ property c, ¬ Attaches q property c r)) ∧
    ∀ outer r inner e, routes = outer ++ r :: inner → (∀ s ∈ outer, Admits q s) → (r.examine q).1.result = .error e →
      ∀ handler, respond routes handler q = ⟨callsOf q (outer ++ [r]), e.response⟩ := by
  intro q
  refine ⟨⟨fun ⟨p, hp⟩ => admitted_of_through_ok hp, fun h => ⟨_, by rw [through_admitted h rfl rfl]⟩⟩, ?_, ?_⟩
  · intro p hp
    have hthrough := through_admitted (admitted_of_through_ok hp) rfl rfl
    have hp' : p = (examineAll routes q).2 := by
      rw [hthrough] at hp
      cases hp
      rfl
    refine ⟨fun handler => by rw [respond_ok hp, hthrough], ?_⟩
    rw [hp']
    exact ⟨examineAll_document routes q, examineAll_summary routes q, fun _ _ => attached?_eq_some rfl,
      held_eq_none rfl⟩
  · rintro outer r inner e rfl houter he handler
    have hthrough := through_refused houter he inner
    rw [respond_error (by rw [hthrough]), hthrough]

/-- Both routes attach under one property; the refusal of a third, put between them, is the answer. -/
theorem mediates_between :
    let pass := Predicate.ofStock "pass" false (.constant true)
    let fail := Predicate.ofStock "fail" false (.constant false)
    let document := Json.object [("id", .object []), ("user", .object [])]
    let q : Request := { document := some document, summary := summary "GET" "/" }
    ∃ policy other r s t p c, Policy.of? {} = .ok policy ∧ Policy.of? { tokenKey := some (.dotted "id") } = .ok other ∧
      build? policy [.predicate pass] [] = .ok r ∧ build? other [.predicate pass] [] = .ok s ∧
      build? policy [.predicate fail] [] = .ok t ∧ (through [r, s] q).result = .ok p ∧
      p.attached? "permissions" = some c ∧ c.policy.tokenKey.dotted = "id" ∧
      ∀ handler, (respond [r, t, s] handler q).calls.map (·.predicate.name) = ["pass", "fail"] ∧
        (respond [r, t, s] handler q).result.status = 403 := by
  intro pass fail document q
  have hrun : ∃ policy other r s t p c e, Policy.of? {} = .ok policy ∧
      Policy.of? { tokenKey := some (.dotted "id") } = .ok other ∧ build? policy [.predicate pass] [] = .ok r ∧
      build? other [.predicate pass] [] = .ok s ∧ build? policy [.predicate fail] [] = .ok t ∧
      (through [r, s] q).result = .ok p ∧ Attaches q "permissions" c s ∧ c.policy.tokenKey.dotted = "id" ∧
      Admits q r ∧ (t.examine q).1.result = .error e ∧ e.response.status = 403 ∧
      (callsOf q [r, t]).map (·.predicate.name) = ["pass", "fail"] := by
    dsimp only [pass, fail, document, q]
    exact ⟨_, _, _, _, _, _, _, _, rfl, rfl, rfl, rfl, rfl, rfl, ⟨rfl, rfl⟩, rfl, ⟨_, rfl⟩, rfl, rfl, rfl⟩
  obtain ⟨policy, other, r, s, t, p, c, e, hpolicy, hother, hr, hs, ht, hp, hc, hid, hadmits, he, hstatus, hcalls⟩ :=
    hrun
  have hattached := (((mediates [r, s] (some document) "GET" "/").2.1 p hp).2.2.2.1 "permissions" c).mpr
    ⟨[r], s, [], rfl, hc, fun _ h => nomatch h⟩
  have hrefused := (mediates [r, t, s] (some document) "GET" "/").2.2 [r] t [s] e rfl
    (fun _ h => List.mem_singleton.mp h ▸ hadmits) he
  refine ⟨policy, other, r, s, t, p, c, hpolicy, hother, hr, hs, ht, hp, hattached, hid, fun handler => ?_⟩
  rw [hrefused handler]
  exact ⟨hcalls, hstatus⟩

end Http

end Warden
