/-
  Warden.Proofs.Refusal — what a decision says of the calls made for it.

  A predicate that denies is the last one called, and its reason is the reason of the refusal
  (`Told`). Every other refusal is one that a decision comes to by itself (`Unprompted`), and
  then no predicate denied: the claim is malformed, the token is missing, the policy refuses
  empty grants, or what was asked for does not hold. Nothing else goes wrong with a request.
  The steps of a decision keep to this, and so does going on from one to the next
  (`Told.andThen`).

  - `examine_told`: every decision does.
-/

import Warden.Proofs.Rule.Calls
import Warden.Route

namespace Warden

open Rule (Answered Orderly)

/-- An error that a decision comes to by itself. -/
inductive AccessError.Unprompted : AccessError → Prop
  | malformed (fault : ClaimFault) : Unprompted (.dataIntegrity fault)
  | noToken : Unprompted (.unauthorized .noToken)
  | nothingGranted : Unprompted (.forbidden .nothingGranted)
  | ruleFailed : Unprompted (.forbidden .ruleFailed)

namespace Route

variable {α β : Type}

/-- The result gives the reason of the last call if that one denied, and no other call did. -/
inductive Told : List Call → Except AccessError α → Prop
  | passed {calls : List Call} (x : α) : (∀ c ∈ calls, Answered c) → Told calls (.ok x)
  | unprompted {calls : List Call} {e : AccessError} : (∀ c ∈ calls, Answered c) → e.Unprompted → Told calls (.error e)
  | denied {calls : List Call} {last : Call} {d : Denial} : (∀ c ∈ calls, Answered c) → last.verdict = .error d →
      Told (calls ++ [last]) (.error (Route.denied d))

theorem told_ok (x : α) : Told [] (.ok x) := .passed x (fun _ hc => absurd hc List.not_mem_nil)

theorem told_unprompted {e : AccessError} (he : e.Unprompted) : Told [] (.error e : Except AccessError α) :=
  .unprompted (fun _ hc => absurd hc List.not_mem_nil) he

theorem told_verdict {calls : List Call} {v : Verdict} (h : Orderly calls v) : Told calls (v.mapError denied) := by
  cases h with
  | answered b hc => exact .passed b hc
  | denied hc hd => exact .denied hc hd

theorem Told.append {calls more : List Call} {x : α} {result : Except AccessError β}
    (h : Told calls (.ok x)) (hm : Told more result) : Told (calls ++ more) result := by
  cases h with
  | passed _ hc =>
    cases hm with
    | passed y hr => exact .passed y (List.forall_mem_append.mpr ⟨hc, hr⟩)
    | unprompted hr he => exact .unprompted (List.forall_mem_append.mpr ⟨hc, hr⟩) he
    | denied hr hd => rw [← List.append_assoc]; exact .denied (List.forall_mem_append.mpr ⟨hc, hr⟩) hd

theorem Told.error {calls : List Call} {e : AccessError} (h : Told calls (.error e : Except AccessError α)) :
    Told calls (.error e : Except AccessError β) := by
  cases h with
  | unprompted hc he => exact .unprompted hc he
  | denied hc hd => exact .denied hc hd

theorem Told.andThen {a : Audited (Except AccessError α)} {f : α → Audited (Except AccessError β)}
    (ha : Told a.calls a.result) (hf : ∀ x, Told (f x).calls (f x).result) :
    Told (a.andThen f).calls (a.andThen f).result := by
  cases h : a.result with
  | error e =>
    rw [h] at ha
    rw [Audited.andThen_error h]
    exact ha.error
  | ok x =>
    rw [h] at ha
    rw [Audited.andThen_ok h]
    exact ha.append (hf x)

/-! ## The steps of a decision -/

theorem checkAdmin_told (policy : Policy) (ctx : Context) :
    Told (checkAdmin policy ctx).calls (checkAdmin policy ctx).result := by
  unfold checkAdmin
  rcases policy.admin with _ | p | p
  · exact told_ok _
  · exact told_ok _
  · exact told_verdict (Rule.call_orderly ctx p)

theorem passes_told (r : Route) (ctx : Context) : Told (r.passes ctx).calls (r.passes ctx).result := by
  unfold passes
  split
  · exact told_ok _
  · split
    · exact told_unprompted .nothingGranted
    · exact told_verdict (Rule.eval_orderly ctx r.rule)

theorem judgeToken_told (r : Route) (summary token : Json) :
    Told (r.judgeToken summary token).calls (r.judgeToken summary token).result := by
  unfold judgeToken
  dsimp only
  split
  · exact told_unprompted (.malformed _)
  · refine (checkAdmin_told _ _).andThen fun isAdmin => (passes_told _ _).andThen fun passed => ?_
    cases passed with
    | true => exact told_ok _
    | false => exact told_unprompted .ruleFailed

theorem examine_told (r : Route) (q : Request) : Told (r.examine q).1.calls (r.examine q).1.result := by
  show Told (r.judge q).calls (r.judge q).result
  unfold judge
  split
  · exact judgeToken_told r _ _
  · split
    · exact told_unprompted .noToken
    · exact told_ok _

end Route

end Warden
