/-
  Warden.Proofs.Audited — how results go on, and verdicts with their calls.

  A result that is no error came from one that is none (`map_ok`, `bind_ok`), and an error
  from an error (`map_error`, `mapError_error`); other words for errors change no result
  (`mapError_ok_iff`). `andThen` either stops at an error or goes on, and the calls add up
  either way (`andThen_ok`, `andThen_error`). Verdicts have left-to-right connectives: `both` asks for the second
  verdict only after a pass, `either` only after a failure, and a denial ends both of them.
  They are what a rule's nodes come to.

  - `mapError_andThen_ok` / `mapError_andThen_error`: going on with a result whose errors
    were put in other words.
  - `both_pass` / `either_fail`: a verdict that ends a conjunction or an alternative.
-/

import Warden.Predicate

namespace Warden

variable {α β δ ε : Type}

theorem map_ok {x : Except ε α} {f : α → β} {y : β} (h : x.map f = .ok y) : ∃ a, x = .ok a ∧ f a = y := by
  cases x with
  | error e => cases h
  | ok a => cases h; exact ⟨a, rfl, rfl⟩

theorem map_error {x : Except ε α} {f : α → β} {e : ε} (h : x.map f = .error e) : x = .error e := by
  cases x with
  | error e' => cases h; rfl
  | ok a => cases h

theorem mapError_ok_iff {x : Except ε α} {f : ε → δ} {a : α} : x.mapError f = .ok a ↔ x = .ok a := by
  cases x with
  | error e => exact ⟨(nomatch ·), (nomatch ·)⟩
  | ok a' =>
    have hsame : (Except.ok a' : Except ε α).mapError f = .ok a' := rfl
    rw [hsame, Except.ok.injEq, Except.ok.injEq]

theorem mapError_error {x : Except ε α} {f : ε → δ} {e : δ} (h : x.mapError f = .error e) :
    ∃ e', x = .error e' ∧ f e' = e := by
  cases x with
  | error e' => cases h; exact ⟨e', rfl, rfl⟩
  | ok a => cases h

theorem bind_ok {x : Except ε α} {f : α → Except ε β} {y : β} (h : x >>= f = .ok y) : ∃ a, x = .ok a ∧ f a = .ok y := by
  cases x with
  | error e => cases h
  | ok a => exact ⟨a, rfl, h⟩

namespace Audited

@[simp] theorem calls_of (x : α) : (of x).calls = [] := rfl
@[simp] theorem result_of (x : α) : (of x).result = x := rfl
@[simp] theorem calls_map (f : α → β) (a : Audited α) : (a.map f).calls = a.calls := rfl
@[simp] theorem result_map (f : α → β) (a : Audited α) : (a.map f).result = f a.result := rfl

/-! ## Going on -/

theorem andThen_ok {a : Audited (Except ε α)} {x : α} (h : a.result = .ok x) (f : α → Audited (Except ε β)) :
    a.andThen f = ⟨a.calls ++ (f x).calls, (f x).result⟩ := by
  simp only [andThen, bind, h]

theorem andThen_error {a : Audited (Except ε α)} {e : ε} (h : a.result = .error e) (f : α → Audited (Except ε β)) :
    a.andThen f = ⟨a.calls, .error e⟩ := by
  simp only [andThen, bind, h, calls_of, result_of, List.append_nil]

/-- The last step of a decision calls no predicate. -/
theorem andThen_of_ok {a : Audited (Except ε α)} {x : α} (h : a.result = .ok x) {f : α → Audited (Except ε β)}
    {y : Except ε β} (hf : f x = of y) : a.andThen f = ⟨a.calls, y⟩ := by
  rw [andThen_ok h, hf, calls_of, result_of, List.append_nil]

@[simp] theorem of_ok_andThen (x : α) (f : α → Audited (Except ε β)) : (of (.ok x)).andThen f = f x :=
  andThen_ok rfl f

@[simp] theorem of_error_andThen (e : ε) (f : α → Audited (Except ε β)) : (of (.error e)).andThen f = of (.error e) :=
  andThen_error rfl f

@[simp] theorem andThen_of (a : Audited (Except ε α)) : (a.andThen fun x => of (.ok x)) = a := by
  cases h : a.result with
  | error e => rw [andThen_error h, ← h]
  | ok x => rw [andThen_of_ok h rfl, ← h]

theorem andThen_assoc {γ : Type} (a : Audited (Except ε α)) (f : α → Audited (Except ε β))
    (g : β → Audited (Except ε γ)) : (a.andThen f).andThen g = a.andThen fun x => (f x).andThen g := by
  cases h : a.result with
  | error e => rw [andThen_error h, andThen_error h, andThen_error rfl]
  | ok x =>
    rw [andThen_ok h, andThen_ok h]
    cases hf : (f x).result with
    | error e => rw [andThen_error rfl, andThen_error hf]
    | ok y => rw [andThen_ok rfl, andThen_ok hf, List.append_assoc]

/-! ## Errors in other words -/

variable {a : Audited (Except ε α)} {f : ε → δ} {g : α → Audited (Except δ β)}

theorem mapError_andThen_ok {x : α} (h : a.result = .ok x) :
    (a.map (·.mapError f)).andThen g = ⟨a.calls ++ (g x).calls, (g x).result⟩ := by
  have hm : (a.map (·.mapError f)).result = .ok x := by rw [result_map, h]; rfl
  exact andThen_ok hm g

theorem mapError_andThen_of_ok {x : α} (h : a.result = .ok x) {y : Except δ β} (hg : g x = of y) :
    (a.map (·.mapError f)).andThen g = ⟨a.calls, y⟩ := by
  rw [mapError_andThen_ok h, hg, calls_of, result_of, List.append_nil]

theorem mapError_andThen_error {e : ε} (h : a.result = .error e) :
    (a.map (·.mapError f)).andThen g = ⟨a.calls, .error (f e)⟩ := by
  have hm : (a.map (·.mapError f)).result = .error (f e) := by rw [result_map, h]; rfl
  exact andThen_error hm g

/-! ## Verdicts -/

/-- Both verdicts; the second is asked for only if the first passes. -/
def both (a b : Audited Verdict) : Audited Verdict :=
  a.andThen fun
    | true => b
    | false => of (.ok false)

/-- Either verdict; the second is asked for only if the first fails. -/
def either (a b : Audited Verdict) : Audited Verdict :=
  a.andThen fun
    | true => of (.ok true)
    | false => b

/-- The opposite verdict; a denial stays one. -/
def negated (a : Audited Verdict) : Audited Verdict := a.map (·.map (!·))

theorem andThen_unchanged (a : Audited Verdict) :
    (a.andThen fun | true => of (.ok true) | false => of (.ok false)) = a := by
  have h : (fun | true => of (.ok true) | false => of (.ok false) : Bool → Audited Verdict) = fun b => of (.ok b) := by
    funext b
    cases b <;> rfl
  rw [h, andThen_of]

@[simp] theorem both_pass (a : Audited Verdict) : a.both (of (.ok true)) = a := andThen_unchanged a
@[simp] theorem either_fail (a : Audited Verdict) : a.either (of (.ok false)) = a := andThen_unchanged a
@[simp] theorem pass_both (a : Audited Verdict) : (of (.ok true)).both a = a := of_ok_andThen _ _
@[simp] theorem fail_both (a : Audited Verdict) : (of (.ok false)).both a = of (.ok false) := of_ok_andThen _ _

end Audited

end Warden
