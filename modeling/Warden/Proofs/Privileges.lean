/-
  Warden.Proofs.Privileges — claims compared as sets of privileges.

  A route that asks for permissions alone decides two tokens by what their claims grant. The
  order of a claim, repetitions in it and the way it is written do not show, and where nothing
  is excluded, a claim with more elements is never refused what one with less is granted.

  Contexts are compared by their grants (`Narrower`) and verdicts by what they let pass
  (`Implies`). What arguments and alternatives come to keeps this order (`answers_implies`,
  `asked_implies`), and so does the refusal of empty grants (`passes_mono`). An exclusion
  turns the order around. For contexts with the same grants it holds both ways, so that their
  verdicts are equal whatever is made of them (`asked_congr`).

  - `same_privileges`: equal sets of elements get the same decision, and a route without
    exclusions grants to more elements what it grants to less.
-/

import Warden.Proofs.Claim
import Warden.Proofs.Decision

namespace Warden

/-! ## More grants -/

namespace Grants

variable {g h : Grants}

theorem contains_mono (hs : g.permissions ⊆ h.permissions) {p : Permission} (hc : g.contains p = true) :
    h.contains p = true := by
  obtain ⟨granted, hmem, hcovers⟩ := List.any_eq_true.mp hc
  exact List.any_eq_true.mpr ⟨granted, hs hmem, hcovers⟩

theorem isEmpty_mono (hs : g.permissions ⊆ h.permissions) (he : h.isEmpty = true) : g.isEmpty = true := by
  have hnil : h.permissions = [] := List.isEmpty_iff.mp he
  rw [hnil] at hs
  exact List.isEmpty_iff.mpr (List.subset_nil.mp hs)

end Grants

/-- Both contexts or none are an admin's, and the second grants all that the first does. -/
structure Context.Narrower (ctx wider : Context) : Prop where
  isAdmin_eq : ctx.view.isAdmin = wider.view.isAdmin
  granted : ctx.grants.permissions ⊆ wider.grants.permissions

/-! ## Verdicts without calls -/

namespace Audited

/-- Neither verdict takes a call or is a denial, and the first is a pass only if the second is one. -/
def Implies (a b : Audited Verdict) : Prop :=
  ∃ x y : Bool, a = of (.ok x) ∧ b = of (.ok y) ∧ (x = true → y = true)

variable {a a' b b' : Audited Verdict}

theorem both_of (x y : Bool) : (of (.ok x)).both (of (.ok y)) = of (.ok (x && y)) := by
  cases x <;> rfl

theorem either_of (x y : Bool) : (of (.ok x)).either (of (.ok y)) = of (.ok (x || y)) := by
  cases x <;> rfl

theorem Implies.both (h : a.Implies b) (h' : a'.Implies b') : (a.both a').Implies (b.both b') := by
  obtain ⟨x, y, rfl, rfl, hxy⟩ := h
  obtain ⟨x', y', rfl, rfl, hxy'⟩ := h'
  refine ⟨x && x', y && y', both_of x x', both_of y y', fun hx => ?_⟩
  rw [Bool.and_eq_true] at hx ⊢
  exact hx.imp hxy hxy'

theorem Implies.either (h : a.Implies b) (h' : a'.Implies b') : (a.either a').Implies (b.either b') := by
  obtain ⟨x, y, rfl, rfl, hxy⟩ := h
  obtain ⟨x', y', rfl, rfl, hxy'⟩ := h'
  refine ⟨x || x', y || y', either_of x x', either_of y y', fun hx => ?_⟩
  rw [Bool.or_eq_true] at hx ⊢
  exact hx.imp hxy hxy'

theorem Implies.antisymm (h : a.Implies b) (h' : b.Implies a) : a = b := by
  obtain ⟨x, y, rfl, rfl, hxy⟩ := h
  obtain ⟨y', x', hy, hx, hyx⟩ := h'
  cases hx
  cases hy
  rw [Bool.eq_iff_iff.mpr ⟨hxy, hyx⟩]

end Audited

open Audited

/-! ## Asking for permissions alone -/

def Argument.IsPermission (arg : Argument) : Prop := ∃ text, arg = .permission text

/-- Whether the token is an admin's by the value at the admin path. -/
def Policy.adminFlag (policy : Policy) (token : Json) : Bool :=
  match policy.admin with
  | some (.path p) => p.valueAt token == .bool true
  | _ => false

theorem Policy.adminAnswer_of_flag {policy : Policy} (h : policy.adminPredicate? = none) (q : Request)
    (grants : Grants) : policy.adminAnswer q grants = of (.ok (policy.adminFlag (policy.tokenOf q))) := by
  unfold adminPredicate? at h
  unfold adminAnswer adminFlag
  cases ha : policy.admin with
  | none => rfl
  | some check =>
    cases check with
    | path p => rfl
    | predicate p => rw [ha] at h; cases h

section

variable {d : Delimiters} {ctx wider : Context}

theorem answers_implies (hc : ctx.Narrower wider) {args : List Argument} (hargs : ∀ arg ∈ args, arg.IsPermission) :
    (answers d ctx args).Implies (answers d wider args) := by
  induction args with
  | nil => exact ⟨true, true, rfl, rfl, id⟩
  | cons arg args ih =>
    obtain ⟨⟨text, rfl⟩, hrest⟩ := List.forall_mem_cons.mp hargs
    have hfirst : ((Argument.permission text).answer d ctx).Implies ((Argument.permission text).answer d wider) :=
      ⟨_, _, rfl, rfl, Grants.contains_mono hc.granted⟩
    exact hfirst.both (ih hrest)

end

namespace Route

variable {policy : Policy} {args : List Argument} {extensions : List Extension} {ctx wider : Context} {r : Route}

theorem declared_implies (hc : ctx.Narrower wider) (hargs : ∀ arg ∈ args, arg.IsPermission) :
    (declared policy args ctx).Implies (declared policy args wider) := by
  unfold declared
  split
  · exact ⟨_, _, rfl, rfl, fun h => by rw [← hc.isAdmin_eq, h]⟩
  · exact answers_implies hc hargs

/-- An alternative keeps the order of the verdicts before it. -/
theorem asked_implies (hc : ctx.Narrower wider) (hargs : ∀ arg ∈ args, arg.IsPermission)
    (hextensions : ∀ e ∈ extensions, ∀ arg ∈ e.args, arg.IsPermission)
    (halternatives : ∀ e ∈ extensions, ∃ alternative, e = .or alternative) :
    (asked policy args extensions ctx).Implies (asked policy args extensions wider) := by
  refine List.foldl_rel (declared_implies hc hargs) fun e he before before' hbefore => ?_
  obtain ⟨alternative, rfl⟩ := halternatives e he
  exact hbefore.either (answers_implies hc (hextensions _ he))

theorem extended_congr {d : Delimiters} {e : Extension} (h : answers d ctx e.args = answers d wider e.args)
    (before : Audited Verdict) : extended d ctx before e = extended d wider before e := by
  cases e with
  | or alternative => exact congrArg before.either h
  | butNot exclusion => exact congrArg (fun answer => before.both answer.negated) h

/-- Exclusions do not matter where both contexts have the same grants. -/
theorem asked_congr (hc : ctx.Narrower wider) (hc' : wider.Narrower ctx) (hargs : ∀ arg ∈ args, arg.IsPermission)
    (hextensions : ∀ e ∈ extensions, ∀ arg ∈ e.args, arg.IsPermission) :
    asked policy args extensions ctx = asked policy args extensions wider := by
  have hdeclared : declared policy args ctx = declared policy args wider :=
    (declared_implies hc hargs).antisymm (declared_implies hc' hargs)
  refine List.foldl_rel hdeclared fun e he before before' hbefore => ?_
  have hanswers : answers policy.delimiters ctx e.args = answers policy.delimiters wider e.args :=
    (answers_implies hc (hextensions e he)).antisymm (answers_implies hc' (hextensions e he))
  rw [hbefore, extended_congr hanswers]

/-! ## Passing -/

theorem passes_congr (hr : As policy args extensions r) (hc : ctx.Narrower wider) (hc' : wider.Narrower ctx)
    (hasked : asked policy args extensions ctx = asked policy args extensions wider) :
    r.passes ctx = r.passes wider := by
  have hempty : ctx.grants.isEmpty = wider.grants.isEmpty :=
    Bool.eq_iff_iff.mpr ⟨Grants.isEmpty_mono hc'.granted, Grants.isEmpty_mono hc.granted⟩
  unfold passes
  rw [hr.eval_rule, hr.eval_rule, hasked, hc.isAdmin_eq, hempty]

theorem passes_mono (hr : As policy args extensions r) (hc : ctx.Narrower wider)
    (hasked : (asked policy args extensions ctx).Implies (asked policy args extensions wider))
    (h : (r.passes ctx).result = .ok true) : (r.passes wider).result = .ok true := by
  obtain ⟨x, y, hx, hy, hxy⟩ := hasked
  unfold passes at h ⊢
  rw [hr.eval_rule, hx, hc.isAdmin_eq] at h
  rw [hr.eval_rule, hy]
  split at h
  · rename_i hbypass
    rw [if_pos hbypass]
    rfl
  · rename_i hbypass
    rw [if_neg hbypass]
    split at h
    · cases h
    · rename_i hrefused
      -- more grants are not empty either
      have hgranted : ¬(r.policy.scopeRequired && !wider.view.isAdmin && wider.grants.isEmpty) = true := by
        simp only [Bool.and_eq_true, not_and] at hrefused ⊢
        exact fun hs he => hrefused hs (Grants.isEmpty_mono hc.granted he)
      rw [if_neg hgranted]
      cases h
      rw [hxy rfl]
      rfl

/-! ## Decisions -/

/-- The request has a token with a claim that is read, and these are the elements of the claim. -/
structure Presents (policy : Policy) (q : Request) (elements : List String) : Prop where
  readable : ∃ grants, Readable policy q grants
  elements_eq : Claim.elements policy.delimiters.claim (policy.claimOf q) = .ok elements

/-- The context of a request whose claim has the given elements, if no predicate tells who is an admin. -/
def presented (policy : Policy) (q : Request) (elements : List String) : Context :=
  policy.contextOf q ⟨elements.map (.ofText policy.delimiters.scope)⟩ (policy.adminFlag (policy.tokenOf q))

def Granted (r : Route) (q : Request) : Prop := ∃ c, (r.examine q).1.result = .ok (.granted c)

variable {p q : Request} {xs ys : List String}

theorem Presents.readable_elements (h : Presents policy q xs) :
    Readable policy q ⟨xs.map (.ofText policy.delimiters.scope)⟩ := by
  obtain ⟨⟨permissions⟩, htoken, hclaim⟩ := h.readable
  obtain ⟨elements, helements, -, hpermissions⟩ := Delimiters.grants?_ok hclaim
  rw [h.elements_eq] at helements
  cases helements
  replace hpermissions : permissions = _ := hpermissions
  rw [hpermissions] at hclaim
  exact ⟨htoken, hclaim⟩

theorem examine_presented (hadmin : r.policy.adminPredicate? = none) (h : Presents r.policy q xs) :
    (r.examine q).1 = r.settled (presented r.policy q xs) := by
  show r.judge q = _
  rw [judge_readable h.readable_elements, Policy.adminAnswer_of_flag hadmin]
  rfl

theorem presented_narrower (hflag : policy.adminFlag (policy.tokenOf p) = policy.adminFlag (policy.tokenOf q))
    (hs : xs ⊆ ys) : (presented policy p xs).Narrower (presented policy q ys) :=
  ⟨hflag, List.map_subset _ hs⟩

theorem settled_alike (h : r.passes ctx = r.passes wider) :
    ((∃ c, (r.settled ctx).result = .ok (.granted c)) ∧ ∃ c, (r.settled wider).result = .ok (.granted c)) ∨
      ∃ e, (r.settled ctx).result = .error e ∧ (r.settled wider).result = .error e := by
  unfold settled
  rw [h]
  cases hp : (r.passes wider).result with
  | error e =>
    rw [Audited.andThen_error hp, Audited.andThen_error hp]
    exact .inr ⟨e, rfl, rfl⟩
  | ok b =>
    rw [Audited.andThen_ok hp, Audited.andThen_ok hp]
    cases b with
    | true => exact .inl ⟨⟨_, rfl⟩, _, rfl⟩
    | false => exact .inr ⟨_, rfl, rfl⟩

/-- A route that asks for permissions alone, under a policy without a predicate for admins, decides
    two tokens by the elements of their claims, given that both or none are an admin's. Equal sets
    get the same decision. Without exclusions, what is granted to a set is granted to every set
    that includes it. The elements may be written in one text or item by item. -/
theorem same_privileges (hb : build? policy args extensions = .ok r) (hadmin : policy.adminPredicate? = none)
    (hargs : ∀ arg ∈ args, arg.IsPermission) (hextensions : ∀ e ∈ extensions, ∀ arg ∈ e.args, arg.IsPermission)
    (hp : Presents policy p xs) (hq : Presents policy q ys)
    (hflag : policy.adminFlag (policy.tokenOf p) = policy.adminFlag (policy.tokenOf q)) :
    ((∀ x, x ∈ xs ↔ x ∈ ys) → (r.Granted p ∧ r.Granted q) ∨
      ∃ e, (r.examine p).1.result = .error e ∧ (r.examine q).1.result = .error e) ∧
    ((∀ e ∈ extensions, ∃ alternative, e = .or alternative) → xs ⊆ ys → r.Granted p → r.Granted q) ∧
    ∀ zs : List String, (∀ z ∈ zs, policy.delimiters.isGranted z = true) →
      Claim.elements policy.delimiters.claim (.string (Text.glue policy.delimiters.claim zs)) = .ok zs ∧
      Claim.elements policy.delimiters.claim (.array (zs.map .string)) = .ok zs := by
  have hr : As policy args extensions r := built_as hb
  obtain rfl := hr.policy_eq
  unfold Granted
  rw [examine_presented hadmin hp, examine_presented hadmin hq]
  refine ⟨fun hsame => ?_, fun halternatives hsub ⟨c, hgranted⟩ => ?_, fun zs => Delimiters.elements_of_granted⟩
  · have hc := presented_narrower hflag fun x hx => (hsame x).mp hx
    have hc' := presented_narrower hflag.symm fun y hy => (hsame y).mpr hy
    exact settled_alike (passes_congr hr hc hc' (asked_congr hc hc' hargs hextensions))
  · have hc := presented_narrower hflag hsub
    have hpasses := passes_mono hr hc (asked_implies hc hargs hextensions halternatives)
    exact ⟨_, settled_granted_iff.mpr ⟨hpasses (settled_granted_iff.mp hgranted).1, rfl⟩⟩

/-- The alternative is granted to the smaller of two claims and so to the larger. The exclusion
    refuses a text and an array with the same elements alike. -/
theorem same_privileges_written_otherwise :
    let carrying (scope : Json) : Request := { document := some (.object [("user", .object [("scope", scope)])]) }
    let small := carrying (.string "user:*")
    let spelled := carrying (.string "read,user:*,read")
    let listed := carrying (.array [.string "user:*", .string "read"])
    ∃ policy r s, Policy.of? { scopeRequired := some true } = .ok policy ∧
      build? policy [.permission "moderator"] [.or [.permission "user:add"]] = .ok r ∧
      build? policy [.permission "read"] [.butNot [.permission "user:ban"]] = .ok s ∧
      r.Granted small ∧ r.Granted listed ∧
      ∃ e, (s.examine spelled).1.result = .error e ∧ (s.examine listed).1.result = .error e := by
  intro carrying small spelled listed
  have hrun : ∃ policy r s, Policy.of? { scopeRequired := some true } = .ok policy ∧
      build? policy [.permission "moderator"] [.or [.permission "user:add"]] = .ok r ∧
      build? policy [.permission "read"] [.butNot [.permission "user:ban"]] = .ok s ∧
      policy.adminPredicate? = none ∧
      policy.adminFlag (policy.tokenOf small) = policy.adminFlag (policy.tokenOf listed) ∧
      policy.adminFlag (policy.tokenOf spelled) = policy.adminFlag (policy.tokenOf listed) ∧
      Presents policy small ["user:*"] ∧ Presents policy spelled ["read", "user:*", "read"] ∧
      Presents policy listed ["user:*", "read"] ∧ r.Granted small ∧
      (s.examine spelled).1.result = .error (.forbidden .ruleFailed) := by
    dsimp only [carrying, small, spelled, listed]
    exact ⟨_, _, _, rfl, rfl, rfl, rfl, rfl, rfl, ⟨⟨_, nofun, rfl⟩, rfl⟩, ⟨⟨_, nofun, rfl⟩, rfl⟩,
      ⟨⟨_, nofun, rfl⟩, rfl⟩, ⟨_, rfl⟩, rfl⟩
  obtain ⟨policy, r, s, hpolicy, hr, hs, hadmin, hflag, hflag', hsmall, hspelled, hlisted, hgranted, herror⟩ := hrun
  have hwider := (same_privileges hr hadmin (by simp [Argument.IsPermission])
    (by simp [Extension.args, Argument.IsPermission]) hsmall hlisted hflag).2.1 (by simp) (by simp) hgranted
  have hsame := (same_privileges hs hadmin (by simp [Argument.IsPermission])
    (by simp [Extension.args, Argument.IsPermission]) hspelled hlisted hflag').1 (by simp)
  refine ⟨policy, r, s, hpolicy, hr, hs, hgranted, hwider, ?_⟩
  rcases hsame with ⟨⟨c, hc⟩, -⟩ | herrors
  · rw [herror] at hc
    cases hc
  · exact herrors

end Route

end Warden
