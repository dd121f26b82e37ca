/-
  Warden.Proofs.Construction — which declarations build a route, and what every route is like.

  Building reads lists of arguments one after the other: those of the route, unless it is for
  admins only, and those of each extension (`lists`). It ends at the first list that makes no
  rule, with the error of that list (`FirstFault`), and otherwise with a route (`build?_cases`).
  A route keeps the policy it was declared under and is `Formed`: its rule is `Shaped`, and
  the admin check stands in it if and only if the route was declared without arguments, once
  and at the end of the path that takes the first child each time. An extension puts one node
  on top (`formed_extend?`), so after `n` of them this path has `n` steps.

  - `builds_formed`: which declarations build, the error of any other, and the form of the route.
-/

import Warden.Proofs.Declaration
import Warden.Proofs.Rule.Shape

namespace Warden

/-- Some list makes no rule, the lists before it do, and this is the error. -/
inductive FirstFault (d : Delimiters) : List (List Argument) → AccessError → Prop
  | here {list : List Argument} {lists : List (List Argument)} {e : AccessError} :
      d.requirements? list = .error e → FirstFault d (list :: lists) e
  | later {list : List Argument} {lists : List (List Argument)} {rs : List Requirement} {e : AccessError} :
      d.requirements? list = .ok rs → FirstFault d lists e → FirstFault d (list :: lists) e

/-- Every list makes a rule. -/
def AllMade (d : Delimiters) (lists : List (List Argument)) : Prop :=
  ∀ list ∈ lists, ∃ rs, d.requirements? list = .ok rs

section

variable {d : Delimiters} {lists : List (List Argument)} {e e' : AccessError}

theorem FirstFault.unique (h : FirstFault d lists e) (h' : FirstFault d lists e') : e = e' := by
  induction h with
  | here hl =>
    cases h' with
    | here hl' => rw [hl] at hl'; cases hl'; rfl
    | later hl' _ => rw [hl] at hl'; cases hl'
  | later hl _ ih =>
    cases h' with
    | here hl' => rw [hl] at hl'; cases hl'
    | later _ hrest => exact ih hrest

theorem FirstFault.not_allMade (h : FirstFault d lists e) : ¬AllMade d lists := by
  induction h with
  | here hl =>
    intro hall
    obtain ⟨rs, hrs⟩ := hall _ List.mem_cons_self
    rw [hl] at hrs
    cases hrs
  | later _ _ ih => exact fun hall => ih fun list hlist => hall list (List.mem_cons_of_mem _ hlist)

end

/-! ## One list -/

theorem exists_map_ok {α β ε : Type} {x : Except ε α} {f : α → β} : (∃ y, x.map f = .ok y) ↔ ∃ a, x = .ok a := by
  cases x <;> simp [Except.map]

namespace Delimiters

variable {d : Delimiters}

theorem permission?_cases (d : Delimiters) (s : String) :
    (∃ p, d.permission? s = .ok p ∧ d.isRequested s = true) ∨
      ∃ fault, d.permission? s = .error fault ∧ d.isRequested s = false := by
  unfold permission?
  split
  · rename_i h
    exact .inl ⟨_, rfl, h⟩
  · rename_i h
    exact .inr ⟨_, rfl, Bool.eq_false_iff.mpr h⟩

theorem requirementsFrom_ok_iff (args : List Argument) (index : Nat) (seen : List String) :
    (∃ rs, d.requirementsFrom index seen args = .ok rs) ↔
      ∀ text, .permission text ∈ args → d.isRequested text = true := by
  induction args generalizing index seen with
  | nil => simp [requirementsFrom]
  | cons arg args ih =>
    cases arg with
    | permission s =>
      rw [requirementsFrom]
      rcases d.permission?_cases s with ⟨p, hp, hs⟩ | ⟨fault, hp, hs⟩
      · have hcons : (∀ text, .permission text ∈ Argument.permission s :: args → d.isRequested text = true) ↔
            ∀ text, .permission text ∈ args → d.isRequested text = true := by
          simp [hs]
        simp only [hp]
        split
        · rw [ih, hcons]
        · rw [exists_map_ok, ih, hcons]
      · simp [hp, hs]
    | predicate p => rw [requirementsFrom, exists_map_ok, ih]; simp

theorem requirements?_ok_iff (args : List Argument) :
    (∃ rs, d.requirements? args = .ok rs) ↔
      args ≠ [] ∧ ∀ text, .permission text ∈ args → d.isRequested text = true := by
  cases args with
  | nil =>
    constructor
    · rintro ⟨rs, h⟩
      cases h
    · rintro ⟨h, -⟩
      exact absurd rfl h
  | cons arg args =>
    have hfrom : d.requirements? (arg :: args) = d.requirementsFrom 0 [] (arg :: args) := rfl
    rw [hfrom, requirementsFrom_ok_iff]
    simp

end Delimiters

namespace Route

variable {policy : Policy} {args : List Argument} {extensions : List Extension} {r r' : Route}

/-! ## Building or not -/

/-- The lists that are read to build a route, in their order. -/
def lists (policy : Policy) (args : List Argument) (extensions : List Extension) : List (List Argument) :=
  (if args.isEmpty && policy.admin.isSome then [] else [args]) ++ extensions.map (·.args)

/-- The rule that an extension makes of two. -/
def Extension.around : Extension → Rule → Rule → Rule
  | .or _ => Rule.or
  | .butNot _ => Rule.butNot

theorem extend?_eq (r : Route) (e : Extension) :
    r.extend? e = (Rule.ofArguments? r.policy.delimiters e.args).map fun made =>
      { r with rule := e.around r.rule made } := by
  cases e <;> rfl

theorem extend?_cases (r : Route) (e : Extension) :
    (∃ err, r.policy.delimiters.requirements? e.args = .error err ∧ r.extend? e = .error err) ∨
      ∃ rs r', r.policy.delimiters.requirements? e.args = .ok rs ∧ r.extend? e = .ok r' ∧ r'.policy = r.policy := by
  rw [extend?_eq, Rule.ofArguments?]
  cases r.policy.delimiters.requirements? e.args with
  | error err => exact .inl ⟨err, rfl, rfl⟩
  | ok rs => exact .inr ⟨rs, _, rfl, rfl, rfl⟩

theorem extendAll_cases (more : List Extension) (r : Route) :
    (∃ err, FirstFault r.policy.delimiters (more.map (·.args)) err ∧ more.foldlM extend? r = .error err) ∨
      AllMade r.policy.delimiters (more.map (·.args)) ∧ ∃ r', more.foldlM extend? r = .ok r' := by
  induction more generalizing r with
  | nil => exact .inr ⟨fun _ h => absurd h List.not_mem_nil, r, rfl⟩
  | cons e more ih =>
    rw [List.foldlM_cons, List.map_cons]
    rcases extend?_cases r e with ⟨err, hlist, hextend⟩ | ⟨rs, r', hlist, hextend, hpolicy⟩
    · rw [hextend]
      exact .inl ⟨err, .here hlist, rfl⟩
    · rw [hextend, ← hpolicy]
      rw [← hpolicy] at hlist
      exact (ih r').imp (fun ⟨err, hfault, h⟩ => ⟨err, .later hlist hfault, h⟩)
        fun ⟨hall, h⟩ => ⟨List.forall_mem_cons.mpr ⟨⟨rs, hlist⟩, hall⟩, h⟩

theorem build?_cases (policy : Policy) (args : List Argument) (extensions : List Extension) :
    (∃ err, FirstFault policy.delimiters (lists policy args extensions) err ∧
      build? policy args extensions = .error err) ∨
      AllMade policy.delimiters (lists policy args extensions) ∧ ∃ r, build? policy args extensions = .ok r := by
  rw [build?, declare?, lists]
  split
  · exact extendAll_cases extensions ⟨policy, .admin, true⟩
  · rw [Rule.ofArguments?]
    cases hlist : policy.delimiters.requirements? args with
    | error err => exact .inl ⟨err, .here hlist, rfl⟩
    | ok rs =>
      have hrest := extendAll_cases extensions ⟨policy, Rule.ofRequirements rs, false⟩
      exact hrest.imp (fun ⟨err, hfault, h⟩ => ⟨err, .later hlist hfault, h⟩)
        fun ⟨hall, h⟩ => ⟨List.forall_mem_cons.mpr ⟨⟨rs, hlist⟩, hall⟩, h⟩

theorem build?_error_iff {err : AccessError} :
    build? policy args extensions = .error err ↔
      FirstFault policy.delimiters (lists policy args extensions) err := by
  rcases build?_cases policy args extensions with ⟨err', hfault, h⟩ | ⟨hall, r, h⟩
  · rw [h]
    constructor
    · intro he
      cases he
      exact hfault
    · intro hfault'
      rw [hfault'.unique hfault]
  · rw [h]
    constructor
    · intro he
      cases he
    · exact fun hfault => absurd hall hfault.not_allMade

theorem build?_ok_iff :
    (∃ r, build? policy args extensions = .ok r) ↔ AllMade policy.delimiters (lists policy args extensions) := by
  rcases build?_cases policy args extensions with ⟨err, hfault, h⟩ | ⟨hall, r, h⟩
  · rw [h]
    constructor
    · rintro ⟨r, hr⟩
      cases hr
    · exact fun hall => absurd hall hfault.not_allMade
  · exact ⟨fun _ => hall, fun _ => ⟨r, h⟩⟩

theorem allMade_extensions_iff :
    AllMade policy.delimiters (extensions.map (·.args)) ↔
      (∀ e ∈ extensions, e.args ≠ []) ∧ ∀ list ∈ extensions.map (·.args), ∀ text, .permission text ∈ list →
        policy.delimiters.isRequested text = true := by
  simp only [AllMade, Delimiters.requirements?_ok_iff, List.forall_mem_map]
  exact ⟨fun h => ⟨fun e he => (h e he).1, fun e he => (h e he).2⟩, fun h e he => ⟨h.1 e he, h.2 e he⟩⟩

/-- Only a route that is for admins alone can do without arguments. -/
theorem allMade_lists_iff :
    AllMade policy.delimiters (lists policy args extensions) ↔
      (args ≠ [] ∨ policy.admin.isSome = true) ∧ (∀ e ∈ extensions, e.args ≠ []) ∧
        ∀ list ∈ args :: extensions.map (·.args), ∀ text, .permission text ∈ list →
          policy.delimiters.isRequested text = true := by
  have hcons : AllMade policy.delimiters (args :: extensions.map (·.args)) ↔
      args ≠ [] ∧ (∀ e ∈ extensions, e.args ≠ []) ∧
        ∀ list ∈ args :: extensions.map (·.args), ∀ text, .permission text ∈ list →
          policy.delimiters.isRequested text = true := by
    rw [AllMade, List.forall_mem_cons, List.forall_mem_cons, Delimiters.requirements?_ok_iff]
    show _ ∧ AllMade policy.delimiters (extensions.map (·.args)) ↔ _
    rw [allMade_extensions_iff]
    exact ⟨fun ⟨⟨ha, ht⟩, he, hts⟩ => ⟨ha, he, ht, hts⟩, fun ⟨ha, he, ht, hts⟩ => ⟨⟨ha, ht⟩, he, hts⟩⟩
  rw [lists]
  by_cases hargs : args = []
  · subst hargs
    cases hadmin : policy.admin.isSome with
    | true => simp [allMade_extensions_iff]
    | false => simpa using hcons
  · simp [hargs, hcons]

/-! ## The form of a route -/

/-- The route was declared under the policy with the arguments, and extended `n` times. -/
structure Formed (policy : Policy) (args : List Argument) (n : Nat) (r : Route) : Prop where
  policy_eq : r.policy = policy
  shaped : r.rule.Shaped policy.delimiters
  admin_iff : ∀ place, r.rule.at? place = some .admin ↔ args = [] ∧ place = List.replicate n 0

theorem formed_declare? (h : declare? policy args = .ok r) : Formed policy args 0 r := by
  unfold declare? at h
  split at h
  · rename_i hc
    have hargs : args = [] := List.isEmpty_iff.mp (Bool.and_eq_true_iff.mp hc).1
    cases h
    refine ⟨rfl, ?_, ?_⟩
    · rintro (_ | ⟨i, q⟩) node h
      · cases h
        trivial
      · cases h
    · rintro (_ | ⟨i, q⟩) <;> simp [Rule.at?, hargs]
  · obtain ⟨rule, hrule, rfl⟩ := map_ok h
    have hargs := Rule.ofArguments?_ne_nil hrule
    refine ⟨rfl, Rule.shaped_ofArguments? hrule, fun place => ?_⟩
    simp [hargs, Rule.admin_ofArguments? hrule place]

theorem formed_extend? {n : Nat} (hr : Formed policy args n r) {e : Extension} (h : r.extend? e = .ok r') :
    Formed policy args (n + 1) r' := by
  rw [extend?_eq, hr.policy_eq] at h
  obtain ⟨made, hmade, rfl⟩ := map_ok h
  have hshaped := Rule.shaped_ofArguments? hmade
  have hnone := Rule.admin_ofArguments? hmade
  have hdown : ∀ place, (∃ q, place = 0 :: q ∧ r.rule.at? q = some .admin) ↔
      args = [] ∧ place = List.replicate (n + 1) 0 := by
    intro place
    simp only [hr.admin_iff, List.replicate_succ]
    constructor
    · rintro ⟨q, rfl, hargs, rfl⟩
      exact ⟨hargs, rfl⟩
    · rintro ⟨hargs, rfl⟩
      exact ⟨_, rfl, hargs, rfl⟩
  cases e with
  | or alternatives =>
    exact ⟨rfl, Rule.shaped_or hr.shaped hshaped, fun place => (Rule.at?_or_admin hnone).trans (hdown place)⟩
  | butNot exclusions =>
    exact ⟨rfl, Rule.shaped_butNot hr.shaped hshaped,
      fun place => (Rule.at?_butNot_admin hnone).trans (hdown place)⟩

theorem formed_extendAll (more : List Extension) {n : Nat} (hr : Formed policy args n r)
    (h : more.foldlM extend? r = .ok r') : Formed policy args (n + more.length) r' := by
  induction more generalizing n r with
  | nil => cases h; exact hr
  | cons e more ih =>
    rw [List.foldlM_cons] at h
    obtain ⟨s, hs, h⟩ := bind_ok h
    have hformed := ih (formed_extend? hr hs) h
    rwa [Nat.add_right_comm, Nat.add_assoc] at hformed

theorem formed_build? (h : build? policy args extensions = .ok r) : Formed policy args extensions.length r := by
  obtain ⟨s, hs, h⟩ := bind_ok h
  have hformed := formed_extendAll extensions (formed_declare? hs) h
  rwa [Nat.zero_add] at hformed

/-- A declaration builds if it has arguments or the policy an admin check, if its extensions have
    arguments, and if each text in them is a permission that can be requested. Otherwise the error
    is that of the first list that makes no rule. A route that was built has the policy. It is
    for admins only if there were no arguments, and just then the admin check stands in its rule,
    once, as the leaf that is reached by the first children. Each node has its place: two children
    or more below an `all` or `any`, a `not` as the second child of an `all` of two, and only
    permissions that can be requested, without wildcards. -/
theorem builds_formed (policy : Policy) (args : List Argument) (extensions : List Extension) :
    ((∃ r, build? policy args extensions = .ok r) ↔
      (args ≠ [] ∨ policy.admin.isSome = true) ∧ (∀ e ∈ extensions, e.args ≠ []) ∧
        ∀ list ∈ args :: extensions.map (·.args), ∀ text, .permission text ∈ list →
          policy.delimiters.isRequested text = true) ∧
    (∀ err, build? policy args extensions = .error err ↔
      FirstFault policy.delimiters (lists policy args extensions) err) ∧
    ∀ r, build? policy args extensions = .ok r →
      r.policy = policy ∧ (r.adminOnly = true ↔ args = []) ∧
      (∀ place, r.rule.at? place = some .admin ↔ args = [] ∧ place = List.replicate extensions.length 0) ∧
      ∀ place node, r.rule.at? place = some node → Rule.Placed policy.delimiters r.rule place node := by
  refine ⟨build?_ok_iff.trans allMade_lists_iff, fun err => build?_error_iff, fun r h => ?_⟩
  have hformed := formed_build? h
  exact ⟨hformed.policy_eq, (built_as h).adminOnly_iff, hformed.admin_iff, hformed.shaped⟩

/-- For admins but not the suspended ones, or for moderators, who are named twice. Without
    anything in its extension the declaration fails there, whatever comes after. -/
theorem builds_formed_for_admins :
    let mods : List Argument := [.permission "mod", .permission "mod"]
    let extensions : List Extension := [.butNot [.permission "suspended"], .or mods]
    ∃ policy r, Policy.of? { adminKey := some (.dotted "admin") } = .ok policy ∧
      build? policy [] extensions = .ok r ∧ r.adminOnly = true ∧ r.rule.at? [0, 0] = some .admin ∧
      (∀ place, r.rule.at? place = some .admin → place = [0, 0]) ∧
      Rule.Placed policy.delimiters r.rule [0, 1] (.not (.permission (.ofText ':' "suspended"))) ∧
      build? policy [] [.or [], .butNot [.permission "a*"]] = .error .emptyArgument := by
  intro mods extensions
  have hrun : ∃ policy r, Policy.of? { adminKey := some (.dotted "admin") } = .ok policy ∧
      build? policy [] extensions = .ok r ∧
      r.rule.at? [0, 1] = some (.not (.permission (.ofText ':' "suspended"))) ∧
      policy.delimiters.requirements? [] = .error .emptyArgument ∧ policy.admin.isSome = true := by
    dsimp only [extensions, mods]
    exact ⟨_, _, rfl, rfl, rfl, rfl, rfl⟩
  obtain ⟨policy, r, hpolicy, hb, hnot, hempty, hadmin⟩ := hrun
  obtain ⟨-, -, hformed⟩ := builds_formed policy [] extensions
  obtain ⟨-, honly, hplace, hplaced⟩ := hformed r hb
  have hfault : FirstFault policy.delimiters (lists policy [] [.or [], .butNot [.permission "a*"]]) .emptyArgument := by
    rw [lists, hadmin]
    exact .here hempty
  refine ⟨policy, r, hpolicy, hb, honly.mpr rfl, (hplace _).mpr ⟨rfl, rfl⟩, fun place h => ((hplace place).mp h).2,
    hplaced _ _ hnot, ?_⟩
  exact ((builds_formed policy [] _).2.1 _).mpr hfault

end Route

end Warden
