/-
  Warden.Proofs.Path.Composed — one path after another.

  Following a path and then another one is following both in one (`append`), whose dotted
  form has a point between theirs. A null counts as absent at the end of a path only; one in the
  middle is a value without anything below, so that nothing is found there either way
  (`find?_append`). A decision looks for its claim and its admin flag below the token, and so
  they stand at paths of the whole document.

  - `index?_eq_some_iff`: the segments that name an item of an array, and which.
  - `claimOf_document`, `adminAnswer_document`: claim and admin flag from the document.
  - `looked_up_in_turn`: lookups one after another, and what they mean for a decision.
-/

import Mathlib.Data.Nat.Digits.Defs
import Warden.Proofs.Capability
import Warden.Proofs.Path

namespace Warden

theorem Text.join_append (d : Char) {ps qs : List (List Char)} (hp : ps ≠ []) (hq : qs ≠ []) :
    join d (ps ++ qs) = join d ps ++ d :: join d qs := by
  induction ps with
  | nil => exact absurd rfl hp
  | cons p ps ih =>
    cases ps with
    | nil =>
      obtain ⟨q, rest, rfl⟩ := List.exists_cons_of_ne_nil hq
      exact join_cons_cons d p q rest
    | cons p' ps =>
      have hrest := ih (List.cons_ne_nil _ _)
      rw [List.cons_append, List.cons_append, join_cons_cons, join_cons_cons, ← List.cons_append, hrest]
      simp

namespace DocPath

variable {p q : DocPath} {root v : Json}

/-! ## Paths put together -/

/-- The path that leads along `p` and from there along `q`. -/
def append (p q : DocPath) : DocPath where
  segments := p.segments ++ q.segments
  nonempty := by simp [p.nonempty]
  plain s hs := (List.mem_append.mp hs).elim (p.plain s) (q.plain s)

theorem dotted_append (p q : DocPath) : (p.append q).dotted = p.dotted ++ "." ++ q.dotted := by
  have hjoin : Text.join '.' (p.segments.map String.toList ++ q.segments.map String.toList) =
      Text.join '.' (p.segments.map String.toList) ++ '.' :: Text.join '.' (q.segments.map String.toList) :=
    Text.join_append '.' (by simp [p.nonempty]) (by simp [q.nonempty])
  apply String.toList_injective
  simp [dotted, append, Text.glue, hjoin]

theorem of?_append (option : Options.Key) (p q : DocPath) :
    of? option (.dotted (p.dotted ++ "." ++ q.dotted)) = .ok (p.append q) := by
  rw [← dotted_append]
  exact of?_input option .dotted (p.append q)

theorem find?_append (p q : DocPath) (root : Json) : (p.append q).find? root = p.find? root >>= q.find? := by
  have hwalk : walk? (p.append q).segments root = walk? p.segments root >>= walk? q.segments :=
    walk?_append p.segments q.segments root
  unfold find?
  rw [hwalk]
  cases walk? p.segments root with
  | none => rfl
  | some v =>
    by_cases hv : v = .null
    · -- nothing stands below a null
      subst hv
      obtain ⟨s, rest, hs⟩ := List.exists_cons_of_ne_nil q.nonempty
      rw [hs]
      rfl
    · have hkeep : v.isNull = false := Bool.eq_false_iff.mpr fun h => hv (Json.isNull_iff.mp h)
      have hfound : (some v).filter (!·.isNull) = some v := by simp [hkeep]
      rw [hfound]
      rfl

/-! ## Items of arrays -/

/-- The number that decimal digits write. -/
def decimal (ds : List Char) : Nat := Nat.ofDigits 10 (ds.reverse.map fun d => d.toNat - '0'.toNat)

theorem foldl_decimal (ds : List Char) : ds.foldl (fun n d => 10 * n + (d.toNat - 48)) 0 = decimal ds := by
  rw [decimal, Nat.ofDigits_eq_foldr, List.foldr_map, List.foldl_eq_foldr_reverse]
  congr 1
  funext d n
  exact Nat.add_comm _ _

/-- The segment is these decimal digits, behind a plus sign if there is one. -/
structure Numeral (segment : String) (ds : List Char) : Prop where
  sign : segment.toList = ds ∨ segment.toList = '+' :: ds
  ne_nil : ds ≠ []
  digits : ∀ d ∈ ds, d.isDigit = true

/-- The text behind a plus sign, if there is one. -/
def unsigned : List Char → List Char
  | '+' :: rest => rest
  | ds => ds

theorem unsigned_cases (cs : List Char) : cs = unsigned cs ∨ cs = '+' :: unsigned cs := by
  unfold unsigned
  split
  · exact .inr rfl
  · exact .inl rfl

theorem unsigned_of_digits {ds : List Char} (h : ∀ d ∈ ds, d.isDigit = true) : unsigned ds = ds := by
  unfold unsigned
  split
  · exact absurd (h '+' List.mem_cons_self) (by decide)
  · rfl

theorem index?_eq (segment : String) :
    index? segment =
      if unsigned segment.toList ≠ [] ∧ (unsigned segment.toList).all Char.isDigit = true then
        if decimal (unsigned segment.toList) < 2 ^ 64 then some (decimal (unsigned segment.toList)) else none
      else none := by
  rw [← foldl_decimal]
  rfl

theorem index?_eq_some_iff {segment : String} {n : Nat} :
    index? segment = some n ↔ ∃ ds, Numeral segment ds ∧ decimal ds < 2 ^ 64 ∧ decimal ds = n := by
  rw [index?_eq]
  constructor
  · intro h
    split at h
    · rename_i hdigits
      split at h
      · rename_i hlt
        exact ⟨_, ⟨unsigned_cases _, hdigits.1, List.all_eq_true.mp hdigits.2⟩, hlt, Option.some.inj h⟩
      · cases h
    · cases h
  · rintro ⟨ds, hnum, hlt, rfl⟩
    have hds : unsigned segment.toList = ds := by
      rcases hnum.sign with h | h
      · rw [h, unsigned_of_digits hnum.digits]
      · rw [h]
        rfl
    rw [hds, if_pos ⟨hnum.ne_nil, List.all_eq_true.mpr hnum.digits⟩, if_pos hlt]

theorem step?_array_iff {segment : String} {items : List Json} :
    step? segment (.array items) = some v ↔ ∃ ds, Numeral segment ds ∧ decimal ds < 2 ^ 64 ∧
      ∃ h : decimal ds < items.length, items[decimal ds] = v := by
  have hstep : step? segment (.array items) = (index? segment).bind (items[·]?) := rfl
  rw [hstep, Option.bind_eq_some_iff]
  constructor
  · rintro ⟨n, hn, hv⟩
    obtain ⟨ds, hnum, hlt, rfl⟩ := index?_eq_some_iff.mp hn
    exact ⟨ds, hnum, hlt, List.getElem?_eq_some_iff.mp hv⟩
  · rintro ⟨ds, hnum, hlt, hv⟩
    exact ⟨_, index?_eq_some_iff.mpr ⟨ds, hnum, hlt, rfl⟩, List.getElem?_eq_some_iff.mpr hv⟩

end DocPath

/-! ## What a decision looks up -/

variable {policy : Policy} {r : Route} {q : Request} {document token : Json} {grants : Grants}

namespace Policy

/-- The path of the document that leads to the token and from there along `p`. -/
def below (policy : Policy) (p : DocPath) : DocPath := policy.tokenKey.append p

theorem find?_below (ht : policy.tokenKey.find? document = some token) (p : DocPath) :
    (policy.below p).find? document = p.find? token := by
  rw [below, DocPath.find?_append, ht]
  rfl

theorem tokenOf_found (hq : q.document = some document) (ht : policy.tokenKey.find? document = some token) :
    policy.tokenOf q = token := by
  rw [tokenOf, hq]
  show policy.tokenKey.valueAt document = token
  rw [← DocPath.getD_find?, ht]
  rfl

theorem claimOf_document (hq : q.document = some document) (ht : policy.tokenKey.find? document = some token) :
    policy.claimOf q = ((policy.below policy.scopeKey).find? document).getD .null := by
  rw [claimOf, tokenOf_found hq ht, find?_below ht, DocPath.getD_find?]

theorem contextOf_document (hq : q.document = some document) (ht : policy.tokenKey.find? document = some token)
    (grants : Grants) (isAdmin : Bool) :
    policy.contextOf q grants isAdmin =
      ⟨grants, ⟨token, ((policy.below policy.scopeKey).find? document).getD .null, q.summary, isAdmin⟩⟩ := by
  rw [contextOf, tokenOf_found hq ht, claimOf_document hq ht]

theorem adminAnswer_document (hq : q.document = some document) (ht : policy.tokenKey.find? document = some token)
    {p : DocPath} (hp : policy.admin = some (.path p)) (grants : Grants) :
    policy.adminAnswer q grants = .of (.ok (decide ((policy.below p).find? document = some (.bool true)))) := by
  rw [adminAnswer, hp, find?_below ht]
  show Audited.of (Except.ok (p.valueAt (policy.tokenOf q) == .bool true)) = _
  rw [tokenOf_found hq ht, ← DocPath.find?_eq_true, beq_eq_decide]

end Policy

namespace Route

theorem tokenOf_ne_null (hq : q.document = some document) (ht : r.policy.tokenKey.find? document = some token) :
    r.policy.tokenOf q ≠ .null := by
  rw [Policy.tokenOf_found hq ht]
  exact DocPath.find?_ne_null ht

theorem readable_document (hq : q.document = some document) (ht : r.policy.tokenKey.find? document = some token)
    (hg : r.policy.delimiters.grants? (((r.policy.below r.policy.scopeKey).find? document).getD .null) = .ok grants) :
    Readable r.policy q grants where
  token := tokenOf_ne_null hq ht
  claim := by rwa [Policy.claimOf_document hq ht]

/-- What a granted request may do was found at paths of its document. -/
structure HeldIn (policy : Policy) (document token : Json) (c : Capability) : Prop where
  token_eq : c.context.view.token = token
  claim_eq : c.context.view.claim = ((policy.below policy.scopeKey).find? document).getD .null
  grants : policy.delimiters.grants? c.context.view.claim = .ok c.grants
  admin : ∀ p, policy.admin = some (.path p) →
    (c.isAdmin = true ↔ (policy.below p).find? document = some (.bool true))

theorem granted_document (hq : q.document = some document) (ht : r.policy.tokenKey.find? document = some token)
    {c : Capability} (hc : (r.examine q).1.result = .ok (.granted c)) : HeldIn r.policy document token c := by
  have hheld : Held r.policy q c := granted_held hc
  have hcontext := hheld.context_eq
  rw [Policy.contextOf_document hq ht] at hcontext
  refine ⟨by rw [hcontext], by rw [hcontext], ?_, fun p hp => ?_⟩
  · rw [hcontext, ← Policy.claimOf_document hq ht]
    exact hheld.claim
  · have hadmin := hheld.admin
    rw [Policy.adminAnswer_document hq ht hp] at hadmin
    rw [← Except.ok.inj hadmin]
    exact decide_eq_true_iff

/-- A lookup along two paths in one is the second lookup in what the first one found, and no lookup
    finds null. In an array a segment leads to an item exactly if it is the number of one. So a
    decision that finds a token reads the claim at one path of the whole document, and the flag of an
    admin path is true exactly if the value at another one is, whether the claim is refused, the rule is
    evaluated or a capability is granted. -/
theorem looked_up_in_turn :
    (∀ (option : Options.Key) (p q : DocPath),
      DocPath.of? option (.dotted (p.dotted ++ "." ++ q.dotted)) = .ok (p.append q) ∧
      ∀ root, (p.append q).find? root = p.find? root >>= q.find?) ∧
    (∀ (p : DocPath) root, p.find? root ≠ some .null) ∧
    (∀ segment items v, DocPath.step? segment (.array items) = some v ↔
      ∃ ds, DocPath.Numeral segment ds ∧ DocPath.decimal ds < 2 ^ 64 ∧
        ∃ h : DocPath.decimal ds < items.length, items[DocPath.decimal ds] = v) ∧
    ∀ (r : Route) (q : Request) (document token : Json), q.document = some document →
      r.policy.tokenKey.find? document = some token →
      let claim := ((r.policy.below r.policy.scopeKey).find? document).getD .null
      let context (grants : Grants) (isAdmin : Bool) : Context := ⟨grants, ⟨token, claim, q.summary, isAdmin⟩⟩
      (∀ fault, r.policy.delimiters.grants? claim = .error fault →
        (r.examine q).1 = .of (.error (.dataIntegrity fault))) ∧
      (∀ grants, r.policy.delimiters.grants? claim = .ok grants →
        (r.examine q).1 = (checkAdmin r.policy (context grants false)).andThen fun isAdmin =>
          r.settled (context grants isAdmin)) ∧
      (∀ p, r.policy.admin = some (.path p) → ∀ grants, ∃ isAdmin,
        checkAdmin r.policy (context grants false) = .of (.ok isAdmin) ∧
        (isAdmin = true ↔ (r.policy.below p).find? document = some (.bool true))) ∧
      ∀ c, (r.examine q).1.result = .ok (.granted c) → HeldIn r.policy document token c := by
  refine ⟨fun option p q => ⟨DocPath.of?_append option p q, DocPath.find?_append p q⟩,
    fun p root h => DocPath.find?_ne_null h rfl, fun segment items v => DocPath.step?_array_iff, ?_⟩
  intro r q document token hq ht claim context
  have hcontext (grants : Grants) : r.policy.contextOf q grants = context grants :=
    funext (Policy.contextOf_document hq ht grants)
  refine ⟨fun fault hfault => ?_, fun grants hgrants => ?_, fun p hp grants => ?_, fun c => granted_document hq ht⟩
  · refine judge_malformed (tokenOf_ne_null hq ht) ?_
    rwa [Policy.claimOf_document hq ht]
  · show r.judge q = _
    rw [judge_readable (readable_document hq ht hgrants), ← checkAdmin_eq, hcontext]
  · refine ⟨decide ((r.policy.below p).find? document = some (.bool true)), ?_, decide_eq_true_iff⟩
    rw [← hcontext, checkAdmin_eq, Policy.adminAnswer_document hq ht hp]
    rfl

/-- The token is an item of an array, and so is the admin flag below it. -/
theorem looked_up_in_turn_through_arrays :
    let o : Options :=
      { tokenKey := some (.dotted "auth.0"), scopeKey := some (.list ["claims", "scope"]),
        adminKey := some (.dotted "flags.+01") }
    let token := Json.object
      [("claims", .object [("scope", .string "read")]), ("flags", .array [.bool false, .bool true])]
    let document := Json.object [("auth", .array [token])]
    let q : Request := { document := some document }
    ∃ policy r c, Policy.of? o = .ok policy ∧ declare? policy [.permission "write"] = .ok r ∧
      (r.policy.below r.policy.scopeKey).dotted = "auth.0.claims.scope" ∧
      (r.examine q).1.result = .ok (.granted c) ∧ c.isAdmin = true ∧ HeldIn r.policy document token c := by
  intro o token document q
  have hrun : ∃ policy r c, Policy.of? o = .ok policy ∧ declare? policy [.permission "write"] = .ok r ∧
      (r.policy.below r.policy.scopeKey).dotted = "auth.0.claims.scope" ∧
      r.policy.tokenKey.find? document = some token ∧
      (r.examine q).1.result = .ok (.granted c) ∧ c.isAdmin = true := by
    dsimp only [o, token, document, q]
    exact ⟨_, _, _, rfl, rfl, rfl, rfl, rfl, rfl⟩
  obtain ⟨policy, r, c, hpolicy, hr, hpath, htoken, hgranted, hadmin⟩ := hrun
  obtain ⟨-, -, -, hdecided⟩ := looked_up_in_turn
  obtain ⟨-, -, -, hheld⟩ := hdecided r q document token rfl htoken
  exact ⟨policy, r, c, hpolicy, hr, hpath, hgranted, hadmin, hheld c hgranted⟩

end Route

end Warden
