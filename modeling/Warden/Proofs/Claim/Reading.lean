/-
  Warden.Proofs.Claim.Reading — a claim is read as a whole or not at all.

  A claim that can be read lists elements (`Claim.Lists`), each of them a granted permission.
  What else it may be is `Claim.Faulty`: a value of another type, an array with an item that
  is no text, a list with an element that is no permission. Every claim is one or the other
  (`lists_or_faulty`), and is read or refused accordingly (`grants?_of_lists`,
  `grants?_of_faulty`). Of two faults the item is reported, wherever the element stands.

  - `claim_read_whole`: this, with the error that a request gets for a claim that is refused;
    and a claim that was read can be written back, as a text and as an array.
-/

import Warden.Proofs.Decision
import Warden.Proofs.Grammar

namespace Warden

namespace Claim

/-! ## Claims with elements -/

/-- The claim, if there is one, is a list of these elements. -/
inductive Lists (delimiter : Char) : Option Json → List String → Prop
  | absent : Lists delimiter none []
  | null : Lists delimiter (some .null) []
  | empty : Lists delimiter (some (.string "")) []
  | text {s : String} : s ≠ "" → Lists delimiter (some (.string s)) (Text.pieces delimiter s)
  | items (xs : List String) : Lists delimiter (some (.array (xs.map .string))) xs

/-- The claim is refused for this fault. -/
inductive Faulty (d : Delimiters) : Option Json → ClaimFault → Prop
  | bool (b : Bool) : Faulty d (some (.bool b)) (.wrongType (.bool b))
  | number (n : Json.Number) : Faulty d (some (.number n)) (.wrongType (.number n))
  | object (members : List (String × Json)) : Faulty d (some (.object members)) (.wrongType (.object members))
  /-- The first item that is no text, after any texts. -/
  | notString (xs : List String) {item : Json} (items : List Json) : (∀ s, item ≠ .string s) →
      Faulty d (some (.array (xs.map .string ++ item :: items))) (.notString xs.length item)
  /-- The first element that is no permission, among elements. -/
  | notPermission {claim : Option Json} {before after : List String} {x : String} :
      Lists d.claim claim (before ++ x :: after) → (∀ y ∈ before, d.isGranted y = true) → d.isGranted x = false →
      Faulty d claim (.notPermission x)

theorem elements_of_lists {delimiter : Char} {claim : Option Json} {xs : List String} (h : Lists delimiter claim xs) :
    elements delimiter (claim.getD .null) = .ok xs := by
  cases h with
  | absent => rfl
  | null => rfl
  | empty => rfl
  | text hs => rw [Option.getD_some, elements, if_neg hs]
  | items => exact elements_listed delimiter xs

theorem strings_notString (index : Nat) (xs : List String) {item : Json} (h : ∀ s, item ≠ .string s)
    (items : List Json) :
    strings index (xs.map .string ++ item :: items) = .error (.notString (index + xs.length) item) := by
  induction xs generalizing index with
  | nil =>
    cases item with
    | string s => exact absurd rfl (h s)
    | _ => rfl
  | cons s xs ih =>
    have hindex : index + (xs.length + 1) = index + 1 + xs.length := by omega
    rw [List.map_cons, List.cons_append, strings, ih, List.length_cons, hindex]
    rfl

/-- An array holds texts alone, or an item that is none after texts. -/
theorem items_cases (items : List Json) :
    (∃ xs : List String, items = xs.map .string) ∨
      ∃ (xs : List String) (item : Json) (rest : List Json), items = xs.map .string ++ item :: rest ∧
        ∀ s, item ≠ .string s := by
  induction items with
  | nil => exact .inl ⟨[], rfl⟩
  | cons item items ih =>
    cases item with
    | string s =>
      rcases ih with ⟨xs, rfl⟩ | ⟨xs, item, rest, rfl, hitem⟩
      · exact .inl ⟨s :: xs, rfl⟩
      · exact .inr ⟨s :: xs, item, rest, rfl, hitem⟩
    | _ => exact .inr ⟨[], _, items, rfl, nofun⟩

end Claim

namespace Delimiters

variable {d : Delimiters} {claim : Option Json} {xs : List String}

/-! ## Read or refused -/

theorem grants?_of_lists (h : Claim.Lists d.claim claim xs) (hg : ∀ x ∈ xs, d.isGranted x = true) :
    d.grants? (claim.getD .null) = .ok ⟨xs.map (.ofText d.scope)⟩ :=
  grants?_of_elements (Claim.elements_of_lists h) hg

theorem mapM_notPermission {before after : List String} {x : String} (hg : ∀ y ∈ before, d.isGranted y = true)
    (hx : d.isGranted x = false) : (before ++ x :: after).mapM d.granted? = .error (.notPermission x) := by
  induction before with
  | nil =>
    have hrefused : d.granted? x = .error (.notPermission x) := by simp [granted?, hx]
    rw [List.nil_append, List.mapM_cons, hrefused]
    rfl
  | cons y before ih =>
    obtain ⟨hy, hbefore⟩ := List.forall_mem_cons.mp hg
    rw [List.cons_append, List.mapM_cons, granted?_granted hy, ih hbefore]
    rfl

theorem grants?_of_faulty {fault : ClaimFault} (h : Claim.Faulty d claim fault) :
    d.grants? (claim.getD .null) = .error fault := by
  cases h with
  | bool b => rfl
  | number n => rfl
  | object members => rfl
  | notString xs items hitem =>
    have he := Claim.strings_notString 0 xs hitem items
    rw [Nat.zero_add] at he
    rw [Option.getD_some, grants?, Claim.elements, he]
    rfl
  | notPermission hlists hbefore hx =>
    rw [grants?_eq (Claim.elements_of_lists hlists), mapM_notPermission hbefore hx]
    rfl

/-- The elements of a list are granted permissions, or there is a first that is none. -/
theorem granted_or_faulty (h : Claim.Lists d.claim claim xs) :
    (∀ x ∈ xs, d.isGranted x = true) ∨ ∃ fault, Claim.Faulty d claim fault := by
  cases hf : xs.find? (!d.isGranted ·) with
  | none => exact .inl fun x hx => by simpa using List.find?_eq_none.mp hf x hx
  | some x =>
    obtain ⟨hx, before, after, rfl, hbefore⟩ := List.find?_eq_some_iff_append.mp hf
    exact .inr ⟨_, .notPermission h (fun y hy => by simpa using hbefore y hy) (by simpa using hx)⟩

theorem lists_or_faulty (d : Delimiters) (claim : Option Json) :
    (∃ xs, Claim.Lists d.claim claim xs ∧ ∀ x ∈ xs, d.isGranted x = true) ∨ ∃ fault, Claim.Faulty d claim fault := by
  have hlists : ∀ {xs}, Claim.Lists d.claim claim xs →
      (∃ xs, Claim.Lists d.claim claim xs ∧ ∀ x ∈ xs, d.isGranted x = true) ∨ ∃ fault, Claim.Faulty d claim fault :=
    fun h => (granted_or_faulty h).imp_left fun hg => ⟨_, h, hg⟩
  cases claim with
  | none => exact hlists .absent
  | some value =>
    cases value with
    | null => exact hlists .null
    | bool b => exact .inr ⟨_, .bool b⟩
    | number n => exact .inr ⟨_, .number n⟩
    | string s =>
      by_cases hs : s = ""
      · subst hs
        exact hlists .empty
      · exact hlists (.text hs)
    | array items =>
      rcases Claim.items_cases items with ⟨xs, rfl⟩ | ⟨xs, item, rest, rfl, hitem⟩
      · exact hlists (.items xs)
      · exact .inr ⟨_, .notString xs rest hitem⟩
    | object members => exact .inr ⟨_, .object members⟩

theorem grants?_ok_iff {grants : Grants} :
    d.grants? (claim.getD .null) = .ok grants ↔
      ∃ xs, Claim.Lists d.claim claim xs ∧ (∀ x ∈ xs, d.isGranted x = true) ∧
        grants = ⟨xs.map (.ofText d.scope)⟩ := by
  constructor
  · intro h
    rcases lists_or_faulty d claim with ⟨xs, hlists, hg⟩ | ⟨fault, hfaulty⟩
    · rw [grants?_of_lists hlists hg] at h
      cases h
      exact ⟨xs, hlists, hg, rfl⟩
    · rw [grants?_of_faulty hfaulty] at h
      cases h
  · rintro ⟨xs, hlists, hg, rfl⟩
    exact grants?_of_lists hlists hg

theorem grants?_error_iff {fault : ClaimFault} :
    d.grants? (claim.getD .null) = .error fault ↔ Claim.Faulty d claim fault := by
  constructor
  · intro h
    rcases lists_or_faulty d claim with ⟨xs, hlists, hg⟩ | ⟨fault', hfaulty⟩
    · rw [grants?_of_lists hlists hg] at h
      cases h
    · rw [grants?_of_faulty hfaulty] at h
      cases h
      exact hfaulty
  · exact grants?_of_faulty

/-! ## Two ways to write a claim -/

theorem texts_ofText (scope : Char) (xs : List String) : (Grants.mk (xs.map (.ofText scope))).texts = xs := by
  simp [Grants.texts, List.map_map, Function.comp_def]

/-- What was read is read again from the same elements, written in either way. -/
theorem grants?_written {grants : Grants} (h : d.grants? (claim.getD .null) = .ok grants) :
    d.grants? (.array (grants.texts.map .string)) = .ok grants ∧
      d.grants? (.string (Text.glue d.claim grants.texts)) = .ok grants := by
  obtain ⟨xs, -, hg, rfl⟩ := grants?_ok_iff.mp h
  obtain ⟨htext, hitems⟩ := elements_of_granted hg
  rw [texts_ofText]
  exact ⟨grants?_of_elements hitems hg, grants?_of_elements htext hg⟩

/-- A text and an array of the same elements are read alike, but for the empty element alone,
    which as a text is no element. -/
theorem grants?_alike (hd : ∀ x ∈ xs, d.claim ∉ x.toList) :
    d.grants? (.array (xs.map .string)) = d.grants? (.string (Text.glue d.claim xs)) ↔ xs ≠ [""] := by
  constructor
  · rintro h rfl
    cases h
  · intro hxs
    unfold grants?
    rw [Claim.elements_listed, Claim.elements_joined hd hxs]

theorem grants?_of_claim_mem {items : List Json} {x : String} (hmem : .string x ∈ items) (hx : d.claim ∈ x.toList)
    (grants : Grants) : d.grants? (.array items) ≠ .ok grants := by
  intro h
  replace h : d.grants? ((some (Json.array items)).getD .null) = .ok grants := h
  obtain ⟨xs, hlists, hg, -⟩ := grants?_ok_iff.mp h
  cases hlists with
  | items =>
    obtain ⟨y, hy, he⟩ := List.mem_map.mp hmem
    cases he
    exact claim_not_mem (hg x hy) hx

/-- A claim is read if it is absent, null or the empty text, if it is a text cut into granted
    permissions, or an array of them. What is read are these elements, as often as they stand in
    the claim and in their order. Any other claim is refused, and so is the request that it comes
    with; in an array the first item that is no text is the fault. What was read can be written
    back in both ways. Elements without the claim delimiter make a text and an array that are read
    alike, save for the empty element alone. An item with the claim delimiter spoils an array. -/
theorem claim_read_whole (d : Delimiters) (claim : Option Json) :
    (∀ grants, d.grants? (claim.getD .null) = .ok grants ↔
      ∃ xs, Claim.Lists d.claim claim xs ∧ (∀ x ∈ xs, d.isGranted x = true) ∧
        grants = ⟨xs.map (.ofText d.scope)⟩ ∧ grants.texts = xs) ∧
    (∀ fault, d.grants? (claim.getD .null) = .error fault ↔ Claim.Faulty d claim fault) ∧
    (∀ fault, d.grants? (claim.getD .null) = .error fault → ∀ (r : Route) (q : Request), r.policy.delimiters = d →
      r.policy.tokenOf q ≠ .null → r.policy.claimOf q = claim.getD .null →
      (r.examine q).1 = .of (.error (.dataIntegrity fault))) ∧
    (∀ grants, d.grants? (claim.getD .null) = .ok grants →
      d.grants? (.array (grants.texts.map .string)) = .ok grants ∧
      d.grants? (.string (Text.glue d.claim grants.texts)) = .ok grants) ∧
    (∀ xs : List String, (∀ x ∈ xs, d.claim ∉ x.toList) →
      (d.grants? (.array (xs.map .string)) = d.grants? (.string (Text.glue d.claim xs)) ↔ xs ≠ [""])) ∧
    ∀ items x, .string x ∈ items → d.claim ∈ x.toList → ∀ grants, d.grants? (.array items) ≠ .ok grants := by
  refine ⟨fun grants => ?_, fun fault => grants?_error_iff, fun fault h r q hd ht hc => ?_,
    fun grants => grants?_written, fun xs => grants?_alike, fun items x => grants?_of_claim_mem⟩
  · rw [grants?_ok_iff]
    constructor
    · rintro ⟨xs, hlists, hg, rfl⟩
      exact ⟨xs, hlists, hg, rfl, texts_ofText d.scope xs⟩
    · rintro ⟨xs, hlists, hg, hgrants, -⟩
      exact ⟨xs, hlists, hg, hgrants⟩
  · refine Route.judge_malformed ht ?_
    rw [hd, hc]
    exact h

/-- The number is reported and not the text before it. With a comma at the end, a text has an
    empty element, and is refused as the array is. -/
theorem claim_read_whole_or_refused :
    let d := Delimiters.default
    let spoiled : Json := .array [.string "user:a*", .number (.integer 7), .string "read"]
    let q : Request := { document := some (.object [("user", .object [("scope", spoiled)])]) }
    (∃ policy r, Policy.of? {} = .ok policy ∧ Route.declare? policy [.permission "read"] = .ok r ∧
      (r.examine q).1 = .of (.error (.dataIntegrity (.notString 1 (.number (.integer 7)))))) ∧
    (∃ grants, d.grants? (.string "user:*,read,user:*") = .ok grants ∧ grants.size = 3 ∧
      d.grants? (.array (grants.texts.map .string)) = .ok grants) ∧
    d.grants? (.array [.string "read", .string ""]) = d.grants? (.string "read,") ∧
    ∀ grants, d.grants? (.array [.string "read,write"]) ≠ .ok grants := by
  intro d spoiled q
  have hfaulty : Claim.Faulty d (some spoiled) (.notString 1 (.number (.integer 7))) :=
    .notString ["user:a*"] [.string "read"] nofun
  have hrun : ∃ policy r, Policy.of? {} = .ok policy ∧ Route.declare? policy [.permission "read"] = .ok r ∧
      r.policy.delimiters = d ∧ r.policy.tokenOf q ≠ .null ∧ r.policy.claimOf q = spoiled := by
    dsimp only [q, spoiled, d]
    exact ⟨_, _, rfl, rfl, rfl, nofun, rfl⟩
  obtain ⟨policy, r, hpolicy, hr, hd, ht, hc⟩ := hrun
  obtain ⟨-, hfaults, hrefused, -, halike, hdelimiter⟩ := claim_read_whole d (some spoiled)
  have hdecision := hrefused _ ((hfaults _).mpr hfaulty) r q hd ht hc
  have hread : ∃ grants, d.grants? (.string "user:*,read,user:*") = .ok grants ∧ grants.size = 3 := by
    dsimp only [d]
    exact ⟨⟨["user:*", "read", "user:*"].map (.ofText ':')⟩, rfl, rfl⟩
  obtain ⟨grants, hread, hsize⟩ := hread
  have hback := (claim_read_whole d (some (.string "user:*,read,user:*"))).2.2.2.1 grants hread
  refine ⟨⟨policy, r, hpolicy, hr, hdecision⟩, ⟨grants, hread, hsize, hback.1⟩, ?_, ?_⟩
  · exact (halike ["read", ""] (by decide)).mpr (by decide)
  · exact hdelimiter _ "read,write" (List.mem_singleton.mpr rfl) (by decide)

end Delimiters

end Warden
