/-
  Warden.Proofs.Claim — what a claim that is read grants, and the two ways to write one.

  - `grants?_ok`, `grants?_of_elements`: a claim is read if each of its elements is a granted
    permission, and the grants are these permissions, in the order of the claim.
  - `elements_joined`, `elements_listed`: a text with the delimiter between the elements and an
    array of them are claims with the same elements. No granted permission holds the
    delimiter (`claim_not_mem`), so every list of them can be written in both ways.
-/

import Warden.Claim
import Warden.Proofs.Audited

namespace Warden

/-! ## Two ways to write a claim -/

namespace Claim

theorem strings_map (index : Nat) (elements : List String) : strings index (elements.map .string) = .ok elements := by
  induction elements generalizing index with
  | nil => rfl
  | cons s elements ih =>
    rw [List.map_cons, strings, ih]
    rfl

theorem elements_listed (delimiter : Char) (xs : List String) : elements delimiter (.array (xs.map .string)) = .ok xs :=
  strings_map 0 xs

/-- The list of the empty text alone would be written as the empty text, which has no elements. -/
theorem elements_joined {delimiter : Char} {xs : List String} (hd : ∀ x ∈ xs, delimiter ∉ x.toList)
    (hxs : xs ≠ [""]) : elements delimiter (.string (Text.glue delimiter xs)) = .ok xs := by
  by_cases hnil : xs = []
  · subst hnil
    rfl
  · have hpieces : Text.pieces delimiter (Text.glue delimiter xs) = xs := Text.pieces_glue hnil hd
    have hne : Text.glue delimiter xs ≠ "" := by
      intro h
      rw [h] at hpieces
      exact hxs hpieces.symm
    rw [elements, if_neg hne, hpieces]

end Claim

theorem Grammar.grantedFrom_chars {scope : Char} {cs : List Char} {p : Place} (h : grantedFrom scope p cs = true) :
    ∀ c ∈ cs, isWordChar c = true ∨ c = '*' ∨ c = scope := by
  induction cs generalizing p with
  | nil => intro c hc; cases hc
  | cons c cs ih =>
    rw [grantedFrom] at h
    split at h
    · rename_i hword
      exact List.forall_mem_cons.mpr ⟨.inl hword, ih (Bool.and_eq_true_iff.mp h).2⟩
    · split at h
      · rename_i hstar
        exact List.forall_mem_cons.mpr ⟨.inr (.inl hstar), ih (Bool.and_eq_true_iff.mp h).2⟩
      · have hscope := (Bool.and_eq_true_iff.mp (Bool.and_eq_true_iff.mp h).1).1
        exact List.forall_mem_cons.mpr ⟨.inr (.inr (eq_of_beq hscope)), ih (Bool.and_eq_true_iff.mp h).2⟩

namespace Delimiters

variable {d : Delimiters}

/-- The claim delimiter is no part of a granted permission. -/
theorem claim_not_mem {s : String} (h : d.isGranted s = true) : d.claim ∉ s.toList := by
  intro hmem
  rcases Grammar.grantedFrom_chars h d.claim hmem with hword | hstar | hscope
  · rw [d.claim_not_wordChar] at hword
    cases hword
  · exact d.claim_ne_wildcard hstar
  · exact d.differ hscope

/-- A list of granted permissions is a claim in both ways. -/
theorem elements_of_granted {xs : List String} (h : ∀ x ∈ xs, d.isGranted x = true) :
    Claim.elements d.claim (.string (Text.glue d.claim xs)) = .ok xs ∧
      Claim.elements d.claim (.array (xs.map .string)) = .ok xs := by
  refine ⟨Claim.elements_joined (fun x hx => claim_not_mem (h x hx)) ?_, Claim.elements_listed _ _⟩
  rintro rfl
  have hempty : d.isGranted "" = true := h "" (List.mem_singleton.mpr rfl)
  cases hempty

/-! ## What a claim grants -/

theorem granted?_ok {s : String} {p : Permission} (h : d.granted? s = .ok p) :
    d.isGranted s = true ∧ p = .ofText d.scope s := by
  unfold granted? at h
  split at h
  · rename_i hs
    cases h
    exact ⟨hs, rfl⟩
  · cases h

theorem granted?_granted {s : String} (h : d.isGranted s = true) : d.granted? s = .ok (.ofText d.scope s) := by
  rw [granted?, if_pos h]

theorem mapM_granted?_ok {elements : List String} {permissions : List Permission}
    (h : elements.mapM d.granted? = .ok permissions) :
    (∀ s ∈ elements, d.isGranted s = true) ∧ permissions = elements.map (.ofText d.scope) := by
  induction elements generalizing permissions with
  | nil => cases h; exact ⟨fun _ hs => absurd hs List.not_mem_nil, rfl⟩
  | cons s elements ih =>
    rw [List.mapM_cons] at h
    obtain ⟨p, hp, h⟩ := bind_ok h
    obtain ⟨rest, hrest, h⟩ := bind_ok h
    obtain ⟨hgranted, rfl⟩ := granted?_ok hp
    obtain ⟨hall, rfl⟩ := ih hrest
    cases h
    exact ⟨List.forall_mem_cons.mpr ⟨hgranted, hall⟩, rfl⟩

theorem grants?_ok {claim : Json} {grants : Grants} (h : d.grants? claim = .ok grants) :
    ∃ elements, Claim.elements d.claim claim = .ok elements ∧ (∀ s ∈ elements, d.isGranted s = true) ∧
      grants.permissions = elements.map (.ofText d.scope) := by
  obtain ⟨elements, helements, h⟩ := bind_ok h
  obtain ⟨permissions, hpermissions, h⟩ := bind_ok h
  obtain ⟨hall, rfl⟩ := mapM_granted?_ok hpermissions
  cases h
  exact ⟨elements, helements, hall, rfl⟩

theorem mapM_granted {elements : List String} (h : ∀ s ∈ elements, d.isGranted s = true) :
    elements.mapM d.granted? = .ok (elements.map (.ofText d.scope)) := by
  induction elements with
  | nil => rfl
  | cons s elements ih =>
    obtain ⟨hs, hrest⟩ := List.forall_mem_cons.mp h
    rw [List.mapM_cons, granted?_granted hs, ih hrest]
    rfl

theorem grants?_eq {claim : Json} {elements : List String} (h : Claim.elements d.claim claim = .ok elements) :
    d.grants? claim = (elements.mapM d.granted?).map Grants.mk := by
  rw [grants?, h]
  show (elements.mapM d.granted? >>= fun permissions => Except.ok (Grants.mk permissions)) = _
  cases elements.mapM d.granted? <;> rfl

/-- A claim of which every element is a granted permission is read. -/
theorem grants?_of_elements {claim : Json} {elements : List String}
    (he : Claim.elements d.claim claim = .ok elements) (hg : ∀ s ∈ elements, d.isGranted s = true) :
    d.grants? claim = .ok ⟨elements.map (.ofText d.scope)⟩ := by
  rw [grants?_eq he, mapM_granted hg]
  rfl

end Delimiters

end Warden
