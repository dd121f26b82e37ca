/-
  Warden.Proofs.Json.Ordered — values with their members in order.

  A document holds the members of an object in the order of their keys, each key once, at
  any depth (`Ordered`). `insert` keeps that order, and putting members that are in order into an
  object one after another changes nothing, so that `ofMembers` makes an object of any
  members and is the identity on those of an ordered one.

  - `ofMembers_of_pairwise`: members in order make the object of these members.
  - `ofMembers_ordered`, `mem_ofMembers_iff`: members of distinct keys are all found again in the
    object they make, and no others.
-/

import Warden.Json.Basic

namespace Warden.Json

/-- The members of each object in the value stand in the order of their keys, each key once. -/
inductive Ordered : Json → Prop
  | null : Ordered .null
  | bool (b : Bool) : Ordered (.bool b)
  | number (n : Number) : Ordered (.number n)
  | string (s : String) : Ordered (.string s)
  | array {items : List Json} : (∀ v ∈ items, Ordered v) → Ordered (.array items)
  | object {members : List (String × Json)} : members.Pairwise (·.1 < ·.1) → (∀ m ∈ members, Ordered m.2) →
      Ordered (.object members)

variable {key : String} {value : Json} {members : List (String × Json)}

/-! ## Insertion -/

theorem mem_insert {m : String × Json} (h : m ∈ insert key value members) : m = (key, value) ∨ m ∈ members := by
  induction members with
  | nil => exact .inl (List.mem_singleton.mp h)
  | cons first rest ih =>
    rw [insert] at h
    split at h
    · exact List.mem_cons.mp h
    · split at h
      · rcases List.mem_cons.mp h with h | h
        · exact .inl h
        · exact .inr (List.mem_cons_of_mem _ h)
      · rcases List.mem_cons.mp h with h | h
        · exact .inr (h ▸ List.mem_cons_self)
        · exact (ih h).imp_right (List.mem_cons_of_mem _)

theorem insert_pairwise (h : members.Pairwise (·.1 < ·.1)) : (insert key value members).Pairwise (·.1 < ·.1) := by
  induction members with
  | nil => exact List.pairwise_singleton _ _
  | cons first rest ih =>
    obtain ⟨hfirst, hrest⟩ := List.pairwise_cons.mp h
    rw [insert]
    split
    · rename_i hlt
      refine List.pairwise_cons.mpr ⟨fun m hm => ?_, h⟩
      rcases List.mem_cons.mp hm with rfl | hm
      · exact hlt
      · exact String.lt_trans hlt (hfirst m hm)
    · split
      · rename_i heq
        subst heq
        exact List.pairwise_cons.mpr ⟨hfirst, hrest⟩
      · rename_i hlt hne
        refine List.pairwise_cons.mpr ⟨fun m hm => ?_, ih hrest⟩
        rcases mem_insert hm with rfl | hm
        · exact Std.lt_of_le_of_ne (String.not_lt.mp hlt) (Ne.symm hne)
        · exact hfirst m hm

/-- A key behind all others goes to the end. -/
theorem insert_last (h : ∀ m ∈ members, m.1 < key) : insert key value members = members ++ [(key, value)] := by
  induction members with
  | nil => rfl
  | cons first rest ih =>
    have hlt : first.1 < key := h first List.mem_cons_self
    have hne : key ≠ first.1 := fun he => String.lt_irrefl _ (he ▸ hlt)
    rw [insert, if_neg (String.lt_asymm hlt), if_neg hne, ih fun m hm => h m (List.mem_cons_of_mem _ hm)]
    rfl

/-! ## Objects from members -/

theorem nodup_of_pairwise (h : members.Pairwise (·.1 < ·.1)) : (members.map (·.1)).Nodup :=
  (List.pairwise_map.mpr h).imp fun hlt => String.ne_of_lt hlt

theorem foldl_insert_pairwise (more : List (String × Json)) (h : members.Pairwise (·.1 < ·.1)) :
    (more.foldl (fun sorted (key, value) => insert key value sorted) members).Pairwise (·.1 < ·.1) := by
  induction more generalizing members with
  | nil => exact h
  | cons m more ih => exact ih (insert_pairwise h)

theorem foldl_insert_last {more : List (String × Json)} (h : (members ++ more).Pairwise (·.1 < ·.1)) :
    more.foldl (fun sorted (key, value) => insert key value sorted) members = members ++ more := by
  induction more generalizing members with
  | nil => exact (List.append_nil _).symm
  | cons m more ih =>
    have hlast : insert m.1 m.2 members = members ++ [m] :=
      insert_last fun k hk => (List.pairwise_append.mp h).2.2 k hk m List.mem_cons_self
    rw [List.append_cons] at h ⊢
    rw [← ih h, ← hlast]
    rfl

theorem ofMembers_of_pairwise (h : members.Pairwise (·.1 < ·.1)) : ofMembers members = .object members :=
  congrArg Json.object (foldl_insert_last h)

theorem lookup_eq_none (h : key ∉ members.map (·.1)) : members.lookup key = none :=
  List.lookup_eq_none_iff.mpr fun m hm => by
    have hne : key ≠ m.1 := fun he => h (List.mem_map.mpr ⟨m, hm, he.symm⟩)
    simpa using hne

theorem mem_of_lookup (h : members.lookup key = some value) : (key, value) ∈ members := by
  obtain ⟨before, after, rfl, -⟩ := List.lookup_eq_some_iff.mp h
  exact List.mem_append_cons_self

theorem lookup_of_mem (hd : (members.map (·.1)).Nodup) {m : String × Json} (h : m ∈ members) :
    members.lookup m.1 = some m.2 := by
  induction members with
  | nil => cases h
  | cons first rest ih =>
    obtain ⟨hfirst, hd⟩ := List.nodup_cons.mp hd
    rcases List.mem_cons.mp h with rfl | h
    · exact List.lookup_cons_self
    · have hne : m.1 ≠ first.1 := fun he => hfirst (List.mem_map.mpr ⟨m, h, he⟩)
      rw [List.lookup_cons, beq_false_of_ne hne]
      exact ih hd h

theorem lookup_foldl_insert {more : List (String × Json)} (hd : (more.map (·.1)).Nodup) (key : String) :
    (more.foldl (fun sorted (key, value) => insert key value sorted) members).lookup key =
      (more.lookup key).or (members.lookup key) := by
  induction more generalizing members with
  | nil => rfl
  | cons m more ih =>
    obtain ⟨hm, hd⟩ := List.nodup_cons.mp hd
    rw [List.foldl_cons, ih hd]
    by_cases hk : key = m.1
    · subst hk
      have hself : (insert m.1 m.2 members).lookup m.1 = some m.2 := member?_insert_self m.1 m.2 members
      rw [lookup_eq_none hm, hself, List.lookup_cons_self]
      rfl
    · have hne : (insert m.1 m.2 members).lookup key = members.lookup key := member?_insert_ne hk m.2 members
      have hb : (key == m.1) = false := by simpa using hk
      rw [hne, List.lookup_cons, hb]

theorem ofMembers_ordered (hd : (members.map (·.1)).Nodup) :
    ∃ sorted, ofMembers members = .object sorted ∧ sorted.Pairwise (·.1 < ·.1) ∧
      ∀ key, sorted.lookup key = members.lookup key :=
  ⟨_, rfl, foldl_insert_pairwise members .nil, fun key => (lookup_foldl_insert hd key).trans Option.or_none⟩

/-- The object of members of distinct keys holds just them. -/
theorem mem_ofMembers_iff {sorted : List (String × Json)} (hd : (members.map (·.1)).Nodup)
    (ho : ofMembers members = .object sorted) {m : String × Json} : m ∈ sorted ↔ m ∈ members := by
  obtain ⟨_, ho', hsorted, hlookup⟩ := ofMembers_ordered hd
  rw [ho] at ho'
  cases ho'
  constructor
  · exact fun h => mem_of_lookup ((hlookup m.1).symm.trans (lookup_of_mem (nodup_of_pairwise hsorted) h))
  · exact fun h => mem_of_lookup ((hlookup m.1).trans (lookup_of_mem hd h))

end Warden.Json
