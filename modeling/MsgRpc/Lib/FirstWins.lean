import Mathlib

/-!
This module contains sets that are ordered by a key and hold one element for each key: the one that
has been inserted first.
-/

namespace FirstWins

variable {α κ : Type*} [LinearOrder κ] (key : α → κ)

def insert (set : List α) (x : α) : List α :=
  match set with
  | [] => [x]
  | y :: ys =>
    if key x < key y then x :: y :: ys
    else if key y < key x then y :: insert ys x
    else y :: ys

def ofList (xs : List α) : List α :=
  xs.foldl (insert key) []

abbrev Sorted (set : List α) : Prop :=
  set.Pairwise fun x y => key x < key y

def lookup (k : κ) (xs : List α) : Option α :=
  xs.find? (key · = k)

variable {key}

theorem lookup_cons (k : κ) (x : α) (xs : List α)
    : lookup key k (x :: xs) = if key x = k then some x else lookup key k xs := by
  unfold lookup
  rw [List.find?_cons]
  by_cases h : key x = k <;> simp [h]

theorem lookup_append (k : κ) (xs ys : List α)
    : lookup key k (xs ++ ys) = (lookup key k xs).or (lookup key k ys) :=
  List.find?_append

theorem key_of_lookup {k : κ} {x : α} {xs : List α} (h : lookup key k xs = some x) : key x = k := by
  have := List.find?_some h
  simpa using this

theorem mem_of_lookup {k : κ} {x : α} {xs : List α} (h : lookup key k xs = some x) : x ∈ xs :=
  List.mem_of_find?_eq_some h

theorem lookup_eq_none {k : κ} {xs : List α} : lookup key k xs = none ↔ ∀ x ∈ xs, key x ≠ k := by
  unfold lookup
  simp

theorem exists_lookup_of_mem (key : α → κ) {x : α} {xs : List α} (h : x ∈ xs)
    : ∃ y, lookup key (key x) xs = some y := by
  cases hlookup : lookup key (key x) xs with
  | none => exact absurd rfl (lookup_eq_none.mp hlookup x h)
  | some y => exact ⟨y, rfl⟩

section Insert

variable {set : List α}

theorem mem_insert {x y : α} (h : y ∈ insert key set x) : y = x ∨ y ∈ set := by
  induction set with
  | nil => simpa [insert] using h
  | cons z zs ih =>
    unfold insert at h
    split at h
    . simpa using h
    . split at h <;> grind

theorem sorted_insert (h : Sorted key set) (x : α) : Sorted key (insert key set x) := by
  induction set with
  | nil => simp [insert, Sorted]
  | cons y ys ih =>
    have hys := List.pairwise_cons.mp h
    unfold insert
    split
    . next hlt =>
      apply List.pairwise_cons.mpr
      refine ⟨?_, h⟩
      intro z hz
      cases List.mem_cons.mp hz with
      | inl heq => rwa [heq]
      | inr hmem => exact lt_trans hlt (hys.1 z hmem)
    . split
      . next hlt =>
        apply List.pairwise_cons.mpr
        refine ⟨?_, ih hys.2⟩
        intro z hz
        cases mem_insert hz with
        | inl heq => rwa [heq]
        | inr hmem => exact hys.1 z hmem
      . exact h

-- an element that is there already is kept
theorem lookup_insert (h : Sorted key set) (x : α) (k : κ)
    : lookup key k (insert key set x) = (lookup key k set).or (lookup key k [x]) := by
  induction set with
  | nil => simp [insert, lookup]
  | cons y ys ih =>
    have hys := List.pairwise_cons.mp h
    unfold insert
    split
    . next hlt =>
      rw [lookup_cons]
      split
      . next heq =>
        -- all of the set is behind the new element
        have hnone : lookup key k (y :: ys) = none := by
          apply lookup_eq_none.mpr
          intro z hz hk
          cases List.mem_cons.mp hz with
          | inl hzy => grind
          | inr hmem => grind
        simp [hnone, lookup_cons, heq]
      . next hne => simp [lookup_cons, hne, lookup]
    . split
      . rw [lookup_cons, lookup_cons, ih hys.2]
        split <;> simp
      . next hle hge =>
        rw [lookup_cons]
        split
        . simp
        . next hne =>
          have heq : key x ≠ k := by
            have : key x = key y := le_antisymm (not_lt.mp hge) (not_lt.mp hle)
            rwa [this]
          simp [lookup_cons, heq, lookup]

end Insert

theorem sorted_foldl {set : List α} (h : Sorted key set) (xs : List α)
    : Sorted key (xs.foldl (insert key) set) := by
  induction xs generalizing set with
  | nil => exact h
  | cons x xs ih => exact ih (sorted_insert h x)

theorem sorted_ofList (xs : List α) : Sorted key (ofList key xs) :=
  sorted_foldl List.Pairwise.nil xs

theorem lookup_foldl {set : List α} (h : Sorted key set) (xs : List α) (k : κ)
    : lookup key k (xs.foldl (insert key) set) = (lookup key k set).or (lookup key k xs) := by
  induction xs generalizing set with
  | nil => simp [lookup]
  | cons x xs ih =>
    rw [List.foldl_cons, ih (sorted_insert h x), lookup_insert h, Option.or_assoc,
      ← lookup_append, List.singleton_append]

@[simp]
theorem lookup_ofList (xs : List α) (k : κ) : lookup key k (ofList key xs) = lookup key k xs := by
  unfold ofList
  rw [lookup_foldl List.Pairwise.nil]
  simp [lookup]

theorem mem_iff_lookup {set : List α} (h : Sorted key set) (x : α)
    : x ∈ set ↔ lookup key (key x) set = some x := by
  induction set with
  | nil => simp [lookup]
  | cons y ys ih =>
    have hys := List.pairwise_cons.mp h
    rw [List.mem_cons, lookup_cons]
    constructor
    . intro hx
      cases hx with
      | inl heq => simp [heq]
      | inr hmem =>
        have hlt := hys.1 x hmem
        rw [if_neg hlt.ne]
        exact (ih hys.2).mp hmem
    . intro hlookup
      split at hlookup
      . left
        exact (Option.some.inj hlookup).symm
      . right
        exact (ih hys.2).mpr hlookup

theorem Sorted.nodup {set : List α} (h : Sorted key set) : set.Nodup := by
  apply h.imp
  intro x y hlt heq
  rw [heq] at hlt
  exact lt_irrefl _ hlt

theorem Sorted.eq_of_lookup {set set' : List α} (h : Sorted key set) (h' : Sorted key set')
    (hlookup : ∀ k, lookup key k set = lookup key k set')
    : set = set' := by
  have hperm : set.Perm set' := by
    apply (List.perm_ext_iff_of_nodup h.nodup h'.nodup).mpr
    intro x
    rw [mem_iff_lookup h, mem_iff_lookup h', hlookup]
  apply hperm.eq_of_pairwise _ h h'
  intro x y _ _ hxy hyx
  exact absurd (lt_trans hxy hyx) (lt_irrefl _)

theorem ofList_eq_iff {xs ys : List α}
    : ofList key xs = ofList key ys ↔ ∀ k, lookup key k xs = lookup key k ys := by
  constructor
  . intro heq k
    rw [← lookup_ofList xs, ← lookup_ofList ys, heq]
  . intro hlookup
    apply (sorted_ofList xs).eq_of_lookup (sorted_ofList ys)
    intro k
    rw [lookup_ofList, lookup_ofList, hlookup]

theorem mem_ofList {xs : List α} {x : α}
    : x ∈ ofList key xs ↔ lookup key (key x) xs = some x := by
  rw [mem_iff_lookup (sorted_ofList xs), lookup_ofList]

/--
No key is there with two elements.
-/
def KeyDetermines (key : α → κ) (xs : List α) : Prop :=
  ∀ x ∈ xs, ∀ y ∈ xs, key x = key y → x = y

theorem KeyDetermines.lookup_eq {xs : List α} (h : KeyDetermines key xs) {x : α} (hx : x ∈ xs)
    : lookup key (key x) xs = some x := by
  obtain ⟨y, hy⟩ := exists_lookup_of_mem key hx
  rw [hy, h y (mem_of_lookup hy) x hx (key_of_lookup hy)]

theorem KeyDetermines.ofList_perm {xs ys : List α} (h : KeyDetermines key xs) (hperm : ys.Perm xs)
    : ofList key ys = ofList key xs := by
  have h' : KeyDetermines key ys := by
    intro x hx y hy
    exact h x (hperm.subset hx) y (hperm.subset hy)
  apply ofList_eq_iff.mpr
  intro k
  cases hlookup : lookup key k xs with
  | none =>
    rw [lookup_eq_none] at hlookup ⊢
    intro x hx
    exact hlookup x (hperm.subset hx)
  | some x =>
    rw [← key_of_lookup hlookup]
    exact h'.lookup_eq (hperm.symm.subset (mem_of_lookup hlookup))

theorem mem_map_key_ofList {xs : List α} {k : κ} : k ∈ (ofList key xs).map key ↔ k ∈ xs.map key := by
  have hiff : ∀ {ys : List α}, k ∈ ys.map key ↔ lookup key k ys ≠ none := by
    intro ys
    rw [Ne, lookup_eq_none, List.mem_map]
    push Not
    rfl
  rw [hiff, hiff, lookup_ofList]

-- the keys are the same in whichever order the elements are inserted
theorem map_key_ofList_perm {xs ys : List α} (hperm : ys.Perm xs)
    : (ofList key ys).map key = (ofList key xs).map key := by
  have hsorted : ∀ zs : List α, ((ofList key zs).map key).Pairwise (· < ·) :=
    fun zs => List.pairwise_map.mpr (sorted_ofList zs)
  have hkeys : ((ofList key ys).map key).Perm ((ofList key xs).map key) := by
    apply (List.perm_ext_iff_of_nodup (hsorted ys).nodup (hsorted xs).nodup).mpr
    intro k
    rw [mem_map_key_ofList, mem_map_key_ofList, (hperm.map key).mem_iff]
  exact hkeys.eq_of_pairwise (fun a b _ _ hab hba => absurd (lt_trans hab hba) (lt_irrefl _))
    (hsorted ys) (hsorted xs)

theorem perm_ofList {xs : List α} (h : (xs.map key).Nodup) : (ofList key xs).Perm xs := by
  have hdetermines : KeyDetermines key xs := by
    intro x hx y hy heq
    exact List.inj_on_of_nodup_map h hx hy heq
  apply (List.perm_ext_iff_of_nodup (sorted_ofList xs).nodup h.of_map).mpr
  intro x
  rw [mem_ofList]
  constructor
  . exact mem_of_lookup
  . exact hdetermines.lookup_eq

end FirstWins
