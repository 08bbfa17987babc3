import Mathlib

/-!
This module contains sets and maps that are ordered by a strict weak order. Of equivalent elements
the one that has been inserted first is kept.
-/

structure Less (α : Type) where
  lt : α → α → Bool
  order : IsStrictWeakOrder α (lt · · = true)

namespace Less

variable {α κ : Type}

-- elements are ordered as their keys are
def ofKey [LinearOrder κ] (key : α → κ) : Less α where
  lt x y := decide (key x < key y)
  order := by
    simp only [decide_eq_true_eq]
    exact {
      irrefl := fun x => lt_irrefl (key x)
      trans := fun x y z => lt_trans
      incomp_trans := by grind }

variable (less : Less α) {x y z : α}

def Equiv (x y : α) : Prop := less.lt x y = false ∧ less.lt y x = false

variable {less}

theorem irrefl (x : α) : less.lt x x = false := by
  have := less.order.irrefl x
  simpa using this

theorem trans (h : less.lt x y = true) (h' : less.lt y z = true) : less.lt x z = true :=
  less.order.trans x y z h h'

theorem asymm (h : less.lt x y = true) : less.lt y x = false := by
  cases h' : less.lt y x with
  | true => simpa [irrefl] using trans h h'
  | false => rfl

namespace Equiv

theorem refl (x : α) : less.Equiv x x := ⟨irrefl x, irrefl x⟩

theorem symm (h : less.Equiv x y) : less.Equiv y x := ⟨h.2, h.1⟩

theorem trans (h : less.Equiv x y) (h' : less.Equiv y z) : less.Equiv x z := by
  have := less.order.incomp_trans x y z
  simp only [Bool.not_eq_true] at this
  exact this h h'

theorem lt_left (h : less.Equiv x y) (hlt : less.lt y z = true) : less.lt x z = true := by
  cases hxz : less.lt x z with
  | true => rfl
  | false =>
    cases hzx : less.lt z x with
    | true => simpa [h.2] using less.trans hlt hzx
    | false =>
      have hyz := (h.symm.trans ⟨hxz, hzx⟩).1
      simp [hlt] at hyz

theorem lt_right (h : less.Equiv y z) (hlt : less.lt x y = true) : less.lt x z = true := by
  cases hxz : less.lt x z with
  | true => rfl
  | false =>
    cases hzx : less.lt z x with
    | true => simpa [h.2] using less.trans hzx hlt
    | false =>
      have hxy := (Equiv.trans ⟨hxz, hzx⟩ h.symm).1
      simp [hlt] at hxy

end Equiv

abbrev Sorted (less : Less α) (xs : List α) : Prop := xs.Pairwise (less.lt · · = true)

theorem Sorted.eq_of_equiv {xs : List α} (h : less.Sorted xs) (hx : x ∈ xs) (hy : y ∈ xs)
    (hequiv : less.Equiv x y)
    : x = y := by
  induction xs with
  | nil => simp at hx
  | cons z zs ih =>
    have hzs := List.pairwise_cons.mp h
    cases List.mem_cons.mp hx with
    | inl hxz =>
      cases List.mem_cons.mp hy with
      | inl hyz => rw [hxz, hyz]
      | inr hmem =>
        have hlt := hzs.1 y hmem
        rw [← hxz, hequiv.1] at hlt
        simp at hlt
    | inr hmem =>
      cases List.mem_cons.mp hy with
      | inl hyz =>
        have hlt := hzs.1 x hmem
        rw [← hyz, hequiv.2] at hlt
        simp at hlt
      | inr hmem' => exact ih hzs.2 hmem hmem'

-- sorted lists of related elements are related one by one, if related elements are equivalent
theorem Sorted.forall₂ {R : α → α → Prop} {xs ys : List α} (hx : less.Sorted xs)
    (hy : less.Sorted ys) (hR : ∀ x y, R x y → less.Equiv x y) (hleft : ∀ x ∈ xs, ∃ y ∈ ys, R x y)
    (hright : ∀ y ∈ ys, ∃ x ∈ xs, R x y)
    : List.Forall₂ R xs ys := by
  induction xs generalizing ys with
  | nil =>
    cases ys with
    | nil => exact .nil
    | cons y ys =>
      obtain ⟨x, hmem, _⟩ := hright y List.mem_cons_self
      simp at hmem
  | cons x xs ih =>
    have hxs := List.pairwise_cons.mp hx
    cases ys with
    | nil =>
      obtain ⟨y, hmem, _⟩ := hleft x List.mem_cons_self
      simp at hmem
    | cons y ys =>
      have hys := List.pairwise_cons.mp hy
      -- the least elements are related, anything else would be below both
      have hhead : R x y := by
        obtain ⟨y1, hmem1, hR1⟩ := hleft x List.mem_cons_self
        cases List.mem_cons.mp hmem1 with
        | inl heq => rwa [← heq]
        | inr htail =>
          have hlt : less.lt y x = true := (hR x y1 hR1).symm.lt_right (hys.1 y1 htail)
          obtain ⟨x1, hmem2, hR2⟩ := hright y List.mem_cons_self
          cases List.mem_cons.mp hmem2 with
          | inl heq => rwa [← heq]
          | inr htail' =>
            have hlt' := (hR x1 y hR2).lt_right (hxs.1 x1 htail')
            simp [asymm hlt] at hlt'
      have hequiv := hR x y hhead
      refine .cons hhead (ih hxs.2 hys.2 ?_ ?_)
      . intro x1 hx1
        obtain ⟨y1, hmem1, hR1⟩ := hleft x1 (List.mem_cons_of_mem _ hx1)
        cases List.mem_cons.mp hmem1 with
        | inl heq =>
          subst heq
          have hlt := ((hR x1 y1 hR1).trans hequiv.symm).lt_right (hxs.1 x1 hx1)
          simp [irrefl] at hlt
        | inr htail => exact ⟨y1, htail, hR1⟩
      . intro y1 hy1
        obtain ⟨x1, hmem1, hR1⟩ := hright y1 (List.mem_cons_of_mem _ hy1)
        cases List.mem_cons.mp hmem1 with
        | inl heq =>
          subst heq
          have hlt := ((hR x1 y1 hR1).symm.trans hequiv).lt_right (hys.1 y1 hy1)
          simp [irrefl] at hlt
        | inr htail => exact ⟨x1, htail, hR1⟩

section Insert

/--
The place of `x` behind all smaller elements, unless there is an equivalent one.
-/
def insertElem (less : Less α) (xs : List α) (x : α) : List α :=
  match xs with
  | [] => [x]
  | y :: ys =>
    if less.lt x y then x :: y :: ys
    else if less.lt y x then y :: insertElem less ys x
    else y :: ys

theorem mem_insertElem {xs : List α} (h : y ∈ less.insertElem xs x) : y = x ∨ y ∈ xs := by
  induction xs with
  | nil => simpa [insertElem] using h
  | cons z zs ih =>
    unfold insertElem at h
    split at h
    . simpa using h
    . split at h <;> grind

theorem mem_insertElem_of_mem {xs : List α} (h : y ∈ xs) : y ∈ less.insertElem xs x := by
  induction xs with
  | nil => simp at h
  | cons z zs ih =>
    unfold insertElem
    split
    . simp [h]
    . split <;> grind

theorem exists_equiv_insertElem (xs : List α) (x : α)
    : ∃ y ∈ less.insertElem xs x, less.Equiv y x := by
  induction xs with
  | nil => exact ⟨x, by simp [insertElem], Equiv.refl x⟩
  | cons z zs ih =>
    unfold insertElem
    split
    . exact ⟨x, by simp, Equiv.refl x⟩
    . next hxz =>
      split
      . obtain ⟨y, hmem, hequiv⟩ := ih
        exact ⟨y, List.mem_cons_of_mem _ hmem, hequiv⟩
      . next hzx =>
        exact ⟨z, by simp, by simpa using hzx, by simpa using hxz⟩

theorem Sorted.insertElem {xs : List α} (h : less.Sorted xs) (x : α)
    : less.Sorted (less.insertElem xs x) := by
  induction xs with
  | nil => simp [Less.insertElem, Sorted]
  | cons y ys ih =>
    have hys := List.pairwise_cons.mp h
    unfold Less.insertElem
    split
    . next hlt =>
      apply List.pairwise_cons.mpr
      refine ⟨?_, h⟩
      intro z hz
      cases List.mem_cons.mp hz with
      | inl heq => rwa [heq]
      | inr hmem => exact trans hlt (hys.1 z hmem)
    . split
      . next hlt =>
        apply List.pairwise_cons.mpr
        refine ⟨?_, ih hys.2⟩
        intro z hz
        cases mem_insertElem hz with
        | inl heq => rwa [heq]
        | inr hmem => exact hys.1 z hmem
      . exact h

end Insert

section Put

variable {β : Type}

def findEntry (less : Less κ) (entries : List (κ × β)) (k : κ) : Option β :=
  match entries with
  | [] => none
  | ⟨k', b⟩ :: rest =>
    if less.lt k k' then none
    else if less.lt k' k then findEntry less rest k
    else some b

/--
The value of `k` becomes `b`, the key stays if there is an equivalent one.
-/
def putEntry (less : Less κ) (entries : List (κ × β)) (k : κ) (b : β) : List (κ × β) :=
  match entries with
  | [] => [⟨k, b⟩]
  | ⟨k', b'⟩ :: rest =>
    if less.lt k k' then ⟨k, b⟩ :: ⟨k', b'⟩ :: rest
    else if less.lt k' k then ⟨k', b'⟩ :: putEntry less rest k b
    else ⟨k', b⟩ :: rest

abbrev SortedKeys (less : Less κ) (entries : List (κ × β)) : Prop :=
  entries.Pairwise fun p q => less.lt p.1 q.1 = true

variable {less : Less κ} {k : κ} {b : β}

theorem key_putEntry {entries : List (κ × β)} {p : κ × β} (h : p ∈ less.putEntry entries k b)
    : p.1 = k ∨ ∃ q ∈ entries, p.1 = q.1 := by
  induction entries with
  | nil =>
    simp only [putEntry, List.mem_singleton] at h
    simp [h]
  | cons q rest ih =>
    unfold putEntry at h
    split at h
    . rw [List.mem_cons] at h
      cases h with
      | inl heq => simp [heq]
      | inr hmem => exact Or.inr ⟨p, hmem, rfl⟩
    . split at h
      . rw [List.mem_cons] at h
        cases h with
        | inl heq => exact Or.inr ⟨q, List.mem_cons_self, by rw [heq]⟩
        | inr hmem =>
          cases ih hmem with
          | inl heq => exact Or.inl heq
          | inr hold =>
            obtain ⟨q', hq', heq⟩ := hold
            exact Or.inr ⟨q', List.mem_cons_of_mem _ hq', heq⟩
      . rw [List.mem_cons] at h
        cases h with
        | inl heq => exact Or.inr ⟨q, List.mem_cons_self, by rw [heq]⟩
        | inr hmem => exact Or.inr ⟨p, List.mem_cons_of_mem _ hmem, rfl⟩

theorem SortedKeys.putEntry {entries : List (κ × β)} (h : less.SortedKeys entries) (k : κ) (b : β)
    : less.SortedKeys (less.putEntry entries k b) := by
  induction entries with
  | nil => simp [Less.putEntry, SortedKeys]
  | cons q rest ih =>
    have hrest := List.pairwise_cons.mp h
    unfold Less.putEntry
    split
    . next hlt =>
      apply List.pairwise_cons.mpr
      refine ⟨?_, h⟩
      intro p hp
      cases List.mem_cons.mp hp with
      | inl heq => rwa [heq]
      | inr hmem => exact trans hlt (hrest.1 p hmem)
    . split
      . next hlt =>
        apply List.pairwise_cons.mpr
        refine ⟨?_, ih hrest.2⟩
        intro p hp
        cases key_putEntry hp with
        | inl heq => rwa [heq]
        | inr hold =>
          obtain ⟨p', hp', heq⟩ := hold
          rw [heq]
          exact hrest.1 p' hp'
      . exact List.pairwise_cons.mpr hrest

theorem findEntry_of_forall_lt {entries : List (κ × β)}
    (h : ∀ p ∈ entries, less.lt p.1 k = true)
    : less.findEntry entries k = none := by
  induction entries with
  | nil => rfl
  | cons p rest ih =>
    have hp := h p List.mem_cons_self
    unfold findEntry
    rw [if_neg (by simp [asymm hp]), if_pos hp]
    exact ih fun q hq => h q (List.mem_cons_of_mem _ hq)

theorem putEntry_of_forall_lt {entries : List (κ × β)}
    (h : ∀ p ∈ entries, less.lt p.1 k = true)
    : less.putEntry entries k b = entries ++ [⟨k, b⟩] := by
  induction entries with
  | nil => rfl
  | cons p rest ih =>
    have hp := h p List.mem_cons_self
    unfold putEntry
    rw [if_neg (by simp [asymm hp]), if_pos hp, ih fun q hq => h q (List.mem_cons_of_mem _ hq)]
    rfl

end Put
end Less

/--
A set without equivalent elements, in ascending order.
-/
structure OrderedSet {α : Type} (less : Less α) where
  elems : List α
  sorted : less.Sorted elems

namespace OrderedSet

variable {α : Type} {less : Less α}

def empty : OrderedSet less := ⟨[], List.Pairwise.nil⟩

def insert (s : OrderedSet less) (x : α) : OrderedSet less :=
  ⟨less.insertElem s.elems x, s.sorted.insertElem x⟩

section InsertAll

variable {γ : Type} {f : γ → α}

theorem mem_foldl_insert {s : OrderedSet less} {xs : List γ} {y : α}
    (h : y ∈ (xs.foldl (fun s x => s.insert (f x)) s).elems)
    : y ∈ s.elems ∨ ∃ x ∈ xs, y = f x := by
  induction xs generalizing s with
  | nil => exact Or.inl h
  | cons x xs ih =>
    cases ih h with
    | inl hinsert =>
      cases Less.mem_insertElem hinsert with
      | inl heq => exact Or.inr ⟨x, List.mem_cons_self, heq⟩
      | inr hmem => exact Or.inl hmem
    | inr hmem =>
      obtain ⟨x', hx', heq⟩ := hmem
      exact Or.inr ⟨x', List.mem_cons_of_mem _ hx', heq⟩

theorem mem_foldl_insert_of_mem {s : OrderedSet less} (xs : List γ) {y : α} (h : y ∈ s.elems)
    : y ∈ (xs.foldl (fun s x => s.insert (f x)) s).elems := by
  induction xs generalizing s with
  | nil => exact h
  | cons x xs ih => exact ih (Less.mem_insertElem_of_mem h)

theorem exists_equiv_foldl_insert (s : OrderedSet less) {xs : List γ} {x : γ} (h : x ∈ xs)
    : ∃ y ∈ (xs.foldl (fun s x => s.insert (f x)) s).elems, less.Equiv y (f x) := by
  induction xs generalizing s with
  | nil => simp at h
  | cons x' xs ih =>
    cases List.mem_cons.mp h with
    | inl heq =>
      subst heq
      obtain ⟨y, hmem, hequiv⟩ := Less.exists_equiv_insertElem s.elems (f x)
      exact ⟨y, mem_foldl_insert_of_mem xs (s := s.insert (f x)) hmem, hequiv⟩
    | inr hmem => exact ih (s.insert (f x')) hmem

end InsertAll

theorem exists_of_forall₂ {R : α → α → Prop} {xs ys : List α} (h : List.Forall₂ R xs ys) {x : α}
    (hx : x ∈ xs)
    : ∃ y ∈ ys, R x y := by
  induction h with
  | nil => simp at hx
  | cons hhead _ ih =>
    cases List.mem_cons.mp hx with
    | inl heq => exact ⟨_, List.mem_cons_self, heq ▸ hhead⟩
    | inr hmem =>
      obtain ⟨y, hy, hrel⟩ := ih hmem
      exact ⟨y, List.mem_cons_of_mem _ hy, hrel⟩

-- inserting related copies of all elements of `c` leads to `c` if and only if all that has been
-- there is related to elements of `c`
theorem forall₂_foldl_insert_iff {R : α → α → Prop} (hR : ∀ x y, R x y → less.Equiv x y)
    {f : α → α} {s c : OrderedSet less} (hf : ∀ y ∈ c.elems, R (f y) y)
    : List.Forall₂ R (c.elems.foldl (fun s y => s.insert (f y)) s).elems c.elems
        ↔
      ∀ x ∈ s.elems, ∃ y ∈ c.elems, R x y := by
  constructor
  . intro h x hx
    exact exists_of_forall₂ h (mem_foldl_insert_of_mem c.elems hx)
  . intro h
    have hleft : ∀ x ∈ (c.elems.foldl (fun s y => s.insert (f y)) s).elems,
        ∃ y ∈ c.elems, R x y := by
      intro x hx
      cases mem_foldl_insert hx with
      | inl hmem => exact h x hmem
      | inr hnew =>
        obtain ⟨y, hy, heq⟩ := hnew
        exact ⟨y, hy, heq ▸ hf y hy⟩
    apply Less.Sorted.forall₂ (OrderedSet.sorted _) c.sorted hR hleft
    intro y hy
    obtain ⟨x, hx, hequiv⟩ := exists_equiv_foldl_insert (f := f) s hy
    obtain ⟨y', hy', hrel⟩ := hleft x hx
    have hsame : less.Equiv y' y :=
      ((hR x y' hrel).symm.trans hequiv).trans (hR (f y) y (hf y hy))
    rw [c.sorted.eq_of_equiv hy' hy hsame] at hrel
    exact ⟨x, hx, hrel⟩

end OrderedSet

/--
A map with values for keys none of which are equivalent, in ascending order.
-/
structure OrderedMap {κ : Type} (less : Less κ) (β : Type) where
  entries : List (κ × β)
  sorted : less.SortedKeys entries

namespace OrderedMap

variable {κ β : Type} {less : Less κ}

def empty : OrderedMap less β := ⟨[], List.Pairwise.nil⟩

def find (m : OrderedMap less β) (k : κ) : Option β := less.findEntry m.entries k

def put (m : OrderedMap less β) (k : κ) (b : β) : OrderedMap less β :=
  ⟨less.putEntry m.entries k b, m.sorted.putEntry k b⟩

theorem entries_foldl_put {γ : Type} {f : κ → κ} {g : β → γ → β} (d : β) {ps : List (κ × γ)}
    (hps : less.SortedKeys ps) (hf : ∀ p ∈ ps, less.Equiv (f p.1) p.1) {m : OrderedMap less β}
    (hm : ∀ q ∈ m.entries, ∀ p ∈ ps, less.lt q.1 p.1 = true)
    : (ps.foldl (fun m p => m.put (f p.1) (g ((m.find (f p.1)).getD d) p.2)) m).entries
        = m.entries ++ ps.map fun p => ⟨f p.1, g d p.2⟩ := by
  induction ps generalizing m with
  | nil => simp
  | cons p ps ih =>
    have hlt : ∀ q ∈ m.entries, less.lt q.1 (f p.1) = true := by
      intro q hq
      exact (hf p List.mem_cons_self).symm.lt_right (hm q hq p List.mem_cons_self)
    have hput : (m.put (f p.1) (g ((m.find (f p.1)).getD d) p.2)).entries
        = m.entries ++ [⟨f p.1, g d p.2⟩] := by
      unfold put find
      rw [Less.findEntry_of_forall_lt hlt]
      exact Less.putEntry_of_forall_lt hlt
    have hps' := List.pairwise_cons.mp hps
    rw [List.foldl_cons, ih hps'.2, hput]
    . simp
    . intro q hq
      exact hf q (List.mem_cons_of_mem _ hq)
    . rw [hput]
      intro q hq p' hp'
      simp only [List.mem_append, List.mem_singleton] at hq
      cases hq with
      | inl hmem => exact hm q hmem p' (List.mem_cons_of_mem _ hp')
      | inr heq =>
        rw [heq]
        exact (hf p List.mem_cons_self).lt_left (hps'.1 p' hp')

end OrderedMap
