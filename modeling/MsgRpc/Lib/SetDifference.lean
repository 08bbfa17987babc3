import Mathlib

/-!
This module contains the difference of two sorted lists, computed by walking along both.
-/

namespace SortedList

variable {α : Type} [LinearOrder α]

def setDifference (as bs : List α) : List α :=
  match as with
  | [] => []
  | a :: as =>
    match bs.dropWhile (· < a) with
    | [] => a :: setDifference as []
    | b :: rest => if a < b then a :: setDifference as (b :: rest) else setDifference as rest

theorem setDifference_subset (as bs : List α) : setDifference as bs ⊆ as := by
  induction as generalizing bs with
  | nil => simp [setDifference]
  | cons a as ih =>
    intro x hx
    unfold setDifference at hx
    split at hx
    . cases List.mem_cons.mp hx with
      | inl heq => simp [heq]
      | inr hmem => exact List.mem_cons_of_mem _ (ih _ hmem)
    . split at hx
      . cases List.mem_cons.mp hx with
        | inl heq => simp [heq]
        | inr hmem => exact List.mem_cons_of_mem _ (ih _ hmem)
      . exact List.mem_cons_of_mem _ (ih _ hx)

theorem mem_setDifference {as bs : List α} {x : α} (hx : x ∈ as) (hbs : x ∉ bs)
    : x ∈ setDifference as bs := by
  induction as generalizing bs with
  | nil => simp at hx
  | cons a as ih =>
    unfold setDifference
    split
    . cases List.mem_cons.mp hx with
      | inl heq => simp [heq]
      | inr hmem => exact List.mem_cons_of_mem _ (ih hmem (by simp))
    . next b rest hdrop =>
      have hrest : x ∉ b :: rest := by
        intro hmem
        rw [← hdrop] at hmem
        exact hbs ((List.dropWhile_sublist _).subset hmem)
      split
      . cases List.mem_cons.mp hx with
        | inl heq => simp [heq]
        | inr hmem => exact List.mem_cons_of_mem _ (ih hmem hrest)
      . next hlt =>
        have hge : b = a := by
          have hb : ¬b < a := by
            have hne : bs.dropWhile (· < a) ≠ [] := by simp [hdrop]
            have := List.head_dropWhile_not (· < a) hne
            simpa [hdrop] using this
          exact le_antisymm (not_lt.mp hlt) (not_lt.mp hb)
        cases List.mem_cons.mp hx with
        | inl heq =>
          rw [heq, ← hge] at hrest
          simp at hrest
        | inr hmem =>
          apply ih hmem
          intro hmem'
          exact hrest (List.mem_cons_of_mem _ hmem')

end SortedList
