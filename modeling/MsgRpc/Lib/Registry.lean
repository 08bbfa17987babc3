import Mathlib

/-!
This module contains registries: a table that maps keys to their owners, next to owners that know
their key themselves.
-/

namespace Registry

variable {K O : Type}

/--
Table and owners tell the same.
-/
def Agrees (table : K → Option O) (key : O → Option K) : Prop :=
  ∀ k o, table k = some o ↔ key o = some k

namespace Agrees

variable {table table' : K → Option O} {key key' : O → Option K}

theorem empty : Agrees (fun _ : K => (none : Option O)) (fun _ => none) := by
  intro k o
  simp

theorem congr (h : Agrees table key) (htable : ∀ k, table' k = table k)
    (hkey : ∀ o, key' o = key o)
    : Agrees table' key' := by
  intro k o
  rw [htable, hkey]
  exact h k o

-- no two keys share an owner
theorem inj (h : Agrees table key) {k k' : K} {o : O} (hk : table k = some o)
    (hk' : table k' = some o)
    : k = k' := by
  have h1 := (h k o).mp hk
  have h2 := (h k' o).mp hk'
  rw [h1] at h2
  simpa using h2

theorem insert [DecidableEq K] (h : Agrees table key) {k : K} {o : O} (hfresh : table k = none)
    (ho : key o = none) (htable : table' = Function.update table k (some o))
    (hkey : ∀ o', key' o' = key o' ∨ o' = o) (hkey' : key' o = some k)
    : Agrees table' key' := by
  intro k1 o1
  rw [htable]
  have h1 := h k1 o1
  by_cases heq : k1 = k
  . subst heq
    rw [Function.update_self]
    rw [hfresh] at h1
    cases hkey o1 with
    | inl hsame =>
      rw [hsame]
      by_cases ho1 : o1 = o
      . subst ho1
        rw [hkey'] at hsame
        rw [← hsame] at ho
        simp at ho
      . simp only [Option.some.injEq]
        have hne : o ≠ o1 := fun hoo => ho1 hoo.symm
        simp [hne, ← h1]
    | inr ho1 =>
      rw [ho1, hkey']
      simp
  . rw [Function.update_of_ne heq]
    cases hkey o1 with
    | inl hsame =>
      rw [hsame]
      exact h1
    | inr ho1 =>
      rw [ho1] at h1 ⊢
      rw [hkey', h1, ho]
      simp [Ne.symm heq]

-- some owners lose their keys, the table forgets these keys and no others
theorem drop (h : Agrees table key) (gone : O → Prop)
    (htable : ∀ k, table' k = table k ∨ table' k = none ∧ ∃ o, gone o ∧ key o = some k)
    (hgone : ∀ o k, gone o → key o = some k → table' k = none)
    (hkey : ∀ o, ¬gone o → key' o = key o) (hkey' : ∀ o, gone o → key' o = none)
    : Agrees table' key' := by
  intro k o
  by_cases ho : gone o
  . rw [hkey' o ho]
    simp only [reduceCtorEq, iff_false]
    intro hmapped
    cases htable k with
    | inl hsame =>
      rw [hsame] at hmapped
      have := hgone o k ho ((h k o).mp hmapped)
      rw [hsame, hmapped] at this
      simp at this
    | inr hnone =>
      rw [hnone.1] at hmapped
      simp at hmapped
  . rw [hkey o ho]
    cases htable k with
    | inl hsame =>
      rw [hsame]
      exact h k o
    | inr hnone =>
      obtain ⟨hnone, o', ho', hk'⟩ := hnone
      rw [hnone]
      simp only [reduceCtorEq, false_iff]
      intro hk
      have h1 := (h k o).mpr hk
      have h2 := (h k o').mpr hk'
      rw [h1] at h2
      simp only [Option.some.injEq] at h2
      rw [h2] at ho
      exact ho ho'

end Agrees
end Registry
