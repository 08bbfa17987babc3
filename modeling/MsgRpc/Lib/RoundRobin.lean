import Mathlib

/-!
This module contains the fairness of a counter that is read modulo the number of places: any
number of turns in a row is shared out evenly, wherever the counter stands.
-/

namespace RoundRobin

def turns (n c m : Nat) : List Nat :=
  (List.range' c m).map (· % n)

theorem turns_zero (n c : Nat) : turns n c 0 = [] := rfl

theorem turns_succ (n c m : Nat) : turns n c (m + 1) = c % n :: turns n (c + 1) m := by
  unfold turns
  rw [List.range'_succ, List.map_cons]

theorem length_turns (n c m : Nat) : (turns n c m).length = m := by
  unfold turns
  rw [List.length_map, List.length_range']

theorem turns_one (c m : Nat) : turns 1 c m = List.replicate m 0 := by
  induction m generalizing c with
  | zero => rfl
  | succ m ih => rw [turns_succ, ih, Nat.mod_one, List.replicate_succ]

theorem count_add_count_turns {n p : Nat} (hp : p < n) (c m : Nat)
    : Nat.count (· ≡ p [MOD n]) c + (turns n c m).count p
      = Nat.count (· ≡ p [MOD n]) (c + m) := by
  induction m generalizing c with
  | zero => simp [turns_zero]
  | succ m ih =>
    have hmod : (c ≡ p [MOD n]) ↔ c % n = p := by
      rw [Nat.ModEq, Nat.mod_eq_of_lt hp]
    have hrest := ih (c + 1)
    rw [Nat.count_succ] at hrest
    rw [turns_succ, List.count_cons, ← Nat.add_assoc c m 1, Nat.add_right_comm c m 1, ← hrest]
    simp only [hmod, beq_iff_eq]
    omega

theorem ceilDiv_eq_of_mod_pos {m n : Nat} (hn : 0 < n) (hm : 0 < m % n)
    : m ⌈/⌉ n = m / n + 1 := by
  have hdiv := Nat.div_add_mod m n
  have hlt := Nat.mod_lt m hn
  generalize m / n = q at hdiv ⊢
  generalize m % n = r at hdiv hm hlt
  have hround : m + n - 1 = n * (q + 1) + (r - 1) := by
    rw [Nat.mul_add_one]
    omega
  rw [Nat.ceilDiv_eq_add_pred_div, hround, Nat.mul_add_div hn, Nat.div_eq_of_lt (by omega),
    Nat.add_zero]

-- each place has its share, rounded down or up
theorem count_turns {n p : Nat} (hp : p < n) (c m : Nat)
    : (turns n c m).count p = m / n ∨ (turns n c m).count p = m ⌈/⌉ n := by
  have hn : 0 < n := by omega
  have hcount := count_add_count_turns hp c m
  rw [Nat.count_modEq_card _ hn, Nat.count_modEq_card _ hn, Nat.mod_eq_of_lt hp] at hcount
  have hc := Nat.mod_lt c hn
  have hm := Nat.mod_lt m hn
  -- whole rounds drop out, what is left of `c` and of `m` may make up one more round
  by_cases hround : c % n + m % n < n
  . have hmod : (c + m) % n = c % n + m % n := by
      rw [Nat.add_mod, Nat.mod_eq_of_lt hround]
    rw [Nat.add_div_eq_of_add_mod_lt hround, hmod] at hcount
    by_cases hzero : m % n = 0
    . left
      rw [hzero, Nat.add_zero] at hcount
      omega
    . rw [ceilDiv_eq_of_mod_pos hn (by omega)]
      generalize (turns n c m).count p = k at hcount
      split at hcount <;> split at hcount <;> omega
  . have hmod : (c + m) % n = c % n + m % n - n := by
      rw [Nat.add_mod, Nat.mod_eq_sub_mod (by omega), Nat.mod_eq_of_lt (by omega)]
    rw [Nat.add_div_eq_of_le_mod_add_mod (by omega) hn, hmod] at hcount
    rw [ceilDiv_eq_of_mod_pos hn (by omega)]
    generalize (turns n c m).count p = k at hcount
    split at hcount <;> split at hcount <;> omega

end RoundRobin
