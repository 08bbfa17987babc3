import Mathlib

/-!
This module contains weakest preconditions for programs over `EStateM`: what has to hold of the
state a program starts in for it to end with `Q` if it returns and with `E` if it throws.
-/

namespace StateProg

variable {ε σ α β : Type}

def wp (x : EStateM ε σ α) (Q : α → σ → Prop) (E : ε → σ → Prop) (s : σ) : Prop :=
  match x s with
  | .ok a s' => Q a s'
  | .error e s' => E e s'

section Rules

variable {Q : β → σ → Prop} {E : ε → σ → Prop} {s : σ}

@[simp]
theorem wp_pure (b : β) : wp (pure b) Q E s ↔ Q b s := Iff.rfl

@[simp]
theorem wp_throw (e : ε) : wp (throw e : EStateM ε σ β) Q E s ↔ E e s := Iff.rfl

@[simp]
theorem wp_get {Q : σ → σ → Prop} : wp (get : EStateM ε σ σ) Q E s ↔ Q s s := Iff.rfl

@[simp]
theorem wp_modify {Q : Unit → σ → Prop} (f : σ → σ)
    : wp (modify f : EStateM ε σ Unit) Q E s ↔ Q () (f s) := Iff.rfl

@[simp]
theorem wp_bind (x : EStateM ε σ α) (f : α → EStateM ε σ β)
    : wp (x >>= f) Q E s ↔ wp x (fun a s1 => wp (f a) Q E s1) E s := by
  simp only [wp, bind, EStateM.bind]
  cases x s with
  | ok a s' => simp
  | error e s' => simp

theorem wp_of_ok {x : EStateM ε σ β} {b : β} {s' : σ} (h : wp x Q E s) (hx : x s = .ok b s')
    : Q b s' := by
  simpa only [wp, hx] using h

theorem wp_of_error {x : EStateM ε σ β} {e : ε} {s' : σ} (h : wp x Q E s) (hx : x s = .error e s')
    : E e s' := by
  simpa only [wp, hx] using h

-- `x` ends in `s'`, with a result or without
def Ends (x : EStateM ε σ β) (s s' : σ) : Prop :=
  (∃ b, x s = .ok b s') ∨ ∃ e, x s = .error e s'

theorem wp_of_ends {x : EStateM ε σ β} {P : σ → Prop} {s' : σ}
    (h : wp x (fun _ => P) (fun _ => P) s) (hx : Ends x s s')
    : P s' := by
  cases hx with
  | inl hok =>
    obtain ⟨b, hok⟩ := hok
    simpa only [wp, hok] using h
  | inr herror =>
    obtain ⟨e, herror⟩ := herror
    simpa only [wp, herror] using h

theorem exists_of_wp {x : EStateM ε σ β} (h : wp x Q (fun _ _ => False) s)
    : ∃ b s', x s = .ok b s' ∧ Q b s' := by
  unfold wp at h
  cases hx : x s with
  | ok b s' =>
    rw [hx] at h
    exact ⟨b, s', rfl, h⟩
  | error e s' =>
    rw [hx] at h
    exact absurd h id

/--
The rule of consequence, also the way to use what has been proved about a called function.
-/
theorem wp_mono {x : EStateM ε σ β} {Q' : β → σ → Prop} {E' : ε → σ → Prop} (h : wp x Q E s)
    (hQ : ∀ b s', Q b s' → Q' b s') (hE : ∀ e s', E e s' → E' e s')
    : wp x Q' E' s := by
  unfold wp at h ⊢
  cases hx : x s with
  | ok b s' =>
    rw [hx] at h
    apply hQ
    exact h
  | error e s' =>
    rw [hx] at h
    apply hE
    exact h

theorem wp_and {x : EStateM ε σ β} {Q' : β → σ → Prop} {E' : ε → σ → Prop} (h : wp x Q E s)
    (h' : wp x Q' E' s)
    : wp x (fun b s' => Q b s' ∧ Q' b s') (fun e s' => E e s' ∧ E' e s') s := by
  unfold wp at h h' ⊢
  cases hx : x s with
  | ok b s' =>
    rw [hx] at h h'
    exact ⟨h, h'⟩
  | error e s' =>
    rw [hx] at h h'
    exact ⟨h, h'⟩

end Rules

section Test

-- tests of the outcome of a run, to be evaluated
def returns (r : EStateM.Result ε σ α) (p : α → σ → Bool) : Bool :=
  match r with
  | .ok a s => p a s
  | .error _ _ => false

def throws (r : EStateM.Result ε σ α) (p : ε → σ → Bool) : Bool :=
  match r with
  | .ok _ _ => false
  | .error e s => p e s

theorem exists_of_returns {r : EStateM.Result ε σ α} {p : α → σ → Bool} (h : returns r p = true)
    : ∃ a s, r = .ok a s ∧ p a s = true := by
  cases r with
  | ok a s => exact ⟨a, s, rfl, h⟩
  | error e s => simp [returns] at h

theorem exists_of_throws {r : EStateM.Result ε σ α} {p : ε → σ → Bool} (h : throws r p = true)
    : ∃ e s, r = .error e s ∧ p e s = true := by
  cases r with
  | ok a s => simp [throws] at h
  | error e s => exact ⟨e, s, rfl, h⟩

end Test
end StateProg
