import Mathlib

/-!
This module contains networks: parties that hand messages to a channel and take inputs from it. The
channel may lose, delay, repeat and reorder messages, but it does not make up any.
-/

namespace Network

open Relation

inductive Run (step : I → σ → σ → Prop) (x : σ) : List I → σ → Prop where
  | nil : Run step x [] x
  | snoc (is : List I) (i : I) (y z : σ) (hrun : Run step x is y) (hstep : step i y z)
    : Run step x (is ++ [i]) z

namespace Run

variable {step : I → σ → σ → Prop} {x y : σ} {is : List I}

theorem invariant {Q : σ → Prop} (hrun : Run step x is y) (hx : Q x)
    (hstep : ∀ i y z, Q y → step i y z → Q z)
    : Q y := by
  induction hrun with
  | nil => exact hx
  | snoc _ i y z _ hlast ih => exact hstep i y z ih hlast

end Run

/--
The parties `P` of a network with inputs `I`, messages `M` and states `σ`. An input may carry a
message of a party, and what has been handed to the channel stays there.
-/
structure Protocol (P I M σ : Type) where
  init : P → σ
  step : P → I → σ → σ → Prop
  carries : P → I → Option (P × M)
  sent : σ → P → M → Prop
  sent_step : ∀ p is x i y q m, Run (step p) (init p) is x → step p i x y → sent x q m → sent y q m

structure State (P I σ : Type) where
  party : P → σ
  inputs : P → List I

section Network

variable {P I M σ : Type} [DecidableEq P]

namespace Protocol

variable (N : Protocol P I M σ)

def start : State P I σ where
  party := N.init
  inputs _ := []

/--
Party `p` takes an input, the message it carries has been handed over for `p` before.
-/
inductive Step (s : State P I σ) : State P I σ → Prop where
  | input (p : P) (i : I) (y : σ)
      (hcarried : ∀ q m, N.carries p i = some ⟨q, m⟩ → N.sent (s.party q) p m)
      (hstep : N.step p i (s.party p) y)
    : Step s
        { party := Function.update s.party p y
          inputs := Function.update s.inputs p (s.inputs p ++ [i]) }

abbrev Steps : State P I σ → State P I σ → Prop := ReflTransGen N.Step

def Reachable (s : State P I σ) : Prop := N.Steps N.start s

variable {N} {s s' : State P I σ}

-- seen from a single party a run of the network is a run of its own
theorem Steps.run (hsteps : N.Steps s s') (p : P)
    : ∃ is, s'.inputs p = s.inputs p ++ is ∧ Run (N.step p) (s.party p) is (s'.party p) := by
  induction hsteps with
  | refl => exact ⟨[], by simp, .nil⟩
  | tail _ hlast ih =>
    obtain ⟨is, hinputs, hrun⟩ := ih
    cases hlast with
    | input p' i y _ hstep =>
      by_cases hp : p = p'
      . subst hp
        refine ⟨is ++ [i], ?_, ?_⟩
        . simp [hinputs]
        . dsimp only
          rw [Function.update_self]
          exact .snoc is i _ y hrun hstep
      . refine ⟨is, ?_, ?_⟩
        . simp [hp, hinputs]
        . dsimp only
          rw [Function.update_of_ne hp]
          exact hrun

theorem Reachable.run (hreach : N.Reachable s) (p : P)
    : Run (N.step p) (N.init p) (s.inputs p) (s.party p) := by
  obtain ⟨is, hinputs, hrun⟩ := Steps.run hreach p
  rw [hinputs]
  exact hrun

theorem Reachable.steps (hreach : N.Reachable s) (hsteps : N.Steps s s') : N.Reachable s' :=
  hreach.trans hsteps

theorem Reachable.sent (hreach : N.Reachable s) (hsteps : N.Steps s s') {q p : P} {m : M}
    (hsent : N.sent (s.party q) p m)
    : N.sent (s'.party q) p m := by
  induction hsteps with
  | refl => exact hsent
  | @tail s1 s2 hbefore hlast ih =>
    have hrun := Reachable.run (hreach.steps hbefore) q
    cases hlast with
    | input p' i y _ hstep =>
      by_cases hq : q = p'
      . subst hq
        dsimp only
        rw [Function.update_self]
        exact N.sent_step q _ _ i y p m hrun hstep ih
      . dsimp only
        rw [Function.update_of_ne hq]
        exact ih

theorem Reachable.carried (hreach : N.Reachable s) {p q : P} {i : I} {m : M}
    (hmem : i ∈ s.inputs p) (hcarries : N.carries p i = some ⟨q, m⟩)
    : N.sent (s.party q) p m := by
  induction hreach with
  | refl => simp [start] at hmem
  | @tail s1 s2 hbefore hlast ih =>
    apply Reachable.sent hbefore (.single hlast)
    cases hlast with
    | input p' i' y hcarried hstep =>
      by_cases hp : p = p'
      . subst hp
        simp only [Function.update_self, List.mem_append, List.mem_singleton] at hmem
        cases hmem with
        | inl hbefore => exact ih hbefore
        | inr hnow =>
          subst hnow
          exact hcarried q m hcarries
      . simp only [ne_eq, hp, not_false_eq_true, Function.update_of_ne] at hmem
        exact ih hmem

theorem Reachable.input (hreach : N.Reachable s) (p : P) (i : I) (y : σ)
    (hcarried : ∀ q m, N.carries p i = some ⟨q, m⟩ → N.sent (s.party q) p m)
    (hstep : N.step p i (s.party p) y)
    : ∃ s', N.Reachable s' ∧ N.Steps s s' ∧ s'.party p = y ∧ s'.inputs p = s.inputs p ++ [i]
        ∧ ∀ p', p' ≠ p → s'.party p' = s.party p' ∧ s'.inputs p' = s.inputs p' := by
  have hinput := Step.input p i y hcarried hstep
  refine ⟨_, hreach.tail hinput, .single hinput, ?_, ?_, ?_⟩
  . simp
  . simp
  . intro p' hp'
    simp [hp']

end Protocol
end Network
end Network
