import MsgRpc.Cell.Lemmas.Final

/-!
This module contains the proof that code keeps away from a released interaction, unless the release
has come about below a call that still has something to do.
-/

namespace MsgRpc

open StateProg

/--
All calls in progress are about to return when the interaction is released.
-/
def Ev.isTimely : Ev V → Bool
  | .released stack => stack.all Frame.finished
  | _ => true

-- a call that still had something to do has been overtaken by a release
def Interrupted (s : St V) : Prop := ∃ e ∈ s.it.log, e.isTimely = false

structure Quiet (m : Nat) (s : St V) : Prop where
  own : s.own = m
  interrupted : s.released = true → Interrupted s

-- all that is left to do after a release is to return
structure Calm (m : Nat) (stack : List Frame) (s : St V) : Prop where
  own : s.own = m
  interrupted : s.released = true → Interrupted s ∨ ∀ f ∈ stack, f.finished = true

-- how calls may end early
def Untouched (m : Nat) (e : Fault) (s : St V) : Prop := e = .useAfterFree → Quiet m s

namespace Quiet

variable {env : Env V} {A : Updatable → Prop} {m : Nat} {s s' : St V}

theorem stops (h : Quiet m s) (hstops : Stops s s') : Quiet m s' where
  own := by
    rw [hstops.own]
    exact h.own
  interrupted := by
    intro hrel
    rw [hstops.released] at hrel
    obtain ⟨e, hmem, he⟩ := h.interrupted hrel
    exact ⟨e, hstops.log.subset hmem, he⟩

theorem effect (h : Quiet m s) (hwf : WellFormed s) (heffect : Effect env A s s') : Quiet m s' := by
  have hext := Extends.effect hwf heffect
  apply h.stops
  refine ⟨hext.own, ?_, hext.log⟩
  cases heffect with
  | drop c _ _ _ _ _ _ _ => exact (Halts.removeRspHandlerOf s.popFrame c).released
  | _ => rfl

theorem assign (h : Quiet m s) (c : CellId) (o : Outcome V) : Quiet m (s.assign c o) := by
  cases o <;> exact h.stops ⟨rfl, rfl, List.prefix_append _ _⟩

theorem keeps (env : Env V) (A : Updatable → Prop) (m : Nat)
    : Keeps env A (Quiet m) (Untouched m) where
  effect s s' h hact := h.inv.effect h.wellFormed hact.effect
  assign s c o h _ _ _ := h.inv.assign c o
  notify s c u h _ _ _ := h.inv.stops ⟨rfl, rfl, List.prefix_append _ _⟩
  fault s s' e h _ hbreaks _ := h.inv.stops hbreaks.halts.toStops
  unique s h _ := by
    intro he
    simp at he

theorem returns (A : Updatable → Prop) (m : Nat) : Returns A (Quiet (V := V) m) (Calm m) where
  weaken s stack h := ⟨h.own, fun hrel => Or.inl (h.interrupted hrel)⟩
  resume s f stack _ h hf := by
    refine ⟨h.own, ?_⟩
    intro hrel
    cases h.interrupted hrel with
    | inl hinterrupted => exact hinterrupted
    | inr hfinished =>
      have := hfinished f List.mem_cons_self
      simp [hf] at this
  leave s f stack h _ _ := by
    refine ⟨h.inv.own, ?_⟩
    intro hrel
    cases h.inv.interrupted hrel with
    | inl hinterrupted => exact Or.inl hinterrupted
    | inr hfinished =>
      right
      intro f' hf'
      exact hfinished f' (List.mem_cons_of_mem f hf')

theorem keepsRelease (env : Env V) (A : Updatable → Prop) (m : Nat)
    : KeepsRelease env A (Quiet m) (Calm m) where
  ranAction s a h _ _ := h.inv.stops ⟨rfl, rfl, List.prefix_append _ _⟩
  finished s a h _ _ := h.inv.stops ⟨rfl, rfl, List.prefix_append _ _⟩
  response s a senderId rspHeader c v buf h _ _ _ _ :=
    h.inv.stops ⟨rfl, rfl, List.prefix_refl _⟩
  release s s' a h _ _ hfrees := by
    constructor
    . exact hfrees.own.trans h.inv.own
    . intro _
      cases hfinished : s.stack.all Frame.finished with
      | true => exact Or.inr (List.all_eq_true.mp hfinished)
      | false =>
        left
        refine ⟨.released s'.stack, by simp [St.release, St.record], ?_⟩
        rw [hfrees.stack]
        exact hfinished

theorem updates (env : Env V) (A : Updatable → Prop) (m n : Nat)
    : Updates A (Quiet m) (Calm m) (Untouched m) (update env n) := by
  have hk := keeps env A m
  apply hk.update (returns A m)
  apply (keepsRelease env A m).keepsFinal hk
  intro s s' e h hdouble _
  exact h.inv.stops hdouble.halts.toStops

end Quiet
end MsgRpc
