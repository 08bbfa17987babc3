import MsgRpc.Cell.Lemmas.Final

/-!
This module contains the frame rule of notification: cells listeners do not lead to stay as they
are.
-/

namespace MsgRpc

open StateProg

/--
`k'` is `k` later on, `timeout` may have given it its `timeout_cell_`.
-/
inductive CellKind.Same : CellKind V → CellKind V → Prop where
  | refl (k : CellKind V) : CellKind.Same k k
  | hooked (data : TimeoutCellData V) (h : CellId) (hnone : data.timeoutCell = none)
    : CellKind.Same (.timeoutCell data) (.timeoutCell { data with timeoutCell := some h })

theorem CellKind.Same.trans {k1 k2 k3 : CellKind V} (h : k1.Same k2) (h' : k2.Same k3)
    : k1.Same k3 := by
  cases h with
  | refl => exact h'
  | hooked data hook hnone =>
    generalize hk : CellKind.timeoutCell { data with timeoutCell := some hook } = k at h'
    cases h' with
    | refl =>
      subst hk
      exact .hooked data hook hnone
    | hooked data' hook' hnone' =>
      -- a `timeout_cell_` is set only once
      simp only [CellKind.timeoutCell.injEq] at hk
      subst hk
      simp at hnone'

/--
`o'` is `o` later on with the same content. It may have got listeners, and a `timeout_cell_`.
-/
structure Cell.Same (o o' : Cell V) : Prop where
  type : o'.type = o.type
  kind : o.kind.Same o'.kind
  value : o'.value = o.value
  status : o'.status = o.status
  hasContext : o'.hasContext = o.hasContext
  hasSeqId : o'.hasSeqId = o.hasSeqId
  seqId : o'.seqId = o.seqId
  updatables : o.updatables <+: o'.updatables

theorem Cell.Same.refl (o : Cell V) : o.Same o :=
  ⟨rfl, .refl o.kind, rfl, rfl, rfl, rfl, rfl, List.prefix_refl _⟩

theorem Cell.Same.trans {o1 o2 o3 : Cell V} (h : o1.Same o2) (h' : o2.Same o3) : o1.Same o3 := by
  constructor
  . rw [h'.type, h.type]
  . exact h.kind.trans h'.kind
  . rw [h'.value, h.value]
  . rw [h'.status, h.status]
  . rw [h'.hasContext, h.hasContext]
  . rw [h'.hasSeqId, h.hasSeqId]
  . rw [h'.seqId, h.seqId]
  . exact h.updatables.trans h'.updatables

/--
The cells `s0` had outside of `A` are unchanged, unless the interaction has been released.
-/
structure Footprint (A : Updatable → Prop) (s0 s : St V) : Prop where
  cellCount : s0.it.cellCount ≤ s.it.cellCount
  same : ∀ c < s0.it.cellCount, ¬A (.cell c) → (s0.it.cells c).Same (s.it.cells c)
  alive : s.released = false → ∀ c < s0.it.cellCount, ¬A (.cell c)
    → (s.it.cells c).alive = (s0.it.cells c).alive

namespace Footprint

variable {A : Updatable → Prop} {s0 s s' : St V}

theorem refl (s : St V) : Footprint A s s where
  cellCount := Nat.le_refl _
  same c _ _ := Cell.Same.refl _
  alive _ c _ _ := rfl

theorem step (h : Footprint A s0 s) (hcount : s.it.cellCount ≤ s'.it.cellCount)
    (hreleased : s'.released = s.released)
    (hcell : ∀ c < s.it.cellCount, ¬A (.cell c)
      → (s.it.cells c).Same (s'.it.cells c) ∧ (s'.it.cells c).alive = (s.it.cells c).alive)
    : Footprint A s0 s' where
  cellCount := Nat.le_trans h.cellCount hcount
  same c hc hA := (h.same c hc hA).trans (hcell c (Nat.lt_of_lt_of_le hc h.cellCount) hA).1
  alive hrel c hc hA := by
    rw [(hcell c (Nat.lt_of_lt_of_le hc h.cellCount) hA).2]
    rw [hreleased] at hrel
    exact h.alive hrel c hc hA

theorem of_cells (h : Footprint A s0 s) (hcount : s'.it.cellCount = s.it.cellCount)
    (hreleased : s'.released = s.released) (hcells : s'.it.cells = s.it.cells)
    : Footprint A s0 s' := by
  apply h.step _ hreleased
  . intro c _ _
    rw [hcells]
    exact ⟨Cell.Same.refl _, rfl⟩
  . exact Nat.le_of_eq hcount.symm

theorem setCell (h : Footprint A s0 s) {c : CellId} {o : Cell V}
    (ho : ¬A (.cell c) → (s.it.cells c).Same o ∧ o.alive = (s.it.cells c).alive)
    : Footprint A s0 (s.setCell c o) := by
  apply h.step
  . exact Nat.le_refl _
  . rfl
  . intro c' _ hA
    by_cases heq : c' = c
    . subst heq
      simp only [St.setCell, Function.update_self]
      exact ho hA
    . simp only [St.setCell, Function.update_of_ne heq]
      exact ⟨Cell.Same.refl _, trivial⟩

theorem addCell (h : Footprint A s0 s) (o : Cell V) : Footprint A s0 (s.addCell o) := by
  apply h.step
  . exact Nat.le_succ _
  . rfl
  . intro c hc _
    have hne : c ≠ s.it.cellCount := by lia
    simp only [St.addCell, Function.update_of_ne hne]
    exact ⟨Cell.Same.refl _, trivial⟩

theorem assign (h : Footprint A s0 s) {c : CellId} (o : Outcome V) (hA : A (.cell c))
    : Footprint A s0 (s.assign c o) := by
  cases o with
  | value v =>
    have hset : Footprint A s0 (s.setCell c { s.it.cells c with value := some v }) :=
      h.setCell fun hno => absurd hA hno
    apply hset.of_cells <;> rfl
  | error reason =>
    have hset : Footprint A s0 (s.setCell c { s.it.cells c with status := reason }) :=
      h.setCell fun hno => absurd hA hno
    apply hset.of_cells <;> rfl

theorem frees (h : Footprint A s0 s) (hfrees : Frees s s') : Footprint A s0 s'.release where
  cellCount := by
    change s0.it.cellCount ≤ s'.it.cellCount
    rw [hfrees.cellCount]
    exact h.cellCount
  same c hc hA := by
    apply (h.same c hc hA).trans
    change (s.it.cells c).Same (s'.it.cells c)
    rw [hfrees.cell c]
    exact ⟨rfl, .refl _, rfl, rfl, rfl, rfl, rfl, List.prefix_refl _⟩
  alive hrel := by
    simp [St.release] at hrel

theorem effect {env : Env V} (h : Footprint A s0 s) (hwf : WellFormed s)
    (heffect : Effect env A s s')
    : Footprint A s0 s' := by
  cases heffect with
  | newCell type kind _ _ =>
    apply (h.addCell { type, kind }).of_cells <;> rfl
  | failedCell type reason _ =>
    apply (h.addCell { type, kind := .cell, status := reason }).of_cells <;> rfl
  | drop c _ _ hA _ _ _ _ =>
    have hpop : Footprint A s0 (s.popFrame.removeRspHandlerOf c) := by
      apply h.of_cells
      . rw [it_removeRspHandlerOf]
        rfl
      . rw [released_removeRspHandlerOf]
        rfl
      . rw [it_removeRspHandlerOf]
        rfl
    have hset : Footprint A s0 ((s.popFrame.removeRspHandlerOf c).setCell c
        { (s.popFrame.removeRspHandlerOf c).it.cells c with alive := false }) :=
      hpop.setCell fun hno => absurd hA hno
    apply hset.of_cells <;> rfl
  | subscribe c u _ _ _ _ _ =>
    have hset : Footprint A s0 (s.setCell c
        { s.it.cells c with updatables := (s.it.cells c).updatables ++ [u] }) := by
      apply h.setCell
      intro _
      exact ⟨⟨rfl, .refl _, rfl, rfl, rfl, rfl, rfl, List.prefix_append _ _⟩, rfl⟩
    apply hset.of_cells <;> rfl
  | setData t data data' hA _ _ _ => exact h.setCell fun hno => absurd hA hno
  | newHook t data halive hkind hhook =>
    have hlt := hwf.lt_of_alive halive
    have hne : t ≠ s.it.cellCount := by lia
    have hcell : (s.addCell { type := env.boolType, kind := .timeoutHook }).it.cells t
        = s.it.cells t := by
      simp [St.addCell, hne]
    apply (h.addCell { type := env.boolType, kind := .timeoutHook }).setCell
    intro _
    rw [hcell]
    refine ⟨⟨rfl, ?_, rfl, rfl, rfl, rfl, rfl, List.prefix_refl _⟩, rfl⟩
    rw [hkind]
    exact .hooked data s.it.cellCount hhook
  | register c _ _ hA _ _ _ =>
    have hset : Footprint A s0 (s.setCell c
        { s.it.cells c with hasSeqId := true, seqId := s.nextSeqId }) :=
      h.setCell fun hno => absurd hA hno
    apply hset.of_cells <;> rfl
  | _ => apply h.of_cells <;> rfl

theorem keeps (env : Env V) (A : Updatable → Prop) (s0 : St V)
    : Keeps env A (Footprint A s0) (fun _ _ => True) where
  effect s s' h hact := h.inv.effect h.wellFormed hact.effect
  assign s c o h _ hA _ := h.inv.assign o hA
  notify s c u h _ _ _ := by
    apply h.inv.of_cells <;> rfl
  fault := by
    intros
    trivial
  unique := by
    intros
    trivial

theorem keepsRelease (env : Env V) (A : Updatable → Prop) (s0 : St V)
    : KeepsRelease env A (Footprint A s0) (fun _ => Footprint A s0) where
  ranAction s a h _ _ := by
    apply h.inv.of_cells <;> rfl
  finished s a h _ _ := by
    apply h.inv.of_cells <;> rfl
  response s a senderId rspHeader c v buf h _ _ _ _ := by
    apply h.inv.of_cells <;> rfl
  release s s' a h _ _ hfrees := h.inv.frees hfrees

theorem updates (env : Env V) (A : Updatable → Prop) (s0 : St V) (n : Nat)
    : Updates A (Footprint A s0) (fun _ => Footprint A s0) (fun _ _ => True) (update env n) := by
  have hk := keeps env A s0
  apply hk.update hk.returns
  apply (keepsRelease env A s0).keepsFinal hk
  intros
  trivial

end Footprint
end MsgRpc
