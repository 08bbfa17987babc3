import MsgRpc.Msg.Stage

/-!
This module contains the proof that no object of an interaction is freed twice and that registered
cells belong to the context.
-/

namespace MsgRpc

open StateProg

namespace Ledger

variable {s s' : St V}

theorem step (h : Ledger s) (hlog : s'.it.log = s.it.log)
    (hcell : ∀ c, (c < s'.it.cellCount ∧ (s'.it.cells c).alive = false)
      ↔ (c < s.it.cellCount ∧ (s.it.cells c).alive = false))
    (haction : ∀ a, (a < s'.it.actionCount ∧ (s'.it.actions a).alive = false)
      ↔ (a < s.it.actionCount ∧ (s.it.actions a).alive = false))
    (hctxt : s'.it.ctxtAlive = s.it.ctxtAlive) (hcount : s.it.actionCount ≤ s'.it.actionCount)
    : Ledger s' := by
  constructor
  . intro c
    rw [hlog, h.cell c]
    simp only [hcell c]
  . intro a
    rw [hlog, h.action a]
    simp only [haction a]
  . rw [hlog, hctxt, h.context]
  . intro a ha
    rw [hlog] at ha
    exact Nat.lt_of_lt_of_le (h.ran a ha) hcount

theorem congr (h : Ledger s) (hit : s'.it = s.it) : Ledger s' := by
  apply h.step <;> simp [hit]

theorem record (h : Ledger s) {e : Ev V} (he : e.isFreed = false)
    (hran : ∀ a, e = .ranAction a → a < s.it.actionCount)
    : Ledger (s.record e) := by
  constructor
  . intro c
    have hnone : e.freesCell c = false := by
      cases e <;> simp [Ev.isFreed] at he <;> simp [Ev.freesCell]
    have hzero : [e].countP (Ev.freesCell c) = 0 := by simp [hnone]
    simp only [St.record, List.countP_append, hzero, h.cell c]
    rfl
  . intro a
    have hnone : e.freesAction a = false := by
      cases e <;> simp [Ev.isFreed] at he <;> simp [Ev.freesAction]
    have hzero : [e].countP (Ev.freesAction a) = 0 := by simp [hnone]
    simp only [St.record, List.countP_append, hzero, h.action a]
    rfl
  . have hnone : e.freesContext = false := by
      cases e <;> simp [Ev.isFreed] at he <;> simp [Ev.freesContext]
    have hzero : [e].countP Ev.freesContext = 0 := by simp [hnone]
    simp only [St.record, List.countP_append, hzero, h.context]
    rfl
  . intro a ha
    simp only [St.record, List.mem_append, List.mem_singleton] at ha
    cases ha with
    | inl hmem => exact h.ran a hmem
    | inr heq => exact hran a heq.symm

theorem setCell (h : Ledger s) {c : CellId} {o : Cell V} (halive : o.alive = (s.it.cells c).alive)
    : Ledger (s.setCell c o) := by
  have hcell : ∀ c', ((s.setCell c o).it.cells c').alive = (s.it.cells c').alive := by
    intro c'
    by_cases heq : c' = c
    . subst heq
      simp [St.setCell, halive]
    . simp [St.setCell, heq]
  apply h.step
  . rfl
  . intro c'
    rw [hcell]
    rfl
  . intro a
    rfl
  . rfl
  . exact Nat.le_refl _

theorem addCell (h : Ledger s) {o : Cell V} (halive : o.alive = true) : Ledger (s.addCell o) := by
  apply h.step
  . rfl
  . intro c
    by_cases heq : c = s.it.cellCount
    . simp [St.addCell, heq, halive]
    . simp only [St.addCell, Function.update_of_ne heq]
      have : c < s.it.cellCount + 1 ↔ c < s.it.cellCount := by lia
      rw [this]
  . intro a
    rfl
  . rfl
  . exact Nat.le_refl _

theorem addAction (h : Ledger s) {o : Action V} (halive : o.alive = true)
    : Ledger (s.addAction o) := by
  apply h.step
  . rfl
  . intro c
    rfl
  . intro a
    by_cases heq : a = s.it.actionCount
    . simp [St.addAction, heq, halive]
    . simp only [St.addAction, Function.update_of_ne heq]
      have : a < s.it.actionCount + 1 ↔ a < s.it.actionCount := by lia
      rw [this]
  . rfl
  . exact Nat.le_succ _

theorem discards (h : Ledger s) (hwf : WellFormed s) (hdiscards : Discards s s') : Ledger s' := by
  obtain ⟨frees, hlog⟩ := hdiscards.frees
  constructor
  . intro c
    rw [hlog.log, List.countP_append, h.cell c, hlog.cell c, hdiscards.cellCount]
    have hdead := hdiscards.deadCell c
    have hlt : (s.it.cells c).alive = true → c < s.it.cellCount := hwf.lt_of_alive
    grind
  . intro a
    rw [hlog.log, List.countP_append, h.action a, hlog.action a, hdiscards.actionCount]
    have hdead := hdiscards.deadAction a
    have hlt : (s.it.actions a).alive = true → a < s.it.actionCount := hwf.lt_of_actionAlive
    grind
  . rw [hlog.log, List.countP_append, h.context, hlog.context]
    have hdead := hdiscards.ctxtAlive
    grind
  . intro a ha
    rw [hlog.log, List.mem_append] at ha
    rw [hdiscards.actionCount]
    cases ha with
    | inl hmem => exact h.ran a hmem
    | inr hmem =>
      have := hlog.isFreed _ hmem
      simp [Ev.isFreed] at this

theorem frees (h : Ledger s) (hwf : WellFormed s) (hfrees : Frees s s') : Ledger s' :=
  h.discards hwf hfrees.discards

-- an action that has not been allocated has not run
theorem countP_runs_new (h : Ledger s) : s.it.log.countP (Ev.runs s.it.actionCount) = 0 := by
  rw [List.countP_eq_zero]
  intro e he hruns
  cases e <;> simp [Ev.runs] at hruns
  rw [hruns] at he
  exact absurd (h.ran _ he) (Nat.lt_irrefl _)

theorem freesCell_le (h : Ledger s) (c : CellId) : s.it.log.countP (Ev.freesCell c) ≤ 1 := by
  rw [h.cell c]
  split <;> omega

theorem freesAction_le (h : Ledger s) (a : ActionId)
    : s.it.log.countP (Ev.freesAction a) ≤ 1 := by
  rw [h.action a]
  split <;> omega

theorem freesContext_le (h : Ledger s) : s.it.log.countP Ev.freesContext ≤ 1 := by
  rw [h.context]
  split <;> omega

theorem assign (h : Ledger s) (c : CellId) (o : Outcome V) : Ledger (s.assign c o) := by
  cases o with
  | value v =>
    apply record
    . exact h.setCell rfl
    . rfl
    . simp
  | error reason =>
    apply record
    . exact h.setCell rfl
    . rfl
    . simp

theorem effect {env : Env V} {A : Updatable → Prop} (h : Ledger s) (hwf : WellFormed s)
    (heffect : Effect env A s s')
    : Ledger s' := by
  cases heffect with
  | newCell type kind _ _ =>
    have hadd : Ledger (s.addCell { type, kind }) := h.addCell rfl
    exact hadd.congr rfl
  | newAction bind _ _ =>
    have hadd : Ledger (s.addAction { bind }) := h.addAction rfl
    exact hadd.congr rfl
  | track u _ _ _ => apply h.step <;> simp [St.track, St.popFrame]
  | drop c _ _ _ halive _ _ _ =>
    have hpop : Ledger s.popFrame := h.congr rfl
    apply hpop.frees hwf.popFrame
    apply (Frees.refl (s.popFrame.removeRspHandlerOf c)).freeCell
    rw [it_removeRspHandlerOf]
    exact halive
  | failedCell type reason _ =>
    have hadd : Ledger (s.addCell { type, kind := .cell, status := reason }) := h.addCell rfl
    apply hadd.step <;> simp [St.track]
  | subscribe c u _ _ _ _ _ =>
    apply setCell
    . apply h.record rfl
      simp
    . rfl
  | notifyNew c u _ _ _ _ _ =>
    apply record
    . apply h.record rfl
      simp
    . rfl
    . simp
  | setData t data data' _ _ _ _ => exact h.setCell rfl
  | newHook t data halive _ _ =>
    have hadd : Ledger (s.addCell { type := env.boolType, kind := .timeoutHook }) := h.addCell rfl
    exact hadd.setCell rfl
  | mark e he =>
    apply h.record
    . cases e <;> simp [Ev.isMark] at he <;> rfl
    . intro a heq
      simp [heq, Ev.isMark] at he
  | register c _ _ _ hnew _ _ =>
    have hset : Ledger (s.setCell c { s.it.cells c with hasSeqId := true, seqId := s.nextSeqId }) :=
      h.setCell rfl
    exact hset.congr rfl
  | ranAction a _ halive _ _ =>
    apply h.record rfl
    intro a' heq
    simp only [Ev.ranAction.injEq] at heq
    rw [← heq]
    exact hwf.lt_of_actionAlive halive
  | _ => exact h.congr rfl

end Ledger

namespace Owned

variable {s s' : St V}

theorem step (h : Owned s) (hwf : WellFormed s)
    (hctxt : ∀ c < s.it.cellCount, (s'.it.cells c).hasContext = (s.it.cells c).hasContext)
    (hnew : ∀ c, (s'.it.cells c).hasContext = true → (s.it.cells c).hasContext = true)
    (hlist : s.it.releaseList <+: s'.it.releaseList)
    (hrpc : ∀ c, (s'.it.cells c).alive = true → (s'.it.cells c).hasSeqId = true
      → .construct (.cell c) ∈ s'.stack
        ∨ (s.it.cells c).alive = true ∧ (s.it.cells c).hasSeqId = true
          ∧ (.construct (.cell c) ∈ s.stack
            → .construct (.cell c) ∈ s'.stack ∨ .cell c ∈ s'.it.releaseList))
    : Owned s' where
  rpc := by
    intro c halive hid
    cases hrpc c halive hid with
    | inl hconstruct => exact Or.inr (Or.inr hconstruct)
    | inr hold =>
      obtain ⟨halive0, hid0, hstack⟩ := hold
      have hlt := hwf.lt_of_alive halive0
      cases h.rpc c halive0 hid0 with
      | inl hmem => exact Or.inl (hlist.subset hmem)
      | inr hrest =>
        cases hrest with
        | inl hholder =>
          rw [hctxt c hlt]
          exact Or.inr (Or.inl hholder)
        | inr hconstruct =>
          cases hstack hconstruct with
          | inl hstill => exact Or.inr (Or.inr hstill)
          | inr hmem => exact Or.inl hmem
  holder := by
    intro c c' hc hc'
    exact h.holder c c' (hnew c hc) (hnew c' hc')

theorem effect {env : Env V} {A : Updatable → Prop} (h : Owned s) (hwf : WellFormed s)
    (heffect : Effect env A s s')
    : Owned s' := by
  have hext := Extends.effect hwf heffect
  apply h.step hwf hext.hasContext hext.newContext hext.releaseList
  intro c halive hid
  cases heffect with
  | push f _ => exact Or.inr ⟨halive, hid, fun hmem => Or.inl (List.mem_cons_of_mem _ hmem)⟩
  | pop f stack hf hs =>
    refine Or.inr ⟨halive, hid, ?_⟩
    intro hmem
    rw [hs, List.mem_cons] at hmem
    cases hmem with
    | inl heq =>
      rw [← heq] at hf
      simp [Frame.isConstruct] at hf
    | inr hmem =>
      left
      simpa [St.popFrame, hs] using hmem
  | newCell type kind _ _ =>
    by_cases heq : c = s.it.cellCount
    . simp [heq, St.addCell, St.pushFrame] at hid
    . simp only [St.addCell, St.pushFrame, Function.update_of_ne heq] at halive hid
      exact Or.inr ⟨halive, hid, fun hmem => Or.inl (List.mem_cons_of_mem _ hmem)⟩
  | newAction bind _ _ =>
    exact Or.inr ⟨halive, hid, fun hmem => Or.inl (List.mem_cons_of_mem _ hmem)⟩
  | track u stack hs _ =>
    refine Or.inr ⟨halive, hid, ?_⟩
    intro hmem
    rw [hs, List.mem_cons] at hmem
    cases hmem with
    | inl heq =>
      right
      simp only [Frame.construct.injEq] at heq
      simp [St.track, heq]
    | inr hmem =>
      left
      simpa [St.popFrame, St.track, hs] using hmem
  | drop c' stack hs _ _ _ _ _ =>
    by_cases heq : c = c'
    . simp [heq, St.freeCell, St.record, St.setCell] at halive
    . simp only [St.freeCell, St.record, St.setCell, Function.update_of_ne heq,
        it_removeRspHandlerOf] at halive hid
      refine Or.inr ⟨halive, hid, ?_⟩
      intro hmem
      rw [hs, List.mem_cons] at hmem
      cases hmem with
      | inl hsame =>
        simp only [Frame.construct.injEq, Updatable.cell.injEq] at hsame
        exact absurd hsame heq
      | inr hmem =>
        left
        have hstack : (s.popFrame.removeRspHandlerOf c').stack = s.stack.tail := by
          unfold St.removeRspHandlerOf
          split <;> rfl
        change _ ∈ (s.popFrame.removeRspHandlerOf c').stack
        rw [hstack, hs]
        exact hmem
  | failedCell type reason _ =>
    by_cases heq : c = s.it.cellCount
    . simp [heq, St.addCell, St.track] at hid
    . simp only [St.addCell, St.track, Function.update_of_ne heq] at halive hid
      exact Or.inr ⟨halive, hid, fun hmem => Or.inl hmem⟩
  | subscribe c' u _ _ _ _ _ =>
    by_cases heq : c = c'
    . subst heq
      simp only [St.record, St.pushUpdatable, St.setCell, Function.update_self] at halive hid
      exact Or.inr ⟨halive, hid, fun hmem => Or.inl hmem⟩
    . simp only [St.record, St.pushUpdatable, St.setCell, Function.update_of_ne heq] at halive hid
      exact Or.inr ⟨halive, hid, fun hmem => Or.inl hmem⟩
  | setData t data data' _ _ _ _ =>
    by_cases heq : c = t
    . subst heq
      simp only [St.setKind, St.setCell, Function.update_self] at halive hid
      exact Or.inr ⟨halive, hid, fun hmem => Or.inl hmem⟩
    . simp only [St.setKind, St.setCell, Function.update_of_ne heq] at halive hid
      exact Or.inr ⟨halive, hid, fun hmem => Or.inl hmem⟩
  | newHook t data haliveT _ _ =>
    have hne : t ≠ s.it.cellCount := by
      have := hwf.lt_of_alive haliveT
      lia
    by_cases heq : c = t
    . subst heq
      simp only [St.setKind, St.setCell, St.addCell, Function.update_self,
        Function.update_of_ne hne] at halive hid
      exact Or.inr ⟨halive, hid, fun hmem => Or.inl hmem⟩
    . simp only [St.setKind, St.setCell, St.addCell, Function.update_of_ne heq] at halive hid
      by_cases hnew : c = s.it.cellCount
      . simp [hnew] at hid
      . simp only [Function.update_of_ne hnew] at halive hid
        exact Or.inr ⟨halive, hid, fun hmem => Or.inl hmem⟩
  | register c' stack hs _ hnew _ _ =>
    by_cases heq : c = c'
    . left
      change _ ∈ s.stack
      simp [hs, heq]
    . simp only [St.register, St.setSeqId, St.setCell, Function.update_of_ne heq] at halive hid
      exact Or.inr ⟨halive, hid, fun hmem => Or.inl hmem⟩
  | _ => exact Or.inr ⟨halive, hid, fun hmem => Or.inl hmem⟩

theorem frees (h : Owned s) (hwf : WellFormed s) (hfrees : Frees s s') : Owned s' := by
  have hext := Extends.frees hfrees
  apply h.step hwf hext.hasContext hext.newContext hext.releaseList
  intro c halive hid
  right
  have hcell := hfrees.cell c
  rw [hcell] at hid
  refine ⟨hfrees.isAlive (u := .cell c) halive, hid, ?_⟩
  rw [hfrees.stack]
  exact fun hmem => Or.inl hmem

theorem assign (h : Owned s) (hwf : WellFormed s) (c : CellId) (o : Outcome V)
    : Owned (s.assign c o) := by
  have hcell : ∀ c', ((s.assign c o).it.cells c').alive = (s.it.cells c').alive
      ∧ ((s.assign c o).it.cells c').hasSeqId = (s.it.cells c').hasSeqId
      ∧ ((s.assign c o).it.cells c').hasContext = (s.it.cells c').hasContext := by
    intro c'
    by_cases heq : c' = c
    . subst heq
      cases o <;> simp [St.assign, St.record, St.setCell]
    . cases o <;> simp [St.assign, St.record, St.setCell, heq]
  have hstack : (s.assign c o).stack = s.stack := by
    cases o <;> rfl
  apply h.step hwf
  . intro c' _
    exact (hcell c').2.2
  . intro c' hc'
    rw [← (hcell c').2.2, hc']
  . cases o <;> exact List.prefix_refl _
  . intro c' halive hid
    rw [(hcell c').1] at halive
    rw [(hcell c').2.1] at hid
    rw [hstack]
    exact Or.inr ⟨halive, hid, fun hmem => Or.inl hmem⟩

end Owned

namespace Tidy

variable {s s' : St V}

theorem effect {env : Env V} {A : Updatable → Prop} (h : Tidy s) (hwf : WellFormed s)
    (heffect : Effect env A s s')
    : Tidy s' :=
  ⟨h.ledger.effect hwf heffect, h.owned.effect hwf heffect⟩

theorem frees (h : Tidy s) (hwf : WellFormed s) (hfrees : Frees s s') : Tidy s' :=
  ⟨h.ledger.frees hwf hfrees, h.owned.frees hwf hfrees⟩

theorem assign (h : Tidy s) (hwf : WellFormed s) (c : CellId) (o : Outcome V)
    : Tidy (s.assign c o) :=
  ⟨h.ledger.assign c o, h.owned.assign hwf c o⟩

theorem record (h : Tidy s) {e : Ev V} (he : e.isFreed = false)
    (hran : ∀ a, e = .ranAction a → a < s.it.actionCount)
    : Tidy (s.record e) :=
  ⟨h.ledger.record he hran, h.owned.rpc, h.owned.holder⟩

end Tidy

end MsgRpc
