import MsgRpc.Msg.Dispatch

/-!
This module contains the proof that the result of an rpc is final: its cell is set once, whatever
comes in afterwards.
-/

namespace MsgRpc

open StateProg

/--
Cell `c` of interaction `m` is an rpc cell that has been set to `w`, if it is interaction `m` whose
code runs.
-/
structure ResolvedIn (m : Nat) (c : CellId) (w : CellView V) (s : St V) : Prop where
  lt : s.own = m → c < s.it.cellCount
  role : s.own = m → (s.it.cells c).role = .cell
  view : s.own = m → (s.it.cells c).view = w

namespace ResolvedIn

variable {m : Nat} {c : CellId} {w : CellView V} {s s' : St V}

theorem congr (h : ResolvedIn m c w s) (hown : s'.own = s.own)
    (hlt : s.it.cellCount ≤ s'.it.cellCount)
    (hcell : c < s.it.cellCount → (s'.it.cells c).role = (s.it.cells c).role
      ∧ (s'.it.cells c).view = (s.it.cells c).view)
    : ResolvedIn m c w s' := by
  constructor
  . intro hm
    rw [hown] at hm
    exact Nat.lt_of_lt_of_le (h.lt hm) hlt
  . intro hm
    rw [hown] at hm
    rw [(hcell (h.lt hm)).1]
    exact h.role hm
  . intro hm
    rw [hown] at hm
    rw [(hcell (h.lt hm)).2]
    exact h.view hm

theorem of_it (h : ResolvedIn m c w s) (hown : s'.own = s.own)
    (hlt : s.it.cellCount ≤ s'.it.cellCount) (hcell : s'.it.cells = s.it.cells)
    : ResolvedIn m c w s' := by
  apply h.congr hown hlt
  intro _
  rw [hcell]
  exact ⟨rfl, rfl⟩

theorem of_extends (h : ResolvedIn m c w s) (hext : Extends s s') : ResolvedIn m c w s' where
  lt hm := Nat.lt_of_lt_of_le (h.lt (hext.own ▸ hm)) hext.cellCount
  role hm := by
    rw [hext.own] at hm
    rw [hext.role c (h.lt hm), h.role hm]
  view hm := by
    rw [hext.own] at hm
    rw [hext.source c (h.lt hm) (h.role hm), h.view hm]

-- another cell is set
theorem assign (h : ResolvedIn m c w s) {c' : CellId} {o : Outcome V} (hc : s.own = m → c' ≠ c)
    : ResolvedIn m c w (s.assign c' o) := by
  have hcell : s.own = m → (s.assign c' o).it.cells c = s.it.cells c := by
    intro hm
    have hne := (hc hm).symm
    cases o <;> simp [St.assign, St.record, St.setCell, hne]
  have hown : (s.assign c' o).own = s.own := by
    cases o <;> rfl
  constructor
  . intro hm
    rw [hown] at hm
    cases o <;> exact h.lt hm
  . intro hm
    rw [hown] at hm
    rw [hcell hm, h.role hm]
  . intro hm
    rw [hown] at hm
    rw [hcell hm, h.view hm]

theorem unregister (h : ResolvedIn m c w s) (c' : CellId) (k : RpcSequenceIdT)
    : ResolvedIn m c w (s.unregister c' k) := by
  apply h.congr
  . rfl
  . exact Nat.le_refl _
  . intro _
    by_cases hcc : c = c'
    . simp [St.unregister, St.setRspHandler, St.setCell, hcc, Cell.role, Cell.view]
    . simp [St.unregister, St.setRspHandler, St.setCell, hcc]

theorem keeps (env : Env V) (A : Updatable → Prop) (m : Nat) (c : CellId) (w : CellView V)
    : Keeps env A (ResolvedIn m c w) (fun _ _ => True) where
  effect s s' h hact := h.inv.of_extends (Extends.effect h.wellFormed hact.effect)
  assign s c' o h _ _ hrole := by
    apply h.inv.assign
    intro hm hcc
    rw [hcc] at hrole
    exact hrole (h.inv.role hm)
  notify s c u h _ _ _ := h.inv.of_it rfl (Nat.le_refl _) rfl
  fault _ _ _ _ _ _ := trivial
  unique _ _ _ := trivial

theorem keepsRelease (env : Env V) (A : Updatable → Prop) (m : Nat) (c : CellId) (w : CellView V)
    : KeepsRelease env A (ResolvedIn m c w) (fun _ => ResolvedIn m c w) where
  ranAction s a h _ _ := h.inv.of_it rfl (Nat.le_refl _) rfl
  finished s a h _ _ := h.inv.of_it rfl (Nat.le_refl _) rfl
  response s a senderId rspHeader c v buf h _ _ _ _ := h.inv.of_it rfl (Nat.le_refl _) rfl
  release s s' a h _ _ hfrees :=
    (h.inv.of_extends (Extends.frees hfrees)).of_extends (Extends.release s')

theorem keepsHandlers (cfg : Config V) (m : Nat) (c : CellId) {w : CellView V}
    (hw : w ≠ ⟨none, .succeeded⟩)
    : KeepsHandlers cfg (ResolvedIn m c w) (fun _ _ => True) where
  effect s s' h heffect := by
    cases heffect with
    | setResult c' _ _ =>
      apply h.inv.congr
      . rfl
      . exact Nat.le_refl _
      . intro _
        by_cases hcc : c = c' <;> simp [St.setResult, hcc, Cell.role, Cell.view]
    | close bind c' _ _ _ _ _ _ _ =>
      apply h.inv.congr
      . rfl
      . exact Nat.le_refl _
      . intro _
        by_cases hcc : c = c'
        . simp [St.close, St.setActionCell, St.setAction, St.track, St.pushUpdatable, St.setCell,
            St.record, St.addFinalAction, St.addAction, hcc, Cell.role, Cell.view]
        . simp [St.close, St.setActionCell, St.setAction, St.track, St.pushUpdatable, St.setCell,
            St.record, St.addFinalAction, St.addAction, hcc]
    | newCell type status =>
      apply h.inv.congr
      . rfl
      . exact Nat.le_succ _
      . intro hlt
        have hne : c ≠ s.it.cellCount := by lia
        simp [St.addCell, hne]
    | setNewCell c' v _ hcell =>
      apply h.inv.assign
      intro hm hcc
      subst hcc
      apply hw
      rw [← h.inv.view hm, hcell]
      rfl
    | delete _ _ hfrees => exact h.inv.of_extends (Extends.frees hfrees)
    | _ => exact h.inv.of_it rfl (Nat.le_refl _) rfl
  fault _ _ _ _ _ _ := trivial

end ResolvedIn

-- an rpc cell has been set to `w`
structure NodeResolved (m : Nat) (c : CellId) (w : CellView V) (nd : Node V) : Prop where
  cell : ∃ it : Interaction V, nd.its[m]? = some it ∧ c < it.cellCount
    ∧ (it.cells c).role = .cell ∧ (it.cells c).view = w

namespace NodeResolved

variable {cfg : Config V} {n : Nat} {start : UInt32} {nd : Node V} {m : Nat} {c : CellId}
variable {w : CellView V}

theorem view (h : NodeResolved m c w nd) : (nd.cells ⟨m, c⟩).view = w := by
  obtain ⟨it, hit, _, _, hview⟩ := h.cell
  simp [Node.cells, hit, hview]

theorem of_seqId (h : NodeInv none start nd)
    (hvalid : (nd.cells ⟨m, c⟩).seqId ≠ kInvalidRpcSequenceId)
    (hrole : (nd.cells ⟨m, c⟩).role = .cell)
    : NodeResolved m c (nd.cells ⟨m, c⟩).view nd where
  cell := by
    unfold Node.cells at hvalid hrole ⊢
    dsimp only at hvalid hrole ⊢
    cases hit : nd.its[m]? with
    | none =>
      rw [hit] at hvalid
      exact absurd rfl hvalid
    | some it =>
      rw [hit] at hvalid hrole
      refine ⟨it, rfl, ?_, hrole, rfl⟩
      by_contra hge
      have hfresh : it.cells c = .unallocated :=
        (h.wellFormed m it hit).cellFresh c (Nat.le_of_not_lt hge)
      dsimp only at hvalid
      rw [hfresh] at hvalid
      exact hvalid rfl

theorem resolvedIn (h : NodeResolved m c w nd) {m' : Nat} {it : Interaction V}
    (hit : nd.its[m']? = some it)
    : ResolvedIn m c w (nd.st m' it) := by
  obtain ⟨it', hit', hlt, hrole, hview⟩ := h.cell
  have hsame : m' = m → it = it' := by
    intro heq
    rw [heq, hit'] at hit
    simpa using hit.symm
  constructor
  . intro heq
    rw [← hsame heq] at hlt
    exact hlt
  . intro heq
    rw [← hsame heq] at hrole
    exact hrole
  . intro heq
    rw [← hsame heq] at hview
    exact hview

theorem withSt (h : NodeResolved m c w nd) {m' : Nat} {it : Interaction V} {s : St V}
    (hit : nd.its[m']? = some it) (hown : s.own = m') (hs : ResolvedIn m c w s)
    : NodeResolved m c w (nd.withSt s) where
  cell := by
    by_cases heq : m = m'
    . refine ⟨s.it, ?_, ?_⟩
      . rw [Node.getElem?_withSt hit hown, if_pos heq]
      . rw [← heq] at hown
        exact ⟨hs.lt hown, hs.role hown, hs.view hown⟩
    . obtain ⟨it', hit', hcell⟩ := h.cell
      refine ⟨it', ?_, hcell⟩
      rw [Node.getElem?_withSt hit hown, if_neg heq, hit']

theorem beginNew (h : NodeResolved m c w nd) : NodeResolved m c w nd.startNew where
  cell := by
    obtain ⟨it, hit, hcell⟩ := h.cell
    have hlt := (List.getElem?_eq_some_iff.mp hit).1
    refine ⟨it, ?_, hcell⟩
    simp only [Node.startNew, List.getElem?_append, if_pos hlt, hit]

theorem dispatch (hw : w ≠ ⟨none, .succeeded⟩) (h : NodeInv none start nd)
    (hr : NodeResolved m c w nd) (e : Event V)
    : Dispatch cfg n nd e (NodeResolved m c w) (NodeResolved m c w) (fun _ _ => True) := by
  -- what is set has been empty
  have hset : ∀ {s : St V} {c' : CellId} {o : Outcome V}, (s.it.cells c').hasValueOrError = false
      → ResolvedIn m c w s → ResolvedIn m c w (s.assign c' o) := by
    intro s c' o hempty hs
    apply hs.assign
    intro hm hcc
    rw [hcc] at hempty
    apply hw
    rw [← hs.view hm]
    obtain ⟨hnone, hsucceeded⟩ := (s.it.cells c).hasValueOrError_eq_false.mp hempty
    simp [Cell.view, hnone, hsucceeded]
  apply Dispatch.of_keeps (I := fun _ _ => ResolvedIn m c w)
    (fun _ _ => ResolvedIn.keeps cfg.env _ m c w) (fun _ _ => ResolvedIn.keepsRelease cfg.env _ m c w)
    (fun _ _ => ResolvedIn.keepsHandlers cfg m c hw) h ⟨hr.cell⟩ hr.beginNew
  . intro nd1 m' it hr1 hit
    exact hr1.resolvedIn hit
  . intro nd1 m' it s hr1 hit hown hs
    exact hr1.withSt hit hown hs
  . intro nd1 m' s c' k hs _
    exact hs.unregister c' k
  . intro msg senderId rspHeader payload m' it c' _ _ _ _ hempty hs
    exact hset hempty hs
  . intro m' s c' hempty hs
    exact hset hempty hs

end NodeResolved
end MsgRpc
