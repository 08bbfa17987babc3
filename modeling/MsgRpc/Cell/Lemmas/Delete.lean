import MsgRpc.Cell.Lemmas.Update

/-!
This module contains what `delete` of a cell does: it frees the cell and, if the cell has the
context, all the context owns, and it takes the ids of the freed cells out of the response table.
-/

namespace MsgRpc

open StateProg

namespace Ev

def freesCell (c : CellId) : Ev V → Bool
  | .freedCell c' => c' = c
  | _ => false

def freesAction (a : ActionId) : Ev V → Bool
  | .freedAction a' => a' = a
  | _ => false

def freesContext : Ev V → Bool
  | .freedContext => true
  | _ => false

def isFreed : Ev V → Bool
  | .freedCell _ | .freedAction _ | .freedContext => true
  | _ => false

end Ev

-- the log between `s` and `s'` contains every object freed in between exactly once
structure FreeLog (s s' : St V) (frees : List (Ev V)) : Prop where
  log : s'.it.log = s.it.log ++ frees
  isFreed : ∀ e ∈ frees, e.isFreed = true
  cell : ∀ c, frees.countP (Ev.freesCell c)
    = if (s.it.cells c).alive = true ∧ (s'.it.cells c).alive = false then 1 else 0
  action : ∀ a, frees.countP (Ev.freesAction a)
    = if (s.it.actions a).alive = true ∧ (s'.it.actions a).alive = false then 1 else 0
  context : frees.countP Ev.freesContext
    = if s.it.ctxtAlive = true ∧ s'.it.ctxtAlive = false then 1 else 0

/--
Between `s` and `s'` objects have been freed and nothing else has happened.
-/
structure Frees (s s' : St V) : Prop where
  own : s'.own = s.own
  stack : s'.stack = s.stack
  released : s'.released = s.released
  cellCount : s'.it.cellCount = s.it.cellCount
  actionCount : s'.it.actionCount = s.it.actionCount
  releaseList : s'.it.releaseList = s.it.releaseList
  ctxtAlive : s'.it.ctxtAlive = true → s.it.ctxtAlive = true
  shared : s'.sh = { s.sh with idFuncMap := s'.sh.idFuncMap }
  cell : ∀ c, s'.it.cells c = { s.it.cells c with alive := (s'.it.cells c).alive }
  deadCell : ∀ c, (s.it.cells c).alive = false → (s'.it.cells c).alive = false
  action : ∀ a, s'.it.actions a = { s.it.actions a with alive := (s'.it.actions a).alive }
  deadAction : ∀ a, (s.it.actions a).alive = false → (s'.it.actions a).alive = false
  removed : ∀ k, s'.sh.idFuncMap k = s.sh.idFuncMap k
    ∨ s'.sh.idFuncMap k = none
      ∧ ∃ c, (s.it.cells c).alive = true ∧ (s'.it.cells c).alive = false
        ∧ (s.it.cells c).hasSeqId = true ∧ (s.it.cells c).seqId = k
  unregistered : ∀ c, (s.it.cells c).alive = true → (s'.it.cells c).alive = false
    → (s.it.cells c).role ≠ .timeoutHook → (s.it.cells c).hasSeqId = true
    → s'.sh.idFuncMap (s.it.cells c).seqId = none
  frees : ∃ frees, FreeLog s s' frees

namespace FreeLog

theorem trans {s1 s2 s3 : St V} {frees frees' : List (Ev V)} (h : FreeLog s1 s2 frees)
    (h' : FreeLog s2 s3 frees')
    (hcell : ∀ c, (s1.it.cells c).alive = false → (s2.it.cells c).alive = false)
    (hcell' : ∀ c, (s2.it.cells c).alive = false → (s3.it.cells c).alive = false)
    (haction : ∀ a, (s1.it.actions a).alive = false → (s2.it.actions a).alive = false)
    (haction' : ∀ a, (s2.it.actions a).alive = false → (s3.it.actions a).alive = false)
    (hctxt : s2.it.ctxtAlive = true → s1.it.ctxtAlive = true)
    (hctxt' : s3.it.ctxtAlive = true → s2.it.ctxtAlive = true)
    : FreeLog s1 s3 (frees ++ frees') := by
  constructor
  . rw [h'.log, h.log, List.append_assoc]
  . intro e he
    cases List.mem_append.mp he with
    | inl hmem => exact h.isFreed e hmem
    | inr hmem => exact h'.isFreed e hmem
  . intro c
    rw [List.countP_append, h.cell c, h'.cell c]
    have h1 := hcell c
    have h2 := hcell' c
    grind
  . intro a
    rw [List.countP_append, h.action a, h'.action a]
    have h1 := haction a
    have h2 := haction' a
    grind
  . rw [List.countP_append, h.context, h'.context]
    grind

end FreeLog

namespace Frees

variable {s s1 s2 s3 : St V}

theorem refl (s : St V) : Frees s s := by
  constructor
  case frees =>
    exists []
    constructor <;> simp
  case unregistered =>
    intro c hc hc'
    simp [hc] at hc'
  all_goals simp

theorem trans (h : Frees s1 s2) (h' : Frees s2 s3) : Frees s1 s3 := by
  have hdead : ∀ c, (s1.it.cells c).alive = false → (s3.it.cells c).alive = false := by
    intro c hc
    apply h'.deadCell c
    exact h.deadCell c hc
  have halive : ∀ c, (s2.it.cells c).alive = true → (s1.it.cells c).alive = true := by
    intro c hc
    by_contra hno
    have := h.deadCell c (by simpa using hno)
    simp [hc] at this
  have hseq : ∀ c, (s2.it.cells c).hasSeqId = (s1.it.cells c).hasSeqId
      ∧ (s2.it.cells c).seqId = (s1.it.cells c).seqId
      ∧ (s2.it.cells c).role = (s1.it.cells c).role := by
    intro c
    rw [h.cell c]
    exact ⟨rfl, rfl, rfl⟩
  constructor
  . rw [h'.own, h.own]
  . rw [h'.stack, h.stack]
  . rw [h'.released, h.released]
  . rw [h'.cellCount, h.cellCount]
  . rw [h'.actionCount, h.actionCount]
  . rw [h'.releaseList, h.releaseList]
  . intro hctxt
    exact h.ctxtAlive (h'.ctxtAlive hctxt)
  . rw [h'.shared, h.shared]
  . intro c
    rw [h'.cell c, h.cell c]
  . exact hdead
  . intro a
    rw [h'.action a, h.action a]
  . intro a ha
    apply h'.deadAction a
    exact h.deadAction a ha
  . intro k
    cases h'.removed k with
    | inl hsame =>
      rw [hsame]
      cases h.removed k with
      | inl hsame' => exact Or.inl hsame'
      | inr hgone =>
        obtain ⟨hnone, c, hc, hc', hid⟩ := hgone
        exact Or.inr ⟨hnone, c, hc, h'.deadCell c hc', hid⟩
    | inr hgone =>
      obtain ⟨hnone, c, hc, hc', hid, hk⟩ := hgone
      rw [(hseq c).1] at hid
      rw [(hseq c).2.1] at hk
      exact Or.inr ⟨hnone, c, halive c hc, hc', hid, hk⟩
  . intro c hc hc' hrole hid
    cases hmid : (s2.it.cells c).alive with
    | true =>
      rw [← (hseq c).2.1]
      apply h'.unregistered c hmid hc'
      . rw [(hseq c).2.2]
        exact hrole
      . rw [(hseq c).1]
        exact hid
    | false =>
      have hnone := h.unregistered c hc hmid hrole hid
      cases h'.removed (s1.it.cells c).seqId with
      | inl hsame => rw [hsame, hnone]
      | inr hgone => exact hgone.1
  . obtain ⟨frees, hfrees⟩ := h.frees
    obtain ⟨frees', hfrees'⟩ := h'.frees
    exists frees ++ frees'
    exact hfrees.trans hfrees' h.deadCell h'.deadCell h.deadAction h'.deadAction h.ctxtAlive
      h'.ctxtAlive

theorem freeHook {c : CellId} (hc : (s.it.cells c).alive = true)
    (hrole : (s.it.cells c).role = .timeoutHook)
    : Frees s (s.freeCell c) := by
  have hcell : ∀ c', (s.freeCell c).it.cells c'
      = if c' = c then { s.it.cells c with alive := false } else s.it.cells c' := by
    intro c'
    simp [St.freeCell, St.record, St.setCell, Function.update_apply]
  constructor
  case frees =>
    exists [.freedCell c]
    constructor
    . rfl
    . simp [Ev.isFreed]
    . intro c'
      rw [hcell]
      by_cases heq : c' = c
      . simp [heq, hc, Ev.freesCell]
      . simp [heq, Ev.freesCell, Ne.symm heq]
    . simp [St.freeCell, St.record, St.setCell, Ev.freesAction]
    . simp [St.freeCell, St.record, St.setCell, Ev.freesContext]
  case cell =>
    intro c'
    by_cases heq : c' = c
    . simp [hcell, heq]
    . simp [hcell, heq]
  case deadCell => grind
  case unregistered => grind
  all_goals simp [St.freeCell, St.record, St.setCell]

-- the two ends of the destructor of `c` around the destruction of all else
theorem freeCell {c : CellId} (h : Frees (s.removeRspHandlerOf c) s1)
    (hc : (s1.it.cells c).alive = true)
    : Frees s (s1.freeCell c) := by
  have hit : (s.removeRspHandlerOf c).it = s.it := by
    unfold St.removeRspHandlerOf
    split <;> rfl
  have hmap : ∀ k, (s.removeRspHandlerOf c).sh.idFuncMap k
      = if (s.it.cells c).hasSeqId = true ∧ k = (s.it.cells c).seqId then none
        else s.sh.idFuncMap k := by
    intro k
    unfold St.removeRspHandlerOf
    cases hid : (s.it.cells c).hasSeqId <;> simp [St.setRspHandler, Function.update_apply]
  have hcell : ∀ c', (s1.freeCell c).it.cells c'
      = if c' = c then { s1.it.cells c with alive := false } else s1.it.cells c' := by
    intro c'
    simp [St.freeCell, St.record, St.setCell, Function.update_apply]
  have hmap1 : (s1.freeCell c).sh.idFuncMap = s1.sh.idFuncMap := rfl
  have halive : (s.it.cells c).alive = true := by
    by_contra hno
    have := h.deadCell c (by simpa [hit] using hno)
    simp [hc] at this
  constructor
  case frees =>
    obtain ⟨frees, hfrees⟩ := h.frees
    exists frees ++ [.freedCell c]
    constructor
    . simp [St.freeCell, St.record, St.setCell, hfrees.log, hit]
    . intro e he
      cases List.mem_append.mp he with
      | inl hmem => exact hfrees.isFreed e hmem
      | inr hmem =>
        simp at hmem
        simp [hmem, Ev.isFreed]
    . intro c'
      have := hfrees.cell c'
      rw [hit] at this
      rw [List.countP_append, this, hcell]
      by_cases heq : c' = c
      . simp [heq, hc, halive, Ev.freesCell]
      . simp [heq, Ev.freesCell, Ne.symm heq]
    . intro a
      have := hfrees.action a
      rw [hit] at this
      rw [List.countP_append, this]
      rfl
    . have := hfrees.context
      rw [hit] at this
      rw [List.countP_append, this]
      rfl
  case cell =>
    intro c'
    have hsame := h.cell c'
    rw [hit] at hsame
    by_cases heq : c' = c
    . rw [heq] at hsame
      rw [hcell, heq, hsame]
      simp
    . rw [hcell, hsame]
      simp [heq]
  case deadCell =>
    intro c'
    have := h.deadCell c'
    rw [hit] at this
    grind
  case removed =>
    intro k
    rw [hmap1]
    have := h.removed k
    rw [hmap, hit] at this
    grind
  case unregistered =>
    intro c' hc' hdead hrole hid
    rw [hmap1]
    have h1 := h.unregistered c'
    have h2 := h.removed (s.it.cells c').seqId
    rw [hmap, hit] at h2
    rw [hit] at h1
    grind
  case own =>
    have := h.own
    unfold St.removeRspHandlerOf at this
    split at this <;> exact this
  case stack =>
    have := h.stack
    unfold St.removeRspHandlerOf at this
    split at this <;> exact this
  case released =>
    have := h.released
    unfold St.removeRspHandlerOf at this
    split at this <;> exact this
  case shared =>
    have := h.shared
    unfold St.removeRspHandlerOf at this
    split at this <;> exact this
  case cellCount =>
    rw [← hit]
    exact h.cellCount
  case actionCount =>
    rw [← hit]
    exact h.actionCount
  case releaseList =>
    rw [← hit]
    exact h.releaseList
  case ctxtAlive =>
    rw [← hit]
    exact h.ctxtAlive
  case action =>
    rw [← hit]
    exact h.action
  case deadAction =>
    rw [← hit]
    exact h.deadAction

theorem freeAction {a : ActionId} (ha : (s.it.actions a).alive = true)
    : Frees s (s.freeAction a) := by
  have haction : ∀ a', (s.freeAction a).it.actions a'
      = if a' = a then { s.it.actions a with alive := false } else s.it.actions a' := by
    intro a'
    simp [St.freeAction, St.record, St.setAction, Function.update_apply]
  constructor
  case frees =>
    exists [.freedAction a]
    constructor
    . rfl
    . simp [Ev.isFreed]
    . simp [St.freeAction, St.record, St.setAction, Ev.freesCell]
    . intro a'
      rw [haction]
      by_cases heq : a' = a
      . simp [heq, ha, Ev.freesAction]
      . simp [heq, Ev.freesAction, Ne.symm heq]
    . simp [St.freeAction, St.record, St.setAction, Ev.freesContext]
  case action =>
    intro a'
    by_cases heq : a' = a
    . simp [haction, heq]
    . simp [haction, heq]
  case deadAction => grind
  case unregistered =>
    intro c hc hc'
    simp [St.freeAction, St.record, St.setAction, hc] at hc'
  all_goals simp [St.freeAction, St.record, St.setAction]

theorem freeContext (hctxt : s.it.ctxtAlive = true) : Frees s s.freeContext := by
  constructor
  case frees =>
    exists [.freedContext]
    constructor
    . rfl
    . simp [Ev.isFreed]
    . simp [St.freeContext, Ev.freesCell]
    . simp [St.freeContext, Ev.freesAction]
    . simp [St.freeContext, Ev.freesContext, hctxt]
  case unregistered =>
    intro c hc hc'
    simp [St.freeContext, hc] at hc'
  all_goals simp [St.freeContext]

end Frees

theorem Frees.log {s s' : St V} (h : Frees s s') : s.it.log <+: s'.it.log := by
  obtain ⟨frees, hlog⟩ := h.frees
  rw [hlog.log]
  exact List.prefix_append _ _

theorem Frees.stops {s s' : St V} (h : Frees s s') : Stops s s' :=
  ⟨h.own, h.released, h.log⟩

theorem Frees.halts {s s' : St V} (h : Frees s s') : Halts s s' where
  toStops := h.stops
  out := by rw [h.shared]
  calls := by
    obtain ⟨frees, hlog⟩ := h.frees
    have hnone : frees.filter Ev.isCall = [] := by
      rw [List.filter_eq_nil_iff]
      intro e he
      have hfreed := hlog.isFreed e he
      cases e <;> simp [Ev.isFreed] at hfreed <;> simp [Ev.isCall]
    simp [Interaction.calls, hlog.log, hnone]

theorem WellFormed.frees {s s' : St V} (h : WellFormed s) (hfrees : Frees s s')
    : WellFormed s' := by
  obtain ⟨frees, hlog⟩ := hfrees.frees
  constructor
  . intro c hc
    rw [hfrees.cellCount] at hc
    have hfresh := h.cellFresh c hc
    have hdead := hfrees.deadCell c (by simp [hfresh, Cell.unallocated])
    rw [hfrees.cell c, hdead, hfresh]
    rfl
  . intro a ha
    rw [hfrees.actionCount] at ha
    have hfresh := h.actionFresh a ha
    have hdead := hfrees.deadAction a (by simp [hfresh, Action.unallocated])
    rw [hfrees.action a, hdead, hfresh]
    rfl
  . intro c u hu
    rw [hfrees.cell c] at hu
    rw [hlog.log]
    exact List.mem_append_left _ (h.updatables c u hu)
  . intro a t ht
    rw [hfrees.action a] at ht ⊢
    rw [hfrees.cell t]
    exact h.target a t ht
  . intro c t ht
    rw [hfrees.cell c] at ht
    rw [hfrees.cell t]
    exact h.hook c t ht
  . intro c t ht
    rw [hfrees.cell c] at ht
    rw [hfrees.cellCount]
    exact h.hookAlive c t ht
  . intro a ha
    rw [hfrees.action a] at ha ⊢
    exact h.reply a ha
  . intro a t ht
    rw [hfrees.action a] at ht ⊢
    exact h.final a t ht

theorem Fenced.frees {A : Updatable → Prop} {s s' : St V} (h : Fenced A s)
    (hfrees : Frees s s')
    : Fenced A s' := by
  constructor
  . rw [hfrees.cellCount]
    exact h.newCell
  . rw [hfrees.actionCount]
    exact h.newAction
  . intro c hc u hu
    rw [hfrees.cell c] at hu
    exact h.updatables c hc u hu
  . intro a t ha ht
    rw [hfrees.action a] at ht
    exact h.target a t ha ht
  . intro c t hc ht
    rw [hfrees.cell c] at ht
    exact h.hook c t hc ht

theorem Extends.frees {s s' : St V} (hfrees : Frees s s') : Extends s s' := by
  obtain ⟨frees, hlog⟩ := hfrees.frees
  have hcell := hfrees.cell
  have haction := hfrees.action
  have hshared := hfrees.shared
  constructor
  . exact hfrees.own
  . simp [hfrees.released]
  . simp [hfrees.cellCount]
  . simp [hfrees.actionCount]
  . intro c _
    rw [hcell c]
    rfl
  . intro c _
    rw [hcell c]
  . intro c _
    rw [hcell c]
  . intro c _
    have hsame : (s'.it.cells c).updatables = (s.it.cells c).updatables := by rw [hcell c]
    simp [hsame]
  . intro c _ _
    rw [hcell c]
    rfl
  . intro a _
    rw [haction a]
  . intro a _
    rw [haction a]
  . intro a _
    rw [haction a]
  . intro c _
    exact hfrees.deadCell c
  . intro a _
    exact hfrees.deadAction a
  . exact hfrees.ctxtAlive
  . simp [hfrees.releaseList]
  . rw [hlog.log]
    exact List.prefix_append _ _
  . have hsame : s'.sh.out = s.sh.out := by rw [hshared]
    simp [hsame]
  . have hsame : s'.sh.issued = s.sh.issued := by rw [hshared]
    simp [hsame]
  . rw [hshared]
  . intro c hc
    rw [hcell c] at hc
    exact hc
  . intro a ha
    rw [haction a] at ha
    exact ha
  . unfold Interaction.history
    rw [hlog.log, List.filter_append]
    have hnone : frees.filter Ev.isHandler = [] := by
      rw [List.filter_eq_nil_iff]
      intro e he
      have hfreed := hlog.isFreed e he
      cases e <;> simp [Ev.isFreed, Ev.isHandler] at hfreed ⊢
    rw [hnone, List.append_nil]
  . intro m
    left
    unfold Shared.responses
    rw [hshared]

/--
`u` and the cell it owns have been freed.
-/
def Gone (s : St V) (u : Updatable) : Prop :=
  match u with
  | .cell c =>
    (s.it.cells c).alive = false
      ∧ ∀ h, (s.it.cells c).kind.hook = some h → (s.it.cells h).alive = false
  | .action a => (s.it.actions a).alive = false

def St.isAlive (s : St V) (u : Updatable) : Bool :=
  match u with
  | .cell c => (s.it.cells c).alive
  | .action a => (s.it.actions a).alive

theorem SamePending.frees {s s' : St V} (hfrees : Frees s s') (c : CellId)
    : SamePending c s.it s'.it := by
  obtain ⟨frees, hlog⟩ := hfrees.frees
  apply SamePending.others _ hlog.log
  . intro e he
    have := hlog.isFreed e he
    cases e <;> simp [Ev.isFreed, Ev.concerns] at this ⊢
  . rw [hfrees.cell c]
    rfl
  . rw [hfrees.cell c]
  . exact Nat.le_of_eq hfrees.cellCount.symm
  . rw [hfrees.cell c]
    exact fun _ => rfl

theorem Frees.isAlive {s s' : St V} (h : Frees s s') {u : Updatable} (hu : s'.isAlive u = true)
    : s.isAlive u = true := by
  cases u with
  | cell c =>
    by_contra hdead
    have := h.deadCell c (by simpa [St.isAlive] using hdead)
    simp [St.isAlive, this] at hu
  | action a =>
    by_contra hdead
    have := h.deadAction a (by simpa [St.isAlive] using hdead)
    simp [St.isAlive, this] at hu

theorem Gone.frees {s s' : St V} {u : Updatable} (h : Gone s u) (hfrees : Frees s s')
    : Gone s' u := by
  cases u with
  | cell c =>
    refine ⟨hfrees.deadCell c h.1, ?_⟩
    intro t ht
    rw [hfrees.cell c] at ht
    exact hfrees.deadCell t (h.2 t ht)
  | action a => exact hfrees.deadAction a h

-- cells that have the context outlive what it owns
def KeepsHolders (s s' : St V) : Prop :=
  ∀ c, (s.it.cells c).hasContext = true → s'.it.cells c = s.it.cells c

/--
What a deletion does to the objects of an interaction, also one that does not come to its end.
-/
structure Discards (s s' : St V) : Prop where
  cellCount : s'.it.cellCount = s.it.cellCount
  actionCount : s'.it.actionCount = s.it.actionCount
  releaseList : s'.it.releaseList = s.it.releaseList
  ctxtAlive : s'.it.ctxtAlive = true → s.it.ctxtAlive = true
  deadCell : ∀ c, (s.it.cells c).alive = false → (s'.it.cells c).alive = false
  deadAction : ∀ a, (s.it.actions a).alive = false → (s'.it.actions a).alive = false
  frees : ∃ frees, FreeLog s s' frees

theorem Frees.discards {s s' : St V} (h : Frees s s') : Discards s s' :=
  ⟨h.cellCount, h.actionCount, h.releaseList, h.ctxtAlive, h.deadCell, h.deadAction, h.frees⟩

theorem Discards.congr {s s' : St V} (hit : s'.it = s.it) : Discards s s' := by
  constructor
  case frees =>
    refine ⟨[], ?_⟩
    constructor <;> simp [hit]
  all_goals simp [hit]

theorem Discards.trans {s1 s2 s3 : St V} (h : Discards s1 s2) (h' : Discards s2 s3)
    : Discards s1 s3 where
  cellCount := by rw [h'.cellCount, h.cellCount]
  actionCount := by rw [h'.actionCount, h.actionCount]
  releaseList := by rw [h'.releaseList, h.releaseList]
  ctxtAlive hctxt := h.ctxtAlive (h'.ctxtAlive hctxt)
  deadCell c hc := h'.deadCell c (h.deadCell c hc)
  deadAction a ha := h'.deadAction a (h.deadAction a ha)
  frees := by
    obtain ⟨frees, hlog⟩ := h.frees
    obtain ⟨frees', hlog'⟩ := h'.frees
    exact ⟨frees ++ frees', hlog.trans hlog' h.deadCell h'.deadCell h.deadAction h'.deadAction
      h.ctxtAlive h'.ctxtAlive⟩

-- the one way deletion can fail
structure DoubleFree (s : St V) (e : Fault) (s' : St V) : Prop where
  fault : e = .useAfterFree
  halts : Halts s s'
  discards : Discards s s'

theorem DoubleFree.refl (s : St V) : DoubleFree s .useAfterFree s :=
  ⟨rfl, Halts.refl s, Discards.congr rfl⟩

theorem Frees.doubleFree {s s1 s' : St V} {e : Fault} (hfrees : Frees s s1)
    (h : DoubleFree s1 e s')
    : DoubleFree s e s' :=
  ⟨h.fault, hfrees.halts.trans h.halts, hfrees.discards.trans h.discards⟩

section Dtor

variable {s : St V}

theorem role_of_hook {kind : CellKind V} {t : CellId} (h : kind.hook = some t)
    : kind.role = .timeoutCell := by
  cases kind <;> simp [CellKind.hook] at h
  rfl

theorem wp_timeoutCellDtor (h : WellFormed s) (c : CellId)
    : wp (timeoutCellDtor (s.it.cells c))
        (fun _ s' =>
          Frees s s' ∧ KeepsHolders s s' ∧ s'.it.ctxtAlive = s.it.ctxtAlive
            ∧ s'.it.cells c = s.it.cells c
            ∧ ∀ t, (s.it.cells c).kind.hook = some t → (s'.it.cells t).alive = false)
        (DoubleFree s) s := by
  unfold timeoutCellDtor
  split
  . next hook hhook =>
    have hself : c ≠ hook := by
      intro heq
      have hrole := h.hook c hook hhook
      rw [← heq, Cell.role, role_of_hook hhook] at hrole
      simp at hrole
    simp only [wp_bind, wp_cellAt]
    refine ⟨?_, ?_⟩
    . intro halive
      split
      . exact DoubleFree.refl s
      . next hctxt =>
        rw [wp_alter]
        refine ⟨Frees.freeHook halive (h.hook c hook hhook), ?_, rfl, ?_, ?_⟩
        . intro c' hc'
          have hne : c' ≠ hook := by
            intro heq
            rw [heq] at hc'
            exact hctxt hc'
          simp [St.freeCell, St.record, St.setCell, hne]
        . simp [St.freeCell, St.record, St.setCell, hself]
        . intro t ht
          rw [hhook] at ht
          simp only [Option.some.injEq] at ht
          simp [St.freeCell, St.record, St.setCell, ht]
    . intro
      exact DoubleFree.refl s
  . next hnone =>
    rw [wp_pure]
    refine ⟨Frees.refl s, ?_, rfl, rfl, ?_⟩
    . intro _ _
      rfl
    . intro t ht
      simp [hnone] at ht

theorem wp_rspCellBaseDtor {Q : Unit → St V → Prop} {E : Fault → St V → Prop} {s1 : St V}
    {c : CellId} (hsame : s1.it.cells c = s.it.cells c)
    : wp (rspCellBaseDtor (s.it.cells c)) Q E s1 ↔ Q () (s1.removeRspHandlerOf c) := by
  unfold rspCellBaseDtor RspMsgHandler.removeRspHandler St.removeRspHandlerOf
  rw [hsame]
  split
  . rw [wp_alter]
  . rw [wp_pure]

theorem it_removeRspHandlerOf (s : St V) (c : CellId) : (s.removeRspHandlerOf c).it = s.it := by
  unfold St.removeRspHandlerOf
  split <;> rfl

theorem released_removeRspHandlerOf (s : St V) (c : CellId)
    : (s.removeRspHandlerOf c).released = s.released := by
  unfold St.removeRspHandlerOf
  split <;> rfl

theorem Halts.removeRspHandlerOf (s : St V) (c : CellId) : Halts s (s.removeRspHandlerOf c) := by
  unfold St.removeRspHandlerOf
  split <;> exact ⟨⟨rfl, rfl, List.prefix_refl _⟩, rfl, rfl⟩

theorem DoubleFree.removeRspHandlerOf {s1 : St V} {e : Fault} (c : CellId)
    (h : DoubleFree (s.removeRspHandlerOf c) e s1)
    : DoubleFree s e s1 where
  fault := h.fault
  halts := (Halts.removeRspHandlerOf s c).trans h.halts
  discards := (Discards.congr (it_removeRspHandlerOf s c)).trans h.discards

theorem Gone.freeCell {c : CellId}
    (hhook : ∀ t, (s.it.cells c).kind.hook = some t → (s.it.cells t).alive = false)
    : Gone (s.freeCell c) (.cell c) := by
  refine ⟨by simp [St.freeCell, St.record, St.setCell], ?_⟩
  intro t ht
  simp only [St.freeCell, St.record, St.setCell, Function.update_self] at ht
  by_cases heq : t = c
  . simp [heq, St.freeCell, St.record, St.setCell]
  . simp [heq, St.freeCell, St.record, St.setCell, hhook t ht]

theorem Gone.free {u : Updatable} (h : Gone s u) (c : CellId) : Gone (s.freeCell c) u := by
  cases u with
  | cell c' =>
    refine ⟨?_, ?_⟩
    . by_cases heq : c' = c
      . simp [heq, St.freeCell, St.record, St.setCell]
      . simp [heq, St.freeCell, St.record, St.setCell, h.1]
    . intro t ht
      have ht' : (s.it.cells c').kind.hook = some t := by
        by_cases heq : c' = c
        . simpa [heq, St.freeCell, St.record, St.setCell] using ht
        . simpa [heq, St.freeCell, St.record, St.setCell] using ht
      by_cases heq : t = c
      . simp [heq, St.freeCell, St.record, St.setCell]
      . simp [heq, St.freeCell, St.record, St.setCell, h.2 t ht']
  | action a => exact h

theorem wp_deleteTracked (h : WellFormed s) (u : Updatable)
    : wp (deleteTracked u)
        (fun _ s' =>
          Frees s s' ∧ KeepsHolders s s' ∧ s'.it.ctxtAlive = s.it.ctxtAlive
            ∧ s.isAlive u = true ∧ Gone s' u)
        (DoubleFree s) s := by
  unfold deleteTracked
  cases u with
  | cell c =>
    simp only [wp_bind, wp_cellAt]
    refine ⟨?_, ?_⟩
    . intro halive
      apply wp_mono (wp_timeoutCellDtor h c)
      . rintro _ s1 ⟨hfrees, hkeeps, hctxt1, hself, hhook⟩
        rw [wp_rspCellBaseDtor hself]
        split
        . exact hfrees.doubleFree ((DoubleFree.refl _).removeRspHandlerOf c)
        . next hctxt =>
          rw [wp_alter]
          have halive1 : ((s1.removeRspHandlerOf c).it.cells c).alive = true := by
            rw [it_removeRspHandlerOf, hself, halive]
          have hlast := Frees.freeCell (Frees.refl (s1.removeRspHandlerOf c)) halive1
          refine ⟨hfrees.trans hlast, ?_, ?_, halive, ?_⟩
          . intro c' hc'
            have hne : c' ≠ c := by
              intro heq
              rw [heq] at hc'
              exact hctxt hc'
            simp only [St.freeCell, St.record, St.setCell, it_removeRspHandlerOf]
            rw [Function.update_of_ne hne, hkeeps c' hc']
          . rw [← hctxt1, ← it_removeRspHandlerOf s1 c]
            rfl
          . apply Gone.freeCell
            rw [it_removeRspHandlerOf, hself]
            exact hhook
      . intro e s1 he
        exact he
    . intro
      exact DoubleFree.refl s
  | action a =>
    simp only [wp_bind, wp_actionAt, wp_alter]
    refine ⟨?_, ?_⟩
    . intro halive
      refine ⟨Frees.freeAction halive, ?_, rfl, halive, ?_⟩
      . intro c _
        rfl
      . simp [Gone, St.freeAction, St.record, St.setAction]
    . intro
      exact DoubleFree.refl s

theorem wp_deleteAllTracked (h : WellFormed s) (us : List Updatable)
    : wp (deleteAllTracked us)
        (fun _ s' =>
          Frees s s' ∧ KeepsHolders s s' ∧ s'.it.ctxtAlive = s.it.ctxtAlive
            ∧ ∀ u ∈ us, s.isAlive u = true ∧ Gone s' u)
        (DoubleFree s) s := by
  induction us generalizing s with
  | nil =>
    refine ⟨Frees.refl s, ?_, rfl, ?_⟩
    . intro _ _
      rfl
    . simp
  | cons u us ih =>
    unfold deleteAllTracked
    rw [wp_bind]
    apply wp_mono (wp_deleteTracked h u)
    . rintro _ s1 ⟨hfrees, hkeeps, hctxt, halive, hgone⟩
      apply wp_mono (ih (h.frees hfrees))
      . rintro _ s2 ⟨hfrees', hkeeps', hctxt', hgone'⟩
        refine ⟨hfrees.trans hfrees', ?_, by rw [hctxt', hctxt], ?_⟩
        . intro c hc
          have hc1 : (s1.it.cells c).hasContext = true := by rw [hkeeps c hc, hc]
          rw [hkeeps' c hc1, hkeeps c hc]
        . intro u' hu'
          cases List.mem_cons.mp hu' with
          | inl heq =>
            rw [heq]
            exact ⟨halive, hgone.frees hfrees'⟩
          | inr hmem => exact ⟨hfrees.isAlive (hgone' u' hmem).1, (hgone' u' hmem).2⟩
      . intro e s2 he
        exact hfrees.doubleFree he
    . intro e s1 he
      exact he

/--
With the context of `s` everything it owns is gone.
-/
def ContextGone (s s' : St V) : Prop :=
  s'.it.ctxtAlive = false ∧ ∀ u ∈ s.it.releaseList, s.isAlive u = true ∧ Gone s' u

theorem wp_deleteContext (h : WellFormed s)
    : wp deleteContext
        (fun _ s' => Frees s s' ∧ KeepsHolders s s' ∧ s.it.ctxtAlive = true ∧ ContextGone s s')
        (DoubleFree s) s := by
  unfold deleteContext
  simp only [wp_bind, wp_get]
  split
  . next hctxt =>
    rw [wp_bind]
    apply wp_mono (wp_deleteAllTracked h s.it.releaseList)
    . rintro _ s1 ⟨hfrees, hkeeps, hctxt1, hgone⟩
      rw [wp_alter]
      have hcontext := Frees.freeContext (hctxt1.trans hctxt)
      refine ⟨hfrees.trans hcontext, hkeeps, hctxt, rfl, ?_⟩
      intro u hu
      exact ⟨(hgone u hu).1, (hgone u hu).2.frees hcontext⟩
    . intro e s1 he
      exact he
  . exact DoubleFree.refl s

theorem wp_deleteCell_frees (h : WellFormed s) (c : CellId)
    : wp (deleteCell c)
        (fun _ s' =>
          Frees s s' ∧ (s.it.cells c).alive = true ∧ Gone s' (.cell c)
            ∧ ((s.it.cells c).hasContext = true → s.it.ctxtAlive = true ∧ ContextGone s s'))
        (DoubleFree s) s := by
  unfold deleteCell
  simp only [wp_bind, wp_cellAt]
  refine ⟨?_, ?_⟩
  . intro halive
    apply wp_mono (wp_timeoutCellDtor h c)
    . rintro _ s1 ⟨hfrees, hkeeps, _, hself, hhook⟩
      rw [wp_rspCellBaseDtor hself]
      have halive1 : ((s1.removeRspHandlerOf c).it.cells c).alive = true := by
        rw [it_removeRspHandlerOf, hself, halive]
      have hlist : (s1.removeRspHandlerOf c).it.releaseList = s.it.releaseList := by
        rw [it_removeRspHandlerOf, hfrees.releaseList]
      split
      . next hctxt =>
        have hctxt1 : ((s1.removeRspHandlerOf c).it.cells c).hasContext = true := by
          rw [it_removeRspHandlerOf, hself, hctxt]
        have hwf1 : WellFormed (s1.removeRspHandlerOf c) := (h.frees hfrees).removeRspHandlerOf c
        rw [wp_bind]
        apply wp_mono (wp_deleteContext hwf1)
        . rintro _ s2 ⟨hfrees2, hkeeps2, hctxt2, hdead, hgone⟩
          have halive2 : (s2.it.cells c).alive = true := by rw [hkeeps2 c hctxt1, halive1]
          have hfree : Frees s1 (s2.freeCell c) := hfrees2.freeCell halive2
          rw [wp_alter]
          refine ⟨hfrees.trans hfree, halive, ?_, ?_⟩
          . apply Gone.freeCell
            intro t ht
            rw [hkeeps2 c hctxt1, it_removeRspHandlerOf, hself] at ht
            apply hfrees2.deadCell t
            rw [it_removeRspHandlerOf]
            exact hhook t ht
          . intro _
            refine ⟨?_, hdead, ?_⟩
            . apply hfrees.ctxtAlive
              rw [← it_removeRspHandlerOf s1 c]
              exact hctxt2
            . intro u hu
              rw [hlist] at hgone
              refine ⟨?_, (hgone u hu).2.free c⟩
              apply hfrees.isAlive
              have halive1 := (hgone u hu).1
              cases u <;> simpa [St.isAlive, it_removeRspHandlerOf] using halive1
        . intro e s2 he
          exact hfrees.doubleFree (he.removeRspHandlerOf c)
      . next hctxt =>
        rw [wp_alter]
        have hlast := Frees.freeCell (Frees.refl (s1.removeRspHandlerOf c)) halive1
        refine ⟨hfrees.trans hlast, halive, ?_, ?_⟩
        . apply Gone.freeCell
          rw [it_removeRspHandlerOf, hself]
          exact hhook
        . intro hctxt'
          exact absurd hctxt' hctxt
    . intro e s1 he
      exact he
  . intro
    exact DoubleFree.refl s

end Dtor
end MsgRpc
