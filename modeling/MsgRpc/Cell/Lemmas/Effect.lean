import MsgRpc.Cell.Effect

/-!
This module contains what every single `Effect` respects: `WellFormed`, `Fenced` and `Extends`.
-/

namespace MsgRpc

attribute [local simp] St.setCell St.setAction St.record St.output St.pushFrame St.popFrame
  St.addCell St.addAction St.pushUpdatable St.setKind St.setSeqId St.freeCell St.freeAction St.track
  St.freeContext St.setRspHandler St.next St.register St.useNet

namespace WellFormed

variable {s s' : St V}

theorem lt_of_alive (h : WellFormed s) {c : CellId} (halive : (s.it.cells c).alive = true)
    : c < s.it.cellCount := by
  by_contra hc
  rw [h.cellFresh c (by lia)] at halive
  simp [Cell.unallocated] at halive

theorem lt_of_actionAlive (h : WellFormed s) {a : ActionId}
    (halive : (s.it.actions a).alive = true)
    : a < s.it.actionCount := by
  by_contra ha
  rw [h.actionFresh a (by lia)] at halive
  simp [Action.unallocated] at halive

theorem lt_of_target (h : WellFormed s) {a : ActionId} {t : CellId}
    (htarget : (s.it.actions a).bind.target = some t)
    : t < s.it.cellCount := by
  by_contra ht
  have hrole := h.target a t htarget
  rw [h.cellFresh t (by lia)] at hrole
  cases hb : (s.it.actions a).bind <;> simp [hb, Bind.target] at htarget
  all_goals simp [hb, Bind.targetRole, Cell.unallocated, Cell.role, CellKind.role] at hrole

theorem congr (h : WellFormed s) (hcells : s'.it.cells = s.it.cells)
    (hcount : s'.it.cellCount = s.it.cellCount) (hactions : s'.it.actions = s.it.actions)
    (hacount : s'.it.actionCount = s.it.actionCount) (hlog : s.it.log <+: s'.it.log)
    : WellFormed s' := by
  constructor
  . rw [hcells, hcount]
    exact h.cellFresh
  . rw [hactions, hacount]
    exact h.actionFresh
  . intro c u hu
    rw [hcells] at hu
    exact hlog.subset (h.updatables c u hu)
  . rw [hactions, hcells]
    exact h.target
  . rw [hcells]
    exact h.hook
  . rw [hcells, hcount]
    exact h.hookAlive
  . rw [hactions]
    exact h.reply
  . rw [hactions]
    exact h.final

theorem record (h : WellFormed s) (e : Ev V) : WellFormed (s.record e) := by
  apply h.congr <;> simp

theorem pushFrame (h : WellFormed s) (f : Frame) : WellFormed (s.pushFrame f) := by
  apply h.congr <;> simp

theorem popFrame (h : WellFormed s) : WellFormed s.popFrame := by
  apply h.congr <;> simp

theorem output (h : WellFormed s) (o : Out V) : WellFormed (s.output o) := by
  apply h.congr <;> simp

theorem track (h : WellFormed s) (u : Updatable) : WellFormed (s.track u) := by
  apply h.congr <;> simp

theorem setRspHandler (h : WellFormed s) (seqId : RpcSequenceIdT) (sink : Option (Nat × CellId))
    : WellFormed (s.setRspHandler seqId sink) := by
  apply h.congr <;> simp

theorem removeRspHandlerOf (h : WellFormed s) (c : CellId)
    : WellFormed (s.removeRspHandlerOf c) := by
  unfold St.removeRspHandlerOf
  split
  . exact h.setRspHandler _ _
  . exact h

-- cell `c` keeps its role and its hook and gets listeners only if they have been registered
theorem setCell (h : WellFormed s) {c : CellId} {o : Cell V} (hc : c < s.it.cellCount)
    (hrole : o.role = (s.it.cells c).role) (hhook : o.kind.hook = (s.it.cells c).kind.hook)
    (hupdatables : ∀ u ∈ o.updatables, .registered c u ∈ s.it.log)
    : WellFormed (s.setCell c o) := by
  constructor
  . intro c' hc'
    have hne : c' ≠ c := by
      simp at hc'
      lia
    simp [hne, h.cellFresh c' hc']
  . exact h.actionFresh
  . intro c' u hu
    by_cases heq : c' = c
    . subst heq
      simp at hu
      exact hupdatables u hu
    . simp [heq] at hu
      exact h.updatables c' u hu
  . intro a t htarget
    have := h.target a t htarget
    by_cases heq : t = c
    . subst heq
      simp [hrole, this]
    . simp [heq, this]
  . intro c' t hhook'
    have : (s.it.cells c').kind.hook = some t := by
      by_cases heq : c' = c
      . subst heq
        simpa [hhook] using hhook'
      . simpa [heq] using hhook'
    have := h.hook c' t this
    by_cases heq : t = c
    . subst heq
      simp [hrole, this]
    . simp [heq, this]
  . intro c' t hhook'
    apply h.hookAlive c'
    by_cases heq : c' = c
    . subst heq
      simpa [hhook] using hhook'
    . simpa [heq] using hhook'
  . exact h.reply
  . exact h.final

theorem setCell_same (h : WellFormed s) {c : CellId} {o : Cell V} (hc : c < s.it.cellCount)
    (hkind : o.kind = (s.it.cells c).kind) (hupdatables : o.updatables = (s.it.cells c).updatables)
    : WellFormed (s.setCell c o) := by
  apply h.setCell hc
  . simp [Cell.role, hkind]
  . rw [hkind]
  . rw [hupdatables]
    exact h.updatables c

theorem assign (h : WellFormed s) {c : CellId} (o : Outcome V) (hc : c < s.it.cellCount)
    : WellFormed (s.assign c o) := by
  cases o with
  | value v =>
    apply WellFormed.record
    apply h.setCell_same hc <;> rfl
  | error reason =>
    apply WellFormed.record
    apply h.setCell_same hc <;> rfl

theorem freeCell (h : WellFormed s) {c : CellId} (hc : c < s.it.cellCount)
    : WellFormed (s.freeCell c) := by
  apply WellFormed.record
  apply h.setCell_same hc <;> rfl

theorem setAction_same (h : WellFormed s) {a : ActionId} {o : Action V}
    (ha : a < s.it.actionCount) (hbind : o.bind = (s.it.actions a).bind)
    (hfinal : o.isFinalAction = (s.it.actions a).isFinalAction)
    : WellFormed (s.setAction a o) := by
  have hsame : ∀ a', ((s.setAction a o).it.actions a').bind = (s.it.actions a').bind
      ∧ ((s.setAction a o).it.actions a').isFinalAction = (s.it.actions a').isFinalAction := by
    intro a'
    by_cases heq : a' = a
    . subst heq
      simp [hbind, hfinal]
    . simp [heq]
  constructor
  . exact h.cellFresh
  . intro a' ha'
    have hne : a' ≠ a := by
      simp at ha'
      lia
    simp [hne, h.actionFresh a' ha']
  . exact h.updatables
  . intro a' t
    rw [(hsame a').1]
    exact h.target a' t
  . exact h.hook
  . exact h.hookAlive
  . intro a'
    rw [(hsame a').1, (hsame a').2]
    exact h.reply a'
  . intro a' t
    rw [(hsame a').1, (hsame a').2]
    exact h.final a' t

theorem addCell (h : WellFormed s) {o : Cell V} (hhook : o.kind.hook = none)
    (hupdatables : o.updatables = [])
    : WellFormed (s.addCell o) := by
  constructor
  . intro c hc
    simp at hc
    have hne : c ≠ s.it.cellCount := by lia
    simp [hne, h.cellFresh c (by lia)]
  . exact h.actionFresh
  . intro c u hu
    by_cases heq : c = s.it.cellCount
    . simp [heq, hupdatables] at hu
    . simp [heq] at hu
      exact h.updatables c u hu
  . intro a t htarget
    have hne : t ≠ s.it.cellCount := by
      have := h.lt_of_target htarget
      lia
    simp [hne, ← h.target a t htarget]
  . intro c t hhook'
    by_cases heq : c = s.it.cellCount
    . simp [heq, hhook] at hhook'
    . simp [heq] at hhook'
      have hne : t ≠ s.it.cellCount := by
        have := h.hookAlive c t hhook'
        lia
      simp [hne, h.hook c t hhook']
  . intro c t hhook'
    by_cases heq : c = s.it.cellCount
    . simp [heq, hhook] at hhook'
    . simp [heq] at hhook'
      have := h.hookAlive c t hhook'
      simp
      lia
  . exact h.reply
  . exact h.final

theorem addAction (h : WellFormed s) {o : Action V}
    (htarget : ∀ t, o.bind.target = some t → (s.it.cells t).role = o.bind.targetRole)
    (hreply : o.bind.isReply = true → o.isFinalAction = true)
    (hfinal : ∀ t, o.bind.target = some t → o.isFinalAction = false)
    : WellFormed (s.addAction o) := by
  constructor
  . exact h.cellFresh
  . intro a ha
    simp at ha
    have hne : a ≠ s.it.actionCount := by lia
    simp [hne, h.actionFresh a (by lia)]
  . exact h.updatables
  . intro a t ht
    by_cases heq : a = s.it.actionCount
    . simp [heq] at ht ⊢
      exact htarget t ht
    . simp [heq] at ht ⊢
      exact h.target a t ht
  . exact h.hook
  . exact h.hookAlive
  . intro a ha
    by_cases heq : a = s.it.actionCount
    . simp [heq] at ha ⊢
      exact hreply ha
    . simp [heq] at ha ⊢
      exact h.reply a ha
  . intro a t ht
    by_cases heq : a = s.it.actionCount
    . simp [heq] at ht ⊢
      exact hfinal t ht
    . simp [heq] at ht ⊢
      exact h.final a t ht

theorem pushUpdatable (h : WellFormed s) {c : CellId} {u : Updatable} (hc : c < s.it.cellCount)
    (hreg : .registered c u ∈ s.it.log)
    : WellFormed (s.pushUpdatable c u) := by
  apply h.setCell hc
  . rfl
  . rfl
  . intro u' hu'
    simp at hu'
    cases hu' with
    | inl hmem => exact h.updatables c u' hmem
    | inr heq =>
      rw [heq]
      exact hreg

theorem setData (h : WellFormed s) {t : CellId} {data data' : TimeoutCellData V}
    (ht : t < s.it.cellCount) (hkind : (s.it.cells t).kind = .timeoutCell data)
    (hhook : data'.timeoutCell = data.timeoutCell)
    : WellFormed (s.setKind t (.timeoutCell data')) := by
  apply h.setCell ht
  . simp [Cell.role, hkind, CellKind.role]
  . simp [hkind, CellKind.hook, hhook]
  . exact h.updatables t

end WellFormed

namespace Fenced

variable {A : Updatable → Prop} {s s' : St V}

theorem congr (h : Fenced A s) (hcells : s'.it.cells = s.it.cells)
    (hcount : s'.it.cellCount = s.it.cellCount) (hactions : s'.it.actions = s.it.actions)
    (hacount : s'.it.actionCount = s.it.actionCount)
    : Fenced A s' := by
  constructor
  . rw [hcount]
    exact h.newCell
  . rw [hacount]
    exact h.newAction
  . rw [hcells]
    exact h.updatables
  . rw [hactions]
    exact h.target
  . rw [hcells]
    exact h.hook

theorem record (h : Fenced A s) (e : Ev V) : Fenced A (s.record e) := by
  apply h.congr <;> simp

theorem pushFrame (h : Fenced A s) (f : Frame) : Fenced A (s.pushFrame f) := by
  apply h.congr <;> simp

theorem popFrame (h : Fenced A s) : Fenced A s.popFrame := by
  apply h.congr <;> simp

theorem output (h : Fenced A s) (o : Out V) : Fenced A (s.output o) := by
  apply h.congr <;> simp

theorem track (h : Fenced A s) (u : Updatable) : Fenced A (s.track u) := by
  apply h.congr <;> simp

theorem setRspHandler (h : Fenced A s) (seqId : RpcSequenceIdT) (sink : Option (Nat × CellId))
    : Fenced A (s.setRspHandler seqId sink) := by
  apply h.congr <;> simp

theorem removeRspHandlerOf (h : Fenced A s) (c : CellId)
    : Fenced A (s.removeRspHandlerOf c) := by
  unfold St.removeRspHandlerOf
  split
  . exact h.setRspHandler _ _
  . exact h

theorem setCell (h : Fenced A s) {c : CellId} {o : Cell V}
    (hupdatables : A (.cell c) → ∀ u ∈ o.updatables, A u)
    (hhook : A (.cell c) → ∀ t, o.kind.hook = some t → A (.cell t))
    : Fenced A (s.setCell c o) := by
  constructor
  . exact h.newCell
  . exact h.newAction
  . intro c' hc' u hu
    by_cases heq : c' = c
    . subst heq
      simp at hu
      exact hupdatables hc' u hu
    . simp [heq] at hu
      exact h.updatables c' hc' u hu
  . exact h.target
  . intro c' t hc' ht
    by_cases heq : c' = c
    . subst heq
      simp at ht
      exact hhook hc' t ht
    . simp [heq] at ht
      exact h.hook c' t hc' ht

theorem setCell_same (h : Fenced A s) {c : CellId} {o : Cell V}
    (hkind : o.kind = (s.it.cells c).kind) (hupdatables : o.updatables = (s.it.cells c).updatables)
    : Fenced A (s.setCell c o) := by
  apply h.setCell
  . rw [hupdatables]
    exact h.updatables c
  . rw [hkind]
    intro hc t
    exact h.hook c t hc

theorem assign (h : Fenced A s) (c : CellId) (o : Outcome V) : Fenced A (s.assign c o) := by
  cases o with
  | value v =>
    apply Fenced.record
    apply h.setCell_same <;> rfl
  | error reason =>
    apply Fenced.record
    apply h.setCell_same <;> rfl

theorem freeCell (h : Fenced A s) (c : CellId) : Fenced A (s.freeCell c) := by
  apply Fenced.record
  apply h.setCell_same <;> rfl

theorem addCell (h : Fenced A s) {o : Cell V} (hhook : o.kind.hook = none)
    (hupdatables : o.updatables = [])
    : Fenced A (s.addCell o) := by
  constructor
  . intro c hc
    apply h.newCell
    simp at hc
    lia
  . exact h.newAction
  . intro c hc u hu
    by_cases heq : c = s.it.cellCount
    . simp [heq, hupdatables] at hu
    . simp [heq] at hu
      exact h.updatables c hc u hu
  . exact h.target
  . intro c t hc ht
    by_cases heq : c = s.it.cellCount
    . simp [heq, hhook] at ht
    . simp [heq] at ht
      exact h.hook c t hc ht

theorem addAction (h : Fenced A s) {o : Action V}
    (htarget : ∀ t, o.bind.target = some t → A (.cell t))
    : Fenced A (s.addAction o) := by
  constructor
  . exact h.newCell
  . intro a ha
    apply h.newAction
    simp at ha
    lia
  . exact h.updatables
  . intro a t ha ht
    by_cases heq : a = s.it.actionCount
    . simp [heq] at ht
      exact htarget t ht
    . simp [heq] at ht
      exact h.target a t ha ht
  . exact h.hook

end Fenced

namespace Extends

variable {s s' : St V}

theorem congr (hown : s'.own = s.own) (hit : s'.it = s.it) (hout : s'.sh.out = s.sh.out)
    (hissued : s.sh.issued <:+ s'.sh.issued) (hnet : s'.sh.net = s.sh.net)
    (hreleased : s'.released = s.released)
    : Extends s s' := by
  constructor <;> simp [hown, hit, hout, hissued, hnet, hreleased, Shared.responses]

theorem record (s : St V) {e : Ev V} (he : e.isHandler = false) : Extends s (s.record e) := by
  constructor <;> simp [Interaction.history, he]

theorem pushFrame (s : St V) (f : Frame) : Extends s (s.pushFrame f) := by
  apply congr <;> simp

theorem popFrame (s : St V) : Extends s s.popFrame := by
  apply congr <;> simp

-- only final actions send responses
theorem output (s : St V) {o : Out V}
    (ho : (∀ m, o.responseOf m = none)
      ∨ (∀ m, m ≠ s.own → o.responseOf m = none) ∧ ∃ a, (s.it.actions a).isFinalAction = true)
    : Extends s (s.output o) := by
  constructor
  case responses =>
    intro m
    cases ho with
    | inl hnone => simp [Shared.responses, hnone m]
    | inr hfinal =>
      by_cases hm : m = s.own
      . exact Or.inr ⟨hm, hfinal.2⟩
      . simp [Shared.responses, hfinal.1 m hm]
  all_goals simp

theorem track (s : St V) (u : Updatable) : Extends s (s.track u) := by
  constructor <;> simp [Interaction.history]

theorem next (s : St V) : Extends s s.next := by
  apply congr <;> simp

theorem setRspHandler (s : St V) (seqId : RpcSequenceIdT) (sink : Option (Nat × CellId))
    : Extends s (s.setRspHandler seqId sink) := by
  apply congr <;> simp

theorem removeRspHandlerOf (s : St V) (c : CellId) : Extends s (s.removeRspHandlerOf c) := by
  unfold St.removeRspHandlerOf
  split
  . apply setRspHandler
  . apply refl

theorem setCell {c : CellId} {o : Cell V} (hrole : o.role = (s.it.cells c).role)
    (htype : o.type = (s.it.cells c).type) (hctxt : o.hasContext = (s.it.cells c).hasContext)
    (hupdatables : (s.it.cells c).updatables <+: o.updatables)
    (hsource : (s.it.cells c).role = .cell → o.view = (s.it.cells c).view)
    (halive : (s.it.cells c).alive = false → o.alive = false)
    : Extends s (s.setCell c o) := by
  have hcell : ∀ c', (s.setCell c o).it.cells c' = if c' = c then o else s.it.cells c' := by
    simp [Function.update_apply]
  constructor
  case role => grind
  case type => grind
  case hasContext => grind
  case updatables => grind
  case source => grind
  case deadCell => grind
  case newContext => grind
  all_goals simp [Interaction.history]

theorem assign {c : CellId} (o : Outcome V) (hrole : (s.it.cells c).role ≠ .cell)
    : Extends s (s.assign c o) := by
  cases o with
  | value v =>
    apply Extends.trans _ (record _ rfl)
    apply setCell <;> simp [Cell.role]
    simp [Cell.role] at hrole
    simp [hrole]
  | error reason =>
    apply Extends.trans _ (record _ rfl)
    apply setCell <;> simp [Cell.role]
    simp [Cell.role] at hrole
    simp [hrole]

theorem freeCell (s : St V) (c : CellId) : Extends s (s.freeCell c) := by
  apply Extends.trans _ (record _ rfl)
  apply setCell <;> simp [Cell.role, Cell.view]

theorem addCell (s : St V) {o : Cell V} (hctxt : o.hasContext = false)
    : Extends s (s.addCell o) := by
  have hcell : ∀ c < s.it.cellCount, (s.addCell o).it.cells c = s.it.cells c := by
    intro c hc
    have hne : c ≠ s.it.cellCount := by lia
    simp [hne]
  constructor
  case role => grind
  case type => grind
  case hasContext => grind
  case updatables => grind
  case source => grind
  case deadCell => grind
  case newContext =>
    intro c hc
    by_cases heq : c = s.it.cellCount
    . simp [heq, hctxt] at hc
    . simpa [heq] using hc
  all_goals simp [Interaction.history]

theorem addAction (s : St V) {o : Action V} (hfinal : o.isFinalAction = false)
    : Extends s (s.addAction o) := by
  have haction : ∀ a < s.it.actionCount, (s.addAction o).it.actions a = s.it.actions a := by
    intro a ha
    have hne : a ≠ s.it.actionCount := by lia
    simp [hne]
  constructor
  case bind => grind
  case isFinalAction => grind
  case actionCell => grind
  case deadAction => grind
  case newFinal =>
    intro a ha
    by_cases heq : a = s.it.actionCount
    . simp [heq, hfinal] at ha
    . simpa [heq] using ha
  all_goals simp [Interaction.history]

theorem pushUpdatable (s : St V) (c : CellId) (u : Updatable)
    : Extends s (s.pushUpdatable c u) := by
  apply setCell <;> simp [Cell.role, Cell.view]

theorem setData {t : CellId} {data : TimeoutCellData V} (data' : TimeoutCellData V)
    (hkind : (s.it.cells t).kind = .timeoutCell data)
    : Extends s (s.setKind t (.timeoutCell data')) := by
  apply setCell <;> simp [Cell.role, Cell.view, hkind, CellKind.role]

end Extends

section Effect

variable {env : Env V} {A : Updatable → Prop} {s s' : St V}

theorem WellFormed.effect (h : WellFormed s) (heffect : Effect env A s s') : WellFormed s' := by
  cases heffect with
  | push f _ => exact h.pushFrame f
  | pop _ _ _ _ => exact h.popFrame
  | newCell type kind hkind _ =>
    apply WellFormed.pushFrame
    exact h.addCell hkind rfl
  | newAction bind hreply htarget =>
    apply WellFormed.pushFrame
    apply h.addAction
    . intro t ht
      exact (htarget t ht).2.1
    . simp [hreply]
    . simp
  | track u _ _ _ =>
    apply WellFormed.track
    exact h.popFrame
  | drop c _ _ _ _ hc _ _ =>
    apply WellFormed.freeCell
    . apply WellFormed.removeRspHandlerOf
      exact h.popFrame
    . unfold St.removeRspHandlerOf
      split
      all_goals simpa using hc
  | failedCell _ _ _ =>
    apply WellFormed.track
    exact h.addCell rfl rfl
  | subscribe c u _ _ halive _ _ =>
    apply WellFormed.pushUpdatable
    . apply h.record
    . exact h.lt_of_alive halive
    . simp
  | notifyNew c u _ _ _ _ _ =>
    apply WellFormed.record
    apply h.record
  | setData t data data' _ halive hkind hhook => exact h.setData (h.lt_of_alive halive) hkind hhook
  | newHook t data halive hkind hhook =>
    have ht := h.lt_of_alive halive
    have hne : t ≠ s.it.cellCount := by lia
    constructor
    . intro c hc
      simp at hc
      have h1 : c ≠ t := by lia
      have h2 : c ≠ s.it.cellCount := by lia
      simp [h1, h2, h.cellFresh c (by lia)]
    . exact h.actionFresh
    . intro c u hu
      apply h.updatables c u
      by_cases h1 : c = t
      . subst h1
        simpa [hne] using hu
      . by_cases h2 : c = s.it.cellCount
        . subst h2
          simp [h1] at hu
        . simpa [h1, h2] using hu
    . intro a t' ht'
      have hrole := h.target a t' ht'
      have hne' : t' ≠ s.it.cellCount := by
        have := h.lt_of_target ht'
        lia
      by_cases h1 : t' = t
      . subst h1
        simpa [Cell.role, CellKind.role, hkind] using hrole
      . simpa [h1, hne'] using hrole
    . intro c t' ht'
      by_cases h1 : c = t
      . subst h1
        simp [CellKind.hook] at ht'
        subst ht'
        have : s.it.cellCount ≠ c := by lia
        simp [this, Cell.role, CellKind.role]
      . by_cases h2 : c = s.it.cellCount
        . subst h2
          simp [h1, CellKind.hook] at ht'
        . simp [h1, h2] at ht'
          have hne' : t' ≠ s.it.cellCount := by
            have := h.hookAlive c t' ht'
            lia
          have hrole := h.hook c t' ht'
          have h3 : t' ≠ t := by
            intro heq
            rw [heq] at hrole
            simp [Cell.role, hkind, CellKind.role] at hrole
          simp [h3, hne', hrole]
    . intro c t' ht'
      by_cases h1 : c = t
      . subst h1
        simp [CellKind.hook] at ht' ⊢
        lia
      . by_cases h2 : c = s.it.cellCount
        . subst h2
          simp [h1, CellKind.hook] at ht'
        . simp [h1, h2] at ht' ⊢
          have := h.hookAlive c t' ht'
          lia
    . exact h.reply
    . exact h.final
  | mark e _ => exact h.record e
  | useNet => apply h.congr <;> simp
  | register c _ _ _ _ hc _ =>
    apply WellFormed.setCell_same
    . apply WellFormed.setRspHandler
      apply h.congr <;> simp
    . exact hc
    . rfl
    . rfl
  | request _ _ _ _ _ _ _ _ => apply h.output
  | timer o _ => exact h.output o
  | ranAction a _ _ _ _ => apply h.record

theorem Fenced.effect (h : Fenced A s) (hwf : WellFormed s) (heffect : Effect env A s s')
    : Fenced A s' := by
  cases heffect with
  | push f _ => exact h.pushFrame f
  | pop _ _ _ _ => exact h.popFrame
  | newCell type kind hkind _ =>
    apply Fenced.pushFrame
    exact h.addCell hkind rfl
  | newAction bind _ htarget =>
    apply Fenced.pushFrame
    apply h.addAction
    intro t ht
    exact (htarget t ht).1
  | track u _ _ _ =>
    apply Fenced.track
    exact h.popFrame
  | drop c _ _ _ _ _ _ _ =>
    apply Fenced.freeCell
    apply Fenced.removeRspHandlerOf
    exact h.popFrame
  | failedCell _ _ _ =>
    apply Fenced.track
    exact h.addCell rfl rfl
  | subscribe c u _ _ _ _ hu =>
    apply Fenced.setCell
    . exact h.record _
    . intro hc u' hu'
      simp at hu'
      cases hu' with
      | inl hmem => exact h.updatables c hc u' hmem
      | inr heq =>
        rw [heq]
        exact hu
    . intro hc t ht
      exact h.hook c t hc ht
  | notifyNew c u _ _ _ _ _ =>
    apply Fenced.record
    apply h.record
  | setData t data data' _ _ hkind hhook =>
    apply h.setCell
    . exact h.updatables t
    . intro ht t' ht'
      apply h.hook t t' ht
      simpa [hkind, CellKind.hook, hhook] using ht'
  | newHook t data halive hkind _ =>
    have ht := hwf.lt_of_alive halive
    have hne : t ≠ s.it.cellCount := by lia
    apply Fenced.setCell
    . exact h.addCell rfl rfl
    . intro hA u hu
      apply h.updatables t hA
      simpa [hne] using hu
    . intro _ t' ht'
      apply h.newCell
      simp [CellKind.hook] at ht'
      lia
  | mark e _ => exact h.record e
  | useNet => apply h.congr <;> simp
  | register c _ _ _ _ _ _ =>
    apply Fenced.setCell_same
    . apply Fenced.setRspHandler
      apply h.congr <;> simp
    . rfl
    . rfl
  | request _ _ _ _ _ _ _ _ => apply h.output
  | timer o _ => exact h.output o
  | ranAction a _ _ _ _ => apply h.record

theorem Extends.effect (hwf : WellFormed s) (heffect : Effect env A s s') : Extends s s' := by
  cases heffect with
  | push f _ => apply pushFrame
  | pop _ _ _ _ => apply popFrame
  | newCell type kind _ _ =>
    apply trans _ (pushFrame _ _)
    exact addCell _ rfl
  | newAction bind _ _ =>
    apply trans _ (pushFrame _ _)
    exact addAction _ rfl
  | track u _ _ _ =>
    apply trans _ (track _ _)
    apply popFrame
  | drop c _ _ _ _ _ _ _ =>
    apply trans _ (freeCell _ _)
    apply trans _ (removeRspHandlerOf _ _)
    apply popFrame
  | failedCell _ _ _ =>
    apply trans _ (track _ _)
    exact addCell _ rfl
  | subscribe c u _ _ _ _ _ =>
    apply trans _ (pushUpdatable _ _ _)
    exact record _ rfl
  | notifyNew c u _ _ _ _ _ =>
    apply trans _ (record _ rfl)
    exact record _ rfl
  | setData t data data' _ _ hkind _ => exact setData data' hkind
  | newHook t data halive hkind _ =>
    have ht := hwf.lt_of_alive halive
    have hne : t ≠ s.it.cellCount := by lia
    have hkind' : ((s.addCell { type := env.boolType, kind := .timeoutHook }).it.cells t).kind
        = .timeoutCell data := by
      simpa [hne] using hkind
    have hadd : Extends s (s.addCell { type := env.boolType, kind := .timeoutHook }) :=
      addCell _ rfl
    exact hadd.trans (setData _ hkind')
  | mark e he =>
    apply record
    cases e <;> simp [Ev.isMark] at he <;> rfl
  | useNet => apply congr <;> simp
  | register c _ _ _ _ _ _ =>
    apply trans (next _)
    apply trans (setRspHandler _ _ _)
    apply setCell <;> simp [Cell.role, Cell.view]
  | request _ _ _ _ _ _ _ _ =>
    apply output
    exact Or.inl fun _ => rfl
  | timer o ho =>
    apply output
    left
    intro m
    cases o <;> simp [Out.isTimer] at ho <;> rfl
  | ranAction a _ _ _ _ => exact record _ rfl

end Effect
end MsgRpc
