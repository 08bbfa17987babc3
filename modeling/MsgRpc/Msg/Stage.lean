import MsgRpc.Msg.Handlers

/-!
This module contains the life of an interaction that is given a final action, from the call of
`derive_final_action` to its release, and what becomes of the request it answers.
-/

namespace MsgRpc

open StateProg

def Updatable.freed : Updatable → Ev V
  | .cell c => .freedCell c
  | .action a => .freedAction a

def Ev.runs (a : ActionId) : Ev V → Bool
  | .ranAction a' => a' = a
  | _ => false

/--
The log has every object that was freed once, and no object that is alive.
-/
structure Ledger (s : St V) : Prop where
  cell : ∀ c, s.it.log.countP (Ev.freesCell c)
    = if c < s.it.cellCount ∧ (s.it.cells c).alive = false then 1 else 0
  action : ∀ a, s.it.log.countP (Ev.freesAction a)
    = if a < s.it.actionCount ∧ (s.it.actions a).alive = false then 1 else 0
  context : s.it.log.countP Ev.freesContext = if s.it.ctxtAlive then 0 else 1
  ran : ∀ a, .ranAction a ∈ s.it.log → a < s.it.actionCount

/--
A registered cell dies with the context, unless its request has not been sent yet.
-/
structure Owned (s : St V) : Prop where
  rpc : ∀ c, (s.it.cells c).alive = true → (s.it.cells c).hasSeqId = true
    → .cell c ∈ s.it.releaseList ∨ (s.it.cells c).hasContext = true
      ∨ .construct (.cell c) ∈ s.stack
  holder : ∀ c c', (s.it.cells c).hasContext = true → (s.it.cells c').hasContext = true → c = c'

-- what a final action bound to `bind` hands to the channel if its cell is `o`
def replyOf (env : Env V) (o : Cell V) (bind : Bind V) : List (ServiceId × Bytes) :=
  match bind with
  | .reply senderId rspHeader _ =>
    match o.value.bind (ThriftEncoder.encode (env.codec o.type)) with
    | some buf => [⟨senderId, rspHeader.toBytes ++ buf⟩]
    | none => []
  | _ => []

/--
`a` is the final action on `c`, which was empty when the action was derived.
-/
structure Closes (a : ActionId) (c : CellId) (s : St V) : Prop where
  isFinalAction : (s.it.actions a).isFinalAction = true
  history : ∃ h, s.it.history = h ++ [.closed a c true] ∧ Owes (s.it.actions a).bind c true h
  only : ∀ a', (s.it.actions a').isFinalAction = true → a' = a
  hasContext : (s.it.cells c).hasContext = true

/--
The final action `a` has not released the interaction yet. Its body has run `ran` times and has sent
the responses `rs`.
-/
structure Waiting (ran : Nat) (rs : List (ServiceId × Bytes)) (a : ActionId) (c : CellId)
    (s : St V) : Prop where
  closes : Closes a c s
  cell : (s.it.actions a).cell = some c
  actionAlive : (s.it.actions a).alive = true
  cellAlive : (s.it.cells c).alive = true
  ctxtAlive : s.it.ctxtAlive = true
  tracked : .action a ∈ s.it.releaseList
  listens : .action a ∈ (s.it.cells c).updatables
  ran : s.it.log.countP (Ev.runs a) = ran
  unreleased : ∀ stack, .released stack ∉ s.it.log
  responses : s.sh.responses s.own = rs

/--
The body of the final action `a` has run once, and what was freed right behind it are the cell `c`,
its context and all the context tracked.
-/
structure Completed (env : Env V) (a : ActionId) (c : CellId) (s : St V) : Prop where
  closes : Closes a c s
  ran : s.it.log.countP (Ev.runs a) = 1
  released : ∃ pre frees stack post,
    s.it.log = pre ++ .finished a :: (frees ++ .released stack :: post)
      ∧ (∀ e ∈ frees, e.isFreed = true) ∧ .freedCell c ∈ frees ∧ .freedContext ∈ frees
      ∧ ∀ u ∈ s.it.releaseList, u.freed ∈ frees
  ctxtAlive : s.it.ctxtAlive = false
  cellDead : (s.it.cells c).alive = false
  actionDead : (s.it.actions a).alive = false
  responses : s.sh.responses s.own = replyOf env (s.it.cells c) (s.it.actions a).bind

/--
There is no final action, and the request has been answered.
-/
structure Answered (env : Env V) (s : St V) : Prop where
  isFinalAction : ∀ a, (s.it.actions a).isFinalAction = false
  unclosed : ∀ a c isEmpty, .closed a c isEmpty ∉ s.it.history
  answer : ∃ senderId reqHeader msg,
    (∃ rpcResult, rpcResult ≠ .succeeded ∧ Fruitless env senderId reqHeader msg s.it.history
        ∧ s.sh.responses s.own = [⟨senderId, (responseHeader reqHeader rpcResult).toBytes⟩])
      ∨ ∃ i req c o v buf, s.it.history
          = [.received senderId reqHeader msg, .invoked i req, .called reqHeader req (some ⟨c, o⟩)]
        ∧ o.value = some v ∧ ThriftEncoder.encode (env.codec o.type) v = some buf
        ∧ s.sh.responses s.own
          = [⟨senderId, (responseHeader reqHeader .succeeded).toBytes ++ buf⟩]

inductive Stage (env : Env V) (s : St V) : Prop where
  | unclosed (h : List (Ev V)) (hopen : s.Unclosed h)
      (hunreleased : ∀ stack, .released stack ∉ s.it.log)
  | answered (hanswered : Answered env s)
  | waiting (a : ActionId) (c : CellId) (hwaiting : Waiting 0 [] a c s)
  | completed (a : ActionId) (c : CellId) (hcompleted : Completed env a c s)

-- the final action was derived on a cell that had its value or error
def Late (s : St V) : Prop :=
  ∃ a c bind h, s.it.history = h ++ [.closed a c false] ∧ Owes bind c false h

structure Tidy (s : St V) : Prop where
  ledger : Ledger s
  owned : Owned s

/--
The final action `a` on `c` has run once and what was freed right behind it are the cell, its
context and all the context tracked, each of them once.
-/
structure Finalized (a : ActionId) (c : CellId) (it : Interaction V) : Prop where
  ran : it.log.countP (Ev.runs a) = 1
  released : ∃ pre frees stack post,
    it.log = pre ++ .finished a :: (frees ++ .released stack :: post)
      ∧ (∀ e ∈ frees, e.isFreed = true) ∧ .freedCell c ∈ frees ∧ .freedContext ∈ frees
      ∧ ∀ u ∈ it.releaseList, u.freed ∈ frees
  cell : ∀ c', it.log.countP (Ev.freesCell c') ≤ 1
  action : ∀ a', it.log.countP (Ev.freesAction a') ≤ 1
  context : it.log.countP Ev.freesContext ≤ 1

/--
What is left of an interaction if code goes wrong: a final action that waits has run at most once,
and if it has released the interaction it is done.
-/
def Cut (it : Interaction V) : Prop :=
  ∀ a c, .closed a c true ∈ it.log
    → it.log.countP (Ev.runs a) ≤ 1 ∧ ∀ stack, .released stack ∈ it.log → Finalized a c it

/--
The invariant of all states of an interaction.
-/
def Kept (env : Env V) (s : St V) : Prop :=
  Late s ∨ Tidy s ∧ Stage env s

theorem Owes.not_closed {bind : Bind V} {c : CellId} {isEmpty : Bool} {h : List (Ev V)}
    (howes : Owes bind c isEmpty h) (a' : ActionId) (c' : CellId) (isEmpty' : Bool)
    : .closed a' c' isEmpty' ∉ h := by
  cases howes <;> simp

/--
What code does not touch unless it is that of the final action.
-/
structure Spares (s s' : St V) : Prop where
  own : s'.own = s.own
  actionCount : s.it.actionCount ≤ s'.it.actionCount
  action : ∀ a < s.it.actionCount, s'.it.actions a = s.it.actions a
  newFinal : ∀ a, (s'.it.actions a).isFinalAction = true → (s.it.actions a).isFinalAction = true
  cellCount : s.it.cellCount ≤ s'.it.cellCount
  hasContext : ∀ c < s.it.cellCount, (s'.it.cells c).hasContext = (s.it.cells c).hasContext
  holder : ∀ c < s.it.cellCount, (s.it.cells c).hasContext = true
    → (s'.it.cells c).alive = (s.it.cells c).alive
  updatables : ∀ c < s.it.cellCount, (s.it.cells c).updatables <+: (s'.it.cells c).updatables
  dead : ∀ c < s.it.cellCount, (s.it.cells c).alive = false → s'.it.cells c = s.it.cells c
  ctxtAlive : s'.it.ctxtAlive = s.it.ctxtAlive
  releaseList : s.it.releaseList <+: s'.it.releaseList
  released : s.it.ctxtAlive = false → s'.it.releaseList = s.it.releaseList
  history : s'.it.history = s.it.history
  responses : s'.sh.responses s.own = s.sh.responses s.own
  log : ∃ es, s'.it.log = s.it.log ++ es ∧ (∀ stack, .released stack ∉ es)
    ∧ ∀ a < s.it.actionCount, (s.it.actions a).isFinalAction = true
      → es.countP (Ev.runs a) = 0

namespace Spares

variable {s s' s1 s2 s3 : St V}

theorem trans (h : Spares s1 s2) (h' : Spares s2 s3) : Spares s1 s3 := by
  constructor
  . rw [h'.own, h.own]
  . exact Nat.le_trans h.actionCount h'.actionCount
  . intro a ha
    rw [h'.action a (Nat.lt_of_lt_of_le ha h.actionCount), h.action a ha]
  . intro a ha
    exact h.newFinal a (h'.newFinal a ha)
  . exact Nat.le_trans h.cellCount h'.cellCount
  . intro c hc
    rw [h'.hasContext c (Nat.lt_of_lt_of_le hc h.cellCount), h.hasContext c hc]
  . intro c hc hctxt
    have hctxt2 : (s2.it.cells c).hasContext = true := by
      rw [h.hasContext c hc, hctxt]
    rw [h'.holder c (Nat.lt_of_lt_of_le hc h.cellCount) hctxt2, h.holder c hc hctxt]
  . intro c hc
    exact (h.updatables c hc).trans (h'.updatables c (Nat.lt_of_lt_of_le hc h.cellCount))
  . intro c hc hdead
    have hsame := h.dead c hc hdead
    rw [h'.dead c (Nat.lt_of_lt_of_le hc h.cellCount) (by rw [hsame, hdead]), hsame]
  . rw [h'.ctxtAlive, h.ctxtAlive]
  . exact h.releaseList.trans h'.releaseList
  . intro hctxt
    rw [h'.released (by rw [h.ctxtAlive, hctxt]), h.released hctxt]
  . rw [h'.history, h.history]
  . have := h'.responses
    rw [h.own] at this
    rw [this, h.responses]
  . obtain ⟨es, hes, hnone, hran⟩ := h.log
    obtain ⟨es', hes', hnone', hran'⟩ := h'.log
    refine ⟨es ++ es', by rw [hes', hes, List.append_assoc], ?_, ?_⟩
    . simp [hnone, hnone']
    . intro a ha hfinal
      have hfinal2 : (s2.it.actions a).isFinalAction = true := by
        rw [h.action a ha, hfinal]
      rw [List.countP_append, hran a ha hfinal,
        hran' a (Nat.lt_of_lt_of_le ha h.actionCount) hfinal2]

theorem congr (hown : s'.own = s.own) (hit : s'.it = s.it)
    (hresponses : s'.sh.responses s.own = s.sh.responses s.own)
    : Spares s s' := by
  constructor
  case log => exact ⟨[], by simp [hit]⟩
  all_goals simp [hown, hit, hresponses]

section Step

attribute [local simp] St.setCell St.record St.output St.pushFrame St.popFrame St.addCell
  St.addAction St.pushUpdatable St.setKind St.setSeqId St.freeCell St.track St.setRspHandler St.next
  St.useNet

theorem record (s : St V) {e : Ev V} (he : e.isHandler = false)
    (hreleased : ∀ stack, e ≠ .released stack)
    (hran : ∀ a, (s.it.actions a).isFinalAction = true → e.runs a = false)
    : Spares s (s.record e) := by
  constructor
  case log =>
    refine ⟨[e], rfl, ?_, ?_⟩
    . intro stack hmem
      exact hreleased stack (List.mem_singleton.mp hmem).symm
    . intro a _ ha
      simp [hran a ha]
  all_goals simp [Interaction.history, he]

theorem pushFrame (s : St V) (f : Frame) : Spares s (s.pushFrame f) := by
  apply congr <;> simp

theorem popFrame (s : St V) : Spares s s.popFrame := by
  apply congr <;> simp

theorem output (s : St V) {o : Out V} (ho : ∀ m, o.responseOf m = none)
    : Spares s (s.output o) := by
  apply congr <;> simp [Shared.responses, ho]

theorem track (u : Updatable) (hctxt : s.it.ctxtAlive = true) : Spares s (s.track u) := by
  constructor
  case log => exact ⟨[], by simp⟩
  all_goals simp [hctxt, Interaction.history]

theorem setCell {c : CellId} {o : Cell V} (halive : (s.it.cells c).alive = true)
    (hctxt : o.hasContext = (s.it.cells c).hasContext)
    (hupdatables : (s.it.cells c).updatables <+: o.updatables)
    (halive' : o.alive = true ∨ (s.it.cells c).hasContext = false)
    : Spares s (s.setCell c o) := by
  have hcell : ∀ c', (s.setCell c o).it.cells c' = if c' = c then o else s.it.cells c' := by
    simp [Function.update_apply]
  constructor
  case hasContext => grind
  case holder => grind
  case updatables => grind
  case dead => grind
  case log => exact ⟨[], by simp⟩
  all_goals simp [Interaction.history]

theorem addCell (s : St V) (o : Cell V) : Spares s (s.addCell o) := by
  have hcell : ∀ c < s.it.cellCount, (s.addCell o).it.cells c = s.it.cells c := by
    intro c hc
    have hne : c ≠ s.it.cellCount := by lia
    simp [hne]
  constructor
  case hasContext => grind
  case holder => grind
  case updatables => grind
  case dead => grind
  case log => exact ⟨[], by simp⟩
  all_goals simp [Interaction.history]

theorem addAction (s : St V) {o : Action V} (hfinal : o.isFinalAction = false)
    : Spares s (s.addAction o) := by
  constructor
  case action =>
    intro a ha
    have hne : a ≠ s.it.actionCount := by lia
    simp [hne]
  case newFinal =>
    intro a ha
    by_cases heq : a = s.it.actionCount
    . simp [heq, hfinal] at ha
    . simpa [heq] using ha
  case log => exact ⟨[], by simp⟩
  all_goals simp [Interaction.history]

theorem assign {c : CellId} (halive : (s.it.cells c).alive = true) (o : Outcome V)
    : Spares s (s.assign c o) := by
  have hrecord : ∀ s1 : St V, Spares s1 (s1.record (.assigned c o)) :=
    fun s1 => record s1 rfl (by simp) fun _ _ => rfl
  cases o with
  | value v =>
    apply Spares.trans _ (hrecord _)
    exact setCell halive rfl (List.prefix_refl _) (Or.inl halive)
  | error reason =>
    apply Spares.trans _ (hrecord _)
    exact setCell halive rfl (List.prefix_refl _) (Or.inl halive)

theorem effect {env : Env V} {A : Updatable → Prop} (hwf : WellFormed s)
    (heffect : Effect env A s s')
    : Spares s s' := by
  have hrecord : ∀ (s1 : St V) (e : Ev V), e.isHandler = false → (∀ stack, e ≠ .released stack)
      → (∀ a, e.runs a = false) → Spares s1 (s1.record e) :=
    fun s1 e he hreleased hruns => record s1 he hreleased fun a _ => hruns a
  cases heffect with
  | push f _ => exact pushFrame s f
  | pop _ _ _ _ => exact popFrame s
  | newCell type kind _ _ => exact (addCell s _).trans (pushFrame _ _)
  | newAction bind _ _ => exact (addAction s rfl).trans (pushFrame _ _)
  | track u _ _ hctxt => exact (popFrame s).trans (track u hctxt)
  | drop c _ _ _ halive _ _ hctxt =>
    have hremove : Spares s.popFrame (s.popFrame.removeRspHandlerOf c) := by
      unfold St.removeRspHandlerOf
      split <;> apply congr <;> rfl
    have hfree : Spares (s.popFrame.removeRspHandlerOf c)
        ((s.popFrame.removeRspHandlerOf c).setCell c
          { (s.popFrame.removeRspHandlerOf c).it.cells c with alive := false }) := by
      apply setCell
      . simpa [it_removeRspHandlerOf] using halive
      . rfl
      . exact List.prefix_refl _
      . right
        simpa [it_removeRspHandlerOf] using hctxt
    exact (((popFrame s).trans hremove).trans hfree).trans (hrecord _ _ rfl (by simp) fun _ => rfl)
  | failedCell _ _ hctxt => exact (addCell s _).trans (track _ hctxt)
  | subscribe c u _ _ halive _ _ =>
    apply (hrecord s (.registered c u) rfl (by simp) fun _ => rfl).trans
    exact setCell halive rfl (List.prefix_append _ _) (Or.inl halive)
  | notifyNew c u _ _ _ _ _ =>
    exact (hrecord s _ rfl (by simp) fun _ => rfl).trans (hrecord _ _ rfl (by simp) fun _ => rfl)
  | setData t data data' _ halive hkind _ =>
    exact setCell halive rfl (List.prefix_refl _) (Or.inl halive)
  | newHook t data halive hkind _ =>
    have hne : t ≠ s.it.cellCount := by
      have := hwf.lt_of_alive halive
      lia
    have halive' : ((s.addCell { type := env.boolType, kind := .timeoutHook }).it.cells t).alive
        = true := by
      simp [hne, halive]
    apply (addCell s _).trans
    exact setCell halive' rfl (List.prefix_refl _) (Or.inl halive')
  | mark e he =>
    apply hrecord
    . cases e <;> simp [Ev.isMark] at he <;> rfl
    . rintro stack rfl
      simp [Ev.isMark] at he
    . cases e <;> simp [Ev.isMark] at he <;> simp [Ev.runs]
  | useNet => apply congr <;> rfl
  | register c _ _ _ hnew _ _ =>
    have halive : (s.it.cells c).alive = true := by
      rw [hnew]
    have hset : Spares s (s.setCell c { s.it.cells c with hasSeqId := true, seqId := s.nextSeqId }) :=
      setCell halive rfl (List.prefix_refl _) (Or.inl halive)
    apply hset.trans
    apply congr <;> rfl
  | request _ _ _ _ _ _ _ _ =>
    apply output
    intro _
    rfl
  | timer o ho =>
    apply output
    intro m
    cases o <;> simp [Out.isTimer] at ho <;> rfl
  | ranAction a _ _ _ hfinal =>
    apply record s rfl (by simp)
    intro a' ha'
    simp only [Ev.runs, decide_eq_false_iff_not]
    intro heq
    rw [heq, ha'] at hfinal
    simp at hfinal

end Step
end Spares

section Stage

variable {env : Env V} {a : ActionId} {c : CellId} {s s' : St V}

theorem WellFormed.lt_of_final (hwf : WellFormed s)
    (hfinal : (s.it.actions a).isFinalAction = true)
    : a < s.it.actionCount := by
  by_contra hge
  rw [hwf.actionFresh a (by lia)] at hfinal
  simp [Action.unallocated] at hfinal

theorem WellFormed.lt_of_hasContext (hwf : WellFormed s)
    (hctxt : (s.it.cells c).hasContext = true)
    : c < s.it.cellCount := by
  by_contra hge
  rw [hwf.cellFresh c (by lia)] at hctxt
  simp [Cell.unallocated] at hctxt

theorem Closes.spares (h : Closes a c s) (hwf : WellFormed s) (hs : Spares s s')
    : Closes a c s' where
  isFinalAction := by
    rw [hs.action a (hwf.lt_of_final h.isFinalAction), h.isFinalAction]
  history := by
    obtain ⟨hist, hhist, howes⟩ := h.history
    refine ⟨hist, by rw [hs.history, hhist], ?_⟩
    rw [hs.action a (hwf.lt_of_final h.isFinalAction)]
    exact howes
  only a' ha' := h.only a' (hs.newFinal a' ha')
  hasContext := by
    rw [hs.hasContext c (hwf.lt_of_hasContext h.hasContext)]
    exact h.hasContext

theorem Closes.extends (h : Closes a c s) (hwf : WellFormed s) (hext : Extends s s')
    : Closes a c s' where
  isFinalAction := by
    rw [hext.isFinalAction a (hwf.lt_of_final h.isFinalAction), h.isFinalAction]
  history := by
    obtain ⟨hist, hhist, howes⟩ := h.history
    refine ⟨hist, by rw [hext.history, hhist], ?_⟩
    rw [hext.bind a (hwf.lt_of_final h.isFinalAction)]
    exact howes
  only a' ha' := h.only a' (hext.newFinal a' ha')
  hasContext := by
    rw [hext.hasContext c (hwf.lt_of_hasContext h.hasContext)]
    exact h.hasContext

theorem Closes.countP_runs (h : Closes a c s) (hwf : WellFormed s) (hs : Spares s s')
    : s'.it.log.countP (Ev.runs a) = s.it.log.countP (Ev.runs a) := by
  obtain ⟨es, hes, _, hran⟩ := hs.log
  have hnone := hran a (hwf.lt_of_final h.isFinalAction) h.isFinalAction
  rw [hes, List.countP_append, hnone, Nat.add_zero]

-- a release is not spared
theorem Spares.unreleased (hs : Spares s s') (h : ∀ stack, .released stack ∉ s.it.log)
    : ∀ stack, .released stack ∉ s'.it.log := by
  obtain ⟨es, hes, hnone, _⟩ := hs.log
  simp [hes, h, hnone]

theorem Waiting.spares {ran : Nat} {rs : List (ServiceId × Bytes)} (h : Waiting ran rs a c s)
    (hwf : WellFormed s) (hs : Spares s s')
    : Waiting ran rs a c s' := by
  have hc := hwf.lt_of_hasContext h.closes.hasContext
  have hsame := hs.action a (hwf.lt_of_final h.closes.isFinalAction)
  constructor
  . exact h.closes.spares hwf hs
  . rw [hsame, h.cell]
  . rw [hsame, h.actionAlive]
  . rw [hs.holder c hc h.closes.hasContext, h.cellAlive]
  . rw [hs.ctxtAlive, h.ctxtAlive]
  . exact hs.releaseList.subset h.tracked
  . exact (hs.updatables c hc).subset h.listens
  . rw [h.closes.countP_runs hwf hs, h.ran]
  . exact hs.unreleased h.unreleased
  . rw [hs.own, hs.responses, h.responses]

theorem Completed.spares (h : Completed env a c s) (hwf : WellFormed s) (hs : Spares s s')
    : Completed env a c s' := by
  have hc := hwf.lt_of_hasContext h.closes.hasContext
  have hsame := hs.action a (hwf.lt_of_final h.closes.isFinalAction)
  have hcell := hs.dead c hc h.cellDead
  constructor
  . exact h.closes.spares hwf hs
  . rw [h.closes.countP_runs hwf hs, h.ran]
  . obtain ⟨pre, frees, stack, post, hlog, hfrees, hfreed, hlist⟩ := h.released
    obtain ⟨es, hes, _, _⟩ := hs.log
    refine ⟨pre, frees, stack, post ++ es, ?_, hfrees, hfreed, ?_⟩
    . rw [hes, hlog]
      simp
    . rw [hs.released h.ctxtAlive]
      exact hlist
  . rw [hs.ctxtAlive, h.ctxtAlive]
  . rw [hcell, h.cellDead]
  . rw [hsame, h.actionDead]
  . rw [hs.own, hs.responses, hcell, hsame, h.responses]

theorem Answered.congr (h : Answered env s)
    (hfinal : ∀ a, (s'.it.actions a).isFinalAction = true
      → (s.it.actions a).isFinalAction = true)
    (hown : s'.own = s.own) (hhistory : s'.it.history = s.it.history)
    (hresponses : s'.sh.responses s.own = s.sh.responses s.own)
    : Answered env s' where
  isFinalAction := by
    intro a
    cases ha : (s'.it.actions a).isFinalAction with
    | true =>
      have := h.isFinalAction a
      rw [hfinal a ha] at this
      simp at this
    | false => rfl
  unclosed := by
    rw [hhistory]
    exact h.unclosed
  answer := by
    rw [hhistory, hown, hresponses]
    exact h.answer

theorem St.Unclosed.spares {h : List (Ev V)} (hopen : s.Unclosed h) (hs : Spares s s')
    : s'.Unclosed h where
  isFinalAction := by
    intro a
    cases ha : (s'.it.actions a).isFinalAction with
    | true =>
      have := hopen.isFinalAction a
      rw [hs.newFinal a ha] at this
      simp at this
    | false => rfl
  history := by rw [hs.history, hopen.history]
  unclosed := hopen.unclosed
  unanswered := by rw [hs.own, hs.responses, hopen.unanswered]

theorem Stage.spares (h : Stage env s) (hwf : WellFormed s) (hs : Spares s s')
    : Stage env s' := by
  cases h with
  | unclosed h hopen hunreleased => exact .unclosed h (hopen.spares hs) (hs.unreleased hunreleased)
  | answered hanswered => exact .answered (hanswered.congr hs.newFinal hs.own hs.history hs.responses)
  | waiting a c hwaiting => exact .waiting a c (hwaiting.spares hwf hs)
  | completed a c hcompleted => exact .completed a c (hcompleted.spares hwf hs)

end Stage

end MsgRpc
