import MsgRpc.Lib.Wp
import MsgRpc.Cell.Update

/-!
This module contains the elementary effects code of an interaction is made of, and what every state
it runs through has in common. Everything later modules prove about all code at once is proved by
cases on `Effect`.
-/

namespace MsgRpc

inductive Role where
  | cell
  | timeoutHook
  | derivedCell
  | timeoutCell
  | derivedAsyncCell
  deriving DecidableEq

def CellKind.role : CellKind V → Role
  | .cell => .cell
  | .timeoutHook => .timeoutHook
  | .derivedCell _ => .derivedCell
  | .timeoutCell _ => .timeoutCell
  | .derivedAsyncCell _ => .derivedAsyncCell

namespace Cell

def role (o : Cell V) : Role := o.kind.role

end Cell

namespace Bind

def targetRole : Bind V → Role
  | .guard _ _ => .timeoutCell
  | _ => .derivedAsyncCell

def isReply : Bind V → Bool
  | .reply _ _ _ => true
  | _ => false

end Bind

def Frame.isConstruct : Frame → Bool
  | .construct _ => true
  | _ => false

structure WellFormed (s : St V) : Prop where
  cellFresh : ∀ c, s.it.cellCount ≤ c → s.it.cells c = .unallocated
  actionFresh : ∀ a, s.it.actionCount ≤ a → s.it.actions a = .unallocated
  updatables : ∀ c u, u ∈ (s.it.cells c).updatables → .registered c u ∈ s.it.log
  target : ∀ a t, (s.it.actions a).bind.target = some t
    → (s.it.cells t).role = (s.it.actions a).bind.targetRole
  hook : ∀ c h, (s.it.cells c).kind.hook = some h → (s.it.cells h).role = .timeoutHook
  hookAlive : ∀ c h, (s.it.cells c).kind.hook = some h → h < s.it.cellCount
  reply : ∀ a, (s.it.actions a).bind.isReply = true → (s.it.actions a).isFinalAction = true
  final : ∀ a t, (s.it.actions a).bind.target = some t → (s.it.actions a).isFinalAction = false

/--
Notification does not lead out of `A`, and what is yet to be allocated is in `A`.
-/
structure Fenced (A : Updatable → Prop) (s : St V) : Prop where
  newCell : ∀ c, s.it.cellCount ≤ c → A (.cell c)
  newAction : ∀ a, s.it.actionCount ≤ a → A (.action a)
  updatables : ∀ c, A (.cell c) → ∀ u ∈ (s.it.cells c).updatables, A u
  target : ∀ a t, A (.action a) → (s.it.actions a).bind.target = some t → A (.cell t)
  hook : ∀ c h, A (.cell c) → (s.it.cells c).kind.hook = some h → A (.cell h)

-- what handlers note down, no code of an interaction does
def Ev.isHandler : Ev V → Bool
  | .received _ _ _ | .invoked _ _ | .called _ _ _ | .closed _ _ _ => true
  | _ => false

def Interaction.history (it : Interaction V) : List (Ev V) := it.log.filter Ev.isHandler

def Out.responseOf (own : Nat) : Out V → Option (ServiceId × Bytes)
  | .response serviceId msg m => if m = own then some ⟨serviceId, msg⟩ else none
  | _ => none

def Shared.responses (sh : Shared V) (own : Nat) : List (ServiceId × Bytes) :=
  sh.out.filterMap (Out.responseOf own)

-- no cell has the context yet
def St.Unowned (s : St V) : Prop := ∀ c, (s.it.cells c).hasContext = false

/--
There is no final action and no response yet, the handlers have noted down `h`.
-/
structure St.Unclosed (h : List (Ev V)) (s : St V) : Prop where
  isFinalAction : ∀ a, (s.it.actions a).isFinalAction = false
  history : s.it.history = h
  unclosed : ∀ a c isEmpty, .closed a c isEmpty ∉ h
  unanswered : s.sh.responses s.own = []

theorem Interaction.mem_history {it : Interaction V} {e : Ev V} (he : e.isHandler = true)
    : e ∈ it.history ↔ e ∈ it.log := by
  simp [history, he]

theorem St.Unclosed.record {h : List (Ev V)} {s : St V} (hs : s.Unclosed h) {e : Ev V}
    (he : e.isHandler = true) (hclosed : ∀ a c isEmpty, e ≠ .closed a c isEmpty)
    : (s.record e).Unclosed (h ++ [e]) where
  isFinalAction := hs.isFinalAction
  history := by
    have hhistory := hs.history
    simp only [Interaction.history] at hhistory ⊢
    simp [St.record, hhistory, he]
  unclosed := by
    intro a c isEmpty hmem
    rw [List.mem_append, List.mem_singleton] at hmem
    cases hmem with
    | inl hold => exact hs.unclosed a c isEmpty hold
    | inr heq => exact hclosed a c isEmpty heq.symm
  unanswered := hs.unanswered

/--
What no code of an interaction undoes, or does for the first time.
-/
structure Extends (s s' : St V) : Prop where
  own : s'.own = s.own
  released : s.released = true → s'.released = true
  cellCount : s.it.cellCount ≤ s'.it.cellCount
  actionCount : s.it.actionCount ≤ s'.it.actionCount
  role : ∀ c < s.it.cellCount, (s'.it.cells c).role = (s.it.cells c).role
  type : ∀ c < s.it.cellCount, (s'.it.cells c).type = (s.it.cells c).type
  hasContext : ∀ c < s.it.cellCount, (s'.it.cells c).hasContext = (s.it.cells c).hasContext
  updatables : ∀ c < s.it.cellCount,
    (s.it.cells c).updatables <+: (s'.it.cells c).updatables
  source : ∀ c < s.it.cellCount, (s.it.cells c).role = .cell
    → (s'.it.cells c).view = (s.it.cells c).view
  bind : ∀ a < s.it.actionCount, (s'.it.actions a).bind = (s.it.actions a).bind
  isFinalAction : ∀ a < s.it.actionCount,
    (s'.it.actions a).isFinalAction = (s.it.actions a).isFinalAction
  actionCell : ∀ a < s.it.actionCount, (s'.it.actions a).cell = (s.it.actions a).cell
  deadCell : ∀ c < s.it.cellCount, (s.it.cells c).alive = false → (s'.it.cells c).alive = false
  deadAction : ∀ a < s.it.actionCount,
    (s.it.actions a).alive = false → (s'.it.actions a).alive = false
  ctxtAlive : s'.it.ctxtAlive = true → s.it.ctxtAlive = true
  releaseList : s.it.releaseList <+: s'.it.releaseList
  log : s.it.log <+: s'.it.log
  out : s.sh.out <+: s'.sh.out
  issued : s.sh.issued <:+ s'.sh.issued
  net : s'.sh.net = s.sh.net
  newContext : ∀ c, (s'.it.cells c).hasContext = true → (s.it.cells c).hasContext = true
  newFinal : ∀ a, (s'.it.actions a).isFinalAction = true → (s.it.actions a).isFinalAction = true
  history : s'.it.history = s.it.history
  responses : ∀ m, s'.sh.responses m = s.sh.responses m
    ∨ m = s.own ∧ ∃ a, (s.it.actions a).isFinalAction = true

theorem Extends.refl (s : St V) : Extends s s := by
  constructor <;> simp

theorem Extends.trans {s1 s2 s3 : St V} (h : Extends s1 s2) (h' : Extends s2 s3)
    : Extends s1 s3 := by
  constructor
  . rw [h'.own, h.own]
  . intro hrel
    apply h'.released
    apply h.released
    exact hrel
  . exact Nat.le_trans h.cellCount h'.cellCount
  . exact Nat.le_trans h.actionCount h'.actionCount
  . intro c hc
    rw [h'.role c (Nat.lt_of_lt_of_le hc h.cellCount), h.role c hc]
  . intro c hc
    rw [h'.type c (Nat.lt_of_lt_of_le hc h.cellCount), h.type c hc]
  . intro c hc
    rw [h'.hasContext c (Nat.lt_of_lt_of_le hc h.cellCount), h.hasContext c hc]
  . intro c hc
    exact (h.updatables c hc).trans (h'.updatables c (Nat.lt_of_lt_of_le hc h.cellCount))
  . intro c hc hrole
    rw [h'.source c (Nat.lt_of_lt_of_le hc h.cellCount) (by rw [h.role c hc, hrole]),
      h.source c hc hrole]
  . intro a ha
    rw [h'.bind a (Nat.lt_of_lt_of_le ha h.actionCount), h.bind a ha]
  . intro a ha
    rw [h'.isFinalAction a (Nat.lt_of_lt_of_le ha h.actionCount), h.isFinalAction a ha]
  . intro a ha
    rw [h'.actionCell a (Nat.lt_of_lt_of_le ha h.actionCount), h.actionCell a ha]
  . intro c hc hdead
    apply h'.deadCell c (Nat.lt_of_lt_of_le hc h.cellCount)
    apply h.deadCell c hc hdead
  . intro a ha hdead
    apply h'.deadAction a (Nat.lt_of_lt_of_le ha h.actionCount)
    apply h.deadAction a ha hdead
  . intro hctxt
    apply h.ctxtAlive
    apply h'.ctxtAlive
    exact hctxt
  . exact h.releaseList.trans h'.releaseList
  . exact h.log.trans h'.log
  . exact h.out.trans h'.out
  . exact h.issued.trans h'.issued
  . rw [h'.net, h.net]
  . intro c hc
    exact h.newContext c (h'.newContext c hc)
  . intro a ha
    exact h.newFinal a (h'.newFinal a ha)
  . rw [h'.history, h.history]
  . intro m
    cases h'.responses m with
    | inl hsame =>
      rw [hsame]
      exact h.responses m
    | inr hfinal =>
      obtain ⟨hown, a, ha⟩ := hfinal
      right
      refine ⟨?_, a, h.newFinal a ha⟩
      rw [hown, h.own]

theorem Extends.unowned {s s' : St V} (h : Extends s s') (hs : s.Unowned) : s'.Unowned := by
  intro c
  cases hc : (s'.it.cells c).hasContext with
  | true =>
    have := hs c
    rw [h.newContext c hc] at this
    simp at this
  | false => rfl

theorem Extends.unclosed {h : List (Ev V)} {s s' : St V} (hext : Extends s s')
    (hs : s.Unclosed h)
    : s'.Unclosed h where
  isFinalAction := by
    intro a
    cases ha : (s'.it.actions a).isFinalAction with
    | true =>
      have := hs.isFinalAction a
      rw [hext.newFinal a ha] at this
      simp at this
    | false => rfl
  history := by rw [hext.history, hs.history]
  unclosed := hs.unclosed
  unanswered := by
    rw [hext.own]
    cases hext.responses s.own with
    | inl hsame => rw [hsame, hs.unanswered]
    | inr hfinal =>
      obtain ⟨_, a, ha⟩ := hfinal
      simp [hs.isFinalAction a] at ha

/--
What is left of `s` when a call ends early in `s'`.
-/
structure Stops (s s' : St V) : Prop where
  own : s'.own = s.own
  released : s'.released = s.released
  log : s.it.log <+: s'.it.log

-- the request and the call of the method that implements it
def Ev.isCall : Ev V → Bool
  | .received _ _ _ | .invoked _ _ | .called _ _ _ => true
  | _ => false

def Interaction.calls (it : Interaction V) : List (Ev V) := it.log.filter Ev.isCall

theorem Interaction.calls_eq (it : Interaction V)
    : it.calls = it.history.filter Ev.isCall := by
  unfold calls history
  rw [List.filter_filter]
  apply List.filter_congr
  intro e _
  cases e <;> rfl

/--
Nothing is sent and no method is called on the way from `s` to the end in `s'`.
-/
structure Halts (s s' : St V) : Prop extends Stops s s' where
  out : s'.sh.out = s.sh.out
  calls : s'.it.calls = s.it.calls

theorem Stops.refl (s : St V) : Stops s s :=
  ⟨rfl, rfl, List.prefix_refl _⟩

theorem Stops.trans {s1 s2 s3 : St V} (h : Stops s1 s2) (h' : Stops s2 s3) : Stops s1 s3 := by
  constructor
  . rw [h'.own, h.own]
  . rw [h'.released, h.released]
  . exact h.log.trans h'.log

theorem Halts.refl (s : St V) : Halts s s :=
  ⟨Stops.refl s, rfl, rfl⟩

theorem Halts.trans {s1 s2 s3 : St V} (h : Halts s1 s2) (h' : Halts s2 s3) : Halts s1 s3 :=
  ⟨h.toStops.trans h'.toStops, by rw [h'.out, h.out], by rw [h'.calls, h.calls]⟩

/--
What code leaves behind that goes wrong in `s`, it may have been about to set up a final action.
-/
structure Breaks (s s' : St V) : Prop where
  own : s'.own = s.own
  released : s'.released = s.released
  out : s'.sh.out = s.sh.out
  releaseList : s'.it.releaseList = s.it.releaseList
  log : s'.it.log = s.it.log
    ∨ (∃ h, s.Unclosed h) ∧ ∃ c u, s'.it.log
      = s.it.log ++ [.closed s.it.actionCount c true, .registered c u]

theorem Breaks.refl (s : St V) : Breaks s s := by
  constructor <;> simp

theorem Breaks.halts {s s' : St V} (h : Breaks s s') : Halts s s' where
  own := h.own
  released := h.released
  log := by
    cases h.log with
    | inl hsame => rw [hsame]
    | inr hclosing =>
      obtain ⟨_, c, u, hlog⟩ := hclosing
      rw [hlog]
      exact List.prefix_append _ _
  out := h.out
  calls := by
    unfold Interaction.calls
    cases h.log with
    | inl hsame => rw [hsame]
    | inr hclosing =>
      obtain ⟨_, c, u, hlog⟩ := hclosing
      simp [hlog, Ev.isCall]

namespace St

def next (s : St V) : St V :=
  { s with
    sh := { s.sh with
      sequenceId := (RpcSequenceId.get s.sh.sequenceId).2
      issued := (RpcSequenceId.get s.sh.sequenceId).1 :: s.sh.issued
    }
  }

def nextSeqId (s : St V) : RpcSequenceIdT := (RpcSequenceId.get s.sh.sequenceId).1

def register (s : St V) (c : CellId) : St V :=
  (s.next.setRspHandler s.nextSeqId (some ⟨s.own, c⟩)).setSeqId c s.nextSeqId

def useNet (s : St V) : St V :=
  { s with sh := { s.sh with sends := s.sh.sends + 1 } }

def removeRspHandlerOf (s : St V) (c : CellId) : St V :=
  if (s.it.cells c).hasSeqId then s.setRspHandler (s.it.cells c).seqId none else s

end St

def Ev.isMark : Ev V → Bool
  | .attempt _ _ | .stub _ => true
  | _ => false

def Out.isTimer : Out V → Bool
  | .setTimer _ _ | .cancelTimer _ => true
  | _ => false

/--
The effects of application code and of all updates but those of final actions. Listeners that are
told lie in `A`. Setting a cell and telling its listeners are left out, they make sense only
together.
-/
inductive Effect (env : Env V) (A : Updatable → Prop) (s : St V) : St V → Prop where
  | push (f : Frame) (hf : f.isConstruct = false) : Effect env A s (s.pushFrame f)
  | pop (f : Frame) (stack : List Frame) (hf : f.isConstruct = false) (hs : s.stack = f :: stack)
    : Effect env A s s.popFrame
  | newCell (type : Ty) (kind : CellKind V) (hkind : kind.hook = none)
      (hrole : kind.role ≠ .timeoutHook)
    : Effect env A s
        ((s.addCell { type, kind }).pushFrame (.construct (.cell s.it.cellCount)))
  | newAction (bind : Bind V) (hreply : bind.isReply = false)
      (htarget : ∀ t, bind.target = some t
        → A (.cell t) ∧ (s.it.cells t).role = bind.targetRole ∧ t < s.it.cellCount)
    : Effect env A s
        ((s.addAction { bind }).pushFrame (.construct (.action s.it.actionCount)))
  | track (u : Updatable) (stack : List Frame) (hs : s.stack = .construct u :: stack)
      (hctxt : s.it.ctxtAlive = true)
    : Effect env A s (s.popFrame.track u)
  | drop (c : CellId) (stack : List Frame) (hs : s.stack = .construct (.cell c) :: stack)
      (hA : A (.cell c)) (halive : (s.it.cells c).alive = true) (hc : c < s.it.cellCount)
      (hrole : (s.it.cells c).role = .cell) (hctxt : (s.it.cells c).hasContext = false)
    : Effect env A s ((s.popFrame.removeRspHandlerOf c).freeCell c)
  | failedCell (type : Ty) (reason : RpcResult) (hctxt : s.it.ctxtAlive = true)
    : Effect env A s
        ((s.addCell { type, kind := .cell, status := reason }).track (.cell s.it.cellCount))
  | subscribe (c : CellId) (u : Updatable) (stack : List Frame)
      (hs : s.stack = .construct u :: stack) (halive : (s.it.cells c).alive = true)
      (hempty : (s.it.cells c).hasValueOrError = false) (hu : A u)
    : Effect env A s ((s.record (.registered c u)).pushUpdatable c u)
  | notifyNew (c : CellId) (u : Updatable) (stack : List Frame)
      (hs : s.stack = .construct u :: stack) (halive : (s.it.cells c).alive = true)
      (hset : (s.it.cells c).hasValueOrError = true) (hu : A u)
    : Effect env A s ((s.record (.registered c u)).record (.notified c u))
  | setData (t : CellId) (data data' : TimeoutCellData V) (hA : A (.cell t))
      (halive : (s.it.cells t).alive = true) (hkind : (s.it.cells t).kind = .timeoutCell data)
      (hhook : data'.timeoutCell = data.timeoutCell)
    : Effect env A s (s.setKind t (.timeoutCell data'))
  | newHook (t : CellId) (data : TimeoutCellData V)
      (halive : (s.it.cells t).alive = true) (hkind : (s.it.cells t).kind = .timeoutCell data)
      (hhook : data.timeoutCell = none)
    : Effect env A s
        ((s.addCell { type := env.boolType, kind := .timeoutHook }).setKind t
          (.timeoutCell { data with timeoutCell := some s.it.cellCount }))
  | mark (e : Ev V) (he : e.isMark = true) : Effect env A s (s.record e)
  | useNet : Effect env A s s.useNet
  | register (c : CellId) (stack : List Frame) (hs : s.stack = .construct (.cell c) :: stack)
      (hA : A (.cell c)) (hnew : s.it.cells c = { type := (s.it.cells c).type, kind := .cell })
      (hc : c < s.it.cellCount) (hunique : s.sh.idFuncMap s.nextSeqId = none)
    : Effect env A s (s.register c)
  | request (c : CellId) (serviceId : ServiceId) (call : StubCall V) (pbuf : Bytes)
      (stack : List Frame) (hs : s.stack = .construct (.cell c) :: stack)
      (hcell : s.it.cells c
        = { type := call.rspType, kind := .cell, hasSeqId := true, seqId := (s.it.cells c).seqId })
      (hc : c < s.it.cellCount)
      (hpbuf : ThriftEncoder.encode (env.codec call.reqType) call.req = some pbuf)
    : Effect env A s
        (s.output (.request serviceId ((reqHeader call (s.it.cells c).seqId).toBytes ++ pbuf) s.own
          c call))
  | timer (o : Out V) (ho : o.isTimer = true) : Effect env A s (s.output o)
  | ranAction (a : ActionId) (ha : A (.action a)) (halive : (s.it.actions a).alive = true)
      (hnotified : ∃ c, .notified c (.action a) ∈ s.it.log)
      (hfinal : (s.it.actions a).isFinalAction = false)
    : Effect env A s (s.record (.ranAction a))

end MsgRpc
