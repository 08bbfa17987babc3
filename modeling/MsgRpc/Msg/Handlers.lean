import MsgRpc.Cell.Lemmas.Final
import MsgRpc.Msg.Node

/-!
This module contains the effects the message handlers and the start of an interaction have beyond
those of the updates they cause, and the proof that they keep every invariant these effects keep.
-/

namespace MsgRpc

open StateProg

namespace St

def setResult (s : St V) (c : CellId) : St V :=
  { s.setCell c { s.it.cells c with hasContext := true } with
    it := { s.it with
      cells := Function.update s.it.cells c { s.it.cells c with hasContext := true }
      releaseList := s.it.releaseList.filter (· ≠ .cell c)
    }
  }

def setActionCell (s : St V) (a : ActionId) (c : CellId) : St V :=
  s.setAction a { s.it.actions a with cell := some c }

def addFinalAction (s : St V) (bind : Bind V) (c : CellId) (isEmpty : Bool) : St V :=
  (s.addAction { bind, isFinalAction := true }).record (.closed s.it.actionCount c isEmpty)

def close (s : St V) (bind : Bind V) (c : CellId) : St V :=
  let s1 := (s.addFinalAction bind c true).record (.registered c (.action s.it.actionCount))
  let s2 := (s1.pushUpdatable c (.action s.it.actionCount)).track (.action s.it.actionCount)
  s2.setActionCell s.it.actionCount c

-- the end of an id: its cell forgets it and it is removed from the table
def unregister (s : St V) (c : CellId) (k : RpcSequenceIdT) : St V :=
  (s.setCell c { s.it.cells c with hasSeqId := false }).setRspHandler k none

end St

def responseHeader (h : ReqMsgHeader) (rpcResult : RpcResult) : RspMsgHeader :=
  { h.toMsgHeader with rpcResult }

def Config.Serves (cfg : Config V) (reqHeader : ReqMsgHeader) (method : MethodImpl V) : Prop :=
  ∃ methods, cfg.ifaceImpl reqHeader.ifaceIndexInService = some methods
    ∧ methods.find? (fun m => (reqHeader.methodIndexInInterface.toNat : Int) = m.methodIndex)
      = some method

/--
What a final action on `c` is bound to: code of the application, or the answer to the request the
handlers have noted down.
-/
inductive Owes (bind : Bind V) (c : CellId) (isEmpty : Bool) : List (Ev V) → Prop where
  | user (f : Prog V) (hbind : bind = .user f) : Owes bind c isEmpty []
  | reply (senderId : ServiceId) (reqHeader : ReqMsgHeader) (msg : Bytes) (i : Int) (req : V)
      (o : Cell V) (hbind : bind = .reply senderId (responseHeader reqHeader .succeeded) c)
      (hvalue : o.value = none) (hempty : o.isEmpty = isEmpty)
    : Owes bind c isEmpty
        [.received senderId reqHeader msg, .invoked i req, .called reqHeader req (some ⟨c, o⟩)]

/--
There is nothing to answer a request with but that it has failed.
-/
inductive Fruitless (env : Env V) (senderId : ServiceId) (reqHeader : ReqMsgHeader) (msg : Bytes) :
    List (Ev V) → Prop where
  | rejected : Fruitless env senderId reqHeader msg [.received senderId reqHeader msg]
  | nullptr (i : Int) (req : V)
    : Fruitless env senderId reqHeader msg
        [.received senderId reqHeader msg, .invoked i req, .called reqHeader req none]
  | unencodable (i : Int) (req : V) (c : CellId) (o : Cell V) (v : V) (hv : o.value = some v)
      (hbuf : ThriftEncoder.encode (env.codec o.type) v = none)
    : Fruitless env senderId reqHeader msg
        [.received senderId reqHeader msg, .invoked i req, .called reqHeader req (some ⟨c, o⟩)]

/--
Why a request is answered by a header alone.
-/
inductive Fails (cfg : Config V) (senderId : ServiceId) (reqHeader : ReqMsgHeader) (msg : Bytes) :
    RpcResult → List (Ev V) → Prop where
  | ifaceNotFound (hiface : cfg.ifaceImpl reqHeader.ifaceIndexInService = none)
    : Fails cfg senderId reqHeader msg .ifaceNotFound [.received senderId reqHeader msg]
  | methodNotFound (methods : List (MethodImpl V))
      (hiface : cfg.ifaceImpl reqHeader.ifaceIndexInService = some methods)
      (hmethod : methods.find?
        (fun m => (reqHeader.methodIndexInInterface.toNat : Int) = m.methodIndex) = none)
    : Fails cfg senderId reqHeader msg .methodNotFound [.received senderId reqHeader msg]
  | undecodable (method : MethodImpl V) (hmethod : cfg.Serves reqHeader method)
      (hreq : ThriftDecoder.decode (cfg.env.codec method.reqType) msg = none)
    : Fails cfg senderId reqHeader msg .failed [.received senderId reqHeader msg]
  | nullptr (method : MethodImpl V) (req : V) (hmethod : cfg.Serves reqHeader method)
      (hreq : ThriftDecoder.decode (cfg.env.codec method.reqType) msg = some req)
    : Fails cfg senderId reqHeader msg .failed
        [.received senderId reqHeader msg, .invoked method.methodIndex req,
          .called reqHeader req none]
  | unencodable (method : MethodImpl V) (req : V) (c : CellId) (o : Cell V) (v : V)
      (hmethod : cfg.Serves reqHeader method)
      (hreq : ThriftDecoder.decode (cfg.env.codec method.reqType) msg = some req)
      (hv : o.value = some v) (hbuf : ThriftEncoder.encode (cfg.env.codec o.type) v = none)
    : Fails cfg senderId reqHeader msg .failed
        [.received senderId reqHeader msg, .invoked method.methodIndex req,
          .called reqHeader req (some ⟨c, o⟩)]

theorem Fails.fruitless {cfg : Config V} {senderId : ServiceId} {reqHeader : ReqMsgHeader}
    {msg : Bytes} {rpcResult : RpcResult} {h : List (Ev V)}
    (hfails : Fails cfg senderId reqHeader msg rpcResult h)
    : Fruitless cfg.env senderId reqHeader msg h := by
  cases hfails with
  | ifaceNotFound _ => exact .rejected
  | methodNotFound _ _ _ => exact .rejected
  | undecodable _ _ _ => exact .rejected
  | nullptr _ _ _ _ => exact .nullptr _ _
  | unencodable _ _ c o v _ _ hv hbuf => exact .unencodable _ _ c o v hv hbuf

theorem Fails.received {cfg : Config V} {senderId : ServiceId} {reqHeader : ReqMsgHeader}
    {msg : Bytes} {rpcResult : RpcResult} {h : List (Ev V)}
    (hfails : Fails cfg senderId reqHeader msg rpcResult h)
    : .received senderId reqHeader msg ∈ h := by
  cases hfails <;> simp

theorem Fails.ne_succeeded {cfg : Config V} {senderId : ServiceId} {reqHeader : ReqMsgHeader}
    {msg : Bytes} {rpcResult : RpcResult} {h : List (Ev V)}
    (hfails : Fails cfg senderId reqHeader msg rpcResult h)
    : rpcResult ≠ .succeeded := by
  cases hfails <;> decide

inductive HandlerEffect (cfg : Config V) (s : St V) : St V → Prop where
  | received (senderId : ServiceId) (reqHeader : ReqMsgHeader) (msg : Bytes)
      (hopen : s.Unclosed [])
    : HandlerEffect cfg s (s.record (.received senderId reqHeader msg))
  | invoked (senderId : ServiceId) (reqHeader : ReqMsgHeader) (msg : Bytes) (req : V)
      (method : MethodImpl V) (hopen : s.Unclosed [.received senderId reqHeader msg])
      (hmethod : cfg.Serves reqHeader method)
      (hreq : ThriftDecoder.decode (cfg.env.codec method.reqType) msg = some req)
    : HandlerEffect cfg s (s.record (.invoked method.methodIndex req))
  | called (senderId : ServiceId) (reqHeader : ReqMsgHeader) (msg : Bytes) (req : V)
      (method : MethodImpl V) (rspCell : Option CellId)
      (hopen : s.Unclosed [.received senderId reqHeader msg, .invoked method.methodIndex req])
      (hmethod : cfg.Serves reqHeader method)
      (hreq : ThriftDecoder.decode (cfg.env.codec method.reqType) msg = some req)
      (hcell : ∀ c, rspCell = some c
        → c < s.it.cellCount ∧ (s.it.cells c).type = method.rspType)
    : HandlerEffect cfg s
        (s.record (.called reqHeader req (rspCell.map fun c => ⟨c, s.it.cells c⟩)))
  | setResult (c : CellId) (halive : (s.it.cells c).alive = true) (hunowned : s.Unowned)
    : HandlerEffect cfg s (s.setResult c)
  | close (bind : Bind V) (c : CellId) (h : List (Ev V)) (howes : Owes bind c true h)
      (hopen : s.Unclosed h) (halive : (s.it.cells c).alive = true)
      (hempty : (s.it.cells c).hasValueOrError = false)
      (hcontext : (s.it.cells c).hasContext = true) (hctxt : s.it.ctxtAlive = true)
    : HandlerEffect cfg s (s.close bind c)
  | closeLate (bind : Bind V) (c : CellId) (h : List (Ev V)) (howes : Owes bind c false h)
      (hopen : s.Unclosed h) (halive : (s.it.cells c).alive = true)
      (hset : (s.it.cells c).hasValueOrError = true)
    : HandlerEffect cfg s
        ((s.addFinalAction bind c false).pushFrame (.construct (.action s.it.actionCount)))
  | popFrame (hlate : ∃ a c, .closed a c false ∈ s.it.log) : HandlerEffect cfg s s.popFrame
  | track (a : ActionId) (hlate : ∃ a c, .closed a c false ∈ s.it.log)
    : HandlerEffect cfg s (s.track (.action a))
  | setActionCell (a : ActionId) (c : CellId) (halive : (s.it.actions a).alive = true)
      (hlate : ∃ a c, .closed a c false ∈ s.it.log)
    : HandlerEffect cfg s (s.setActionCell a c)
  | newCell (type : Ty) (status : RpcResult)
    : HandlerEffect cfg s (s.addCell { type, kind := .cell, status })
  | setNewCell (c : CellId) (v : V) (hlt : c < s.it.cellCount)
      (hcell : s.it.cells c = { type := (s.it.cells c).type, kind := .cell })
    : HandlerEffect cfg s (s.assign c (.value v))
  | delete (s' : St V) (hopen : ∀ a, (s.it.actions a).isFinalAction = false)
      (hfrees : Frees s s')
    : HandlerEffect cfg s s'
  | failure (senderId : ServiceId) (reqHeader : ReqMsgHeader) (msg : Bytes) (rpcResult : RpcResult)
      (h : List (Ev V)) (hopen : s.Unclosed h)
      (hfails : Fails cfg senderId reqHeader msg rpcResult h)
    : HandlerEffect cfg s
        (s.output (.response senderId (responseHeader reqHeader rpcResult).toBytes s.own))
  | response (senderId : ServiceId) (reqHeader : ReqMsgHeader) (msg : Bytes) (i : Int) (req : V)
      (c : CellId) (o : Cell V) (v : V) (buf : Bytes)
      (hopen : s.Unclosed
        [.received senderId reqHeader msg, .invoked i req, .called reqHeader req (some ⟨c, o⟩)])
      (hv : o.value = some v) (hbuf : ThriftEncoder.encode (cfg.env.codec o.type) v = some buf)
    : HandlerEffect cfg s
        (s.output (.response senderId
          ((responseHeader reqHeader .succeeded).toBytes ++ buf) s.own))

theorem Owes.target {bind : Bind V} {c : CellId} {isEmpty : Bool} {h : List (Ev V)}
    (howes : Owes bind c isEmpty h)
    : bind.target = none := by
  cases howes with
  | user f hbind => rw [hbind]; rfl
  | reply _ _ _ _ _ _ hbind _ _ => rw [hbind]; rfl

/--
All effects of handlers keep `P`. Only application code goes wrong in the ways `fault` lists.
-/
structure KeepsHandlers (cfg : Config V) (P : St V → Prop) (E : Fault → St V → Prop) : Prop where
  effect : ∀ s s', Sound (fun _ => True) P s → HandlerEffect cfg s s' → P s'
  fault : ∀ s s' a, Sound (fun _ => True) P s → a = .finalActionContext ∨ a = .resultNotNull
    → Breaks s s' → E (.assertion a) s'

/--
Also an invariant a request would break: that nothing is noted down about one.
-/
structure KeepsClosing (cfg : Config V) (P : St V → Prop) (E : Fault → St V → Prop) : Prop where
  effect : ∀ s s', Sound (fun _ => True) P s → HandlerEffect cfg s s' → s'.it.calls = s.it.calls
    → P s'
  fault : ∀ s s' a, Sound (fun _ => True) P s → a = .finalActionContext ∨ a = .resultNotNull
    → Breaks s s' → E (.assertion a) s'

theorem KeepsHandlers.closing {cfg : Config V} {P : St V → Prop} {E : Fault → St V → Prop}
    (hh : KeepsHandlers cfg P E)
    : KeepsClosing cfg P E where
  effect s s' h heffect _ := hh.effect s s' h heffect
  fault := hh.fault

theorem WellFormed.addFinalAction {s : St V} (h : WellFormed s) {bind : Bind V}
    (hbind : bind.target = none) (c : CellId) (isEmpty : Bool)
    : WellFormed (s.addFinalAction bind c isEmpty) := by
  have hadd : WellFormed (s.addAction { bind, isFinalAction := true }) := by
    apply h.addAction <;> simp [hbind]
  exact hadd.record _

theorem WellFormed.close {s : St V} (h : WellFormed s) {bind : Bind V} (hbind : bind.target = none)
    {c : CellId} (hc : c < s.it.cellCount)
    : WellFormed (s.close bind c) := by
  have hregistered := (h.addFinalAction hbind c true).record
    (.registered c (.action s.it.actionCount))
  have hpush := hregistered.pushUpdatable (c := c) (u := .action s.it.actionCount) hc
    (by simp [St.record])
  have htrack := hpush.track (.action s.it.actionCount)
  apply htrack.setAction_same <;> first | rfl | exact Nat.lt_succ_self _

theorem WellFormed.handlerEffect {cfg : Config V} {s s' : St V} (h : WellFormed s)
    (heffect : HandlerEffect cfg s s')
    : WellFormed s' := by
  cases heffect with
  | setResult c halive _ =>
    have hset : WellFormed (s.setCell c { s.it.cells c with hasContext := true }) := by
      apply h.setCell_same (h.lt_of_alive halive) <;> rfl
    apply hset.congr <;> simp [St.setResult, St.setCell]
  | close bind c _ howes _ halive _ _ _ => exact h.close howes.target (h.lt_of_alive halive)
  | closeLate bind c _ howes _ _ _ => exact (h.addFinalAction howes.target c false).pushFrame _
  | setActionCell a c halive _ =>
    apply h.setAction_same (h.lt_of_actionAlive halive) <;> rfl
  | newCell type status => exact h.addCell rfl rfl
  | setNewCell c v hlt _ => exact h.assign _ hlt
  | delete _ _ hfrees => exact h.frees hfrees
  | popFrame _ => exact h.popFrame
  | track a _ => exact h.track (.action a)
  | _ => apply h.congr <;> simp [St.record, St.output]

theorem SamePending.handlerEffect {cfg : Config V} {s s' : St V} (hwf : WellFormed s)
    (heffect : HandlerEffect cfg s s') (c : CellId)
    : SamePending c s.it s'.it := by
  cases heffect with
  | setResult c' _ _ =>
    apply SamePending.same
    . rfl
    . by_cases hcc : c = c' <;> simp [St.setResult, hcc, Cell.view]
    . by_cases hcc : c = c' <;> simp [St.setResult, hcc]
    . exact Nat.le_refl _
    . by_cases hcc : c = c' <;> simp [St.setResult, hcc, Cell.role]
  | close bind c' _ _ _ _ hempty _ _ =>
    have hclosed : SamePending c s.it (s.addFinalAction bind c' true).it := by
      apply SamePending.others [.closed s.it.actionCount c' true]
      . rfl
      . simp [Ev.concerns]
      . rfl
      . rfl
      . exact Nat.le_refl _
      . exact fun _ => rfl
    have hregister : SamePending c (s.addFinalAction bind c' true).it (s.close bind c').it := by
      by_cases hcc : c = c'
      . subst hcc
        apply SamePending.collect (u := .action s.it.actionCount)
        . exact hempty
        . rfl
        . simp [St.close, St.setActionCell, St.setAction, St.track, St.pushUpdatable, St.setCell,
            St.record, St.addFinalAction, St.addAction, Cell.view]
        . simp [St.close, St.setActionCell, St.setAction, St.track, St.pushUpdatable, St.setCell,
            St.record, St.addFinalAction, St.addAction]
        . exact Nat.le_refl _
        . simp [St.close, St.setActionCell, St.setAction, St.track, St.pushUpdatable, St.setCell,
            St.record, St.addFinalAction, St.addAction, Cell.role]
      . have hcell : (s.close bind c').it.cells c = s.it.cells c := by
          simp [St.close, St.setActionCell, St.setAction, St.track, St.pushUpdatable, St.setCell,
            St.record, St.addFinalAction, St.addAction, hcc]
        apply SamePending.others [.registered c' (.action s.it.actionCount)]
        . rfl
        . simp [Ev.concerns, Ne.symm hcc]
        . rw [hcell]
          rfl
        . rw [hcell]
          rfl
        . exact Nat.le_refl _
        . rw [hcell]
          exact fun _ => rfl
    apply hclosed.trans hregister
    exact List.prefix_append _ _
  | closeLate bind c' _ _ _ _ _ =>
    apply SamePending.others [.closed s.it.actionCount c' false]
    . rfl
    . simp [Ev.concerns]
    . rfl
    . rfl
    . exact Nat.le_refl _
    . exact fun _ => rfl
  | newCell type status => exact SamePending.addCell hwf type .cell status (Or.inr rfl) c
  | setNewCell c' v hlt hcell =>
    by_cases hcc : c = c'
    . subst hcc
      intro hsingle pending hpending
      have hempty : (s.it.cells c).hasValueOrError = false := by
        rw [hcell]
        rfl
      have hnobody : (s.it.cells c).updatables = [] := by
        rw [hcell]
      obtain ⟨hnone, hall⟩ := hpending.assign (Or.inr hempty) hsingle
      rw [hnone, ← hnobody]
      exact hall
    . exact SamePending.assign _ hcc
  | delete _ _ hfrees => exact SamePending.frees hfrees c
  | received _ _ _ _ => exact SamePending.record rfl
  | invoked _ _ _ _ _ _ _ _ => exact SamePending.record rfl
  | called _ _ _ _ _ _ _ _ _ _ => exact SamePending.record rfl
  | _ => exact SamePending.same rfl rfl rfl (Nat.le_refl _) fun _ => rfl

theorem HandlerEffect.stops {cfg : Config V} {s s' : St V} (heffect : HandlerEffect cfg s s')
    : Stops s s' := by
  cases heffect with
  | setNewCell c v _ _ => exact ⟨rfl, rfl, List.prefix_append _ _⟩
  | delete _ _ hfrees => exact hfrees.stops
  | close bind c _ _ _ _ _ _ _ =>
    refine ⟨rfl, rfl, ?_⟩
    change s.it.log <+: s.it.log ++ [_] ++ [_]
    rw [List.append_assoc]
    exact List.prefix_append _ _
  | received _ _ _ _ => exact ⟨rfl, rfl, List.prefix_append _ _⟩
  | invoked _ _ _ _ _ _ _ _ => exact ⟨rfl, rfl, List.prefix_append _ _⟩
  | called _ _ _ _ _ _ _ _ _ _ => exact ⟨rfl, rfl, List.prefix_append _ _⟩
  | closeLate _ _ _ _ _ _ _ => exact ⟨rfl, rfl, List.prefix_append _ _⟩
  | _ => exact ⟨rfl, rfl, List.prefix_refl _⟩

theorem Fenced.all {s : St V} : Fenced (fun _ => True) s := by
  constructor <;> simp

/--
No final action that waits has missed its cell.
-/
def Settled (s : St V) : Prop :=
  ∀ a c, .closed a c true ∈ s.it.log → (s.it.cells c).hasValueOrError = false

theorem St.Unclosed.not_mem {h : List (Ev V)} {s : St V} (hs : s.Unclosed h) (a : ActionId)
    (c : CellId) (isEmpty : Bool)
    : .closed a c isEmpty ∉ s.it.log := by
  intro hclosed
  rw [← Interaction.mem_history rfl, hs.history] at hclosed
  exact hs.unclosed a c isEmpty hclosed

theorem Settled.of_unclosed {h : List (Ev V)} {s : St V} (hs : s.Unclosed h) : Settled s := by
  intro a c hclosed
  exact absurd hclosed (hs.not_mem a c true)

def Served (s : St V) : Prop :=
  s.sh.responses s.own ≠ [] ∨ ∃ a c isEmpty, .closed a c isEmpty ∈ s.it.log

/--
What holds on from one point of a handler to a later one.
-/
structure Grows (s s' : St V) : Prop where
  own : s'.own = s.own
  stack : s'.stack = s.stack
  cellCount : s.it.cellCount ≤ s'.it.cellCount
  log : s.it.log <+: s'.it.log
  responses : ∀ m, m ≠ s.own → s'.sh.responses m = s.sh.responses m
  pending : ∀ c, SamePending c s.it s'.it

-- no cell is touched
theorem Grows.congr {s s' : St V} (hown : s'.own = s.own) (hstack : s'.stack = s.stack)
    (hit : s'.it = s.it) (hresponses : ∀ m, m ≠ s.own → s'.sh.responses m = s.sh.responses m)
    : Grows s s' := by
  constructor
  case pending =>
    intro c
    rw [hit]
    exact SamePending.refl c s.it
  all_goals simp [hown, hstack, hit]
  exact hresponses

theorem Grows.refl (s : St V) : Grows s s :=
  Grows.congr rfl rfl rfl fun _ _ => rfl

theorem Grows.record (s : St V) {e : Ev V} (he : ∀ c, e.concerns c = false)
    : Grows s (s.record e) :=
  ⟨rfl, rfl, Nat.le_refl _, List.prefix_append _ _, fun _ _ => rfl,
    fun c => SamePending.record (he c)⟩

theorem Grows.trans {s1 s2 s3 : St V} (h : Grows s1 s2) (h' : Grows s2 s3) : Grows s1 s3 := by
  constructor
  . rw [h'.own, h.own]
  . rw [h'.stack, h.stack]
  . exact Nat.le_trans h.cellCount h'.cellCount
  . exact h.log.trans h'.log
  . intro m hm
    rw [h'.responses m (by rw [h.own]; exact hm), h.responses m hm]
  . intro c
    exact (h.pending c).trans (h'.pending c) h'.log

theorem Grows.extends {s s' : St V} (h : Extends s s') (hstack : s'.stack = s.stack)
    (hpending : ∀ c, SamePending c s.it s'.it)
    : Grows s s' where
  own := h.own
  stack := hstack
  cellCount := h.cellCount
  log := h.log
  responses := by
    intro m hm
    cases h.responses m with
    | inl hsame => exact hsame
    | inr hown => exact absurd hown.1 hm
  pending := hpending

-- the responses of an interaction are its own
theorem Grows.response (s : St V) (senderId : ServiceId) (msg : Bytes)
    : Grows s (s.output (.response senderId msg s.own)) := by
  apply Grows.congr
  . rfl
  . rfl
  . rfl
  intro m hm
  simp [St.output, Shared.responses, Out.responseOf, Ne.symm hm]

theorem Grows.of_tells {A : Updatable → Prop} {P : St V → Prop} {s s' : St V} {c : CellId}
    {o : Outcome V} (hempty : (s.it.cells c).hasValueOrError = false)
    (htells : Tells c (s.it.cells c).updatables A P (s.assign c o) s') (hstack : s'.stack = s.stack)
    : Grows s s' where
  own := by
    rw [htells.ext.own]
    cases o <;> rfl
  stack := hstack
  cellCount := by
    apply Nat.le_trans _ htells.ext.cellCount
    cases o <;> exact Nat.le_refl _
  log := by
    apply List.IsPrefix.trans _ htells.ext.log
    cases o <;> exact List.prefix_append _ _
  responses := by
    intro m hm
    have hresponses : (s.assign c o).sh.responses m = s.sh.responses m := by
      cases o <;> rfl
    cases htells.ext.responses m with
    | inl hsame => rw [hsame, hresponses]
    | inr hown =>
      apply absurd _ hm
      rw [hown.1]
      cases o <;> rfl
  pending := SamePending.of_tells (Or.inr hempty) htells

theorem Grows.unregister (s : St V) (c : CellId) (k : RpcSequenceIdT)
    : Grows s (s.unregister c k) where
  own := rfl
  stack := rfl
  cellCount := Nat.le_refl _
  log := List.prefix_refl _
  responses _ _ := rfl
  pending := by
    intro c'
    apply SamePending.same
    . rfl
    . by_cases hcc : c' = c <;> simp [St.unregister, St.setRspHandler, St.setCell, hcc, Cell.view]
    . by_cases hcc : c' = c <;> simp [St.unregister, St.setRspHandler, St.setCell, hcc]
    . exact Nat.le_refl _
    . by_cases hcc : c' = c <;> simp [St.unregister, St.setRspHandler, St.setCell, hcc, Cell.role]

/--
Like `Runs`, for the code of handlers.
-/
def Handles (P : St V → Prop) (E : Fault → St V → Prop) (s : St V) (x : M V α)
    (Q : α → St V → Prop) : Prop :=
  wp x (fun r s' => Sound (fun _ => True) P s' ∧ Grows s s' ∧ Q r s') E s

namespace Handles

variable {cfg : Config V} {P : St V → Prop} {E : Fault → St V → Prop} {s : St V}
variable {Q : β → St V → Prop}

theorem pure {b : β} (h : Sound (fun _ => True) P s) (hQ : Q b s) : Handles P E s (pure b) Q :=
  ⟨h, Grows.refl s, hQ⟩

theorem of_runs {x : M V β} (h : Runs (fun _ => True) P E s x Q)
    : Handles P E s x (fun b s' => Extends s s' ∧ Q b s') := by
  apply wp_mono h
  . rintro b s' ⟨hafter, hstack, hb⟩
    exact ⟨hafter.sound, Grows.extends hafter.ext hstack hafter.pending, hafter.ext, hb⟩
  . intro e s' he
    exact he

theorem bind {x : M V α} {f : α → M V β} {P' : St V → Prop} {Q' : α → St V → Prop}
    (hx : Handles P E s x Q')
    (hf : ∀ a s', Sound (fun _ => True) P s' → Grows s s' → Q' a s' → Handles P' E s' (f a) Q)
    : Handles P' E s (x >>= f) Q := by
  unfold Handles
  rw [wp_bind]
  apply wp_mono hx
  . rintro a s1 ⟨hsound, hgrows, ha⟩
    apply wp_mono (hf a s1 hsound hgrows ha)
    . rintro b s2 ⟨hsound', hgrows', hb⟩
      exact ⟨hsound', hgrows.trans hgrows', hb⟩
    . intro e s' he
      exact he
  . intro e s' he
    exact he

theorem sound (hh : KeepsHandlers cfg P E) {s' : St V} (h : Sound (fun _ => True) P s)
    (heffect : HandlerEffect cfg s s')
    : Sound (fun _ => True) P s' :=
  ⟨h.wellFormed.handlerEffect heffect, Fenced.all, hh.effect s s' h heffect⟩

theorem sound_closing (hh : KeepsClosing cfg P E) {s' : St V} (h : Sound (fun _ => True) P s)
    (heffect : HandlerEffect cfg s s') (hcalls : s'.it.calls = s.it.calls)
    : Sound (fun _ => True) P s' :=
  ⟨h.wellFormed.handlerEffect heffect, Fenced.all, hh.effect s s' h heffect hcalls⟩

theorem alter (hh : KeepsHandlers cfg P E) (h : Sound (fun _ => True) P s) {f : St V → St V}
    (heffect : HandlerEffect cfg s (f s)) (hgrows : Grows s (f s))
    : Handles P E s (alter f) (fun _ s' => s' = f s) :=
  ⟨sound hh h heffect, hgrows, rfl⟩

-- `P` holds from here on
theorem enter {f : St V → St V} (h : Sound (fun _ => True) P (f s)) (hgrows : Grows s (f s))
    : Handles P E s (MsgRpc.alter f) (fun _ s' => s' = f s) :=
  ⟨h, hgrows, rfl⟩

theorem then_alter {f : St V → St V} {x : M V β} (hgrows : Grows s (f s))
    (hx : Handles P E (f s) x Q)
    : Handles P E s (do MsgRpc.alter f; x) Q := by
  unfold Handles
  rw [wp_bind, wp_alter]
  apply wp_mono hx
  . rintro b s' ⟨hsound, hgrows', hb⟩
    exact ⟨hsound, hgrows.trans hgrows', hb⟩
  . intro e s' he
    exact he

end Handles
end MsgRpc
