import MsgRpc.Msg.Lemmas.ResponseTable

/-!
This module contains the way from an event to the interaction whose code it runs. What has to be
shown of this code for the event to lead from one state of the process to another is `Dispatch`.
-/

namespace MsgRpc

open StateProg

namespace Node

-- a process at the start of an event
def start (nd : Node V) : Node V := { nd with released := false }

-- and with the interaction the event starts
def startNew (nd : Node V) : Node V :=
  { nd with its := nd.its ++ [{}], released := false }

end Node

theorem alive_unregister {s : St V} {c : CellId} (halive : (s.it.cells c).alive = true)
    (k : RpcSequenceIdT)
    : ((s.unregister c k).it.cells c).alive = true := by
  simpa [St.unregister, St.setRspHandler, St.setCell] using halive

theorem isEmpty_unregister {s : St V} {c : CellId}
    (hempty : (s.it.cells c).hasValueOrError = false) (k : RpcSequenceIdT)
    : ((s.unregister c k).it.cells c).hasValueOrError = false := by
  simpa [St.unregister, St.setRspHandler, St.setCell, Cell.hasValueOrError, Cell.view] using hempty

theorem WellFormed.unregister {s : St V} (h : WellFormed s) {c : CellId}
    (halive : (s.it.cells c).alive = true) (k : RpcSequenceIdT)
    : WellFormed (s.unregister c k) := by
  apply WellFormed.setRspHandler
  apply h.setCell_same (h.lt_of_alive halive) <;> rfl

theorem NodeInv.beginNew {start : UInt32} {nd : Node V} (h : NodeInv none start nd)
    : NodeInv none start nd.startNew :=
  (h.begin false).newInteraction

/--
Event `e` ends with `Q` or `E`. In between, after a response and before its id is removed, `Q1`
holds.
-/
structure Dispatch (cfg : Config V) (n : Nat) (nd : Node V) (e : Event V) (Q1 Q : Node V → Prop)
    (E : Fault → Node V → Prop) : Prop where
  ignored : Q nd.start
  rejected : ∀ f, E f nd.start
  interaction : ∀ si finalAction, e = .interaction si finalAction
    → wp (startInteraction cfg.env (update cfg.env n) si finalAction)
        (fun _ s => Q (nd.startNew.withSt s)) (fun f s => E f (nd.startNew.withSt s))
        (nd.startNew.st nd.its.length {})
  request : ∀ msg senderId reqHeader payload, e = .msg cfg.requestMsgId msg senderId
    → ReqMsgHeader.ofBytes msg = some ⟨reqHeader, payload⟩
    → wp (onRpcReq cfg n reqHeader payload senderId)
        (fun _ s => Q (nd.startNew.withSt s)) (fun f s => E f (nd.startNew.withSt s))
        (nd.startNew.st nd.its.length {})
  response : ∀ msg senderId rspHeader payload m it c, e = .msg cfg.responseMsgId msg senderId
    → RspMsgHeader.ofBytes msg = some ⟨rspHeader, payload⟩
    → nd.its[m]? = some it → (it.cells c).key = some rspHeader.sequenceId
    → wp (evaluateAllDerivedCells (update cfg.env n) c)
        (fun _ s => Q1 (nd.start.withSt s)) (fun f s => E f (nd.start.withSt s))
        ((nd.start.st m it).assign c (Handles.answer cfg.env (it.cells c).type rspHeader payload))
  responded : ∀ nd1, Q1 nd1 → Q nd1
  unregistered : ∀ nd1 k m it c, NodeInv (some k) start nd1 → Q1 nd1 → nd1.its[m]? = some it
    → (it.cells c).key = some k → Q (nd1.withSt ((nd1.st m it).unregister c k))
  timeout : ∀ msg senderId m it c, e = .msg cfg.timeoutMsgId msg senderId
    → nd.its[m]? = some it → (it.cells c).key = some (TimerInfo.seqId cfg msg)
    → wp (evaluateAllDerivedCells (update cfg.env n) c)
        (fun _ s => Q (nd.start.withSt s)) (fun f s => E f (nd.start.withSt s))
        (((nd.start.st m it).unregister c (TimerInfo.seqId cfg msg)).assign c (.error .timeout))

namespace Dispatch

variable {cfg : Config V} {n : Nat} {nd : Node V} {start : UInt32} {e : Event V}
variable {Q1 Q : Node V → Prop} {E : Fault → Node V → Prop}

theorem onNewInteraction {x : M V α} {Q : Node V → Prop} {E : Fault → Node V → Prop}
    (hx : wp x (fun _ s => Q (nd.startNew.withSt s)) (fun f s => E f (nd.startNew.withSt s))
      (nd.startNew.st nd.its.length {}))
    : wp (do let m ← newInteraction; onInteraction m x) (fun _ nd' => Q nd') E nd.start := by
  have hit : nd.startNew.its[nd.its.length]? = some {} := by
    simp [Node.startNew]
  rw [wp_bind]
  exact wp_onInteraction hit hx

theorem deleteRspHandlerIfExist (hd : Dispatch cfg n nd e Q1 Q E) {nd1 : Node V}
    {k : RpcSequenceIdT} (h1 : NodeInv (some k) start nd1) (hQ1 : Q1 nd1)
    : wp (RspMsgHandler.deleteRspHandlerIfExist k) (fun _ nd' => Q nd') E nd1 := by
  unfold RspMsgHandler.deleteRspHandlerIfExist
  simp only [wp_bind, wp_get]
  split
  . next m c hmapped =>
    obtain ⟨it, hit, hkey⟩ := h1.mapped hmapped
    have halive := (Cell.key_eq_some.mp hkey).1
    apply wp_onInteraction hit
    unfold resetSequentialId RspMsgHandler.removeRspHandler
    simp only [wp_bind, wp_cellAt, wp_alter]
    refine ⟨?_, ?_⟩
    . intro _
      exact hd.unregistered nd1 k m it c h1 hQ1 hit hkey
    . intro hdead
      simp [Node.st, halive] at hdead
  . exact hd.responded nd1 hQ1

theorem handleRpcRsp (hd : Dispatch cfg n nd e Q1 Q E) (h : NodeInv none start nd) {msg : Bytes}
    {senderId : ServiceId} (he : e = .msg cfg.responseMsgId msg senderId)
    : wp (RspMsgHandler.handleRpcRsp cfg n msg) (fun _ nd' => Q nd') E nd.start := by
  unfold RspMsgHandler.handleRpcRsp
  split
  . exact hd.ignored
  . next rspHeader payload hheader =>
    simp only [wp_bind, wp_get]
    split
    . next m c hmapped =>
      have hopen := (h.begin false).open rspHeader.sequenceId
      obtain ⟨it, hit, hkey⟩ := (h.begin false).mapped hmapped
      have halive := (Cell.key_eq_some.mp hkey).1
      rw [wp_bind]
      by_cases hmsg : rspHeader.rpcResult ≠ .succeeded ∨ 0 < payload.length
      . have htable : wp
            (onInteraction m (setRpcRsp cfg.env (update cfg.env n) c rspHeader payload))
            (fun _ nd' => NodeInv (some rspHeader.sequenceId) start nd') (EndsSane True) nd.start :=
          hopen.onInteraction hit (setRpcRsp_table (hopen.sound hit) hkey
            ((h.begin false).isEmpty hit hkey) hmsg)
        have hset : wp
            (onInteraction m (setRpcRsp cfg.env (update cfg.env n) c rspHeader payload))
            (fun _ nd' => Q1 nd') E nd.start := by
          apply wp_onInteraction hit
          apply Handles.wp_setRpcRsp halive
          . intro hsucceeded hempty
            simp [hsucceeded, hempty] at hmsg
          . exact hd.response msg senderId rspHeader payload m it c he hheader hit hkey
        apply wp_mono (wp_and htable hset)
        . rintro _ nd1 ⟨h1, hQ1⟩
          exact hd.deleteRspHandlerIfExist h1 hQ1
        . rintro f nd1 ⟨_, hf⟩
          exact hf
      . simp only [ne_eq, not_or, not_not, Nat.not_lt, Nat.le_zero, List.length_eq_zero_iff] at hmsg
        rw [hmsg.2]
        have hsame : nd.start.withSt (nd.start.st m it) = nd.start := by
          obtain ⟨hlt, hget⟩ := List.getElem?_eq_some_iff.mp hit
          have hset : nd.its.set m it = nd.its := by
            rw [← hget]
            exact List.set_getElem_self hlt
          simp [Node.withSt, Node.st, Node.start, hset]
        have hrejected : ∀ f, E f (nd.start.withSt (nd.start.st m it)) := by
          intro f
          rw [hsame]
          exact hd.rejected f
        apply wp_onInteraction hit
        exact wp_setRpcRsp_payload hmsg.1 (hrejected _) (hrejected _)
    . exact hd.ignored

theorem onRspHandlerTimeout (hd : Dispatch cfg n nd e Q1 Q E) (h : NodeInv none start nd)
    {msg : Bytes} {senderId : ServiceId} (he : e = .msg cfg.timeoutMsgId msg senderId)
    : wp (RspMsgHandler.onRspHandlerTimeout cfg n (TimerInfo.seqId cfg msg)) (fun _ nd' => Q nd') E
        nd.start := by
  unfold RspMsgHandler.onRspHandlerTimeout
  simp only [wp_bind, wp_get]
  split
  . next m c hmapped =>
    obtain ⟨it, hit, hkey⟩ := (h.begin false).mapped hmapped
    have halive := (Cell.key_eq_some.mp hkey).1
    apply wp_onInteraction hit
    unfold resetSequentialId RspMsgHandler.removeRspHandler setTimeout setFailedReason
    simp only [wp_bind, wp_cellAt, wp_alter]
    refine ⟨?_, ?_⟩
    . intro _
      refine ⟨?_, ?_⟩
      . intro _
        exact hd.timeout msg senderId m it c he hit hkey
      . simp [St.setRspHandler, St.setCell, Node.st, halive]
    . simp [Node.st, halive]
  . exact hd.ignored

theorem handleEvent (hd : Dispatch cfg n nd e Q1 Q E) (h : NodeInv none start nd)
    : wp (handleEvent cfg n e) (fun _ nd' => Q nd') E nd := by
  unfold MsgRpc.handleEvent
  rw [wp_bind, wp_modify]
  change wp _ _ _ nd.start
  cases e with
  | interaction si finalAction => exact onNewInteraction (hd.interaction si finalAction rfl)
  | msg msgId msg senderId =>
    simp only [wp_bind]
    unfold handleMsg
    split
    . next hreq =>
      rw [wp_bind]
      unfold onRpcReqMsg
      split
      . exact hd.ignored
      . next reqHeader payload hheader =>
        rw [hreq] at hd
        exact onNewInteraction (hd.request msg senderId reqHeader payload rfl hheader)
    . split
      . next hrsp =>
        rw [wp_bind]
        exact hd.handleRpcRsp h (by rw [hrsp])
      . split
        . next htimeout =>
          rw [wp_bind]
          unfold onTimeout
          split
          . exact hd.onRspHandlerTimeout h (by rw [htimeout])
          . exact hd.rejected _
        . split <;> exact hd.ignored

theorem handleEvent_request {bytes msg : Bytes} {senderId : ServiceId} {reqHeader : ReqMsgHeader}
    {Q : Node V → Prop} (hbytes : ReqMsgHeader.ofBytes bytes = some ⟨reqHeader, msg⟩)
    (hx : wp (onRpcReq cfg n reqHeader msg senderId) (fun _ s => Q (nd.startNew.withSt s))
      (fun f s => E f (nd.startNew.withSt s)) (nd.startNew.st nd.its.length {}))
    : wp (MsgRpc.handleEvent cfg n (.msg cfg.requestMsgId bytes senderId)) (fun _ nd' => Q nd') E
        nd := by
  unfold MsgRpc.handleEvent
  rw [wp_bind, wp_modify]
  change wp _ _ _ nd.start
  simp only [wp_bind]
  unfold handleMsg
  rw [if_pos rfl, wp_bind]
  unfold onRpcReqMsg
  rw [hbytes]
  exact onNewInteraction hx

/--
`N` holds of the process as long as `I` holds of the interaction that runs. The code is left to the
rules for interactions, what is to be shown is how it is entered and left.
-/
theorem of_keeps {N : Node V → Prop} {I : Node V → Nat → St V → Prop}
    (hk : ∀ nd1 m, Keeps cfg.env (fun _ => True) (I nd1 m) (fun _ _ => True))
    (hr : ∀ nd1 m, KeepsRelease cfg.env (fun _ => True) (I nd1 m) (fun _ => I nd1 m))
    (hh : ∀ nd1 m, KeepsHandlers cfg (I nd1 m) (fun _ _ => True))
    (h : NodeInv none start nd) (hbegin : N nd.start) (hbeginNew : N nd.startNew)
    (hin : ∀ nd1 (m : Nat) it, N nd1 → nd1.its[m]? = some it → I nd1 m (nd1.st m it))
    (hout : ∀ nd1 (m : Nat) it s, N nd1 → nd1.its[m]? = some it → s.own = m → I nd1 m s
      → N (nd1.withSt s))
    (hunregister : ∀ nd1 m s c k, I nd1 m s → (s.it.cells c).key = some k
      → I nd1 m (s.unregister c k))
    (hanswer : ∀ msg senderId rspHeader payload (m : Nat) it c,
      e = .msg cfg.responseMsgId msg senderId
      → RspMsgHeader.ofBytes msg = some ⟨rspHeader, payload⟩ → nd.its[m]? = some it
      → (it.cells c).key = some rspHeader.sequenceId → (it.cells c).hasValueOrError = false
      → I nd.start m (nd.start.st m it)
      → I nd.start m ((nd.start.st m it).assign c
          (Handles.answer cfg.env (it.cells c).type rspHeader payload)))
    (htimeout : ∀ m (s : St V) c, (s.it.cells c).hasValueOrError = false
      → I nd.start m s → I nd.start m (s.assign c (.error .timeout)))
    : Dispatch cfg n nd e N N (fun _ _ => True) := by
  have hupd : ∀ nd1 m, Updates (fun _ => True) (I nd1 m) (fun _ => I nd1 m) (fun _ _ => True)
      (update cfg.env n) := by
    intro nd1 m
    apply (hk nd1 m).update (hk nd1 m).returns
    apply (hr nd1 m).keepsFinal (hk nd1 m)
    intros
    trivial
  have hleave : ∀ {nd1 : Node V} {m : Nat} {it : Interaction V} (s0 : St V) {s1 : St V}
      {x : M V Unit} {Q : Unit → St V → Prop}, N nd1 → nd1.its[m]? = some it → s0.own = m
      → wp x (fun r s => Sound (fun _ => True) (I nd1 m) s ∧ Grows s0 s ∧ Q r s)
        (fun _ _ => True) s1
      → wp x (fun _ s => N (nd1.withSt s)) (fun _ _ => True) s1 := by
    intro nd1 m it s0 s1 x Q hN hit hown hx
    apply wp_mono hx
    . rintro _ s ⟨hsound, hgrows, _⟩
      exact hout nd1 m it s hN hit (hgrows.own.trans hown) hsound.inv
    . intros
      trivial
  have hnew : nd.startNew.its[nd.its.length]? = some {} := by simp [Node.startNew]
  have hsound : Sound (fun _ => True) (I nd.startNew nd.its.length)
      (nd.startNew.st nd.its.length {}) :=
    ⟨h.beginNew.wellFormed _ _ hnew, Fenced.all, hin _ _ _ hbeginNew hnew⟩
  have hunowned : (nd.startNew.st nd.its.length {}).Unowned := unowned_new _ _
  have hunclosed : (nd.startNew.st nd.its.length {}).Unclosed [] :=
    unclosed_new (h.responses _ (Nat.le_refl _))
  constructor
  . exact hbegin
  . intros
    trivial
  . intro si finalAction _
    apply hleave (nd.startNew.st nd.its.length {}) hbeginNew hnew rfl
    exact Handles.startInteraction (hh _ _) (hk _ _) (hupd _ _) hsound hunowned hunclosed si
      finalAction
  . intro msg senderId reqHeader payload _ _
    apply hleave (nd.startNew.st nd.its.length {}) hbeginNew hnew rfl
    exact Handles.onRpcReq (hh _ _) (hk _ _) (hupd _ _) (fun _ _ _ _ _ => trivial) hsound hunowned
      hunclosed reqHeader payload senderId
  . intro msg senderId rspHeader payload m it c he hheader hit hkey
    have hempty := (h.begin false).isEmpty hit hkey
    have hI := hin nd.start m it hbegin hit
    have hs : Sound (fun _ => True) (I nd.start m) (nd.start.st m it) :=
      ⟨(h.begin false).wellFormed m it hit, Fenced.all, hI⟩
    have hset := hanswer msg senderId rspHeader payload m it c he hheader hit hkey hempty hI
    exact hleave (nd.start.st m it) hbegin hit rfl
      (Handles.notify (hk _ _) (hupd _ _) hs (Cell.key_eq_some.mp hkey).1 hempty hset)
  . exact fun _ hN => hN
  . intro _ nd1 k m it c h1 hN1 hit hkey
    exact hout nd1 m it _ hN1 hit rfl (hunregister nd1 m _ c k (hin nd1 m it hN1 hit) hkey)
  . intro msg senderId m it c _ hit hkey
    have halive := (Cell.key_eq_some.mp hkey).1
    have hempty := isEmpty_unregister (s := nd.start.st m it) ((h.begin false).isEmpty hit hkey)
      (TimerInfo.seqId cfg msg)
    have hI := hunregister nd.start m _ c _ (hin nd.start m it hbegin hit) hkey
    have hwf : WellFormed (nd.start.st m it) := (h.begin false).wellFormed m it hit
    exact hleave ((nd.start.st m it).unregister c _) hbegin hit rfl
      (Handles.notify (hk _ _) (hupd _ _) ⟨hwf.unregister halive _, Fenced.all, hI⟩
        (alive_unregister (s := nd.start.st m it) halive _) hempty (htimeout m _ c hempty hI))

theorem runEvents_of {N : Node V → Prop} {es : List (Event V)}
    (hstep : ∀ nd, ∀ e ∈ es, NodeInv none start nd → N nd → Dispatch cfg n nd e N N E)
    (h : NodeInv none start nd) (hN : N nd)
    : wp (MsgRpc.runEvents cfg n es) (fun _ nd' => NodeInv none start nd' ∧ N nd') E nd := by
  induction es generalizing nd with
  | nil => exact ⟨h, hN⟩
  | cons e es ih =>
    unfold MsgRpc.runEvents
    rw [wp_bind]
    have hevent := (hstep nd e List.mem_cons_self h hN).handleEvent h
    apply wp_mono (wp_and (handleEvent_table h e) hevent)
    . rintro _ nd' ⟨h', hN'⟩
      exact ih (fun nd1 e1 he1 => hstep nd1 e1 (List.mem_cons_of_mem _ he1)) h' hN'
    . rintro f nd' ⟨_, hf⟩
      exact hf

theorem runEvents {N : Node V → Prop}
    (hstep : ∀ nd e, NodeInv none start nd → N nd → Dispatch cfg n nd e N N E)
    (h : NodeInv none start nd) (hN : N nd) (es : List (Event V))
    : wp (MsgRpc.runEvents cfg n es) (fun _ nd' => NodeInv none start nd' ∧ N nd') E nd :=
  runEvents_of (fun nd e _ => hstep nd e) h hN

end Dispatch
end MsgRpc
