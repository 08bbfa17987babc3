import MsgRpc.Msg.ResponseTable

/-!
This module contains the proof that the response table is right in every state between two
messages, in whatever order messages come in.
-/

namespace MsgRpc

open StateProg

namespace Node

def cells (nd : Node V) (o : Nat × CellId) : Cell V :=
  match nd.its[o.1]? with
  | some it => it.cells o.2
  | none => .unallocated

end Node

/--
The invariant of a process while no interaction runs.
-/
structure NodeInv (hole : Option RpcSequenceIdT) (start : UInt32) (nd : Node V) : Prop where
  table : Table hole start nd.cells nd.sh
  wellFormed : ∀ m it, nd.its[m]? = some it → WellFormed (nd.st m it)
  responses : ∀ m, nd.its.length ≤ m → nd.sh.responses m = []

theorem unowned_new (nd : Node V) (m : Nat) : (nd.st m {}).Unowned := by
  simp [St.Unowned, Node.st, Cell.unallocated]

theorem unclosed_new {nd : Node V} {m : Nat} (h : nd.sh.responses m = [])
    : (nd.st m {}).Unclosed [] := by
  constructor <;> simp [Node.st, Action.unallocated, Interaction.history, h]

section OnInteraction

variable {nd : Node V} {m : Nat} {it : Interaction V}

theorem wp_onInteraction {x : M V α} {Q : α → Node V → Prop} {E : Fault → Node V → Prop}
    (hit : nd.its[m]? = some it)
    (hx : wp x (fun a s => Q a (nd.withSt s)) (fun e s => E e (nd.withSt s)) (nd.st m it))
    : wp (onInteraction m x) Q E nd := by
  unfold wp onInteraction at *
  rw [hit]
  dsimp only
  cases hres : x (nd.st m it) with
  | ok a s => simpa [hres] using hx
  | error e s => simpa [hres] using hx

-- the cells of the other interactions, the argument of `world`
def Node.others (nd : Node V) (m : Nat) (c : CellId) : Cell V := nd.cells (m, c)

theorem Node.getElem?_withSt (hit : nd.its[m]? = some it) {s : St V} (hown : s.own = m) (m' : Nat)
    : (nd.withSt s).its[m']? = if m' = m then some s.it else nd.its[m']? := by
  have hlt : m < nd.its.length := (List.getElem?_eq_some_iff.mp hit).1
  unfold Node.withSt
  rw [hown]
  by_cases heq : m' = m
  . simp [heq, hlt]
  . simp [heq, Ne.symm heq]

theorem Node.cells_withSt (hit : nd.its[m]? = some it) {s : St V} (hown : s.own = m)
    : (nd.withSt s).cells = world nd.others s := by
  funext o
  unfold Node.cells world Node.others Node.cells
  rw [Node.getElem?_withSt hit hown, hown]
  by_cases heq : o.1 = m
  . simp [heq]
  . simp [heq]

theorem world_st (hit : nd.its[m]? = some it) : world nd.others (nd.st m it) = nd.cells := by
  funext o
  unfold world Node.st Node.others Node.cells
  by_cases heq : o.1 = m
  . simp [heq, hit]
  . simp [heq]

variable {hole : Option RpcSequenceIdT} {start : UInt32}

theorem NodeInv.sound (h : NodeInv hole start nd) (hit : nd.its[m]? = some it)
    : Sound (fun _ => True) (TableIn nd.others hole start) (nd.st m it) where
  wellFormed := h.wellFormed m it hit
  fenced := Fenced.all
  inv := by
    unfold TableIn
    rw [world_st hit]
    exact h.table

theorem NodeInv.withSt {hole' : Option RpcSequenceIdT} (h : NodeInv hole start nd)
    (hit : nd.its[m]? = some it) {s : St V} (hgrows : Grows (nd.st m it) s) (hwf : WellFormed s)
    (htable : TableIn nd.others hole' start s)
    : NodeInv hole' start (nd.withSt s) where
  table := by
    rw [Node.cells_withSt hit hgrows.own]
    exact htable
  wellFormed := by
    intro m' it' hit'
    rw [Node.getElem?_withSt hit hgrows.own] at hit'
    split at hit'
    . simp only [Option.some.injEq] at hit'
      subst hit'
      apply hwf.congr <;> simp [Node.st]
    . apply (h.wellFormed m' it' hit').congr <;> simp [Node.st]
  responses := by
    intro m' hm'
    have hlt := (List.getElem?_eq_some_iff.mp hit).1
    have hlen : nd.its.length ≤ m' := by
      simpa [Node.withSt] using hm'
    have hne : m' ≠ (nd.st m it).own := by
      simp only [Node.st]
      omega
    have hsame := hgrows.responses m' hne
    rw [← h.responses m' hlen]
    exact hsame

-- there is no cell in a new interaction
theorem Node.cells_newInteraction (nd : Node V)
    : Node.cells { nd with its := nd.its ++ [{}] } = nd.cells := by
  funext o
  unfold Node.cells
  dsimp only
  rw [List.getElem?_append]
  by_cases hlt : o.1 < nd.its.length
  . simp [hlt]
  . by_cases heq : o.1 = nd.its.length
    . simp [heq]
    . have hne : o.1 - nd.its.length ≠ 0 := by omega
      obtain ⟨i, hi⟩ := Nat.exists_eq_succ_of_ne_zero hne
      simp [hlt, hi]

theorem NodeInv.newInteraction (h : NodeInv hole start nd)
    : NodeInv hole start { nd with its := nd.its ++ [{}] } where
  table := by
    rw [Node.cells_newInteraction]
    exact h.table
  wellFormed := by
    intro m it hit
    rw [List.getElem?_append] at hit
    split at hit
    . apply (h.wellFormed m it hit).congr <;> simp [Node.st]
    . have heq : it = {} := by
        have := List.mem_of_getElem? hit
        simpa using this
      subst heq
      constructor <;> simp [Node.st, Cell.unallocated, Action.unallocated, Bind.target,
        CellKind.hook, Bind.isReply]
  responses := by
    intro m hm
    simp only [List.length_append] at hm
    exact h.responses m (by omega)

end OnInteraction

/--
The two messages the handlers assert not to come in: a successful response without payload to a
pending rpc, and a timeout message that is not as long as a `timer_info`.
-/
def Malformed (cfg : Config V) (nd : Node V) (e : Event V) : Prop :=
  match e with
  | .interaction _ _ => False
  | .msg msgId msg _ =>
    msgId ≠ cfg.requestMsgId
      ∧ if msgId = cfg.responseMsgId then
          ∃ rspHeader, RspMsgHeader.ofBytes msg = some ⟨rspHeader, []⟩
            ∧ rspHeader.rpcResult = .succeeded
            ∧ nd.sh.idFuncMap rspHeader.sequenceId ≠ none
        else
          msgId = cfg.timeoutMsgId ∧ msg.length ≠ TimerInfo.size cfg

-- how the handling of a message that is `bad` or not may end early
def EndsSane (bad : Prop) (e : Fault) (nd : Node V) : Prop :=
  (e = .assertion .payload ∨ e = .assertion .timerInfo → bad)
    ∧ (e = .assertion .uniqueSeqId → 4294967295 ≤ nd.sh.issued.length)

section Handlers

variable {cfg : Config V} {n : Nat} {nd : Node V} {start : UInt32} {bad : Prop}

theorem EndsSane.of_sane {e : Fault} {s : St V} (h : TableIn.Sane e s)
    : EndsSane bad e (nd.withSt s) := by
  refine ⟨?_, h.2.2⟩
  intro heq
  cases heq with
  | inl heq => exact absurd heq h.1
  | inr heq => exact absurd heq h.2.1

theorem NodeInv.onInteraction {hole hole' : Option RpcSequenceIdT} {m : Nat} {it : Interaction V}
    (h : NodeInv hole start nd) (hit : nd.its[m]? = some it) {x : M V α} {Q : α → St V → Prop}
    (hx : Handles (TableIn nd.others hole' start) TableIn.Sane (nd.st m it) x Q)
    : wp (onInteraction m x) (fun _ nd' => NodeInv hole' start nd') (EndsSane bad) nd := by
  apply wp_onInteraction hit
  apply wp_mono hx
  . rintro a s ⟨hsound, hgrows, _⟩
    exact h.withSt hit hgrows hsound.wellFormed hsound.inv
  . intro e s he
    exact EndsSane.of_sane he

theorem NodeInv.onNewInteraction (h : NodeInv none start nd) {x : M V α} {Q : α → St V → Prop}
    (hx : ∀ others s, Sound (fun _ => True) (TableIn others none start) s → s.Unowned
      → s.Unclosed [] → Handles (TableIn others none start) TableIn.Sane s x Q)
    : wp (do let m ← MsgRpc.newInteraction; MsgRpc.onInteraction m x)
        (fun _ nd' => NodeInv none start nd') (EndsSane bad) nd := by
  have hnew := h.newInteraction
  have hit : ({ nd with its := nd.its ++ [{}] } : Node V).its[nd.its.length]? = some {} := by
    simp
  rw [wp_bind]
  exact hnew.onInteraction hit (hx _ _ (hnew.sound hit) (unowned_new _ _)
    (unclosed_new (h.responses _ (Nat.le_refl _))))

theorem onRpcReqMsg_table (h : NodeInv none start nd) (msg : Bytes) (senderId : ServiceId)
    : wp (onRpcReqMsg cfg n msg senderId) (fun _ nd' => NodeInv none start nd') (EndsSane bad)
        nd := by
  unfold onRpcReqMsg
  split
  . exact h
  . next reqHeader msg _ =>
    apply h.onNewInteraction
    intro others s hs hunowned hunclosed
    exact Handles.onRpcReq (TableIn.keepsHandlers _ _ _ _) (TableIn.keeps _ _ _ _ _)
      (TableIn.updates _ _ _ _ _ _) (fun _ _ _ _ hd => TableIn.sane_of_doubleFree hd) hs hunowned
      hunclosed reqHeader msg senderId

theorem startInteraction_table (h : NodeInv none start nd) (si : Prog V)
    (finalAction : Option (CellId → Prog V))
    : wp
        (do
          let m ← newInteraction
          onInteraction m (startInteraction cfg.env (update cfg.env n) si finalAction))
        (fun _ nd' => NodeInv none start nd') (EndsSane bad) nd := by
  apply h.onNewInteraction
  intro others s hs hunowned hunclosed
  exact Handles.startInteraction (TableIn.keepsHandlers _ _ _ _) (TableIn.keeps _ _ _ _ _)
    (TableIn.updates _ _ _ _ _ _) hs hunowned hunclosed si finalAction

theorem NodeInv.mapped {hole : Option RpcSequenceIdT} (h : NodeInv hole start nd)
    {k : RpcSequenceIdT} {m : Nat} {c : CellId} (hk : nd.sh.idFuncMap k = some ⟨m, c⟩)
    : ∃ it, nd.its[m]? = some it ∧ (it.cells c).key = some k := by
  have hkey := (h.table.agrees k ⟨m, c⟩).mp hk
  unfold Node.cells at hkey
  dsimp only at hkey
  cases hit : nd.its[m]? with
  | some it =>
    rw [hit] at hkey
    exact ⟨it, rfl, hkey⟩
  | none =>
    rw [hit] at hkey
    simp [Cell.key, Cell.unallocated] at hkey

theorem NodeInv.isEmpty (h : NodeInv none start nd) {m : Nat} {it : Interaction V}
    (hit : nd.its[m]? = some it) {c : CellId} {k : RpcSequenceIdT}
    (hkey : (it.cells c).key = some k)
    : (it.cells c).hasValueOrError = false := by
  have hempty := h.table.isEmpty ⟨m, c⟩ k
  simp only [Node.cells, hit] at hempty
  exact hempty hkey (by simp)

-- no cell is registered under the id that is being resolved any more
theorem NodeInv.close {k : RpcSequenceIdT} (h : NodeInv (some k) start nd)
    (hnone : nd.sh.idFuncMap k = none)
    : NodeInv none start nd where
  table := by
    constructor
    . exact h.table.agrees
    . exact h.table.role
    . intro o k' hk' _
      apply h.table.isEmpty o k' hk'
      intro heq
      simp only [Option.some.injEq] at heq
      have := (h.table.agrees k' o).mpr hk'
      rw [← heq, hnone] at this
      simp at this
    . exact h.table.issued
    . exact h.table.ids
  wellFormed := h.wellFormed
  responses := h.responses

theorem NodeInv.open (h : NodeInv none start nd) (k : RpcSequenceIdT)
    : NodeInv (some k) start nd where
  table := by
    constructor
    . exact h.table.agrees
    . exact h.table.role
    . intro o k' hk' _
      exact h.table.isEmpty o k' hk' (by simp)
    . exact h.table.issued
    . exact h.table.ids
  wellFormed := h.wellFormed
  responses := h.responses

-- `reset_sequential_id` and the removal of the entry, the two steps that end the life of an id
theorem unregister_table {hole : Option RpcSequenceIdT} {others : Nat → CellId → Cell V} {s : St V}
    {c : CellId} {k : RpcSequenceIdT} (h : Sound (fun _ => True) (TableIn others hole start) s)
    (hk : (s.it.cells c).key = some k) {x : M V α} {Q : α → St V → Prop}
    (hx : ∀ s', Sound (fun _ => True) (TableIn others hole start) s'
      → ((s.it.cells c).hasValueOrError = false → (s'.it.cells c).hasValueOrError = false)
      → (s'.it.cells c).key = none → s'.sh.idFuncMap k = none
      → Handles (TableIn others hole start) TableIn.Sane s' x Q)
    : Handles (TableIn others hole start) TableIn.Sane s
        (do resetSequentialId c; RspMsgHandler.removeRspHandler k; x) Q := by
  have halive := (Cell.key_eq_some.mp hk).1
  have hcell : ({ s.it.cells c with hasSeqId := false } : Cell V).key = none := by
    simp [Cell.key]
  have htable : TableIn others hole start
      ((s.setCell c { s.it.cells c with hasSeqId := false }).setRspHandler k none) :=
    h.inv.setRspHandler_none hk hcell
  have hset : WellFormed (s.setCell c { s.it.cells c with hasSeqId := false }) := by
    have hlt := h.wellFormed.lt_of_alive halive
    apply h.wellFormed.setCell_same hlt <;> rfl
  have hwf := hset.setRspHandler k none
  have hgrows : Grows s
      ((s.setCell c { s.it.cells c with hasSeqId := false }).setRspHandler k none) :=
    Grows.unregister s c k
  have hrest := hx _ ⟨hwf, Fenced.all, htable⟩
    (by simp [St.setCell, St.setRspHandler, Cell.hasValueOrError, Cell.view])
    (by simp [St.setCell, St.setRspHandler, Cell.key]) (by simp [St.setRspHandler])
  unfold Handles resetSequentialId RspMsgHandler.removeRspHandler
  simp only [wp_bind, wp_cellAt, wp_alter]
  refine ⟨?_, ?_⟩
  . intro _
    apply wp_mono hrest
    . rintro a s' ⟨hsound, hgrows', ha⟩
      exact ⟨hsound, hgrows.trans hgrows', ha⟩
    . intro e s' he
      exact he
  . intro hdead
    simp [halive] at hdead

theorem deleteRspHandlerIfExist_table {k : RpcSequenceIdT} (h : NodeInv (some k) start nd)
    : wp (RspMsgHandler.deleteRspHandlerIfExist k) (fun _ nd' => NodeInv none start nd')
        (EndsSane bad) nd := by
  unfold RspMsgHandler.deleteRspHandlerIfExist
  simp only [wp_bind, wp_get]
  split
  . next m c hmapped =>
    obtain ⟨it, hit, hkey⟩ := h.mapped hmapped
    have hrun : Handles (TableIn nd.others (some k) start) TableIn.Sane (nd.st m it)
        (do resetSequentialId c; RspMsgHandler.removeRspHandler k)
        (fun _ s' => s'.sh.idFuncMap k = none) := by
      have := unregister_table (x := pure ()) (Q := fun _ s' => s'.sh.idFuncMap k = none)
        (h.sound hit) hkey (fun s' hs' _ _ hnone => Handles.pure hs' hnone)
      simpa using this
    apply wp_onInteraction hit
    apply wp_mono hrun
    . rintro _ s ⟨hsound, hgrows, hnone⟩
      exact (h.withSt hit hgrows hsound.wellFormed hsound.inv).close hnone
    . intro e s he
      exact EndsSane.of_sane he
  . next hnone => exact h.close hnone

theorem setRpcRsp_table {others : Nat → CellId → Cell V} {s : St V} {c : CellId}
    {rspHeader : RspMsgHeader} {msg : Bytes}
    (h : Sound (fun _ => True) (TableIn others (some rspHeader.sequenceId) start) s)
    (hk : (s.it.cells c).key = some rspHeader.sequenceId)
    (hempty : (s.it.cells c).hasValueOrError = false)
    (hmsg : rspHeader.rpcResult ≠ .succeeded ∨ 0 < msg.length)
    : Handles (TableIn others (some rspHeader.sequenceId) start) TableIn.Sane s
        (setRpcRsp cfg.env (update cfg.env n) c rspHeader msg) (fun _ _ => True) := by
  have halive := (Cell.key_eq_some.mp hk).1
  apply Handles.wp_setRpcRsp halive
  . intro hsucceeded hempty
    simp [hsucceeded, hempty] at hmsg
  . exact Handles.notify (TableIn.keeps cfg.env _ _ _ _) (TableIn.updates _ _ _ _ _ _) h halive
      hempty (h.inv.resolve _ hk)

-- the message that fails the assertion reaches it before it changes anything
theorem wp_setRpcRsp_payload {s : St V} {c : CellId} {rspHeader : RspMsgHeader}
    {Q : Unit → St V → Prop} {E : Fault → St V → Prop}
    (hresult : rspHeader.rpcResult = .succeeded) (hdead : E .useAfterFree s)
    (hpayload : E (.assertion .payload) s)
    : wp (setRpcRsp cfg.env (update cfg.env n) c rspHeader []) Q E s := by
  unfold setRpcRsp
  simp only [wp_bind, wp_cellAt]
  refine ⟨?_, ?_⟩
  . intro _
    simp [hresult, hpayload]
  . intro _
    exact hdead

theorem handleRpcRsp_table (h : NodeInv none start nd) (msg : Bytes)
    (hbad : ∀ rspHeader, RspMsgHeader.ofBytes msg = some ⟨rspHeader, []⟩
      → rspHeader.rpcResult = .succeeded → nd.sh.idFuncMap rspHeader.sequenceId ≠ none → bad)
    : wp (RspMsgHandler.handleRpcRsp cfg n msg) (fun _ nd' => NodeInv none start nd')
        (EndsSane bad) nd := by
  unfold RspMsgHandler.handleRpcRsp
  split
  . exact h
  . next rspHeader payload hheader =>
    simp only [wp_bind, wp_get]
    split
    . next m c hmapped =>
      have hopen := h.open rspHeader.sequenceId
      obtain ⟨it, hit, hkey⟩ := h.mapped hmapped
      rw [wp_bind]
      by_cases hmsg : rspHeader.rpcResult ≠ .succeeded ∨ 0 < payload.length
      . apply wp_mono (hopen.onInteraction hit (setRpcRsp_table (hopen.sound hit) hkey
          (h.isEmpty hit hkey) hmsg))
        . intro _ nd' hnd'
          exact deleteRspHandlerIfExist_table hnd'
        . intro e nd' he
          exact he
      . simp only [ne_eq, not_or, not_not, Nat.not_lt, Nat.le_zero, List.length_eq_zero_iff] at hmsg
        rw [hmsg.2] at hheader ⊢
        have hbad' := hbad rspHeader hheader hmsg.1 (by simp [hmapped])
        apply wp_onInteraction hit
        apply wp_setRpcRsp_payload hmsg.1
        . simp [EndsSane]
        . simp [EndsSane, hbad']
    . exact h

theorem onRspHandlerTimeout_table (h : NodeInv none start nd) (sequenceId : RpcSequenceIdT)
    : wp (RspMsgHandler.onRspHandlerTimeout cfg n sequenceId) (fun _ nd' => NodeInv none start nd')
        (EndsSane bad) nd := by
  unfold RspMsgHandler.onRspHandlerTimeout
  simp only [wp_bind, wp_get]
  split
  . next m c hmapped =>
    obtain ⟨it, hit, hkey⟩ := h.mapped hmapped
    apply h.onInteraction hit
    apply unregister_table (h.sound hit) hkey
    intro s' hs' hempty hnone _
    exact Handles.resolve (TableIn.keeps cfg.env _ _ _ _) (TableIn.updates _ _ _ _ _ _) hs'
      (hempty (h.isEmpty hit hkey)) (hs'.inv.assign (.error .timeout) hnone)
  . exact h

theorem onTimeout_table (h : NodeInv none start nd) (msg : Bytes)
    (hbad : msg.length ≠ TimerInfo.size cfg → bad)
    : wp (onTimeout cfg n msg) (fun _ nd' => NodeInv none start nd') (EndsSane bad) nd := by
  unfold onTimeout
  split
  . exact onRspHandlerTimeout_table h _
  . next hsize => simp [EndsSane, hbad hsize]

theorem NodeInv.begin (h : NodeInv none start nd) (released : Bool)
    : NodeInv none start { nd with released } where
  table := h.table
  wellFormed := by
    intro m it hit
    apply (h.wellFormed m it hit).congr <;> simp [Node.st]
  responses := h.responses

theorem handleEvent_table (h : NodeInv none start nd) (e : Event V)
    : wp (handleEvent cfg n e) (fun _ nd' => NodeInv none start nd')
        (EndsSane (Malformed cfg nd e)) nd := by
  have hbegin := h.begin false
  unfold handleEvent
  rw [wp_bind, wp_modify]
  cases e with
  | interaction si finalAction => exact startInteraction_table hbegin si finalAction
  | msg msgId msg senderId =>
    simp only [wp_bind]
    unfold handleMsg
    split
    . rw [wp_bind]
      exact onRpcReqMsg_table hbegin msg senderId
    . next hreq =>
      split
      . next hrsp =>
        rw [wp_bind]
        apply handleRpcRsp_table hbegin msg
        intro rspHeader hheader hresult hmapped
        refine ⟨hreq, ?_⟩
        rw [if_pos hrsp]
        exact ⟨rspHeader, hheader, hresult, hmapped⟩
      . next hrsp =>
        split
        . next htimeout =>
          rw [wp_bind]
          apply onTimeout_table hbegin msg
          intro hsize
          refine ⟨hreq, ?_⟩
          rw [if_neg hrsp]
          exact ⟨htimeout, hsize⟩
        . split
          . exact hbegin
          . exact hbegin

theorem handleEvent_timerInfo {msgId : MsgIdT} {msg : Bytes} (hreq : msgId ≠ cfg.requestMsgId)
    (hrsp : msgId ≠ cfg.responseMsgId) (htimeout : msgId = cfg.timeoutMsgId)
    (hsize : msg.length ≠ TimerInfo.size cfg) (senderId : ServiceId)
    : wp (handleEvent cfg n (.msg msgId msg senderId)) (fun _ _ => False)
        (fun e _ => e = .assertion .timerInfo) nd := by
  unfold handleEvent handleMsg onTimeout
  simp only [wp_bind, wp_modify, if_neg hreq, if_neg hrsp, if_pos htimeout, if_neg hsize]
  exact rfl

end Handlers

theorem NodeInv.init (start : UInt32) (net : Nat → SendOutcome)
    : NodeInv none start (Node.init start net : Node V) where
  table := by
    have hcells : (Node.init start net : Node V).cells = fun _ => .unallocated := by
      funext o
      simp [Node.cells, Node.init]
    rw [hcells]
    constructor
    . exact Registry.Agrees.empty
    . simp [Cell.key, Cell.unallocated]
    . simp [Cell.key, Cell.unallocated]
    . simp [Cell.key, Cell.unallocated]
    . intro _
      exact RpcSequenceId.Issued.nil start
  wellFormed := by
    simp [Node.init]
  responses := by
    simp [Node.init, Shared.responses]

theorem runEvents_table {cfg : Config V} {n : Nat} {start : UInt32} {nd : Node V}
    (h : NodeInv none start nd) (es : List (Event V))
    : wp (runEvents cfg n es) (fun _ nd' => NodeInv none start nd') (EndsSane True) nd := by
  induction es generalizing nd with
  | nil => exact h
  | cons e es ih =>
    unfold runEvents
    rw [wp_bind]
    apply wp_mono (handleEvent_table h e)
    . intro _ nd' hnd'
      exact ih hnd'
    . intro f nd' hf
      exact ⟨fun _ => trivial, hf.2⟩

theorem NodeInv.of_runEvents {cfg : Config V} {n : Nat} {start : UInt32}
    {net : Nat → SendOutcome} {es : List (Event V)} {nd : Node V}
    (hrun : runEvents cfg n es (Node.init start net) = .ok () nd)
    : NodeInv none start nd := by
  have htable : wp (runEvents cfg n es) (fun _ nd' => NodeInv none start nd') (EndsSane True)
      (Node.init start net) := runEvents_table (NodeInv.init start net) es
  have hinv := wp_of_ok htable hrun
  exact hinv

/--
What holds of the response table between two messages.
-/
structure ResponseTable (nd : Node V) : Prop where
  mapped : ∀ k m c, nd.sh.idFuncMap k = some ⟨m, c⟩
    ↔ ∃ it, nd.its[m]? = some it ∧ (it.cells c).alive = true ∧ (it.cells c).hasSeqId = true
      ∧ (it.cells c).seqId = k
  isRpcCell : ∀ k m c it, nd.sh.idFuncMap k = some ⟨m, c⟩ → nd.its[m]? = some it
    → (it.cells c).kind = .cell
  isEmpty : ∀ k m c it, nd.sh.idFuncMap k = some ⟨m, c⟩ → nd.its[m]? = some it
    → (it.cells c).value = none ∧ (it.cells c).status = .succeeded
  unique : ∀ k k' o, nd.sh.idFuncMap k = some o → nd.sh.idFuncMap k' = some o → k = k'
  valid : nd.sh.idFuncMap kInvalidRpcSequenceId = none

theorem Node.key_cells (nd : Node V) (m : Nat) (c : CellId) (k : RpcSequenceIdT)
    : (nd.cells ⟨m, c⟩).key = some k
        ↔
      ∃ it, nd.its[m]? = some it ∧ (it.cells c).alive = true ∧ (it.cells c).hasSeqId = true
        ∧ (it.cells c).seqId = k := by
  unfold Node.cells
  dsimp only
  cases nd.its[m]? with
  | some it => simp [Cell.key_eq_some]
  | none => simp [Cell.key, Cell.unallocated]

theorem NodeInv.responseTable {start : UInt32} {nd : Node V} (h : NodeInv none start nd)
    (hlen : nd.sh.issued.length < 4294967295)
    : ResponseTable nd := by
  have hcells : ∀ m c it, nd.its[m]? = some it → nd.cells ⟨m, c⟩ = it.cells c := by
    intro m c it hit
    simp [Node.cells, hit]
  constructor
  . intro k m c
    rw [h.table.agrees k ⟨m, c⟩]
    exact nd.key_cells m c k
  . intro k m c it hk hit
    have hrole := h.table.role ⟨m, c⟩ k ((h.table.agrees k ⟨m, c⟩).mp hk)
    rw [hcells m c it hit] at hrole
    cases hkind : (it.cells c).kind <;> simp [Cell.role, hkind, CellKind.role] at hrole
    rfl
  . intro k m c it hk hit
    have hempty := h.table.isEmpty ⟨m, c⟩ k ((h.table.agrees k ⟨m, c⟩).mp hk) (by simp)
    rw [hcells m c it hit] at hempty
    exact (it.cells c).hasValueOrError_eq_false.mp hempty
  . intro k k' o hk hk'
    exact h.table.agrees.inj hk hk'
  . cases hmapped : nd.sh.idFuncMap kInvalidRpcSequenceId with
    | none => rfl
    | some o =>
      have hk := (h.table.agrees _ o).mp hmapped
      exact absurd (h.table.issued o _ hk) (h.table.ids hlen).valid

/--
In whatever order interactions start and messages come in, with whatever the applications do: as
long as fewer than `2 ^ 32 - 1` ids have been issued the table is right between any two messages and
no id is registered twice.
-/
theorem responseTable_runEvents (cfg : Config V) (n : Nat) (start : UInt32)
    (net : Nat → SendOutcome) (es : List (Event V))
    : (∀ nd, runEvents cfg n es (Node.init start net) = .ok () nd
        → nd.sh.issued.length < 4294967295 → ResponseTable nd)
      ∧ (∀ e nd, runEvents cfg n es (Node.init start net) = .error e nd
        → nd.sh.issued.length < 4294967295 → e ≠ .assertion .uniqueSeqId) := by
  refine ⟨?_, ?_⟩
  . intro nd hok hlen
    exact (NodeInv.of_runEvents hok).responseTable hlen
  . intro e nd herror hlen heq
    have htable : wp (runEvents cfg n es) (fun _ nd' => NodeInv none start nd') (EndsSane True)
        (Node.init start net) := runEvents_table (NodeInv.init start net) es
    have hends := wp_of_error htable herror
    have := hends.2 heq
    omega

-- one rpc is sent, its id is the first one behind the wrap-around of the counter
theorem responseTable_runEvents_wrapping
    : ∃ nd, runEvents (Config.bytes fun _ => none) 3
          [.interaction (.stub ⟨"service", 1, 1, 0, 0, 7⟩ fun c => .ret (some c)) none]
          (Node.init 4294967295 fun _ => ⟨true, some 5, true⟩)
          = .ok () nd
        ∧ nd.sh.idFuncMap 1 = some ⟨0, 0⟩ ∧ ResponseTable nd := by
  refine ⟨_, rfl, rfl, ?_⟩
  apply (responseTable_runEvents (Config.bytes fun _ => none) 3 4294967295
    (fun _ => ⟨true, some 5, true⟩)
    [.interaction (.stub ⟨"service", 1, 1, 0, 0, 7⟩ fun c => .ret (some c)) none]).1
  . rfl
  . decide

end MsgRpc
