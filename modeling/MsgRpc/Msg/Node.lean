import MsgRpc.Cell.Update

/-!
This module contains the message handlers of a process, the interactions it runs and the methods it
implements.
-/

namespace MsgRpc

/--
What an implementation method does with its decoded request: return no cell, a cell that belongs to
no context and holds `o` if there is one, or the result cell of an interaction.
-/
inductive ImplCode (V : Type) where
  | nullptr
  | newCell (o : Option (Outcome V))
  | runSi (si : Prog V)

-- a line of `___methods_of_interface___` with its implementation
structure MethodImpl (V : Type) where
  methodIndex : Int
  reqType : Ty
  rspType : Ty
  impl : V → ImplCode V

structure Config (V : Type) where
  env : Env V
  requestMsgId : MsgIdT
  responseMsgId : MsgIdT
  timeoutMsgId : MsgIdT
  scheduleTaskOnMainThreadMsgId : MsgIdT
  ifaceImpl : IfaceIndexT → Option (List (MethodImpl V))
  sizeofServiceId : Nat

-- a configuration for examples: all values are bytes
def Config.bytes (ifaceImpl : IfaceIndexT → Option (List (MethodImpl UInt8))) : Config UInt8 where
  env := { codec := fun _ => Codec.byte, boolType := 0, ofBool := fun b => if b then 1 else 0 }
  requestMsgId := 101
  responseMsgId := 102
  timeoutMsgId := 103
  scheduleTaskOnMainThreadMsgId := 104
  ifaceImpl
  sizeofServiceId := 8

/--
A process: the interactions it has started so far and what they share. `released` tells whether one
of them has been released since the current message came in.
-/
structure Node (V : Type) where
  its : List (Interaction V) := []
  sh : Shared V
  released : Bool := false

abbrev NodeM (V : Type) := EStateM Fault (Node V)

namespace Node

def init (start : UInt32) (net : Nat → SendOutcome) : Node V :=
  { sh := { sequenceId := start, net } }

def st (nd : Node V) (own : Nat) (it : Interaction V) : St V :=
  { own, it, sh := nd.sh, released := nd.released }

def withSt (nd : Node V) (s : St V) : Node V :=
  { its := nd.its.set s.own s.it, sh := s.sh, released := s.released }

end Node

def onInteraction (m : Nat) (x : M V α) : NodeM V α :=
  fun nd =>
    match nd.its[m]? with
    | some it =>
      match x (nd.st m it) with
      | .ok a s => .ok a (nd.withSt s)
      | .error e s => .error e (nd.withSt s)
    | none => .error .illTyped nd

def newInteraction : NodeM V Nat :=
  fun nd => .ok nd.its.length { nd with its := nd.its ++ [{}] }

section Interaction

variable (env : Env V) (upd : Updatable → M V Unit)

-- `run_si`, the context is the one of the interaction it is run in
def runSi (si : Prog V) : M V CellId := do
  match ← runProg env upd none si with
  | some c =>
    let o ← cellAt c
    alter (St.setCell · c { o with hasContext := true })
    alter fun s =>
      { s with it := { s.it with releaseList := s.it.releaseList.filter (· ≠ .cell c) } }
    return c
  | none => throw (.assertion .resultNotNull)

-- `run_si` and, if the application asks for it, `derive_final_action` on its result
def startInteraction (si : Prog V) (finalAction : Option (CellId → Prog V)) : M V Unit := do
  let c ← runSi env upd si
  match finalAction with
  | some f =>
    let _ ← deriveFinalAction upd (.user (f c)) c
  | none => pure ()

def setRpcRsp (c : CellId) (rspHeader : RspMsgHeader) (msg : Bytes) : M V Unit := do
  let o ← cellAt c
  if rspHeader.rpcResult ≠ .succeeded then
    setFailedReason upd c rspHeader.rpcResult
  else
    -- should has payload when rpc succeeded
    assert (0 < msg.length) .payload
    match ThriftDecoder.decode (env.codec o.type) msg with
    | some rsp => setValue upd c rsp
    | none => setFailedReason upd c .failed

def setTimeout (c : CellId) : M V Unit :=
  setFailedReason upd c .timeout

def resetSequentialId (c : CellId) : M V Unit := do
  let o ← cellAt c
  alter (St.setCell · c { o with hasSeqId := false })

def callImpl (type : Ty) (code : ImplCode V) : M V (Option CellId) := do
  match code with
  | .nullptr => return none
  | .newCell (some (.error reason)) =>
    let c ← newCell type .cell reason
    return some c
  | .newCell (some (.value v)) =>
    let c ← newCell type .cell
    setValue upd c v
    return some c
  | .newCell none =>
    let c ← newCell type .cell
    return some c
  | .runSi si =>
    let c ← runSi env upd si
    let o ← cellAt c
    if o.type = type then return some c else throw .illTyped

def invokeTemplatedMethod (method : MethodImpl V) (reqHeader : ReqMsgHeader) (msg : Bytes)
    (senderId : ServiceId) (rspHeader : RspMsgHeader) : M V RpcResult := do
  match ThriftDecoder.decode (env.codec method.reqType) msg with
  | none => return .failed
  | some req =>
    alter (St.record · (.invoked method.methodIndex req))
    let rspCell ← callImpl env upd method.rspType (method.impl req)
    alter fun s => s.record (.called reqHeader req (rspCell.map fun c => ⟨c, s.it.cells c⟩))
    match rspCell with
    | none => return .failed
    | some rspCell =>
      let r ← cellAt rspCell
      if r.hasValue then
        let ret ← sendRspCellValue env senderId rspHeader rspCell
        deleteCell rspCell
        return ret
      else
        let _ ← deriveFinalAction upd (.reply senderId rspHeader rspCell) rspCell
        return .succeeded

/--
The `onRpcInvoke` generated for the methods of an interface, its result and the response header as
it leaves it.
-/
def onRpcInvoke (methods : List (MethodImpl V)) (reqHeader : ReqMsgHeader) (msg : Bytes)
    (rspHeader : RspMsgHeader) (senderId : ServiceId) : M V (RpcResult × RspMsgHeader) := do
  match methods.find? (fun m => (reqHeader.methodIndexInInterface.toNat : Int) = m.methodIndex) with
  | some method =>
    let ret ← invokeTemplatedMethod env upd method reqHeader msg senderId rspHeader
    if ret = .failed then
      return ⟨ret, { rspHeader with rpcResult := .failed }⟩
    else
      return ⟨ret, rspHeader⟩
  | none => return ⟨.methodNotFound, { rspHeader with rpcResult := .methodNotFound }⟩

end Interaction

section Handlers

variable (cfg : Config V) (n : Nat)

-- `ReqMsgHandler::on_rpc_req_msg` on a message that has been cut into header and payload
def onRpcReq (reqHeader : ReqMsgHeader) (msg : Bytes) (senderId : ServiceId) : M V Unit := do
  alter (St.record · (.received senderId reqHeader msg))
  let rspHeader : RspMsgHeader := { reqHeader.toMsgHeader with }
  match cfg.ifaceImpl reqHeader.ifaceIndexInService with
  | none => sendMsgWithHeader senderId { rspHeader with rpcResult := .ifaceNotFound } []
  | some methods =>
    let ⟨ret, rspHeader⟩ ←
      onRpcInvoke cfg.env (update cfg.env n) methods reqHeader msg rspHeader senderId
    if ret = .failed ∨ ret = .methodNotFound then
      sendMsgWithHeader senderId rspHeader []
    else
      pure ()

def onRpcReqMsg (msg : Bytes) (senderId : ServiceId) : NodeM V Unit := do
  match ReqMsgHeader.ofBytes msg with
  | none => pure ()
  | some ⟨reqHeader, msg⟩ =>
    let m ← newInteraction
    onInteraction m (onRpcReq cfg n reqHeader msg senderId)

namespace RspMsgHandler

def deleteRspHandlerIfExist (seqId : RpcSequenceIdT) : NodeM V Unit := do
  let nd ← get
  match nd.sh.idFuncMap seqId with
  | some ⟨m, c⟩ =>
    onInteraction m do
      resetSequentialId c
      removeRspHandler seqId
  | none => pure ()

def handleRpcRsp (msg : Bytes) : NodeM V Unit := do
  match RspMsgHeader.ofBytes msg with
  | none => pure ()
  | some ⟨rspHeader, msg⟩ =>
    let nd ← get
    match nd.sh.idFuncMap rspHeader.sequenceId with
    | some ⟨m, c⟩ =>
      onInteraction m (setRpcRsp cfg.env (update cfg.env n) c rspHeader msg)
      -- if this msg_handlers finishes a SI, the handler will be release in whole SI context
      -- teardown; otherwise, we should erase this very msg_handlers handler only.
      deleteRspHandlerIfExist rspHeader.sequenceId
    | none => pure ()

def onRspHandlerTimeout (sequenceId : RpcSequenceIdT) : NodeM V Unit := do
  let nd ← get
  match nd.sh.idFuncMap sequenceId with
  | some ⟨m, c⟩ =>
    onInteraction m do
      resetSequentialId c
      removeRspHandler sequenceId
      setTimeout (update cfg.env n) c
  | none => pure ()

end RspMsgHandler

namespace TimerInfo

-- `service_id_` is padded to the alignment of the pointer behind it
def userDataOffset : Nat := 8 + (cfg.sizeofServiceId + 7) / 8 * 8

def size : Nat := userDataOffset cfg + 8

def seqId (msg : Bytes) : RpcSequenceIdT :=
  match msg.drop (userDataOffset cfg) with
  | b0 :: b1 :: b2 :: b3 :: _ => uint32OfBytes b0 b1 b2 b3
  | _ => kInvalidRpcSequenceId

end TimerInfo

def onTimeout (msg : Bytes) : NodeM V Unit := do
  if msg.length = TimerInfo.size cfg then
    RspMsgHandler.onRspHandlerTimeout cfg n (TimerInfo.seqId cfg msg)
  else
    throw (.assertion .timerInfo)

/--
`MsgHandlerMgr::handle_msg`. The tasks run on the main thread belong to the service registry and
touch nothing of a `Node`.
-/
def handleMsg (msgId : MsgIdT) (msg : Bytes) (senderId : ServiceId) : NodeM V Bool := do
  if msgId = cfg.requestMsgId then
    onRpcReqMsg cfg n msg senderId
    return true
  else if msgId = cfg.responseMsgId then
    RspMsgHandler.handleRpcRsp cfg n msg
    return true
  else if msgId = cfg.timeoutMsgId then
    onTimeout cfg n msg
    return true
  else if msgId = cfg.scheduleTaskOnMainThreadMsgId then
    return true
  else
    return false

/--
What makes a process run: its application starting an interaction and a message coming in.
-/
inductive Event (V : Type) where
  | interaction (si : Prog V) (finalAction : Option (CellId → Prog V))
  | msg (msgId : MsgIdT) (msg : Bytes) (senderId : ServiceId)

def handleEvent (e : Event V) : NodeM V Unit := do
  modify ({ · with released := false })
  match e with
  | .interaction si finalAction =>
    let m ← newInteraction
    onInteraction m (startInteraction cfg.env (update cfg.env n) si finalAction)
  | .msg msgId msg senderId =>
    let _ ← handleMsg cfg n msgId msg senderId

def runEvents (es : List (Event V)) : NodeM V Unit :=
  match es with
  | [] => pure ()
  | e :: es => do
    handleEvent cfg n e
    runEvents es

end Handlers
end MsgRpc
