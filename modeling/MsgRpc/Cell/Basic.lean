import MsgRpc.Cell.State

/-!
This module contains the cells: registration of listeners, notification, the stub calls that create
rpc cells and the destructors. Calls of the virtual `Updatable::update` go to the parameter `upd`.
-/

namespace MsgRpc

def alter (f : St V → St V) : M V Unit :=
  fun s => .ok () (f s)

def assert (b : Bool) (a : Assertion) : M V Unit :=
  fun s => if b then .ok () s else .error (.assertion a) s

/--
Access to a cell. Access to memory that is not allocated (any more) ends the run.
-/
def cellAt (c : CellId) : M V (Cell V) :=
  fun s => if (s.it.cells c).alive then .ok (s.it.cells c) s else .error .useAfterFree s

def actionAt (a : ActionId) : M V (Action V) :=
  fun s => if (s.it.actions a).alive then .ok (s.it.actions a) s else .error .useAfterFree s

def newCell (type : Ty) (kind : CellKind V) (status : RpcResult := .succeeded) : M V CellId :=
  fun s => .ok s.it.cellCount (s.addCell { type, kind, status })

def newAction (isFinalAction : Bool) (bind : Bind V) : M V ActionId :=
  fun s => .ok s.it.actionCount (s.addAction { bind, isFinalAction })

def withFrame (f : Frame) (x : M V α) : M V α := do
  alter (St.pushFrame · f)
  let r ← x
  alter St.popFrame
  return r

def track (u : Updatable) : M V Unit :=
  fun s => if s.it.ctxtAlive then .ok () (s.track u) else .error .useAfterFree s

def construct (u : Updatable) (x : M V Unit) : M V Unit := do
  withFrame (.construct u) x
  track u

namespace RspMsgHandler

def removeRspHandler (seqId : RpcSequenceIdT) : M V Unit :=
  alter (St.setRspHandler · seqId none)

def registerRspHandler (seqId : RpcSequenceIdT) (c : CellId) : M V Unit := do
  let s ← get
  assert (s.sh.idFuncMap seqId).isNone .uniqueSeqId
  alter (St.setRspHandler · seqId (some ⟨s.own, c⟩))
  let _ ← cellAt c
  alter (St.setSeqId · c seqId)

end RspMsgHandler

section Notify

variable (upd : Updatable → M V Unit)

def evaluateAllDerivedCells (c : CellId) : M V Unit := do
  let o ← cellAt c
  go o.updatables.length o.updatables.length
where
  /--
  The last `n` of `size` iterations.
  -/
  go (size : Nat) (n : Nat) : M V Unit :=
    match n with
    | 0 => pure ()
    | n + 1 => do
      let o ← cellAt c
      match o.updatables[size - (n + 1)]? with
      | some u =>
        alter (St.record · (.notified c u))
        withFrame (.loop c n) (upd u)
      | none => pure ()
      go size n

def setFailedReason (c : CellId) (ret : RpcResult) : M V Unit := do
  let _ ← cellAt c
  alter (St.assign · c (.error ret))
  evaluateAllDerivedCells upd c

def setValue (c : CellId) (value : V) : M V Unit := do
  let _ ← cellAt c
  alter (St.assign · c (.value value))
  evaluateAllDerivedCells upd c

def setOutcome (c : CellId) (o : Outcome V) : M V Unit :=
  match o with
  | .value v => setValue upd c v
  | .error reason => setFailedReason upd c reason

def setCellValue (c : CellId) (rhs : CellId) : M V Unit := do
  let r ← cellAt rhs
  if r.hasError then
    setFailedReason upd c r.status
  else
    match r.value with
    | some v => setValue upd c v
    | none => throw (.assertion .hasValue)

def registerListener (c : CellId) (u : Updatable) : M V Unit := do
  let o ← cellAt c
  alter (St.record · (.registered c u))
  if o.hasValueOrError then
    alter (St.record · (.notified c u))
    upd u
  else
    alter (St.pushUpdatable · c u)

def registerAsListener (u : Updatable) (args : List CellId) : M V Unit :=
  match args with
  | [] => pure ()
  | c :: args => do
    registerListener upd c u
    registerAsListener u args

def deriveAction (bind : Bind V) (args : List CellId) : M V ActionId := do
  let a ← newAction false bind
  construct (.action a) (registerAsListener upd (.action a) args)
  return a

-- `derive_final_action` on one cell. `cell_` is set once the action is registered.
def deriveFinalAction (bind : Bind V) (c : CellId) : M V ActionId := do
  let o ← cellAt c
  let a ← newAction true bind
  alter (St.record · (.closed a c o.isEmpty))
  withFrame (.construct (.action a)) (registerListener upd c (.action a))
  let o ← cellAt c
  assert o.hasContext .finalActionContext
  track (.action a)
  let act ← actionAt a
  alter (St.setAction · a { act with cell := some c })
  return a

end Notify

def failedCellWithReason (type : Ty) (reason : RpcResult) : M V CellId := do
  let c ← newCell type .cell reason
  track (.cell c)
  return c

section Dtor

/--
`~TimeoutCell`, nothing to do for the other kinds. A `timeout_cell_` that has the context would
delete the cell that deletes it once more.
-/
def timeoutCellDtor (o : Cell V) : M V Unit :=
  match o.kind.hook with
  | some h => do
    let o ← cellAt h
    if o.hasContext then throw .useAfterFree else alter (St.freeCell · h)
  | none => pure ()

def rspCellBaseDtor (o : Cell V) : M V Unit :=
  if o.hasSeqId then RspMsgHandler.removeRspHandler o.seqId else pure ()

-- `delete` of an element of a release list. A cell with a context would delete it once more.
def deleteTracked (u : Updatable) : M V Unit :=
  match u with
  | .cell c => do
    let o ← cellAt c
    timeoutCellDtor o
    rspCellBaseDtor o
    if o.hasContext then throw .useAfterFree else alter (St.freeCell · c)
  | .action a => do
    let _ ← actionAt a
    alter (St.freeAction · a)

def deleteAllTracked (us : List Updatable) : M V Unit :=
  match us with
  | [] => pure ()
  | u :: us => do
    deleteTracked u
    deleteAllTracked us

def deleteContext : M V Unit := do
  let s ← get
  if s.it.ctxtAlive then
    deleteAllTracked s.it.releaseList
    alter St.freeContext
  else
    throw .useAfterFree

def deleteCell (c : CellId) : M V Unit := do
  let o ← cellAt c
  timeoutCellDtor o
  rspCellBaseDtor o
  if o.hasContext then deleteContext else pure ()
  alter (St.freeCell · c)

end Dtor

section Stub

variable (env : Env V)

def RpcSequenceId.next : M V RpcSequenceIdT :=
  fun s =>
    let ⟨id, sequenceId⟩ := RpcSequenceId.get s.sh.sequenceId
    .ok id { s with sh := { s.sh with sequenceId, issued := id :: s.sh.issued } }

def serviceResolver : M V Unit :=
  fun s => if s.it.ctxtAlive then .ok () s else .error .useAfterFree s

def nextSendOutcome : M V SendOutcome :=
  fun s => .ok (s.sh.net s.sh.sends) { s with sh := { s.sh with sends := s.sh.sends + 1 } }

def reqHeader (call : StubCall V) (seqId : RpcSequenceIdT) : ReqMsgHeader where
  msgrpcVersion := 0
  ifaceIndexInService := call.ifaceIndex
  methodIndexInInterface := call.methodIndex
  sequenceId := seqId

def sendRpcRequestBuf (call : StubCall V) (pbuf : Bytes) (c : CellId) : M V Bool := do
  let net ← nextSendOutcome
  if net.mallocOk then
    let seqId ← RpcSequenceId.next
    RspMsgHandler.registerRspHandler seqId c
    serviceResolver
    match net.serviceId with
    | some serviceId =>
      if net.sendOk then
        let s ← get
        let mem := (reqHeader call seqId).toBytes ++ pbuf
        alter (St.output · (.request serviceId mem s.own c call))
        return true
      else
        return false
    | none => return false
  else
    return false

def encodeRequestAndSend (call : StubCall V) : M V CellId := do
  match ThriftEncoder.encode (env.codec call.reqType) call.req with
  | some pbuf =>
    let c ← newCell call.rspType .cell
    let sent ← withFrame (.construct (.cell c)) (sendRpcRequestBuf call pbuf c)
    if sent then
      track (.cell c)
      return c
    else
      deleteCell c
      failedCellWithReason call.rspType .failed
  | none => failedCellWithReason call.rspType .failed

end Stub
end MsgRpc
