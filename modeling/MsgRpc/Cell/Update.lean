import MsgRpc.Cell.Basic

/-!
This module contains the derived cells, the cells guarding an rpc with a timer, the code of the
application they run and the `update` that ties them together.
-/

namespace MsgRpc

variable (env : Env V) (upd : Updatable → M V Unit)

section Derive

def deriveCell (type : Ty) (logic : CellId → Prog V) (args : List CellId) : M V CellId := do
  let c ← newCell type (.derivedCell logic)
  construct (.cell c) (registerAsListener upd (.cell c) args)
  return c

def deriveAsyncCell (type : Ty) (f : Prog V) (args : List CellId) : M V CellId := do
  let c ← newCell type (.derivedAsyncCell f)
  construct (.cell c) (registerAsListener upd (.cell c) args)
  return c

def bindTimeoutCell (t : CellId) (cellToBind : CellId) : M V Unit := do
  let _ ← deriveAction upd (.guard t cellToBind) [cellToBind]

-- `bind` is the call of `bind_`
def invokeRpcOnce (t : CellId) (timeoutMs : TimeoutLenT) (bind : M V (Option CellId))
    : M V Unit := do
  match ← bind with
  -- init rpc is deferred, because trigger cells are not ready to continue
  | none => pure ()
  | some rpcCell =>
    let o ← cellAt t
    match o.kind with
    | .timeoutCell data =>
      alter (St.setKind · t (.timeoutCell { data with isRpcStarted := true }))
      alter (St.record · (.attempt t rpcCell))
      let r ← cellAt rpcCell
      if r.hasError then
        setFailedReason upd t r.status
      else
        assert r.hasSeqId .hasSeqId
        alter (St.output · (.setTimer timeoutMs r.seqId))
        bindTimeoutCell upd t rpcCell
    | _ => throw .illTyped

def deriveRpcCell (type : Ty) (timeoutMs : TimeoutLenT) (retryTimes : Nat) (f : Prog V)
    (args : List CellId) (bind : M V (Option CellId)) : M V CellId := do
  let hasArgs := !args.isEmpty
  let t ← newCell type (.timeoutCell { timeoutMs, retryTimes, f, hasArgs })
  construct (.cell t) do
    if hasArgs then
      registerAsListener upd (.cell t) args
    else
      invokeRpcOnce upd t timeoutMs bind
  return t

def timeout (t : CellId) : M V CellId := do
  let o ← cellAt t
  match o.kind with
  | .timeoutCell data =>
    match data.timeoutCell with
    | some h => return h
    | none =>
      let h ← newCell env.boolType .timeoutHook
      alter (St.setKind · t (.timeoutCell { data with timeoutCell := some h }))
      return h
  | _ => throw .illTyped

end Derive

/--
Run code of the application, `self` is the cell whose result it may set.
-/
def runProg (self : Option CellId) (p : Prog V) : M V (Option CellId) :=
  match p with
  | .ret cell => return cell
  | .read c k => do
    let o ← cellAt c
    runProg self (k o.view)
  | .setResult o k => do
    match self with
    | some c => withFrame (.logic k.isRet) (setOutcome upd c o)
    | none => throw .illTyped
    runProg self k
  | .stub call k => do
    let c ← encodeRequestAndSend env call
    alter (St.record · (.stub c))
    runProg self (k c)
  | .failedCell type reason k => do
    let c ← failedCellWithReason type reason
    runProg self (k c)
  | .deriveCell type logic args k => do
    let c ← deriveCell upd type logic args
    runProg self (k c)
  | .deriveRpcCell type timeoutMs retryTimes f args k => do
    let c ← deriveRpcCell upd type timeoutMs retryTimes f args (runProg none f)
    runProg self (k c)
  | .deriveAsyncCell type f args k => do
    let c ← deriveAsyncCell upd type f args
    runProg self (k c)
  | .deriveAction f args k => do
    let _ ← deriveAction upd (.user f) args
    runProg self k
  | .timeout t k => do
    let h ← timeout env t
    runProg self (k h)

section Send

def sendMsgWithHeader (serviceId : ServiceId) (rspHeader : RspMsgHeader) (buf : Bytes)
    : M V Unit := do
  let s ← get
  if buf.length = 0 then
    alter (St.output · (.response serviceId rspHeader.toBytes s.own))
  else
    alter (St.output · (.response serviceId (rspHeader.toBytes ++ buf) s.own))

def sendRspCellValue (senderId : ServiceId) (rspHeader : RspMsgHeader) (rspCell : CellId)
    : M V RpcResult := do
  let r ← cellAt rspCell
  match r.value with
  | none => return .failed
  | some v =>
    match ThriftEncoder.encode (env.codec r.type) v with
    | none => return .failed
    | some buf =>
      sendMsgWithHeader senderId rspHeader buf
      return .succeeded

end Send

section Update

def retryRpcIfNeed (t : CellId) (rsp : Cell V) : M V Unit := do
  let o ← cellAt t
  match o.kind with
  | .timeoutCell data =>
    if 0 < data.retryTimes then
      alter (St.setKind · t (.timeoutCell { data with retryTimes := data.retryTimes - 1 }))
      invokeRpcOnce upd t data.timeoutMs (runProg env upd none data.f)
    else
      withFrame (.retry t) (setFailedReason upd t rsp.status)
      let o ← cellAt t
      match o.kind.hook with
      | some h => setValue upd h (env.ofBool true)
      | none => pure ()
  | _ => throw .illTyped

def callBind (bind : Bind V) : M V Unit := do
  match bind with
  | .user f =>
    let _ ← runProg env upd none f
  | .guard t rsp =>
    let r ← cellAt rsp
    if r.isTimeout then
      retryRpcIfNeed env upd t r
    else
      if r.hasValueOrError then
        assert r.hasSeqId .hasSeqId
        alter (St.output · (.cancelTimer r.seqId))
      else
        pure ()
      setCellValue upd t rsp
  | .asyncResult d rsp =>
    let r ← cellAt rsp
    if r.hasError then
      setFailedReason upd d r.status
    else
      setCellValue upd d rsp
  | .reply senderId rspHeader c =>
    let r ← cellAt c
    if r.hasValue then
      let _ ← sendRspCellValue env senderId rspHeader c
    else
      -- TODO: handle error case where result do not contains value. maybe timeout?
      pure ()

def updateAction (a : ActionId) : M V Unit := do
  let act ← actionAt a
  alter (St.record · (.ranAction a))
  if act.isFinalAction then
    withFrame (.finalAction a) (callBind env upd act.bind)
    alter (St.record · (.finished a))
    let act ← actionAt a
    match act.cell with
    | some c =>
      deleteCell c
      alter fun s => { s.record (.released s.stack) with released := true }
    | none => pure ()
  else
    callBind env upd act.bind

def updateCell (c : CellId) : M V Unit := do
  let o ← cellAt c
  match o.kind with
  | .cell | .timeoutHook => pure ()
  | .derivedCell logic =>
    if o.hasValueOrError then
      pure ()
    else
      let _ ← runProg env upd (some c) (logic c)
  | .timeoutCell data =>
    assert data.hasArgs .hasArgs
    if o.hasValueOrError || data.isRpcStarted then
      pure ()
    else
      invokeRpcOnce upd c data.timeoutMs (runProg env upd none data.f)
  | .derivedAsyncCell f =>
    if o.hasValueOrError then
      pure ()
    else
      match ← runProg env upd none f with
      | some cell =>
        let r ← cellAt cell
        if r.hasError then
          setFailedReason upd c r.status
        else
          let _ ← deriveAction upd (.asyncResult c cell) [cell]
      | none => throw .illTyped

/--
`Updatable::update` with the calls it makes in turn going to `upd`.
-/
def updateWith (u : Updatable) : M V Unit :=
  match u with
  | .cell c => updateCell env upd c
  | .action a => updateAction env upd a

end Update

/--
`Updatable::update` on a stack of depth `n`.
-/
def update (env : Env V) (n : Nat) (u : Updatable) : M V Unit :=
  match n with
  | 0 => throw .outOfStack
  | n + 1 => updateWith env (update env n) u

end MsgRpc
