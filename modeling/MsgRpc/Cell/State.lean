import MsgRpc.Cell.Prog

/-!
This module contains the objects of a service interaction, cells, actions and the `RpcContext` that
owns them, and the state shared by all interactions of a thread.
-/

namespace MsgRpc

inductive Updatable where
  | cell (c : CellId)
  | action (a : ActionId)
  deriving DecidableEq, Repr

structure TimeoutCellData (V : Type) where
  timeoutMs : TimeoutLenT
  retryTimes : Nat
  f : Prog V
  hasArgs : Bool
  isRpcStarted : Bool := false
  timeoutCell : Option CellId := none

inductive CellKind (V : Type) where
  | cell
  | timeoutHook
  | derivedCell (logic : CellId → Prog V)
  | timeoutCell (data : TimeoutCellData V)
  | derivedAsyncCell (f : Prog V)

def CellKind.hook : CellKind V → Option CellId
  | .timeoutCell data => data.timeoutCell
  | _ => none

/--
A cell with the fields of all its bases, `value` also plays the role of `has_value_`. `alive` is
false before the cell is allocated and after it is deleted.
-/
structure Cell (V : Type) where
  type : Ty
  kind : CellKind V
  updatables : List Updatable := []
  value : Option V := none
  status : RpcResult := .succeeded
  hasContext : Bool := false
  hasSeqId : Bool := false
  seqId : RpcSequenceIdT := 0
  alive : Bool := true

namespace Cell

def view (o : Cell V) : CellView V := ⟨o.value, o.status⟩
def hasValue (o : Cell V) : Bool := o.view.hasValue
def hasError (o : Cell V) : Bool := o.view.hasError
def hasValueOrError (o : Cell V) : Bool := o.view.hasValueOrError
def isEmpty (o : Cell V) : Bool := o.view.isEmpty
def isTimeout (o : Cell V) : Bool := o.view.isTimeout

theorem hasValueOrError_eq_false (o : Cell V)
    : o.hasValueOrError = false ↔ o.value = none ∧ o.status = .succeeded := by
  by_cases hstatus : o.status = .succeeded <;>
    simp [hasValueOrError, view, CellView.hasValueOrError, CellView.hasValue, CellView.hasError,
      hstatus]

def unallocated : Cell V := { type := 0, kind := .cell, alive := false }

end Cell

/--
The functions bound by actions: code of the application and the lambdas of `bind_timeout_cell`,
`DerivedAsyncCell::update` and `invoke_templated_method`.
-/
inductive Bind (V : Type) where
  | user (f : Prog V)
  | guard (t : CellId) (rsp : CellId)
  | asyncResult (d : CellId) (rsp : CellId)
  | reply (senderId : ServiceId) (rspHeader : RspMsgHeader) (r : CellId)

def Bind.target : Bind V → Option CellId
  | .guard t _ => some t
  | .asyncResult d _ => some d
  | _ => none

structure Action (V : Type) where
  bind : Bind V
  isFinalAction : Bool := false
  cell : Option CellId := none
  alive : Bool := true

def Action.unallocated : Action V := { bind := .user (.ret none), alive := false }

/--
The calls on the stack that still have something to do once the call they wait for returns.
-/
inductive Frame where
  | loop (c : CellId) (remaining : Nat) -- `evaluate_all_derived_cells` in one of its iterations
  | construct (u : Updatable) -- a constructor or the sending of a request, `track` comes after it
  | logic (done : Bool) -- application code after it set its result
  | retry (t : CellId) -- `retry_rpc_if_need` in `set_failed_reason`
  | finalAction (a : ActionId) -- `update` of a final action in `bind_`
  deriving DecidableEq, Repr

def Frame.finished : Frame → Bool
  | .loop _ remaining => remaining = 0
  | .logic done => done
  | _ => false

inductive Ev (V : Type) where
  | registered (c : CellId) (u : Updatable)
  | notified (c : CellId) (u : Updatable)
  | assigned (c : CellId) (o : Outcome V)
  | attempt (t : CellId) (rpc : CellId)
  | stub (rpc : CellId)
  | ranAction (a : ActionId)
  | finished (a : ActionId)
  | closed (a : ActionId) (c : CellId) (isEmpty : Bool)
  | freedCell (c : CellId)
  | freedAction (a : ActionId)
  | freedContext
  | released (stack : List Frame)
  | received (senderId : ServiceId) (reqHeader : ReqMsgHeader) (msg : Bytes)
  | invoked (methodIndex : Int) (req : V)
  | called (reqHeader : ReqMsgHeader) (req : V) (rspCell : Option (CellId × Cell V))

structure Interaction (V : Type) where
  cells : CellId → Cell V := fun _ => .unallocated
  cellCount : Nat := 0
  actions : ActionId → Action V := fun _ => .unallocated
  actionCount : Nat := 0
  ctxtAlive : Bool := true
  releaseList : List Updatable := []
  log : List (Ev V) := []

-- how memory allocator, service resolver and message channel answer one `send_rpc_request_buf`
structure SendOutcome where
  mallocOk : Bool
  serviceId : Option ServiceId
  sendOk : Bool

/--
What is handed to the message channel and to the timer. Requests and responses remember the
interaction they come from.
-/
inductive Out (V : Type) where
  | request (serviceId : ServiceId) (msg : Bytes) (own : Nat) (c : CellId) (call : StubCall V)
  | response (serviceId : ServiceId) (msg : Bytes) (own : Nat)
  | setTimer (timeoutMs : TimeoutLenT) (seqId : RpcSequenceIdT)
  | cancelTimer (seqId : RpcSequenceIdT)

/--
The response table, the sequence ids and the adapters. A cell is known by its interaction and its
id therein.
-/
structure Shared (V : Type) where
  idFuncMap : RpcSequenceIdT → Option (Nat × CellId) := fun _ => none
  sequenceId : UInt32 := kInvalidRpcSequenceId
  issued : List RpcSequenceIdT := []
  net : Nat → SendOutcome
  sends : Nat := 0
  out : List (Out V) := []

inductive Assertion where
  | uniqueSeqId
  | hasSeqId
  | hasValue
  | hasArgs
  | finalActionContext
  | resultNotNull
  | payload
  | timerInfo
  deriving DecidableEq, Repr

/--
The ways to leave a call other than by returning. Code that would not compile is `illTyped`,
`outOfStack` the end of the recursion depth a run is given.
-/
inductive Fault where
  | useAfterFree
  | assertion (a : Assertion)
  | illTyped
  | outOfStack
  deriving DecidableEq, Repr

/--
The state the code of interaction number `own` runs in. `released` tells whether the interaction has
been released since the current message came in.
-/
structure St (V : Type) where
  own : Nat
  it : Interaction V
  sh : Shared V
  stack : List Frame := []
  released : Bool := false

abbrev M (V : Type) := EStateM Fault (St V)

namespace St

def setCell (s : St V) (c : CellId) (o : Cell V) : St V :=
  { s with it := { s.it with cells := Function.update s.it.cells c o } }

def setAction (s : St V) (a : ActionId) (o : Action V) : St V :=
  { s with it := { s.it with actions := Function.update s.it.actions a o } }

def record (s : St V) (e : Ev V) : St V :=
  { s with it := { s.it with log := s.it.log ++ [e] } }

def output (s : St V) (o : Out V) : St V :=
  { s with sh := { s.sh with out := s.sh.out ++ [o] } }

def pushFrame (s : St V) (f : Frame) : St V :=
  { s with stack := f :: s.stack }

def popFrame (s : St V) : St V :=
  { s with stack := s.stack.tail }

def addCell (s : St V) (o : Cell V) : St V :=
  { s with
    it := { s.it with
      cells := Function.update s.it.cells s.it.cellCount o
      cellCount := s.it.cellCount + 1
    }
  }

def addAction (s : St V) (o : Action V) : St V :=
  { s with
    it := { s.it with
      actions := Function.update s.it.actions s.it.actionCount o
      actionCount := s.it.actionCount + 1
    }
  }

def pushUpdatable (s : St V) (c : CellId) (u : Updatable) : St V :=
  s.setCell c { s.it.cells c with updatables := (s.it.cells c).updatables ++ [u] }

def assign (s : St V) (c : CellId) (o : Outcome V) : St V :=
  match o with
  | .value v => (s.setCell c { s.it.cells c with value := some v }).record (.assigned c o)
  | .error reason => (s.setCell c { s.it.cells c with status := reason }).record (.assigned c o)

def setKind (s : St V) (c : CellId) (kind : CellKind V) : St V :=
  s.setCell c { s.it.cells c with kind := kind }

def setSeqId (s : St V) (c : CellId) (seqId : RpcSequenceIdT) : St V :=
  s.setCell c { s.it.cells c with hasSeqId := true, seqId := seqId }

def freeCell (s : St V) (c : CellId) : St V :=
  (s.setCell c { s.it.cells c with alive := false }).record (.freedCell c)

def freeAction (s : St V) (a : ActionId) : St V :=
  (s.setAction a { s.it.actions a with alive := false }).record (.freedAction a)

def track (s : St V) (u : Updatable) : St V :=
  { s with it := { s.it with releaseList := s.it.releaseList ++ [u] } }

def freeContext (s : St V) : St V :=
  { s with it := { s.it with ctxtAlive := false, log := s.it.log ++ [.freedContext] } }

def setRspHandler (s : St V) (seqId : RpcSequenceIdT) (sink : Option (Nat × CellId)) : St V :=
  { s with sh := { s.sh with idFuncMap := Function.update s.sh.idFuncMap seqId sink } }

end St
end MsgRpc
