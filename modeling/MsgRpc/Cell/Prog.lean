import MsgRpc.Thrift.Codec

/-!
This module contains the code an application hands to the library: the functions behind service
interactions, derived cells, actions and guarded rpcs, written down as the calls they make.
-/

namespace MsgRpc

abbrev CellId := Nat
abbrev ActionId := Nat
abbrev ServiceId := Nat

-- the C++ type a cell is instantiated with
abbrev Ty := Nat

/--
What the library is instantiated with: `V` has a value for every value of every `Ty`.
-/
structure Env (V : Type) where
  codec : Ty → Codec V
  boolType : Ty
  ofBool : Bool → V

inductive Outcome (V : Type) where
  | value (v : V)
  | error (reason : RpcResult)
  deriving DecidableEq

structure CellView (V : Type) where
  value : Option V
  failedReason : RpcResult

namespace CellView

def hasValue (o : CellView V) : Bool := o.value.isSome
def hasError (o : CellView V) : Bool := o.failedReason ≠ .succeeded
def hasValueOrError (o : CellView V) : Bool := o.hasValue || o.hasError
def isEmpty (o : CellView V) : Bool := !o.hasValueOrError
def isTimeout (o : CellView V) : Bool := o.failedReason = .timeout

end CellView

-- the arguments of `encode_request_and_send` as a stub method passes them
structure StubCall (V : Type) where
  toServiceName : String
  ifaceIndex : IfaceIndexT
  methodIndex : MethodIndexT
  reqType : Ty
  rspType : Ty
  req : V
  deriving DecidableEq

/--
A piece of code of the application. Its cells belong to the interaction it runs in, `setResult`
sets the result cell a derived cell passes to its logic. Code that itself starts another service
interaction (as the final actions of the demo do for the next testcase) cannot be written down.
-/
inductive Prog (V : Type) : Type where
  | ret (cell : Option CellId)
  | read (c : CellId) (k : CellView V → Prog V)
  | setResult (o : Outcome V) (k : Prog V)
  | stub (call : StubCall V) (k : CellId → Prog V)
  | failedCell (type : Ty) (reason : RpcResult) (k : CellId → Prog V)
  | deriveCell (type : Ty) (logic : CellId → Prog V) (args : List CellId) (k : CellId → Prog V)
  | deriveRpcCell (type : Ty) (timeoutMs : TimeoutLenT) (retryTimes : Nat) (f : Prog V)
      (args : List CellId) (k : CellId → Prog V)
  | deriveAsyncCell (type : Ty) (f : Prog V) (args : List CellId) (k : CellId → Prog V)
  | deriveAction (f : Prog V) (args : List CellId) (k : Prog V)
  | timeout (t : CellId) (k : CellId → Prog V)

namespace Prog

def isRet : Prog V → Bool
  | .ret _ => true
  | _ => false

end Prog
end MsgRpc
