import MsgRpc.Core.RpcSequenceId

/-!
This module contains the types that go over the wire: the result code of an rpc, the headers of
requests and responses and their layout in memory.
-/

namespace MsgRpc

abbrev Bytes := List UInt8
abbrev MsgIdT := UInt16
abbrev MethodIndexT := UInt8
abbrev IfaceIndexT := UInt16
abbrev TimeoutLenT := Int

/--
An `enum class` over `unsigned short`: a received header may carry any code, named or not.
-/
structure RpcResult where
  code : UInt16
  deriving DecidableEq, Repr

namespace RpcResult

def succeeded : RpcResult := ⟨0⟩
def failed : RpcResult := ⟨1⟩
def timeout : RpcResult := ⟨2⟩
def ifaceNotFound : RpcResult := ⟨3⟩
def methodNotFound : RpcResult := ⟨4⟩

end RpcResult

def bytesOfUInt16 (x : UInt16) : Bytes :=
  [UInt8.ofNat (x.toNat % 256), UInt8.ofNat (x.toNat / 256)]

def uint16OfBytes (b0 b1 : UInt8) : UInt16 :=
  UInt16.ofNat (b0.toNat + 256 * b1.toNat)

def bytesOfUInt32 (x : UInt32) : Bytes :=
  [ UInt8.ofNat (x.toNat % 256), UInt8.ofNat (x.toNat / 256 % 256),
    UInt8.ofNat (x.toNat / 65536 % 256), UInt8.ofNat (x.toNat / 16777216) ]

def uint32OfBytes (b0 b1 b2 b3 : UInt8) : UInt32 :=
  UInt32.ofNat (b0.toNat + 256 * b1.toNat + 65536 * b2.toNat + 16777216 * b3.toNat)

theorem uint16OfBytes_bytesOfUInt16 (x : UInt16)
    : uint16OfBytes (UInt8.ofNat (x.toNat % 256)) (UInt8.ofNat (x.toNat / 256)) = x := by
  have hx := x.toNat_lt
  apply UInt16.toNat_inj.mp
  simp only [uint16OfBytes, UInt16.toNat_ofNat', UInt8.toNat_ofNat']
  omega

theorem uint32OfBytes_bytesOfUInt32 (x : UInt32)
    : uint32OfBytes (UInt8.ofNat (x.toNat % 256)) (UInt8.ofNat (x.toNat / 256 % 256))
        (UInt8.ofNat (x.toNat / 65536 % 256)) (UInt8.ofNat (x.toNat / 16777216))
        =
      x := by
  have hx := x.toNat_lt
  apply UInt32.toNat_inj.mp
  simp only [uint32OfBytes, UInt32.toNat_ofNat', UInt8.toNat_ofNat']
  omega

structure MsgHeader where
  msgrpcVersion : UInt8 := 0
  methodIndexInInterface : MethodIndexT := 0
  ifaceIndexInService : IfaceIndexT := 0
  sequenceId : RpcSequenceIdT := kInvalidRpcSequenceId
  deriving DecidableEq, Repr

namespace MsgHeader

def toBytes (h : MsgHeader) : Bytes :=
  [h.msgrpcVersion, h.methodIndexInInterface] ++ bytesOfUInt16 h.ifaceIndexInService
    ++ bytesOfUInt32 h.sequenceId

/--
The header at the start of `msg` and what follows it, `none` if `msg` is too short to hold one.
-/
def ofBytes (msg : Bytes) : Option (MsgHeader × Bytes) :=
  match msg with
  | v :: m :: i0 :: i1 :: s0 :: s1 :: s2 :: s3 :: rest =>
    some ⟨⟨v, m, uint16OfBytes i0 i1, uint32OfBytes s0 s1 s2 s3⟩, rest⟩
  | _ => none

@[simp]
theorem ofBytes_toBytes_append (h : MsgHeader) (rest : Bytes)
    : ofBytes (h.toBytes ++ rest) = some ⟨h, rest⟩ := by
  simp [toBytes, ofBytes, bytesOfUInt16, bytesOfUInt32, uint16OfBytes_bytesOfUInt16,
    uint32OfBytes_bytesOfUInt32]

end MsgHeader

structure ReqMsgHeader extends MsgHeader where
  deriving DecidableEq, Repr

structure RspMsgHeader extends MsgHeader where
  rpcResult : RpcResult := .succeeded
  deriving DecidableEq, Repr

namespace ReqMsgHeader

def size : Nat := 8

def toBytes (h : ReqMsgHeader) : Bytes := h.toMsgHeader.toBytes

def ofBytes (msg : Bytes) : Option (ReqMsgHeader × Bytes) :=
  (MsgHeader.ofBytes msg).map fun ⟨h, rest⟩ => ⟨⟨h⟩, rest⟩

@[simp]
theorem ofBytes_toBytes_append (h : ReqMsgHeader) (rest : Bytes)
    : ofBytes (h.toBytes ++ rest) = some ⟨h, rest⟩ := by
  simp [ofBytes, toBytes]

end ReqMsgHeader

namespace RspMsgHeader

def size : Nat := 12

-- `rpc_result_` is followed by two bytes of padding
def toBytes (h : RspMsgHeader) : Bytes :=
  h.toMsgHeader.toBytes ++ bytesOfUInt16 h.rpcResult.code ++ [0, 0]

def ofBytes (msg : Bytes) : Option (RspMsgHeader × Bytes) :=
  match MsgHeader.ofBytes msg with
  | some ⟨h, r0 :: r1 :: _ :: _ :: rest⟩ => some ⟨⟨h, ⟨uint16OfBytes r0 r1⟩⟩, rest⟩
  | _ => none

@[simp]
theorem ofBytes_toBytes_append (h : RspMsgHeader) (rest : Bytes)
    : ofBytes (h.toBytes ++ rest) = some ⟨h, rest⟩ := by
  simp only [toBytes, ofBytes, List.append_assoc, MsgHeader.ofBytes_toBytes_append]
  simp [bytesOfUInt16, uint16OfBytes_bytesOfUInt16]

end RspMsgHeader

theorem MsgHeader.ofBytes_eq_none_iff (msg : Bytes) : ofBytes msg = none ↔ msg.length < 8 := by
  unfold ofBytes
  split
  . simp
  . next hshort =>
    simp only [true_iff]
    by_contra hlen
    match msg with
    | [] | [_] | [_, _] | [_, _, _] | [_, _, _, _] | [_, _, _, _, _] | [_, _, _, _, _, _]
    | [_, _, _, _, _, _, _] => simp at hlen
    | v :: m :: i0 :: i1 :: s0 :: s1 :: s2 :: s3 :: rest => exact hshort _ _ _ _ _ _ _ _ _ rfl

theorem ReqMsgHeader.ofBytes_eq_none_iff (msg : Bytes)
    : ofBytes msg = none ↔ msg.length < ReqMsgHeader.size := by
  simp [ofBytes, size, MsgHeader.ofBytes_eq_none_iff]

theorem MsgHeader.length_of_ofBytes {msg : Bytes} {h : MsgHeader} {rest : Bytes}
    (hmsg : ofBytes msg = some ⟨h, rest⟩)
    : msg.length = rest.length + 8 := by
  unfold ofBytes at hmsg
  split at hmsg
  . simp only [Option.some.injEq, Prod.mk.injEq] at hmsg
    simp [← hmsg.2]
  . simp at hmsg

theorem RspMsgHeader.ofBytes_eq_none_iff (msg : Bytes)
    : ofBytes msg = none ↔ msg.length < RspMsgHeader.size := by
  unfold ofBytes size
  split
  . next hmsg =>
    have := MsgHeader.length_of_ofBytes hmsg
    simp at this ⊢
    omega
  . next hshort =>
    simp only [true_iff]
    by_contra hlen
    cases hmsg : MsgHeader.ofBytes msg with
    | none =>
      have := (MsgHeader.ofBytes_eq_none_iff msg).mp hmsg
      omega
    | some hdr =>
      obtain ⟨h, rest⟩ := hdr
      have hrest := MsgHeader.length_of_ofBytes hmsg
      match rest with
      | [] | [_] | [_, _] | [_, _, _] =>
        simp at hrest
        omega
      | r0 :: r1 :: p0 :: p1 :: rest => exact hshort _ _ _ _ _ _ hmsg

theorem RspMsgHeader.length_of_ofBytes {msg : Bytes} {h : RspMsgHeader} {rest : Bytes}
    (hmsg : ofBytes msg = some ⟨h, rest⟩)
    : msg.length = rest.length + RspMsgHeader.size := by
  unfold ofBytes at hmsg
  split at hmsg
  . next hhdr =>
    have := MsgHeader.length_of_ofBytes hhdr
    simp only [Option.some.injEq, Prod.mk.injEq] at hmsg
    simp at this
    simp [← hmsg.2, this, size]
  . simp at hmsg

end MsgRpc
