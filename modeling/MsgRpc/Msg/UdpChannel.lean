import Mathlib
import MsgRpc.Core.Types

/-!
This module contains the receiving side of the udp channel, whose buffer is used again for every
datagram, and which bytes of it the message handlers are led to.
-/

namespace MsgRpc

def recvBufferSize : Nat := 10240

structure Datagram where
  bytes : Bytes
  length_le : bytes.length ≤ recvBufferSize
  truncated : Bool := false

inductive ErrorCode where
  | success
  | messageSize
  | other
  deriving DecidableEq

def Datagram.error (d : Datagram) : ErrorCode :=
  if d.truncated then .messageSize else .success

-- what `on_msg_func_` is called with, `msg` is an offset into the receive buffer
structure OnMsg where
  msgId : MsgIdT
  msg : Nat
  len : UInt64
  deriving DecidableEq

structure UdpChannel where
  recvBuffer : Bytes
  length_recvBuffer : recvBuffer.length = recvBufferSize

namespace UdpChannel

/--
The bytes behind the datagram are those of earlier ones.
-/
def store (ch : UdpChannel) (d : Datagram) : UdpChannel where
  recvBuffer := d.bytes ++ ch.recvBuffer.drop d.bytes.length
  length_recvBuffer := by
    have hlength := ch.length_recvBuffer
    have hle := d.length_le
    rw [List.length_append, List.length_drop]
    omega

def handleReceive (ch : UdpChannel) (error : ErrorCode) (bytesTransferred : UInt64)
    : Option OnMsg :=
  if error = .success ∨ error = .messageSize then
    some {
      msgId := uint16OfBytes (ch.recvBuffer.getD 0 0) (ch.recvBuffer.getD 1 0)
      msg := 2
      len := bytesTransferred - 2
    }
  else
    none

def receive (ch : UdpChannel) (d : Datagram) : Option OnMsg :=
  (ch.store d).handleReceive d.error (UInt64.ofNat d.bytes.length)

def run (ch : UdpChannel) (ds : List Datagram) : List (Datagram × Option OnMsg) :=
  match ds with
  | [] => []
  | d :: ds => ⟨d, ch.receive d⟩ :: (ch.store d).run ds

end UdpChannel

/--
The offsets a handler is led to by a header of the size `header` and the payload behind it, the
length of which the decoder takes as a `uint32_t`.
-/
def offsetsUsed (header : UInt64) (m : OnMsg) : Finset Nat :=
  if m.len < header then
    ∅
  else
    Finset.Ico m.msg (m.msg + header.toNat)
      ∪ Finset.Ico (m.msg + header.toNat) (m.msg + header.toNat + (m.len - header).toUInt32.toNat)

def ReqMsgHandler.offsetsUsed (m : OnMsg) : Finset Nat :=
  MsgRpc.offsetsUsed 8 m

def RspMsgHandler.offsetsUsed (m : OnMsg) : Finset Nat :=
  MsgRpc.offsetsUsed 12 m

/--
What is passed on for a datagram leads the handlers to no other bytes.
-/
structure SeesOnly (d : Datagram) (onMsg : Option OnMsg) : Prop where
  len_le : ∀ m, onMsg = some m → m.len.toNat ≤ d.bytes.length - 2
  request : ∀ m, onMsg = some m → ∀ p ∈ ReqMsgHandler.offsetsUsed m, p < d.bytes.length
  response : ∀ m, onMsg = some m → ∀ p ∈ RspMsgHandler.offsetsUsed m, p < d.bytes.length
  noHandler : d.bytes.length < 2 → onMsg = none

theorem lt_of_mem_offsetsUsed {header : UInt64} {m : OnMsg} {p : Nat}
    (h : p ∈ offsetsUsed header m)
    : p < m.msg + m.len.toNat := by
  unfold offsetsUsed at h
  split at h
  . simp at h
  . next hlen =>
    have hle : header.toNat ≤ m.len.toNat := by
      rw [UInt64.lt_iff_toNat_lt] at hlen
      omega
    have hnarrow : (m.len - header).toUInt32.toNat ≤ m.len.toNat - header.toNat := by
      rw [UInt64.toNat_toUInt32, UInt64.toNat_sub_of_le _ _ (UInt64.le_iff_toNat_le.mpr hle)]
      exact Nat.mod_le _ _
    rw [Finset.mem_union, Finset.mem_Ico, Finset.mem_Ico] at h
    omega

namespace UdpChannel

theorem receive_eq (ch : UdpChannel) (d : Datagram)
    : ∃ msgId, ch.receive d = some ⟨msgId, 2, UInt64.ofNat d.bytes.length - 2⟩ := by
  unfold receive handleReceive Datagram.error
  cases d.truncated <;> exact ⟨_, rfl⟩

theorem toNat_length (d : Datagram) : (UInt64.ofNat d.bytes.length).toNat = d.bytes.length := by
  have hle := d.length_le
  rw [UInt64.toNat_ofNat', Nat.mod_eq_of_lt]
  unfold recvBufferSize at hle
  omega

theorem toNat_len {d : Datagram} (h : 2 ≤ d.bytes.length)
    : (UInt64.ofNat d.bytes.length - 2).toNat = d.bytes.length - 2 := by
  have hle : (2 : UInt64) ≤ UInt64.ofNat d.bytes.length := by
    rw [UInt64.le_iff_toNat_le, toNat_length]
    exact h
  rw [UInt64.toNat_sub_of_le _ _ hle, toNat_length]
  rfl

-- the length wraps around where there is no whole message id
theorem toNat_len_of_short {d : Datagram} (h : d.bytes.length < 2)
    : (UInt64.ofNat d.bytes.length - 2).toNat = 2 ^ 64 - 2 + d.bytes.length := by
  rw [UInt64.toNat_sub, toNat_length]
  change (2 ^ 64 - 2 + d.bytes.length) % 2 ^ 64 = _
  omega

theorem seesOnly_iff (ch : UdpChannel) (d : Datagram)
    : SeesOnly d (ch.receive d) ↔ 2 ≤ d.bytes.length := by
  obtain ⟨msgId, hreceive⟩ := ch.receive_eq d
  rw [hreceive]
  constructor
  . intro h
    by_contra hshort
    have hnone := h.noHandler (by omega)
    contradiction
  . intro h
    have hlen := toNat_len h
    have huses : ∀ header, ∀ p ∈ offsetsUsed header ⟨msgId, 2, UInt64.ofNat d.bytes.length - 2⟩,
        p < d.bytes.length := by
      intro header p hp
      have hlt := lt_of_mem_offsetsUsed hp
      rw [hlen] at hlt
      dsimp only at hlt
      omega
    refine ⟨?_, ?_, ?_, fun hshort => by omega⟩ <;> intro m hm <;>
      rw [Option.some.injEq] at hm <;> subst hm
    . exact hlen.le
    . exact huses _
    . exact huses _

theorem handed_eq (ch : UdpChannel) {d : Datagram} {m : OnMsg} (h : 2 ≤ d.bytes.length)
    (hm : ch.receive d = some m)
    : ((ch.store d).recvBuffer.drop m.msg).take m.len.toNat = d.bytes.drop 2
      ∧ m.msgId = uint16OfBytes (d.bytes.getD 0 0) (d.bytes.getD 1 0) := by
  have hlen := toNat_len h
  have hmsg : m = ⟨uint16OfBytes ((ch.store d).recvBuffer.getD 0 0)
      ((ch.store d).recvBuffer.getD 1 0), 2, UInt64.ofNat d.bytes.length - 2⟩ := by
    unfold receive handleReceive Datagram.error at hm
    cases htruncated : d.truncated <;> simpa [htruncated] using hm.symm
  rw [hmsg]
  refine ⟨?_, ?_⟩
  . dsimp only
    rw [hlen, store, List.drop_append_of_le_length h, List.take_left' (by simp)]
  . dsimp only [store]
    rw [List.getD_append _ _ _ _ (by omega), List.getD_append _ _ _ _ (by omega)]

-- without a whole message id, the header and payload that a handler is led to are made up of what
-- is left in the buffer
theorem mem_offsetsUsed_of_short {d : Datagram} (h : d.bytes.length < 2) (msgId : MsgIdT) {p : Nat}
    (hp : 2 ≤ p) (hbuffer : p < recvBufferSize)
    : p ∈ ReqMsgHandler.offsetsUsed ⟨msgId, 2, UInt64.ofNat d.bytes.length - 2⟩ := by
  have hlen := toNat_len_of_short h
  generalize UInt64.ofNat d.bytes.length - 2 = len at hlen
  have h8 : (8 : UInt64).toNat = 8 := rfl
  have hle : (8 : UInt64) ≤ len := by
    rw [UInt64.le_iff_toNat_le, hlen, h8]
    omega
  have hpayload : (len - 8).toUInt32.toNat = 2 ^ 32 - 10 + d.bytes.length := by
    rw [UInt64.toNat_toUInt32, UInt64.toNat_sub_of_le _ _ hle, hlen, h8]
    omega
  unfold ReqMsgHandler.offsetsUsed MsgRpc.offsetsUsed
  rw [if_neg (UInt64.not_lt.mpr hle), Finset.mem_union, Finset.mem_Ico, Finset.mem_Ico, hpayload,
    h8]
  dsimp only
  unfold recvBufferSize at hbuffer
  omega

/--
What a run passes on leads the handlers to no earlier bytes if and only if every datagram holds a
message id.
-/
theorem run_seesOnly_iff (ch : UdpChannel) (ds : List Datagram)
    : (∀ x ∈ ch.run ds, SeesOnly x.1 x.2) ↔ ∀ d ∈ ds, 2 ≤ d.bytes.length := by
  induction ds generalizing ch with
  | nil => simp [run]
  | cons d ds ih =>
    unfold run
    rw [List.forall_mem_cons, List.forall_mem_cons, ih, seesOnly_iff]

/--
An empty datagram behind a request.
-/
theorem not_seesOnly_empty
    : ¬∀ (ch : UdpChannel) (ds : List Datagram), ∀ x ∈ ch.run ds, SeesOnly x.1 x.2 := by
  intro h
  let fresh : UdpChannel := ⟨List.replicate recvBufferSize 0, List.length_replicate⟩
  let request : Datagram := { bytes := [101, 0, 0, 1, 1, 0, 1, 0, 0, 0, 7], length_le := by decide }
  let empty : Datagram := { bytes := [], length_le := by decide }
  obtain ⟨msgId, hreceive⟩ := (fresh.store request).receive_eq empty
  have hsees := h fresh [request, empty] ⟨empty, (fresh.store request).receive empty⟩ (by simp [run])
  have hlt := hsees.request _ hreceive 2
    (mem_offsetsUsed_of_short (by decide) msgId (Nat.le_refl 2) (by decide))
  contradiction

end UdpChannel
end MsgRpc
