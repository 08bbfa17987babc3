import MsgRpc.Core.Types

/-!
This module contains the interface `ThriftEncoder` and `ThriftDecoder` offer to the rest of the
library, on top of the `write` and `read` of one C++ type.
-/

namespace MsgRpc

/--
`write` and `read` of a type over a binary protocol on a memory buffer, `none` is an exception.
-/
structure Codec (V : Type) where
  write : V → Option Bytes
  read : Bytes → Option V

namespace Codec

def Lawful (codec : Codec V) : Prop :=
  ∀ (v : V) (buf : Bytes),
    codec.write v = some buf → buf.length < 4294967296 ∧ codec.read buf = some v

-- a single byte, the smallest lawful codec
def byte : Codec UInt8 where
  write v := some [v]
  read
    | [v] => some v
    | _ => none

theorem lawful_byte : byte.Lawful := by
  intro v buf h
  simp only [byte, Option.some.injEq] at h
  rw [← h]
  exact ⟨by simp, rfl⟩

end Codec

/--
`ThriftEncoder::encode`: fails on an exception and on an encoding of no bytes.
-/
def ThriftEncoder.encode (codec : Codec V) (v : V) : Option Bytes :=
  match codec.write v with
  | some buf => if buf.length = 0 then none else some buf
  | none => none

/--
`ThriftDecoder::decode`, which takes the length of its buffer as a `uint32_t`.
-/
def ThriftDecoder.decode (codec : Codec V) (buf : Bytes) : Option V :=
  codec.read (buf.take (buf.length % 4294967296))

theorem ThriftEncoder.length_pos_of_encode {codec : Codec V} {v : V} {buf : Bytes}
    (h : encode codec v = some buf)
    : 0 < buf.length := by
  unfold encode at h
  split at h
  . split at h
    . simp at h
    . simp only [Option.some.injEq] at h
      subst h
      omega
  . simp at h

theorem ThriftDecoder.decode_encode {codec : Codec V} (hcodec : codec.Lawful) {v : V} {buf : Bytes}
    (h : ThriftEncoder.encode codec v = some buf)
    : decode codec buf = some v := by
  have hwrite : codec.write v = some buf := by
    unfold ThriftEncoder.encode at h
    split at h
    . split at h
      . simp at h
      . next hw _ => rw [hw, h]
    . simp at h
  obtain ⟨hlen, hread⟩ := hcodec v buf hwrite
  simp [decode, Nat.mod_eq_of_lt hlen, hread]

end MsgRpc
