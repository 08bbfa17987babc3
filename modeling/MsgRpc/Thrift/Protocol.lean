import MsgRpc.Core.Types
import MsgRpc.Lib.Reader

/-!
This module contains what the generated code uses of Thrift's `TProtocol`, and the binary protocol
as an instance of it.
-/

namespace MsgRpc

open Reader

/--
The types of values a `TProtocol` transports. `stop` marks the end of a struct.
-/
inductive TType where
  | stop
  | bool
  | byte
  | double
  | i16
  | i32
  | i64
  | string
  | struct
  | map
  | set
  | list
  deriving DecidableEq, Repr

/--
`writeX` and `readX` of a protocol on a memory buffer, and its recursion limit. Names of structs and
fields are not transported. A double is known by its bits.
-/
structure TProtocol where
  bool : Wire UInt8 Bool
  byte : Wire UInt8 Int8
  i16 : Wire UInt8 Int16
  i32 : Wire UInt8 Int32
  i64 : Wire UInt8 Int64
  double : Wire UInt8 UInt64
  string : Wire UInt8 Bytes
  readBinary : Reader UInt8 Bytes
  structBegin : Wire UInt8 Unit
  structEnd : Wire UInt8 Unit
  fieldBegin : Wire UInt8 (TType × Int16)
  fieldEnd : Wire UInt8 Unit
  fieldStop : Bytes
  listBegin : Wire UInt8 (TType × UInt32)
  listEnd : Wire UInt8 Unit
  setBegin : Wire UInt8 (TType × UInt32)
  setEnd : Wire UInt8 Unit
  mapBegin : Wire UInt8 (TType × TType × UInt32)
  mapEnd : Wire UInt8 Unit
  skip : TType → Reader UInt8 Unit
  recursionLimit : Nat

/--
Every read undoes the matching write. The sizes of strings and containers travel as `i32`.
-/
structure TProtocol.Lawful (proto : TProtocol) : Prop where
  bool : ∀ b, Reads proto.bool.read (proto.bool.write b) b
  byte : ∀ b, Reads proto.byte.read (proto.byte.write b) b
  i16 : ∀ i, Reads proto.i16.read (proto.i16.write i) i
  i32 : ∀ i, Reads proto.i32.read (proto.i32.write i) i
  i64 : ∀ i, Reads proto.i64.read (proto.i64.write i) i
  double : ∀ d, Reads proto.double.read (proto.double.write d) d
  string : ∀ s : Bytes, s.length < 2 ^ 31 → Reads proto.string.read (proto.string.write s) s
  readBinary : ∀ s : Bytes, s.length < 2 ^ 31 → Reads proto.readBinary (proto.string.write s) s
  structBegin : Reads proto.structBegin.read (proto.structBegin.write ()) ()
  structEnd : Reads proto.structEnd.read (proto.structEnd.write ()) ()
  fieldBegin : ∀ ftype fid, ftype ≠ .stop
    → Reads proto.fieldBegin.read (proto.fieldBegin.write (ftype, fid)) (ftype, fid)
  fieldEnd : Reads proto.fieldEnd.read (proto.fieldEnd.write ()) ()
  fieldStop : ∃ fid, Reads proto.fieldBegin.read proto.fieldStop (.stop, fid)
  listBegin : ∀ etype (size : UInt32), size.toNat < 2 ^ 31
    → Reads proto.listBegin.read (proto.listBegin.write (etype, size)) (etype, size)
  listEnd : Reads proto.listEnd.read (proto.listEnd.write ()) ()
  setBegin : ∀ etype (size : UInt32), size.toNat < 2 ^ 31
    → Reads proto.setBegin.read (proto.setBegin.write (etype, size)) (etype, size)
  setEnd : Reads proto.setEnd.read (proto.setEnd.write ()) ()
  mapBegin : ∀ ktype vtype (size : UInt32), size.toNat < 2 ^ 31
    → Reads proto.mapBegin.read (proto.mapBegin.write (ktype, vtype, size)) (ktype, vtype, size)
  mapEnd : Reads proto.mapEnd.read (proto.mapEnd.write ()) ()

theorem toNat_size {n : Nat} (h : n < 2 ^ 31) : (UInt32.ofNat n).toNat = n :=
  UInt32.toNat_ofNat_of_lt' (Nat.lt_trans h (by decide))

-- two headers that differ cannot both be empty, and neither is
theorem TProtocol.Lawful.fieldBegin_pos {proto : TProtocol} (h : proto.Lawful) {ftype : TType}
    (hftype : ftype ≠ .stop) (fid : Int16)
    : 0 < (proto.fieldBegin.write (ftype, fid)).length := by
  obtain ⟨fid', hstop⟩ := h.fieldStop
  have hread := h.fieldBegin ftype fid hftype
  apply List.length_pos_of_ne_nil
  intro hnil
  rw [hnil] at hread
  have heq := hread.eq_of_nil hstop
  simp only [Prod.mk.injEq] at heq
  exact hftype heq.1

end MsgRpc
