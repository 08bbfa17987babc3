import MsgRpc.Thrift.Protocol

/-!
This module contains the values any writer may put into an encoding, with the types it names in the
headers.
-/

namespace MsgRpc

open Reader

inductive TValue where
  | bool (b : Bool)
  | byte (i : Int8)
  | i16 (i : Int16)
  | i32 (i : Int32)
  | i64 (i : Int64)
  | double (bits : UInt64)
  | string (s : Bytes)
  | struct (fields : List (Int16 × TValue))
  | list (etype : TType) (elems : List TValue)
  | set (etype : TType) (elems : List TValue)
  | map (ktype vtype : TType) (entries : List (TValue × TValue))

namespace TValue

def type (v : TValue) : TType :=
  match v with
  | .bool _ => .bool
  | .byte _ => .byte
  | .i16 _ => .i16
  | .i32 _ => .i32
  | .i64 _ => .i64
  | .double _ => .double
  | .string _ => .string
  | .struct _ => .struct
  | .list _ _ => .list
  | .set _ _ => .set
  | .map _ _ _ => .map

theorem type_ne_stop (v : TValue) : v.type ≠ .stop := by
  cases v <;> simp [type]

/--
Field ids occur once in a struct. Elements have the type the header of their container names, sizes
travel as `i32`.
-/
inductive WellFormed : TValue → Prop where
  | bool (b : Bool) : WellFormed (.bool b)
  | byte (i : Int8) : WellFormed (.byte i)
  | i16 (i : Int16) : WellFormed (.i16 i)
  | i32 (i : Int32) : WellFormed (.i32 i)
  | i64 (i : Int64) : WellFormed (.i64 i)
  | double (bits : UInt64) : WellFormed (.double bits)
  | string {s : Bytes} (hsize : s.length < 2 ^ 31) : WellFormed (.string s)
  | struct {fields : List (Int16 × TValue)} (hids : (fields.map Prod.fst).Nodup)
      (hfields : ∀ p ∈ fields, WellFormed p.2)
    : WellFormed (.struct fields)
  | list {etype : TType} {elems : List TValue} (hsize : elems.length < 2 ^ 31)
      (htype : ∀ v ∈ elems, v.type = etype) (helems : ∀ v ∈ elems, WellFormed v)
    : WellFormed (.list etype elems)
  | set {etype : TType} {elems : List TValue} (hsize : elems.length < 2 ^ 31)
      (htype : ∀ v ∈ elems, v.type = etype) (helems : ∀ v ∈ elems, WellFormed v)
    : WellFormed (.set etype elems)
  | map {ktype vtype : TType} {entries : List (TValue × TValue)} (hsize : entries.length < 2 ^ 31)
      (htype : ∀ p ∈ entries, p.1.type = ktype ∧ p.2.type = vtype)
      (hkeys : ∀ p ∈ entries, WellFormed p.1) (hvals : ∀ p ∈ entries, WellFormed p.2)
    : WellFormed (.map ktype vtype entries)

section Encode

variable (proto : TProtocol)

mutual

def encode (v : TValue) : Bytes :=
  match v with
  | .bool b => proto.bool.write b
  | .byte i => proto.byte.write i
  | .i16 i => proto.i16.write i
  | .i32 i => proto.i32.write i
  | .i64 i => proto.i64.write i
  | .double bits => proto.double.write bits
  | .string s => proto.string.write s
  | .struct fields =>
    proto.structBegin.write () ++ (encodeFields fields
      ++ (proto.fieldStop ++ proto.structEnd.write ()))
  | .list etype elems =>
    proto.listBegin.write (etype, UInt32.ofNat elems.length)
      ++ (encodeElems elems ++ proto.listEnd.write ())
  | .set etype elems =>
    proto.setBegin.write (etype, UInt32.ofNat elems.length)
      ++ (encodeElems elems ++ proto.setEnd.write ())
  | .map ktype vtype entries =>
    proto.mapBegin.write (ktype, vtype, UInt32.ofNat entries.length)
      ++ (encodeEntries entries ++ proto.mapEnd.write ())

def encodeFields (fields : List (Int16 × TValue)) : Bytes :=
  match fields with
  | [] => []
  | (fid, v) :: rest =>
    proto.fieldBegin.write (v.type, fid)
      ++ (v.encode ++ (proto.fieldEnd.write () ++ encodeFields rest))

def encodeElems (elems : List TValue) : Bytes :=
  match elems with
  | [] => []
  | v :: rest => v.encode ++ encodeElems rest

def encodeEntries (entries : List (TValue × TValue)) : Bytes :=
  match entries with
  | [] => []
  | (key, val) :: rest => key.encode ++ (val.encode ++ encodeEntries rest)

end

theorem encodeElems_eq (elems : List TValue)
    : encodeElems proto elems = elems.flatMap (encode proto) := by
  induction elems with
  | nil => rfl
  | cons v rest ih => simp [encodeElems, ih]

theorem encodeEntries_eq (entries : List (TValue × TValue))
    : encodeEntries proto entries
        = entries.flatMap (fun p => p.1.encode proto ++ p.2.encode proto) := by
  induction entries with
  | nil => rfl
  | cons p rest ih =>
    rw [List.flatMap_cons, ← ih, encodeEntries, List.append_assoc]

theorem length_le_encodeFields {proto : TProtocol} (hproto : proto.Lawful)
    (fs : List (Int16 × TValue))
    : fs.length ≤ (encodeFields proto fs).length := by
  induction fs with
  | nil => exact Nat.zero_le _
  | cons p fs ih =>
    have hpos := hproto.fieldBegin_pos p.2.type_ne_stop p.1
    simp only [encodeFields, List.length_cons, List.length_append]
    omega

end Encode

section Parts

/--
`v` stands in `w` itself, not inside of another value in it.
-/
inductive IsPart : TValue → TValue → Prop where
  | field {fields : List (Int16 × TValue)} {p : Int16 × TValue} (hmem : p ∈ fields)
    : IsPart p.2 (.struct fields)
  | listElem {etype : TType} {elems : List TValue} {v : TValue} (hmem : v ∈ elems)
    : IsPart v (.list etype elems)
  | setElem {etype : TType} {elems : List TValue} {v : TValue} (hmem : v ∈ elems)
    : IsPart v (.set etype elems)
  | key {ktype vtype : TType} {entries : List (TValue × TValue)} {p : TValue × TValue}
      (hmem : p ∈ entries)
    : IsPart p.1 (.map ktype vtype entries)
  | val {ktype vtype : TType} {entries : List (TValue × TValue)} {p : TValue × TValue}
      (hmem : p ∈ entries)
    : IsPart p.2 (.map ktype vtype entries)

theorem WellFormed.part {v w : TValue} (hw : w.WellFormed) (hpart : v.IsPart w)
    : v.WellFormed := by
  cases hpart with
  | @field fields p hmem =>
    cases hw with
    | struct _ hfields => exact hfields p hmem
  | listElem hmem =>
    cases hw with
    | list _ _ helems => exact helems v hmem
  | setElem hmem =>
    cases hw with
    | set _ _ helems => exact helems v hmem
  | @key ktype vtype entries p hmem =>
    cases hw with
    | map _ _ hkeys _ => exact hkeys p hmem
  | @val ktype vtype entries p hmem =>
    cases hw with
    | map _ _ _ hvals => exact hvals p hmem

mutual

def depth (v : TValue) : Nat :=
  match v with
  | .struct fields => depthFields fields + 1
  | .list _ elems => depthElems elems + 1
  | .set _ elems => depthElems elems + 1
  | .map _ _ entries => depthEntries entries + 1
  | _ => 1

def depthFields (fields : List (Int16 × TValue)) : Nat :=
  match fields with
  | [] => 0
  | (_, v) :: rest => max v.depth (depthFields rest)

def depthElems (elems : List TValue) : Nat :=
  match elems with
  | [] => 0
  | v :: rest => max v.depth (depthElems rest)

def depthEntries (entries : List (TValue × TValue)) : Nat :=
  match entries with
  | [] => 0
  | (key, val) :: rest => max (max key.depth val.depth) (depthEntries rest)

end

theorem depth_pos (v : TValue) : 1 ≤ v.depth := by
  cases v <;> simp [depth]

theorem depth_le_depthFields {fields : List (Int16 × TValue)} {p : Int16 × TValue}
    (hmem : p ∈ fields)
    : p.2.depth ≤ depthFields fields := by
  induction fields with
  | nil => simp at hmem
  | cons q fields ih =>
    simp only [depthFields, le_max_iff]
    cases List.mem_cons.mp hmem with
    | inl heq =>
      left
      rw [heq]
    | inr htail => exact Or.inr (ih htail)

theorem depth_le_depthElems {elems : List TValue} {v : TValue} (hmem : v ∈ elems)
    : v.depth ≤ depthElems elems := by
  induction elems with
  | nil => simp at hmem
  | cons w elems ih =>
    simp only [depthElems, le_max_iff]
    cases List.mem_cons.mp hmem with
    | inl heq =>
      left
      rw [heq]
    | inr htail => exact Or.inr (ih htail)

theorem depth_le_depthEntries {entries : List (TValue × TValue)} {p : TValue × TValue}
    (hmem : p ∈ entries)
    : p.1.depth ≤ depthEntries entries ∧ p.2.depth ≤ depthEntries entries := by
  induction entries with
  | nil => simp at hmem
  | cons q entries ih =>
    simp only [depthEntries, le_max_iff]
    cases List.mem_cons.mp hmem with
    | inl heq =>
      rw [heq]
      exact ⟨Or.inl (Or.inl (Nat.le_refl _)), Or.inl (Or.inr (Nat.le_refl _))⟩
    | inr htail => exact ⟨Or.inr (ih htail).1, Or.inr (ih htail).2⟩

theorem IsPart.depth_lt {v w : TValue} (hpart : v.IsPart w) : v.depth < w.depth := by
  cases hpart with
  | field hmem => exact Nat.lt_succ_of_le (depth_le_depthFields hmem)
  | listElem hmem => exact Nat.lt_succ_of_le (depth_le_depthElems hmem)
  | setElem hmem => exact Nat.lt_succ_of_le (depth_le_depthElems hmem)
  | key hmem => exact Nat.lt_succ_of_le (depth_le_depthEntries hmem).1
  | val hmem => exact Nat.lt_succ_of_le (depth_le_depthEntries hmem).2

end Parts
end TValue

/--
`skip` consumes exactly one value of the type it is given, if this is one of those inside of `w`.
-/
def TProtocol.Skips (proto : TProtocol) (w : TValue) : Prop :=
  ∀ v, Relation.TransGen TValue.IsPart v w → Reads (proto.skip v.type) (v.encode proto) ()

theorem TProtocol.Skips.part {proto : TProtocol} {v w : TValue} (h : proto.Skips w)
    (hpart : v.IsPart w)
    : proto.Skips v := by
  intro u hu
  exact h u (hu.tail hpart)

end MsgRpc
