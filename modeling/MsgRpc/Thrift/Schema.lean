import MsgRpc.Lib.StrictWeakOrder
import MsgRpc.Thrift.Protocol

/-!
This module contains the types a struct may be made of, `TTypeT` for each of them, and the functions
the macros of `___fields_of_struct___` expand to.
-/

namespace MsgRpc

open Reader

structure Optional (α : Type) where
  value : α
  isset : Bool := false

mutual

-- the C++ types `TTypeT` is defined for
inductive FType : Type → Type 1 where
  | bool : FType Bool
  | i8 : FType Int8
  | i16 : FType Int16
  | i32 : FType Int32
  | i64 : FType Int64
  | double : FType UInt64
  | string : FType Bytes
  | binary : FType Bytes
  | struct {σ : Type} (fields : Fields σ) : FType σ
  | vector {α : Type} (etype : FType α) : FType (List α)
  | set {α : Type} (etype : FType α) (less : Less α) : FType (OrderedSet less)
  | map {κ β : Type} (ktype : FType κ) (less : Less κ) (vtype : FType β)
    : FType (OrderedMap less β)

-- `___fields_of_struct___`
inductive Fields : Type → Type 1 where
  | nil : Fields Unit
  | required {α σ : Type} (fid : Int16) (ftype : FType α) (rest : Fields σ) : Fields (α × σ)
  | optional {α σ : Type} (fid : Int16) (ftype : FType α) (rest : Fields σ)
    : Fields (Optional α × σ)

end

-- `TTypeT<T>::value`
def FType.value (t : FType α) : TType :=
  match t with
  | .bool => .bool
  | .i8 => .byte
  | .i16 => .i16
  | .i32 => .i32
  | .i64 => .i64
  | .double => .double
  | .string => .string
  | .binary => .string
  | .struct _ => .struct
  | .vector _ => .list
  | .set _ _ => .set
  | .map _ _ _ => .map

mutual

-- the default constructor
def FType.dflt (t : FType α) : α :=
  match t with
  | .bool => false
  | .i8 => 0
  | .i16 => 0
  | .i32 => 0
  | .i64 => 0
  | .double => 0
  | .string => []
  | .binary => []
  | .struct fields => fields.dflt
  | .vector _ => []
  | .set _ _ => .empty
  | .map _ _ _ => .empty

def Fields.dflt (fields : Fields σ) : σ :=
  match fields with
  | .nil => ()
  | .required _ ftype rest => ⟨ftype.dflt, rest.dflt⟩
  | .optional _ ftype rest => ⟨{ value := ftype.dflt }, rest.dflt⟩

end

mutual

-- `operator ==`
def FType.eq (t : FType α) (x y : α) : Bool :=
  match t with
  | .bool => x == y
  | .i8 => x == y
  | .i16 => x == y
  | .i32 => x == y
  | .i64 => x == y
  | .double => x == y
  | .string => x == y
  | .binary => x == y
  | .struct fields => fields.eq x y
  | .vector etype => x.isEqv y etype.eq
  | .set etype _ => x.elems.isEqv y.elems etype.eq
  | .map ktype _ vtype =>
    x.entries.isEqv y.entries fun p q => ktype.eq p.1 q.1 && vtype.eq p.2 q.2

def Fields.eq (fields : Fields σ) (x y : σ) : Bool :=
  match fields with
  | .nil => true
  | .required _ ftype rest =>
    if !ftype.eq x.1 y.1 then false
    else rest.eq x.2 y.2
  | .optional _ ftype rest =>
    if x.1.isset != y.1.isset then false
    else if x.1.isset && !ftype.eq x.1.value y.1.value then false
    else rest.eq x.2 y.2

end

-- the body of the loop in the generated `read`, without the end of the field
def readFields (readCase : TType → Int16 → σ → List Int16 → Reader UInt8 (σ × List Int16))
    (proto : TProtocol) (n : Nat) (this : σ) (isset : List Int16)
    : Reader UInt8 (σ × List Int16) :=
  match n with
  | 0 => failure
  | n + 1 => do
    let ⟨ftype, fid⟩ ← proto.fieldBegin.read
    if ftype = .stop then
      return ⟨this, isset⟩
    else
      let ⟨this, isset⟩ ← readCase ftype fid this isset
      proto.fieldEnd.read
      readFields readCase proto n this isset

-- the checks of the generated `read` that all required fields have been received
def Fields.received (fields : Fields σ) (isset : List Int16) : Bool :=
  match fields with
  | .nil => true
  | .required fid _ rest => isset.contains fid && rest.received isset
  | .optional _ _ rest => rest.received isset

section Codec

variable (proto : TProtocol)

mutual

/--
`TTypeT<T>::write`, `depth` is what is left of the recursion limit.
-/
def FType.write (t : FType α) (depth : Nat) (x : α) : Option Bytes :=
  match t with
  | .bool => some (proto.bool.write x)
  | .i8 => some (proto.byte.write x)
  | .i16 => some (proto.i16.write x)
  | .i32 => some (proto.i32.write x)
  | .i64 => some (proto.i64.write x)
  | .double => some (proto.double.write x)
  | .string => some (proto.string.write x)
  | .binary => some (proto.string.write x)
  | .struct fields =>
    match depth with
    | 0 => none
    | depth + 1 => do
      let buf ← fields.write depth x
      return proto.structBegin.write () ++ (buf ++ (proto.fieldStop ++ proto.structEnd.write ()))
  | .vector etype => do
    let buf ← writeAll (etype.write depth) x
    return proto.listBegin.write (etype.value, UInt32.ofNat x.length)
      ++ (buf ++ proto.listEnd.write ())
  | .set etype _ => do
    let buf ← writeAll (etype.write depth) x.elems
    return proto.setBegin.write (etype.value, UInt32.ofNat x.elems.length)
      ++ (buf ++ proto.setEnd.write ())
  | .map ktype _ vtype => do
    let buf ← writeAll (fun p => do
      let key ← ktype.write depth p.1
      let val ← vtype.write depth p.2
      return key ++ val) x.entries
    return proto.mapBegin.write (ktype.value, vtype.value, UInt32.ofNat x.entries.length)
      ++ (buf ++ proto.mapEnd.write ())

def Fields.write (fields : Fields σ) (depth : Nat) (this : σ) : Option Bytes :=
  match fields with
  | .nil => some []
  | .required fid ftype rest => do
    let buf ← ftype.write depth this.1
    let bufs ← rest.write depth this.2
    return proto.fieldBegin.write (ftype.value, fid) ++ (buf ++ (proto.fieldEnd.write () ++ bufs))
  | .optional fid ftype rest =>
    if this.1.isset then do
      let buf ← ftype.write depth this.1.value
      let bufs ← rest.write depth this.2
      return proto.fieldBegin.write (ftype.value, fid) ++ (buf ++ (proto.fieldEnd.write () ++ bufs))
    else
      rest.write depth this.2

end

mutual

/--
`TTypeT<T>::read` into `x`. An exception ends it.
-/
def FType.read (t : FType α) (depth : Nat) (x : α) : Reader UInt8 α :=
  match t with
  | .bool => proto.bool.read
  | .i8 => proto.byte.read
  | .i16 => proto.i16.read
  | .i32 => proto.i32.read
  | .i64 => proto.i64.read
  | .double => proto.double.read
  | .string => proto.string.read
  | .binary => proto.readBinary
  | .struct fields =>
    match depth with
    | 0 => failure
    | depth + 1 => do
      proto.structBegin.read
      -- every field takes at least a byte
      let ⟨this, isset⟩ ← do
        let s ← get
        readFields (fields.readCase depth) proto (s.length + 1) x []
      proto.structEnd.read
      if fields.received isset then return this else failure
  | .vector etype => do
    let ⟨_, size⟩ ← proto.listBegin.read
    let xs ← iterate (fun xs => do
      let elem ← etype.read depth etype.dflt
      return xs ++ [elem]) size.toNat []
    proto.listEnd.read
    return xs
  | .set etype _ => do
    let ⟨_, size⟩ ← proto.setBegin.read
    let s ← iterate (fun s => do
      let elem ← etype.read depth etype.dflt
      return s.insert elem) size.toNat x
    proto.setEnd.read
    return s
  | .map ktype _ vtype => do
    let ⟨_, _, size⟩ ← proto.mapBegin.read
    let m ← iterate (fun m => do
      let key ← ktype.read depth ktype.dflt
      let val ← vtype.read depth ((m.find key).getD vtype.dflt)
      return m.put key val) size.toNat .empty
    proto.mapEnd.read
    return m

/--
The `switch` in the generated `read`. `isset` holds the required fields that have been received.
-/
def Fields.readCase (fields : Fields σ) (depth : Nat) (ftype : TType) (fid : Int16) (this : σ)
    (isset : List Int16) : Reader UInt8 (σ × List Int16) :=
  match fields with
  | .nil => do
    proto.skip ftype
    return ⟨this, isset⟩
  | .required fid' ftype' rest =>
    if fid = fid' then
      if ftype = ftype'.value then do
        let x ← ftype'.read depth this.1
        return ⟨⟨x, this.2⟩, fid :: isset⟩
      else do
        proto.skip ftype
        return ⟨this, isset⟩
    else do
      let ⟨others, isset⟩ ← rest.readCase depth ftype fid this.2 isset
      return ⟨⟨this.1, others⟩, isset⟩
  | .optional fid' ftype' rest =>
    if fid = fid' then
      if ftype = ftype'.value then do
        let x ← ftype'.read depth this.1.value
        return ⟨⟨{ value := x, isset := true }, this.2⟩, isset⟩
      else do
        proto.skip ftype
        return ⟨this, isset⟩
    else do
      let ⟨others, isset⟩ ← rest.readCase depth ftype fid this.2 isset
      return ⟨⟨this.1, others⟩, isset⟩

end

end Codec
end MsgRpc
