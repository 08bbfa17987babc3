import MsgRpc.Thrift.Protocol

/-!
This module contains the binary protocol: numbers are written big endian, headers as the codes of
their types and sizes, structs and fields have no ends.
-/

namespace MsgRpc

open Reader

namespace TBinaryProtocol

section BigEndian

def bigEndian (n : Nat) (x : Nat) : Bytes :=
  match n with
  | 0 => []
  | n + 1 => bigEndian n (x / 256) ++ [UInt8.ofNat (x % 256)]

def readByte : Reader UInt8 UInt8
  | [] => none
  | b :: rest => some (b, rest)

-- `n` bytes behind those that make `x`
def readBigEndian (n : Nat) (x : Nat) : Reader UInt8 Nat :=
  match n with
  | 0 => pure x
  | n + 1 => do
    let b ← readByte
    readBigEndian n (x * 256 + b.toNat)

theorem reads_byte (b : UInt8) : Reads readByte [b] b := by
  intro rest
  rfl

theorem length_bigEndian (n x : Nat) : (bigEndian n x).length = n := by
  induction n generalizing x with
  | zero => rfl
  | succ n ih => simp [bigEndian, ih]

theorem readBigEndian_add (n m x : Nat)
    : readBigEndian (n + m) x = (do let y ← readBigEndian n x; readBigEndian m y) := by
  induction n generalizing x with
  | zero =>
    rw [Nat.zero_add]
    rfl
  | succ n ih =>
    rw [Nat.add_right_comm]
    simp only [readBigEndian, ih, bind_assoc]

theorem reads_bigEndian (n : Nat) (x y : Nat)
    : Reads (readBigEndian n y) (bigEndian n x) (y * 256 ^ n + x % 256 ^ n) := by
  induction n generalizing x y with
  | zero =>
    simp only [bigEndian, readBigEndian, pow_zero, Nat.mul_one, Nat.mod_one, Nat.add_zero]
    exact Reads.pure y
  | succ n ih =>
    rw [readBigEndian_add]
    unfold bigEndian
    apply (ih (x / 256) y).bind
    have hvalue : (y * 256 ^ n + x / 256 % 256 ^ n) * 256 + (UInt8.ofNat (x % 256)).toNat
        = y * 256 ^ (n + 1) + x % 256 ^ (n + 1) := by
      rw [UInt8.toNat_ofNat_of_lt' (Nat.mod_lt _ (by decide)), pow_succ, Nat.mul_comm (256 ^ n) 256,
        Nat.mod_mul]
      ring
    rw [← hvalue]
    exact (reads_byte _).bind_nil (Reads.pure _)

def fixed (n : Nat) (toNat : α → Nat) (ofNat : Nat → α) : Wire UInt8 α where
  write a := bigEndian n (toNat a)
  read := do
    let x ← readBigEndian n 0
    return ofNat x

theorem reads_fixed {n : Nat} {toNat : α → Nat} {ofNat : Nat → α} {a : α}
    (hlt : toNat a < 256 ^ n) (ha : ofNat (toNat a) = a)
    : Reads (fixed n toNat ofNat).read ((fixed n toNat ofNat).write a) a := by
  have h := (reads_bigEndian n (toNat a) 0).bind_pure (g := ofNat)
  rwa [Nat.zero_mul, Nat.zero_add, Nat.mod_eq_of_lt hlt, ha] at h

end BigEndian

section Headers

def byteOfType (t : TType) : UInt8 :=
  match t with
  | .stop => 0
  | .bool => 2
  | .byte => 3
  | .double => 4
  | .i16 => 6
  | .i32 => 8
  | .i64 => 10
  | .string => 11
  | .struct => 12
  | .map => 13
  | .set => 14
  | .list => 15

def typeOfByte (b : UInt8) : Option TType :=
  match b with
  | 0 => some .stop
  | 2 => some .bool
  | 3 => some .byte
  | 4 => some .double
  | 6 => some .i16
  | 8 => some .i32
  | 10 => some .i64
  | 11 => some .string
  | 12 => some .struct
  | 13 => some .map
  | 14 => some .set
  | 15 => some .list
  | _ => none

def readType : Reader UInt8 TType := do
  let b ← readByte
  match typeOfByte b with
  | some t => return t
  | none => failure

-- a size, negative ones are refused
def readSize : Reader UInt8 UInt32 := do
  let size ← readBigEndian 4 0
  if size < 2 ^ 31 then return UInt32.ofNat size else failure

def readBytes (n : Nat) : Reader UInt8 Bytes :=
  fun s => if n ≤ s.length then some (s.take n, s.drop n) else none

def readString : Reader UInt8 Bytes := do
  let size ← readSize
  readBytes size.toNat

-- nothing on the wire
def nothing : Wire UInt8 Unit where
  write _ := []
  read := pure ()

def bool : Wire UInt8 Bool where
  write b := [if b then 1 else 0]
  read := do
    let b ← readByte
    return b ≠ 0

def string : Wire UInt8 Bytes where
  write s := bigEndian 4 s.length ++ s
  read := readString

def fieldBegin : Wire UInt8 (TType × Int16) where
  write h := byteOfType h.1 :: bigEndian 2 h.2.toUInt16.toNat
  read := do
    let ftype ← readType
    if ftype = .stop then
      return ⟨ftype, 0⟩
    else
      let fid ← readBigEndian 2 0
      return ⟨ftype, (UInt16.ofNat fid).toInt16⟩

def elemsBegin : Wire UInt8 (TType × UInt32) where
  write h := byteOfType h.1 :: bigEndian 4 h.2.toNat
  read := do
    let etype ← readType
    let size ← readSize
    return ⟨etype, size⟩

def mapBegin : Wire UInt8 (TType × TType × UInt32) where
  write h := byteOfType h.1 :: byteOfType h.2.1 :: bigEndian 4 h.2.2.toNat
  read := do
    let ktype ← readType
    let vtype ← readType
    let size ← readSize
    return ⟨ktype, vtype, size⟩

end Headers

def skipFields (skip : TType → Reader UInt8 Unit) (n : Nat) : Reader UInt8 Unit :=
  match n with
  | 0 => failure
  | n + 1 => do
    let ⟨ftype, _⟩ ← fieldBegin.read
    if ftype = .stop then
      return ()
    else
      skip ftype
      skipFields skip n

def skip (depth : Nat) (t : TType) : Reader UInt8 Unit :=
  match depth with
  | 0 => failure
  | depth + 1 =>
    match t with
    | .stop => failure
    | .bool => do let _ ← readBytes 1
    | .byte => do let _ ← readBytes 1
    | .double => do let _ ← readBytes 8
    | .i16 => do let _ ← readBytes 2
    | .i32 => do let _ ← readBytes 4
    | .i64 => do let _ ← readBytes 8
    | .string => do let _ ← readString
    | .struct => do
      let s ← get
      skipFields (skip depth) (s.length + 1)
    | .map => do
      let ⟨ktype, vtype, size⟩ ← mapBegin.read
      iterate (fun _ => do
        skip depth ktype
        skip depth vtype) size.toNat ()
    | .set => do
      let ⟨etype, size⟩ ← elemsBegin.read
      iterate (fun _ => skip depth etype) size.toNat ()
    | .list => do
      let ⟨etype, size⟩ ← elemsBegin.read
      iterate (fun _ => skip depth etype) size.toNat ()

end TBinaryProtocol

open TBinaryProtocol in
def TBinaryProtocol : TProtocol where
  bool := bool
  byte := fixed 1 (fun x : Int8 => x.toUInt8.toNat) fun n => (UInt8.ofNat n).toInt8
  i16 := fixed 2 (fun x : Int16 => x.toUInt16.toNat) fun n => (UInt16.ofNat n).toInt16
  i32 := fixed 4 (fun x : Int32 => x.toUInt32.toNat) fun n => (UInt32.ofNat n).toInt32
  i64 := fixed 8 (fun x : Int64 => x.toUInt64.toNat) fun n => (UInt64.ofNat n).toInt64
  double := fixed 8 (fun x : UInt64 => x.toNat) UInt64.ofNat
  string := string
  readBinary := readString
  structBegin := nothing
  structEnd := nothing
  fieldBegin := fieldBegin
  fieldEnd := nothing
  fieldStop := [byteOfType .stop]
  listBegin := elemsBegin
  listEnd := nothing
  setBegin := elemsBegin
  setEnd := nothing
  mapBegin := mapBegin
  mapEnd := nothing
  skip := skip 64
  recursionLimit := 64

namespace TBinaryProtocol

theorem reads_type (t : TType) : Reads readType [byteOfType t] t := by
  unfold readType
  apply (reads_byte _).bind_nil
  cases t <;> exact Reads.pure _

theorem reads_size {n : Nat} (h : n < 2 ^ 31)
    : Reads readSize (bigEndian 4 n) (UInt32.ofNat n) := by
  unfold readSize
  have hread := reads_bigEndian 4 n 0
  rw [Nat.zero_mul, Nat.zero_add, Nat.mod_eq_of_lt (by omega)] at hread
  apply hread.bind_nil
  rw [if_pos h]
  exact Reads.pure _

theorem reads_bytes (s : Bytes) : Reads (readBytes s.length) s s := by
  intro rest
  simp [readBytes]

theorem reads_string {s : Bytes} (h : s.length < 2 ^ 31)
    : Reads readString (string.write s) s := by
  apply (reads_size h).bind
  rw [UInt32.toNat_ofNat_of_lt' (Nat.lt_trans h (by decide))]
  exact reads_bytes s

theorem reads_nothing : Reads nothing.read (nothing.write ()) () :=
  Reads.pure ()

theorem reads_elemsBegin (etype : TType) {size : UInt32} (h : size.toNat < 2 ^ 31)
    : Reads elemsBegin.read (elemsBegin.write (etype, size)) (etype, size) := by
  have hsize := reads_size h
  rw [UInt32.ofNat_toNat] at hsize
  apply (reads_type etype).bind
  exact hsize.bind_pure

theorem reads_mapBegin (ktype vtype : TType) {size : UInt32} (h : size.toNat < 2 ^ 31)
    : Reads mapBegin.read (mapBegin.write (ktype, vtype, size)) (ktype, vtype, size) := by
  have hsize := reads_size h
  rw [UInt32.ofNat_toNat] at hsize
  apply (reads_type ktype).bind
  apply (reads_type vtype).bind
  exact hsize.bind_pure

theorem lawful : TBinaryProtocol.Lawful where
  bool b := by
    apply (reads_byte _).bind_nil
    cases b <;> exact Reads.pure _
  byte x := reads_fixed x.toUInt8.toNat_lt (by simp)
  i16 x := reads_fixed x.toUInt16.toNat_lt (by simp)
  i32 x := reads_fixed x.toUInt32.toNat_lt (by simp)
  i64 x := reads_fixed x.toUInt64.toNat_lt (by simp)
  double x := reads_fixed x.toNat_lt (by simp)
  string s := reads_string
  readBinary s := reads_string
  structBegin := reads_nothing
  structEnd := reads_nothing
  fieldBegin ftype fid hftype := by
    have hfid := reads_bigEndian 2 fid.toUInt16.toNat 0
    apply (reads_type ftype).bind
    rw [if_neg hftype]
    have hlt : fid.toUInt16.toNat < 256 ^ 2 := fid.toUInt16.toNat_lt
    rw [Nat.zero_mul, Nat.zero_add, Nat.mod_eq_of_lt hlt] at hfid
    have hid : (UInt16.ofNat fid.toUInt16.toNat).toInt16 = fid := by simp
    have hread := hfid.bind_pure (g := fun n => (ftype, (UInt16.ofNat n).toInt16))
    rwa [hid] at hread
  fieldEnd := reads_nothing
  fieldStop := by
    exists 0
    apply (reads_type .stop).bind_nil
    exact Reads.pure _
  listBegin etype size h := reads_elemsBegin etype h
  listEnd := reads_nothing
  setBegin etype size h := reads_elemsBegin etype h
  setEnd := reads_nothing
  mapBegin ktype vtype size h := reads_mapBegin ktype vtype h
  mapEnd := reads_nothing

end TBinaryProtocol
end MsgRpc
