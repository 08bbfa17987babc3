import MsgRpc.Thrift.BinaryProtocol
import MsgRpc.Thrift.TValue

/-!
This module contains the proof that `skip` of the binary protocol consumes exactly one value.
-/

namespace MsgRpc

open Reader

namespace TBinaryProtocol

theorem reads_discard {n : Nat} {s : Bytes} (hs : s.length = n)
    : Reads (do let _ ← readBytes n) s () := by
  subst hs
  exact (reads_bytes s).bind_nil (Reads.pure ())

theorem reads_skipFields {depth : Nat} {fs : List (Int16 × TValue)}
    (hskip : ∀ p ∈ fs, Reads (skip depth p.2.type) (p.2.encode TBinaryProtocol) ()) {n : Nat}
    (hn : fs.length < n)
    : Reads (skipFields (skip depth) n)
        (TValue.encodeFields TBinaryProtocol fs ++ TBinaryProtocol.fieldStop) () := by
  induction fs generalizing n with
  | nil =>
    obtain ⟨n, rfl⟩ := Nat.exists_eq_add_of_lt hn
    obtain ⟨fid, hstop⟩ := lawful.fieldStop
    simp only [List.length_nil, Nat.zero_add, skipFields]
    exact hstop.bind_nil (Reads.pure ())
  | cons p fs ih =>
    obtain ⟨n, rfl⟩ := Nat.exists_eq_add_of_lt hn
    have hstop : p.2.type ≠ .stop := p.2.type_ne_stop
    simp only [skipFields, TValue.encodeFields, List.append_assoc]
    apply (lawful.fieldBegin _ _ hstop).bind
    rw [if_neg hstop]
    apply (hskip p List.mem_cons_self).bind
    apply ih
    . intro q hmem
      exact hskip q (List.mem_cons_of_mem _ hmem)
    . simp only [List.length_cons]
      omega

theorem reads_iterate_skip {γ : Type} {write : γ → Bytes} {skip : Reader UInt8 Unit} {xs : List γ}
    (hskip : ∀ x ∈ xs, Reads skip (write x) ())
    : Reads (iterate (fun _ => skip) xs.length ()) (xs.flatMap write) () := by
  induction xs with
  | nil => exact Reads.pure ()
  | cons x xs ih =>
    apply (hskip x List.mem_cons_self).bind
    exact ih fun y hmem => hskip y (List.mem_cons_of_mem _ hmem)

theorem encode_struct (fs : List (Int16 × TValue))
    : (TValue.struct fs).encode TBinaryProtocol
        = TValue.encodeFields TBinaryProtocol fs ++ TBinaryProtocol.fieldStop := by
  rw [TValue.encode]
  change [] ++ (_ ++ (_ ++ [])) = _
  rw [List.append_nil, List.nil_append]

theorem encode_list (etype : TType) (elems : List TValue)
    : (TValue.list etype elems).encode TBinaryProtocol
        = elemsBegin.write (etype, UInt32.ofNat elems.length)
          ++ elems.flatMap (TValue.encode TBinaryProtocol) := by
  rw [TValue.encode, TValue.encodeElems_eq]
  change _ ++ (_ ++ []) = _
  rw [List.append_nil]
  rfl

theorem encode_set (etype : TType) (elems : List TValue)
    : (TValue.set etype elems).encode TBinaryProtocol
        = (TValue.list etype elems).encode TBinaryProtocol := by
  rw [encode_list, TValue.encode, TValue.encodeElems_eq]
  change _ ++ (_ ++ []) = _
  rw [List.append_nil]
  rfl

theorem encode_map (ktype vtype : TType) (entries : List (TValue × TValue))
    : (TValue.map ktype vtype entries).encode TBinaryProtocol
        = mapBegin.write (ktype, vtype, UInt32.ofNat entries.length)
          ++ entries.flatMap
            (fun p => p.1.encode TBinaryProtocol ++ p.2.encode TBinaryProtocol) := by
  rw [TValue.encode, TValue.encodeEntries_eq]
  change _ ++ (_ ++ []) = _
  rw [List.append_nil]
  rfl

theorem reads_skip_elems {depth : Nat} {etype : TType} {elems : List TValue}
    (hsize : elems.length < 2 ^ 31) (htype : ∀ v ∈ elems, v.type = etype)
    (hskip : ∀ v ∈ elems, Reads (skip depth v.type) (v.encode TBinaryProtocol) ())
    : Reads (skip (depth + 1) .list) ((TValue.list etype elems).encode TBinaryProtocol) () := by
  have hcount := toNat_size hsize
  rw [encode_list]
  apply (reads_elemsBegin etype (by rw [hcount]; exact hsize)).bind
  dsimp only
  rw [hcount]
  apply reads_iterate_skip
  intro v hmem
  rw [← htype v hmem]
  exact hskip v hmem

theorem reads_skip_entries {depth : Nat} {ktype vtype : TType} {entries : List (TValue × TValue)}
    (hsize : entries.length < 2 ^ 31)
    (htype : ∀ p ∈ entries, p.1.type = ktype ∧ p.2.type = vtype)
    (hskip : ∀ p ∈ entries, Reads (skip depth p.1.type) (p.1.encode TBinaryProtocol) ()
      ∧ Reads (skip depth p.2.type) (p.2.encode TBinaryProtocol) ())
    : Reads (skip (depth + 1) .map) ((TValue.map ktype vtype entries).encode TBinaryProtocol)
        () := by
  have hcount := toNat_size hsize
  rw [encode_map]
  apply (reads_mapBegin ktype vtype (by rw [hcount]; exact hsize)).bind
  dsimp only
  rw [hcount]
  apply reads_iterate_skip
  intro p hmem
  have hp := htype p hmem
  rw [← hp.1, ← hp.2]
  exact (hskip p hmem).1.bind (hskip p hmem).2

theorem reads_skip {v : TValue} (hv : v.WellFormed) {depth : Nat} (hdepth : v.depth ≤ depth)
    : Reads (skip depth v.type) (v.encode TBinaryProtocol) () := by
  induction hv generalizing depth
  all_goals
    obtain ⟨depth, rfl⟩ := Nat.exists_eq_add_of_le' (Nat.le_trans (TValue.depth_pos _) hdepth)
  case bool b => exact reads_discard rfl
  case byte i => exact reads_discard (length_bigEndian 1 _)
  case i16 i => exact reads_discard (length_bigEndian 2 _)
  case i32 i => exact reads_discard (length_bigEndian 4 _)
  case i64 i => exact reads_discard (length_bigEndian 8 _)
  case double bits => exact reads_discard (length_bigEndian 8 _)
  case string hsize => exact (reads_string hsize).bind_nil (Reads.pure ())
  case struct fs hids hfields ih =>
    rw [encode_struct]
    apply Reads.with_get
    intro s hs
    simp only [List.length_append] at hs
    have hlen := TValue.length_le_encodeFields lawful fs
    apply reads_skipFields _ (by omega)
    intro p hmem
    have hp := (TValue.IsPart.field hmem).depth_lt
    exact ih p hmem (by omega)
  case list etype elems hsize htype helems ih =>
    apply reads_skip_elems hsize htype
    intro v hmem
    have hv : v.depth < (TValue.list etype elems).depth := (TValue.IsPart.listElem hmem).depth_lt
    exact ih v hmem (by omega)
  case set etype elems hsize htype helems ih =>
    rw [encode_set]
    apply reads_skip_elems hsize htype
    intro v hmem
    have hv : v.depth < (TValue.set etype elems).depth := (TValue.IsPart.setElem hmem).depth_lt
    exact ih v hmem (by omega)
  case map ktype vtype entries hsize htype hkeys hvals ihk ihv =>
    apply reads_skip_entries hsize htype
    intro p hmem
    have hkey : p.1.depth < (TValue.map ktype vtype entries).depth :=
      (TValue.IsPart.key hmem).depth_lt
    have hval : p.2.depth < (TValue.map ktype vtype entries).depth :=
      (TValue.IsPart.val hmem).depth_lt
    exact ⟨ihk p hmem (by omega), ihv p hmem (by omega)⟩

theorem skips {w : TValue} (hw : w.WellFormed) (hdepth : w.depth ≤ 65)
    : TBinaryProtocol.Skips w := by
  intro v hinside
  have hv : v.WellFormed ∧ v.depth < w.depth := by
    induction hinside using Relation.TransGen.head_induction_on with
    | single hpart => exact ⟨hw.part hpart, hpart.depth_lt⟩
    | head hpart _ ih => exact ⟨ih.1.part hpart, hpart.depth_lt.trans ih.2⟩
  exact reads_skip hv.1 (by omega)

end TBinaryProtocol
end MsgRpc
