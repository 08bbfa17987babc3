import MsgRpc.Thrift.Foreign
import MsgRpc.Thrift.RoundTrip
import MsgRpc.Thrift.Skip

/-!
This module contains the proof that the generated `read` makes of the fields of any writer what it
should, unless a container comes with elements of another type.
-/

namespace MsgRpc

open Reader

def Fields.awaits (fields : Fields σ) (fid : Int16) (ftype : TType) : Bool :=
  match fields with
  | .nil => false
  | .required fid' ftype' rest =>
    if fid = fid' then ftype = ftype'.value else rest.awaits fid ftype
  | .optional fid' _ rest => if fid = fid' then false else rest.awaits fid ftype

def Fields.mark (fields : Fields σ) (isset : List Int16) (p : Int16 × TValue) : List Int16 :=
  if fields.awaits p.1 p.2.type then p.1 :: isset else isset

/--
Reading takes any value of exactly the declared type, if what is inside of it can be read.
-/
def FType.Takes (proto : TProtocol) (t : FType α) : Prop :=
  ∀ depth x v, t.nesting ≤ depth → v.WellFormed → proto.Skips v → t.accepts v = true → t.Agrees v
    → Yields (t.read proto depth x) (v.encode proto) (t.fromWire x v)

section Take

variable {proto : TProtocol} {depth : Nat}

theorem FType.occurrence_singleton {t : FType α} {fid : Int16} {v : TValue}
    (haccepts : v.type = t.value → t.accepts v = true)
    : t.occurrence fid [(fid, v)] = if v.type = t.value then some v else none := by
  unfold occurrence
  rw [List.lookup_cons_self]
  split
  . next htype => rw [Option.filter_some, if_pos (haccepts htype)]
  . next htype =>
    rw [Option.filter_some, if_neg]
    intro hv
    exact htype (type_of_accepts hv)

theorem yields_skip {v : TValue} (hskip : Reads (proto.skip v.type) (v.encode proto) ()) (a : α)
    : Yields (do proto.skip v.type; return a) (v.encode proto) (some a) := by
  apply Reads.yields
  apply hskip.bind_nil
  exact Reads.pure a

theorem Fields.yields_readCase {fields : Fields σ} (hids : fields.ids.Nodup)
    (hfields : fields.All (FType.Takes proto)) (hdepth : fields.nesting ≤ depth) {fid : Int16}
    {v : TValue} (hv : v.WellFormed) (hskip : Reads (proto.skip v.type) (v.encode proto) ())
    (hparts : proto.Skips v) (hagrees : fields.AgreesAt (fid, v)) (this : σ) (isset : List Int16)
    : Yields (fields.readCase proto depth v.type fid this isset) (v.encode proto)
        ((fields.assign this [(fid, v)]).map fun this => (this, fields.mark isset (fid, v))) := by
  induction fields using Fields.induct with
  | nil =>
    simp only [readCase, assign, mark, awaits, Bool.false_eq_true, ↓reduceIte, Option.map_some]
    exact yields_skip hskip _
  | required fid' t rest ih =>
    simp only [ids, List.nodup_cons] at hids
    simp only [nesting, Nat.max_le] at hdepth
    simp only [AgreesAt] at hagrees
    simp only [readCase, assign, mark, awaits, Option.bind_eq_bind, Option.pure_def]
    by_cases heq : fid = fid'
    . subst heq
      rw [if_pos rfl] at hagrees
      rw [FType.occurrence_singleton fun htype => (hagrees htype).1, assign_cons_of_not_mem hids.1,
        rest.assign_nil]
      by_cases htype : v.type = t.value
      . obtain ⟨haccepts, hinside⟩ := hagrees htype
        have hread := hfields.1 depth this.1 v hdepth.1 hv hparts haccepts hinside
        simp only [htype, ↓reduceIte, Option.elim_some, Option.bind_some, decide_true]
        cases hx : t.fromWire this.1 v <;> simpa [hx] using hread.bind_pure
      . simp only [htype, ↓reduceIte, Option.elim_none, Option.bind_some, decide_false,
          Bool.false_eq_true, Option.map_some]
        exact yields_skip hskip _
    . rw [if_neg heq] at hagrees
      rw [FType.occurrence_cons_of_ne (Ne.symm heq), FType.occurrence_nil]
      have hrest := ih hids.2 hfields.2 hdepth.2 hagrees this.2
      simp only [heq, ↓reduceIte, Option.elim_none, Option.bind_some]
      cases hx : rest.assign this.2 [(fid, v)] <;> simpa [hx, mark] using hrest.bind_pure
  | optional fid' t rest ih =>
    simp only [ids, List.nodup_cons] at hids
    simp only [nesting, Nat.max_le] at hdepth
    simp only [AgreesAt] at hagrees
    simp only [readCase, assign, mark, awaits, Option.bind_eq_bind, Option.pure_def]
    by_cases heq : fid = fid'
    . subst heq
      rw [if_pos rfl] at hagrees
      rw [FType.occurrence_singleton fun htype => (hagrees htype).1, assign_cons_of_not_mem hids.1,
        rest.assign_nil]
      by_cases htype : v.type = t.value
      . obtain ⟨haccepts, hinside⟩ := hagrees htype
        have hread := hfields.1 depth this.1.value v hdepth.1 hv hparts haccepts hinside
        simp only [htype, ↓reduceIte, Option.elim_some, Option.bind_some]
        cases hx : t.fromWire this.1.value v <;> simpa [hx] using hread.bind_pure
      . simp only [htype, ↓reduceIte, Option.elim_none, Option.bind_some,
          Bool.false_eq_true, Option.map_some]
        exact yields_skip hskip _
    . rw [if_neg heq] at hagrees
      rw [FType.occurrence_cons_of_ne (Ne.symm heq), FType.occurrence_nil]
      have hrest := ih hids.2 hfields.2 hdepth.2 hagrees this.2
      simp only [heq, ↓reduceIte, Option.elim_none, Option.bind_some]
      cases hx : rest.assign this.2 [(fid, v)] <;> simpa [hx, mark] using hrest.bind_pure

theorem lookup_eq_none {fs : List (Int16 × TValue)} {fid : Int16} (hfid : fid ∉ fs.map Prod.fst)
    : fs.lookup fid = none := by
  rw [List.lookup_eq_none_iff]
  intro p hmem
  have hne : fid ≠ p.1 := (ne_of_mem_of_not_mem (List.mem_map_of_mem hmem) hfid).symm
  simp [hne]

-- the loop takes one field after the other, up to one that cannot be read
theorem readFields_append (hproto : proto.Lawful) {fields : Fields σ} (hids : fields.ids.Nodup)
    (hfields : fields.All (FType.Takes proto)) (hdepth : fields.nesting ≤ depth)
    {fs : List (Int16 × TValue)} (hfs : (fs.map Prod.fst).Nodup) (hv : ∀ p ∈ fs, p.2.WellFormed)
    (hskip : ∀ p ∈ fs, Reads (proto.skip p.2.type) (p.2.encode proto) () ∧ proto.Skips p.2)
    (hagrees : InTurn fields.AgreesAt fields.CompleteAt fs) (n : Nat) (this : σ)
    (isset : List Int16) (rest : Bytes)
    : readFields (fields.readCase proto depth) proto (fs.length + n) this isset
          (TValue.encodeFields proto fs ++ rest)
        = (fields.assign this fs).bind fun this =>
            readFields (fields.readCase proto depth) proto n this (fs.foldl fields.mark isset)
              rest := by
  induction fs generalizing this isset with
  | nil =>
    rw [fields.assign_nil, List.length_nil, Nat.zero_add]
    rfl
  | cons p fs ih =>
    obtain ⟨fid, v⟩ := p
    simp only [List.map_cons, List.nodup_cons] at hfs
    simp only [List.forall_mem_cons] at hv hskip
    have hstop : v.type ≠ .stop := v.type_ne_stop
    have hread := fields.yields_readCase hids hfields hdepth hv.1 hskip.1.1 hskip.1.2 hagrees.1
      this isset
    rw [fields.assign_cons hids (lookup_eq_none hfs.1), List.length_cons, Nat.add_right_comm]
    simp only [readFields, TValue.encodeFields, List.append_assoc]
    rw [(hproto.fieldBegin _ _ hstop).bind_apply]
    dsimp only
    rw [if_neg hstop, hread.bind_apply, Option.bind_map, Option.bind_assoc]
    cases hassign : fields.assign this [(fid, v)] with
    | none => rfl
    | some this' =>
      have hcomplete : fields.Complete [(fid, v)] := by
        rw [← fields.isSome_assign_iff this, hassign, Option.isSome_some]
      have htail := hagrees.2 (fields.completeAt_of_complete (by simp) hagrees.1 hcomplete)
      simp only [Option.bind_some, Function.comp_apply]
      rw [hproto.fieldEnd.bind_apply]
      exact ih hfs.2 hv.2 hskip.2 htail this' (fields.mark isset (fid, v))

theorem yields_readFields (hproto : proto.Lawful) {fields : Fields σ} (hids : fields.ids.Nodup)
    (hfields : fields.All (FType.Takes proto)) (hdepth : fields.nesting ≤ depth)
    {fs : List (Int16 × TValue)} (hfs : (fs.map Prod.fst).Nodup) (hv : ∀ p ∈ fs, p.2.WellFormed)
    (hskip : ∀ p ∈ fs, Reads (proto.skip p.2.type) (p.2.encode proto) () ∧ proto.Skips p.2)
    (hagrees : InTurn fields.AgreesAt fields.CompleteAt fs) {n : Nat} (hn : fs.length < n)
    (this : σ) (isset : List Int16)
    : Yields (readFields (fields.readCase proto depth) proto n this isset)
        (TValue.encodeFields proto fs ++ proto.fieldStop)
        ((fields.assign this fs).map fun this => (this, fs.foldl fields.mark isset)) := by
  intro rest
  obtain ⟨n, rfl⟩ := Nat.exists_eq_add_of_lt hn
  obtain ⟨fid, hstop⟩ := hproto.fieldStop
  rw [List.append_assoc, Nat.add_assoc,
    readFields_append hproto hids hfields hdepth hfs hv hskip hagrees]
  cases fields.assign this fs with
  | none => rfl
  | some this' =>
    simp only [Option.bind_some, readFields]
    rw [hstop.bind_apply]
    rfl

theorem Fields.mem_foldl_mark {fields : Fields σ} {fs : List (Int16 × TValue)}
    (hfs : (fs.map Prod.fst).Nodup) {fid : Int16} {isset : List Int16}
    : fid ∈ fs.foldl fields.mark isset
        ↔
      fid ∈ isset ∨ ∃ v, fs.lookup fid = some v ∧ fields.awaits fid v.type = true := by
  induction fs generalizing isset with
  | nil => simp
  | cons p fs ih =>
    simp only [List.map_cons, List.nodup_cons] at hfs
    rw [List.foldl_cons, ih hfs.2]
    by_cases heq : fid = p.1
    . have hnone := lookup_eq_none hfs.1
      rw [heq, hnone, List.lookup_cons_self]
      unfold mark
      split <;> simp_all
    . have hmark : fid ∈ fields.mark isset p ↔ fid ∈ isset := by
        unfold mark
        split
        . simp [heq]
        . rfl
      rw [hmark, List.lookup_cons, beq_false_of_ne heq]

theorem Fields.requiredIds_subset (fields : Fields σ) : fields.requiredIds ⊆ fields.ids := by
  induction fields using Fields.induct with
  | nil => simp [requiredIds]
  | required fid t rest ih =>
    simp only [requiredIds, ids]
    exact List.cons_subset_cons fid ih
  | optional fid t rest ih =>
    simp only [requiredIds, ids]
    exact List.subset_cons_of_subset fid ih

theorem FType.isSome_occurrence_iff {t : FType α} {fid : Int16} {fs : List (Int16 × TValue)}
    (haccepts : ∀ v, fs.lookup fid = some v → v.type = t.value → t.accepts v = true)
    : (t.occurrence fid fs).isSome = true ↔ ∃ v, fs.lookup fid = some v ∧ v.type = t.value := by
  unfold occurrence
  cases hlookup : fs.lookup fid with
  | none => simp
  | some v =>
    have htype : t.accepts v = true ↔ v.type = t.value :=
      ⟨type_of_accepts, haccepts v hlookup⟩
    simp [Option.filter_some, htype]

theorem Fields.occur_iff {fields : Fields σ} (hids : fields.ids.Nodup)
    {fs : List (Int16 × TValue)}
    (hagrees : ∀ fid ∈ fields.ids, ∀ v, fs.lookup fid = some v → fields.AgreesAt (fid, v))
    : fields.occur fs = true
        ↔
      ∀ fid ∈ fields.requiredIds,
        ∃ v, fs.lookup fid = some v ∧ fields.awaits fid v.type = true := by
  induction fields using Fields.induct with
  | nil => simp [occur, requiredIds]
  | required fid t rest ih =>
    simp only [ids, List.nodup_cons] at hids
    simp only [ids, List.forall_mem_cons, AgreesAt, ↓reduceIte] at hagrees
    have hrest : ∀ fid' ∈ rest.ids, ∀ v, fs.lookup fid' = some v → rest.AgreesAt (fid', v) := by
      intro fid' hmem v hlookup
      have hat := hagrees.2 fid' hmem v hlookup
      rwa [if_neg (ne_of_mem_of_not_mem hmem hids.1)] at hat
    simp only [occur, requiredIds, List.forall_mem_cons, Bool.and_eq_true, ih hids.2 hrest,
      FType.isSome_occurrence_iff fun v hlookup htype => (hagrees.1 v hlookup htype).1]
    apply and_congr
    . simp [awaits]
    . apply forall₂_congr
      intro fid' hmem
      have hne : fid' ≠ fid := ne_of_mem_of_not_mem (rest.requiredIds_subset hmem) hids.1
      simp [awaits, hne]
  | optional fid t rest ih =>
    simp only [ids, List.nodup_cons] at hids
    simp only [ids, List.forall_mem_cons, AgreesAt] at hagrees
    have hrest : ∀ fid' ∈ rest.ids, ∀ v, fs.lookup fid' = some v → rest.AgreesAt (fid', v) := by
      intro fid' hmem v hlookup
      have hat := hagrees.2 fid' hmem v hlookup
      rwa [if_neg (ne_of_mem_of_not_mem hmem hids.1)] at hat
    simp only [occur, requiredIds, ih hids.2 hrest]
    apply forall₂_congr
    intro fid' hmem
    have hne : fid' ≠ fid := ne_of_mem_of_not_mem (rest.requiredIds_subset hmem) hids.1
    simp [awaits, hne]

theorem Fields.received_foldl_mark {fields : Fields σ} (hids : fields.ids.Nodup)
    {fs : List (Int16 × TValue)} (hfs : (fs.map Prod.fst).Nodup)
    (hagrees : ∀ p ∈ fs, fields.AgreesAt p)
    : fields.received (fs.foldl fields.mark []) = fields.occur fs := by
  have hlookup : ∀ fid ∈ fields.ids, ∀ v, fs.lookup fid = some v → fields.AgreesAt (fid, v) := by
    intro fid _ v hlookup
    obtain ⟨before, after, heq, _⟩ := List.lookup_eq_some_iff.mp hlookup
    exact hagrees (fid, v) (by simp [heq])
  rw [Bool.eq_iff_iff, received_iff, occur_iff hids hlookup]
  simp only [List.subset_def, mem_foldl_mark hfs, List.not_mem_nil, false_or]

theorem lookup_of_mem {fs : List (Int16 × TValue)} (hfs : (fs.map Prod.fst).Nodup)
    {p : Int16 × TValue} (hmem : p ∈ fs)
    : fs.lookup p.1 = some p.2 := by
  obtain ⟨before, after, rfl⟩ := List.append_of_mem hmem
  rw [List.lookup_eq_some_iff]
  refine ⟨before, after, rfl, ?_⟩
  intro q hq
  rw [List.map_append, List.nodup_append] at hfs
  have hne := hfs.2.2 q.1 (List.mem_map_of_mem hq) p.1 (by simp)
  simpa using hne.symm

theorem FType.Takes.struct {fields : Fields σ} (hproto : proto.Lawful) (hids : fields.ids.Nodup)
    (hfields : fields.All (FType.Takes proto))
    : (FType.struct fields).Takes proto := by
  intro depth x v hdepth hv hskip haccepts hagrees
  cases hv with
  | @struct fs hfs hv =>
    have hparts : ∀ p ∈ fs,
        Reader.Reads (proto.skip p.2.type) (p.2.encode proto) () ∧ proto.Skips p.2 := by
      intro p hmem
      have hpart : p.2.IsPart (.struct fs) := .field hmem
      exact ⟨hskip p.2 (.single hpart), hskip.part hpart⟩
    have hchecked : (FType.struct fields).fromWire x (.struct fs)
        = (fields.assign x fs).bind fun this => if fields.occur fs then some this else none := by
      simp only [fromWire]
      cases fields.occur fs <;> simp
    simp only [nesting] at hdepth
    obtain ⟨depth, rfl⟩ := Nat.exists_eq_add_of_le' (Nat.le_trans (Nat.le_add_left 1 _) hdepth)
    rw [hchecked]
    unfold FType.read TValue.encode
    apply Yields.bind_reads hproto.structBegin
    apply Yields.with_get
    intro s hs
    have hlen := TValue.length_le_encodeFields hproto fs
    simp only [List.length_append] at hs
    rw [← List.append_assoc]
    apply (yields_readFields hproto hids hfields (by omega) hfs hv hparts hagrees (by omega) x
      []).bind_map
    intro this hassign
    -- all fields have been read then
    have hcomplete : fields.Complete fs := by
      rw [← fields.isSome_assign_iff x, hassign, Option.isSome_some]
    have hall : ∀ p ∈ fs, fields.AgreesAt p := by
      apply InTurn.forall hagrees
      intro p hmem hp
      exact fields.completeAt_of_complete (lookup_of_mem hfs hmem) hp hcomplete
    apply Yields.bind_reads_nil hproto.structEnd
    rw [fields.received_foldl_mark hids hfs hall]
    intro rest
    cases fields.occur fs <;> rfl
  | _ => simp [accepts, TValue.type, value] at haccepts

theorem FType.Takes.primitive {t : FType α} {read : Reader UInt8 α}
    (hread : ∀ depth x, t.read proto depth x = read)
    (h : ∀ x v, v.WellFormed → v.type = t.value
      → ∃ y, t.fromWire x v = some y ∧ Reader.Reads read (v.encode proto) y)
    : t.Takes proto := by
  intro depth x v _ hv _ haccepts _
  obtain ⟨y, hy, hreads⟩ := h x v hv (type_of_accepts haccepts)
  rw [hread, hy]
  exact hreads.yields

theorem FType.complete_of_fromWire {t : FType α} {x y : α} {v : TValue}
    (haccepts : t.accepts v = true) (hy : t.fromWire x v = some y)
    : t.Complete v := by
  rw [← t.isSome_fromWire_iff v x haccepts, hy, Option.isSome_some]

theorem FType.Takes.element {etype : FType α} (he : etype.Takes proto) {v : TValue}
    (hdepth : etype.nesting ≤ depth) (hv : v.WellFormed) (hskip : proto.Skips v)
    (haccepts : etype.accepts v = true) (hagrees : etype.Agrees v) (next : α → β)
    : Yields (do
        let elem ← etype.read proto depth etype.dflt
        return next elem) (v.encode proto) ((etype.fromWire etype.dflt v).map next)
      ∧ ∀ b, (etype.fromWire etype.dflt v).map next = some b → etype.Complete v := by
  refine ⟨(he depth etype.dflt v hdepth hv hskip haccepts hagrees).bind_pure, ?_⟩
  intro b hb
  obtain ⟨y, hy, _⟩ := Option.map_eq_some_iff.mp hb
  exact complete_of_fromWire haccepts hy

theorem FType.Takes.vector {etype : FType α} (hproto : proto.Lawful) (he : etype.Takes proto)
    : (FType.vector etype).Takes proto := by
  intro depth x v hdepth hv hskip haccepts hagrees
  cases hv with
  | @list etype' elems hsize helem hv =>
    have hcount := toNat_size hsize
    simp only [accepts, Bool.and_eq_true, List.all_eq_true] at haccepts
    have hread := fun (xs : List α) elem (hmem : elem ∈ elems) hinside =>
      he.element hdepth (hv elem hmem) (hskip.part (.listElem hmem)) (haccepts.2 elem hmem) hinside
        fun y => xs ++ [y]
    have hfold : (FType.vector etype).fromWire x (.list etype' elems)
        = (elems.foldlM (fun xs elem => (etype.fromWire etype.dflt elem).map fun y => xs ++ [y])
          []).bind some := by
      rw [foldlM_eq_mapM (fun xs y => xs ++ [y])]
      simp only [fromWire]
      cases elems.mapM (etype.fromWire etype.dflt) with
      | none => rfl
      | some ys =>
        simp only [Option.map_some, Option.bind_some, ← List.flatMap_eq_foldl,
          List.flatMap_singleton']
    rw [hfold]
    unfold FType.read TValue.encode
    rw [TValue.encodeElems_eq]
    apply Yields.bind_reads (hproto.listBegin _ _ (by rw [hcount]; exact hsize))
    dsimp only
    rw [hcount]
    apply (Yields.iterate hagrees hread []).bind
    intro xs _
    exact (hproto.listEnd.bind_nil (Reads.pure xs)).yields
  | _ => simp [accepts] at haccepts

theorem FType.Takes.set {etype : FType α} {less : Less α} (hproto : proto.Lawful)
    (he : etype.Takes proto)
    : (FType.set etype less).Takes proto := by
  intro depth x v hdepth hv hskip haccepts hagrees
  cases hv with
  | @set etype' elems hsize helem hv =>
    have hcount := toNat_size hsize
    simp only [accepts, Bool.and_eq_true, List.all_eq_true] at haccepts
    have hread := fun (s : OrderedSet less) elem (hmem : elem ∈ elems) hinside =>
      he.element hdepth (hv elem hmem) (hskip.part (.setElem hmem)) (haccepts.2 elem hmem) hinside
        s.insert
    have hfold : (FType.set etype less).fromWire x (.set etype' elems)
        = (elems.foldlM (fun s elem => (etype.fromWire etype.dflt elem).map s.insert) x).bind
          some := by
      rw [foldlM_eq_mapM OrderedSet.insert, Option.bind_fun_some]
      simp only [fromWire]
    rw [hfold]
    unfold FType.read TValue.encode
    rw [TValue.encodeElems_eq]
    apply Yields.bind_reads (hproto.setBegin _ _ (by rw [hcount]; exact hsize))
    dsimp only
    rw [hcount]
    apply (Yields.iterate hagrees hread x).bind
    intro s _
    exact (hproto.setEnd.bind_nil (Reads.pure s)).yields
  | _ => simp [accepts] at haccepts

theorem FType.Takes.entry {ktype : FType κ} {less : Less κ} {vtype : FType β}
    (hk : ktype.Takes proto) (hv : vtype.Takes proto) {p : TValue × TValue}
    (hdepth : ktype.nesting ≤ depth ∧ vtype.nesting ≤ depth)
    (hwf : p.1.WellFormed ∧ p.2.WellFormed) (hskip : proto.Skips p.1 ∧ proto.Skips p.2)
    (haccepts : ktype.accepts p.1 = true ∧ vtype.accepts p.2 = true)
    (hagrees : ktype.Agrees p.1 ∧ (ktype.Complete p.1 → vtype.Agrees p.2)) (m : OrderedMap less β)
    : Yields (do
        let key ← ktype.read proto depth ktype.dflt
        let val ← vtype.read proto depth ((m.find key).getD vtype.dflt)
        return m.put key val) (p.1.encode proto ++ p.2.encode proto) (ktype.putOver vtype m p)
      ∧ ∀ m', ktype.putOver vtype m p = some m' → ktype.Complete p.1 ∧ vtype.Complete p.2 := by
  refine ⟨?_, ?_⟩
  . have hkey := hk depth ktype.dflt p.1 hdepth.1 hwf.1 hskip.1 haccepts.1 hagrees.1
    apply hkey.bind
    intro key hfrom
    have hinside := hagrees.2 (complete_of_fromWire haccepts.1 hfrom)
    have hval := hv depth ((m.find key).getD vtype.dflt) p.2 hdepth.2 hwf.2 hskip.2 haccepts.2
      hinside
    have hput := hval.bind_pure (g := m.put key)
    rwa [Option.map_eq_bind] at hput
  . intro m' hm'
    simp only [putOver, Option.bind_eq_bind, Option.bind_eq_some_iff] at hm'
    obtain ⟨key, hkey, val, hval, _⟩ := hm'
    exact ⟨complete_of_fromWire haccepts.1 hkey, complete_of_fromWire haccepts.2 hval⟩

theorem FType.Takes.map {ktype : FType κ} {less : Less κ} {vtype : FType β}
    (hproto : proto.Lawful) (hk : ktype.Takes proto) (hv : vtype.Takes proto)
    : (FType.map ktype less vtype).Takes proto := by
  intro depth x v hdepth hwf hskip haccepts hagrees
  cases hwf with
  | @map ktype' vtype' entries hsize hentry hkeys hvals =>
    have hcount := toNat_size hsize
    simp only [nesting, Nat.max_le] at hdepth
    simp only [accepts, Bool.and_eq_true, List.all_eq_true] at haccepts
    have hread := fun (m : OrderedMap less β) p (hmem : p ∈ entries) hinside =>
      hk.entry hv hdepth ⟨hkeys p hmem, hvals p hmem⟩
        ⟨hskip.part (.key hmem), hskip.part (.val hmem)⟩ (haccepts.2 p hmem) hinside m
    have hfold : (FType.map ktype less vtype).fromWire x (.map ktype' vtype' entries)
        = (entries.foldlM (ktype.putOver vtype) OrderedMap.empty).bind some := by
      rw [hagrees.2, Option.bind_fun_some]
      rfl
    rw [hfold]
    unfold FType.read TValue.encode
    rw [TValue.encodeEntries_eq]
    apply Yields.bind_reads (hproto.mapBegin _ _ _ (by rw [hcount]; exact hsize))
    dsimp only
    rw [hcount]
    apply (Yields.iterate hagrees.1 hread OrderedMap.empty).bind
    intro m _
    exact (hproto.mapEnd.bind_nil (Reads.pure m)).yields
  | _ => simp [accepts] at haccepts

mutual

theorem FType.takes (hproto : proto.Lawful) (t : FType α) (ht : t.Distinct) : t.Takes proto := by
  match t with
  | .bool =>
    apply FType.Takes.primitive (fun _ _ => rfl)
    intro x v hv htype
    cases hv with
    | bool b => exact ⟨b, rfl, hproto.bool b⟩
    | _ => simp [TValue.type, FType.value] at htype
  | .i8 =>
    apply FType.Takes.primitive (fun _ _ => rfl)
    intro x v hv htype
    cases hv with
    | byte i => exact ⟨i, rfl, hproto.byte i⟩
    | _ => simp [TValue.type, FType.value] at htype
  | .i16 =>
    apply FType.Takes.primitive (fun _ _ => rfl)
    intro x v hv htype
    cases hv with
    | i16 i => exact ⟨i, rfl, hproto.i16 i⟩
    | _ => simp [TValue.type, FType.value] at htype
  | .i32 =>
    apply FType.Takes.primitive (fun _ _ => rfl)
    intro x v hv htype
    cases hv with
    | i32 i => exact ⟨i, rfl, hproto.i32 i⟩
    | _ => simp [TValue.type, FType.value] at htype
  | .i64 =>
    apply FType.Takes.primitive (fun _ _ => rfl)
    intro x v hv htype
    cases hv with
    | i64 i => exact ⟨i, rfl, hproto.i64 i⟩
    | _ => simp [TValue.type, FType.value] at htype
  | .double =>
    apply FType.Takes.primitive (fun _ _ => rfl)
    intro x v hv htype
    cases hv with
    | double bits => exact ⟨bits, rfl, hproto.double bits⟩
    | _ => simp [TValue.type, FType.value] at htype
  | .string =>
    apply FType.Takes.primitive (fun _ _ => rfl)
    intro x v hv htype
    cases hv with
    | @string s hsize => exact ⟨s, rfl, hproto.string s hsize⟩
    | _ => simp [TValue.type, FType.value] at htype
  | .binary =>
    apply FType.Takes.primitive (fun _ _ => rfl)
    intro x v hv htype
    cases hv with
    | @string s hsize => exact ⟨s, rfl, hproto.readBinary s hsize⟩
    | _ => simp [TValue.type, FType.value] at htype
  | .struct fields =>
    exact FType.Takes.struct hproto ht.1 (fields.takes hproto ht.2)
  | .vector etype => exact FType.Takes.vector hproto (etype.takes hproto ht)
  | .set etype less => exact FType.Takes.set hproto (etype.takes hproto ht)
  | .map ktype less vtype =>
    exact FType.Takes.map hproto (ktype.takes hproto ht.1) (vtype.takes hproto ht.2)

theorem Fields.takes (hproto : proto.Lawful) (fields : Fields σ) (hfields : fields.Distinct)
    : fields.All (FType.Takes proto) := by
  match fields with
  | .nil => trivial
  | .required _ ftype rest =>
    exact ⟨ftype.takes hproto hfields.1, rest.takes hproto hfields.2⟩
  | .optional _ ftype rest =>
    exact ⟨ftype.takes hproto hfields.1, rest.takes hproto hfields.2⟩

end

end Take

-- `__isset`, a required field has none
def Member.isset {σ α : Type} {fields : Fields σ} {t : FType α} (m : Member fields t)
    (this : σ) : Bool :=
  match m with
  | required => true
  | optional => this.1.isset
  | afterRequired m => m.isset this.2
  | afterOptional m => m.isset this.2

section Result

variable {fields : Fields σ} {t : FType α}

theorem Member.of_assign (m : Member fields t) {this r : σ} {fs : List (Int16 × TValue)}
    (h : fields.assign this fs = some r)
    : (∀ v, t.occurrence m.fid fs = some v
          → t.fromWire (m.get this) v = some (m.get r) ∧ m.isset r = true)
        ∧ (t.occurrence m.fid fs = none → m.get r = m.get this ∧ m.isset r = m.isset this) := by
  induction m with
  | required =>
    simp only [Fields.assign, Option.bind_eq_bind, Option.bind_eq_some_iff, Option.pure_def,
      Option.some.injEq] at h
    obtain ⟨field, hfield, others, _, rfl⟩ := h
    refine ⟨?_, ?_⟩
    . intro v hv
      simp only [fid] at hv
      rw [hv] at hfield
      exact ⟨hfield, rfl⟩
    . intro hnone
      simp only [fid] at hnone
      rw [hnone, Option.elim_none, Option.some.injEq] at hfield
      exact ⟨hfield.symm, rfl⟩
  | optional =>
    simp only [Fields.assign, Option.bind_eq_bind, Option.bind_eq_some_iff, Option.pure_def,
      Option.some.injEq] at h
    obtain ⟨field, hfield, others, _, rfl⟩ := h
    refine ⟨?_, ?_⟩
    . intro v hv
      simp only [fid] at hv
      rw [hv, Option.elim_some, Option.map_eq_some_iff] at hfield
      obtain ⟨x, hx, rfl⟩ := hfield
      exact ⟨hx, rfl⟩
    . intro hnone
      simp only [fid] at hnone
      rw [hnone, Option.elim_none, Option.some.injEq] at hfield
      rw [← hfield]
      exact ⟨rfl, rfl⟩
  | afterRequired m ih =>
    simp only [Fields.assign, Option.bind_eq_bind, Option.bind_eq_some_iff, Option.pure_def,
      Option.some.injEq] at h
    obtain ⟨field, _, others, hothers, rfl⟩ := h
    exact ih hothers
  | afterOptional m ih =>
    simp only [Fields.assign, Option.bind_eq_bind, Option.bind_eq_some_iff, Option.pure_def,
      Option.some.injEq] at h
    obtain ⟨field, _, others, hothers, rfl⟩ := h
    exact ih hothers

theorem Member.get_dflt (m : Member fields t) : m.get fields.dflt = t.dflt := by
  induction m with
  | required => rfl
  | optional => rfl
  | afterRequired m ih => exact ih
  | afterOptional m ih => exact ih

end Result

/--
What is expected of the generated `read` of a new struct when the encoding holds the fields `fs`: it
fails if and only if a required field is missing, and it sets the fields that occur with exactly the
declared type and no others. Nothing behind the encoding is read.
-/
structure Fields.ReadsForeign (proto : TProtocol) (fields : Fields σ)
    (fs : List (Int16 × TValue)) : Prop where
  fails : ∀ rest, (FType.struct fields).read proto proto.recursionLimit fields.dflt
      ((TValue.struct fs).encode proto ++ rest) = none
    ↔ ¬(FType.struct fields).Complete (.struct fs)
  sets : ∀ rest r rest', (FType.struct fields).read proto proto.recursionLimit fields.dflt
      ((TValue.struct fs).encode proto ++ rest) = some (r, rest')
    → rest' = rest ∧ ∀ {α : Type} {t : FType α} (m : Member fields t),
      (∀ v, t.occurrence m.fid fs = some v
        → t.fromWire t.dflt v = some (m.get r) ∧ m.isset r = true)
      ∧ (t.occurrence m.fid fs = none → m.get r = t.dflt ∧ m.isset r = m.isset fields.dflt)

theorem Fields.readsForeign_of_agrees {proto : TProtocol} (hproto : proto.Lawful)
    (fields : Fields σ) (hdistinct : (FType.struct fields).Distinct)
    (hnesting : (FType.struct fields).nesting ≤ proto.recursionLimit)
    (fs : List (Int16 × TValue)) (hfs : (TValue.struct fs).WellFormed)
    (hskip : proto.Skips (.struct fs)) (hagrees : (FType.struct fields).Agrees (.struct fs))
    : fields.ReadsForeign proto fs := by
  have hread := FType.takes hproto (.struct fields) hdistinct proto.recursionLimit
    fields.dflt (.struct fs) hnesting hfs hskip rfl hagrees
  refine ⟨?_, ?_⟩
  . intro rest
    rw [hread rest, ← (FType.struct fields).isSome_fromWire_iff _ fields.dflt rfl,
      Option.map_eq_none_iff, Bool.not_eq_true, Option.isSome_eq_false_iff,
      Option.isNone_iff_eq_none]
  . intro rest r rest' hresult
    rw [hread rest, Option.map_eq_some_iff] at hresult
    obtain ⟨r, hr, heq⟩ := hresult
    obtain ⟨rfl, rfl⟩ := Prod.mk.inj heq
    refine ⟨rfl, ?_⟩
    intro α t m
    simp only [FType.fromWire] at hr
    split at hr
    . have h := m.of_assign hr
      rwa [m.get_dflt] at h
    . simp at hr

end MsgRpc
