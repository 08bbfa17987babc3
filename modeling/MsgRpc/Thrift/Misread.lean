import MsgRpc.Thrift.ReadForeign

/-!
This module contains the proof that what a container with elements of another type leaves behind is
not made good by what is read after it, and with it when the generated `read` makes of the fields of
any writer what it should.
-/

namespace MsgRpc

open Reader

/--
Reading replaces all that the target holds.
-/
def FType.isFlat (t : FType α) : Bool :=
  match t with
  | .struct _ => false
  | .vector etype => etype.isFlat
  | .set etype _ => etype.isFlat
  | .map ktype _ vtype => ktype.isFlat && (vtype.isFlat && vtype.value != .set)
  | _ => true

mutual

/--
No struct stands in a container, and no value of a map is a set.
-/
def FType.isPlain (t : FType α) : Bool :=
  match t with
  | .struct fields => fields.isPlain
  | t => t.isFlat

def Fields.isPlain (fields : Fields σ) : Bool :=
  match fields with
  | .nil => true
  | .required _ ftype rest => ftype.isPlain && rest.isPlain
  | .optional _ ftype rest => ftype.isPlain && rest.isPlain

end

section Flat

theorem FType.fromWire_eq_of_isFlat {t : FType α} (ht : t.isFlat = true) (hset : t.value ≠ .set)
    (x y : α) (v : TValue)
    : t.fromWire x v = t.fromWire y v := by
  cases t <;> cases v <;> simp_all [isFlat, value, fromWire]

theorem FType.agrees_of_isFlat (t : FType α)
    : ∀ v, t.isFlat = true → t.accepts v = true → t.Agrees v := by
  match t with
  | .struct fields =>
    intro v hflat _
    simp [isFlat] at hflat
  | .vector etype =>
    intro v hflat haccepts
    cases v with
    | list etype' elems =>
      simp only [accepts, Bool.and_eq_true, List.all_eq_true] at haccepts
      apply InTurn.of_forall
      intro elem hmem
      exact etype.agrees_of_isFlat elem hflat (haccepts.2 elem hmem)
    | _ => simp [accepts] at haccepts
  | .set etype less =>
    intro v hflat haccepts
    cases v with
    | set etype' elems =>
      simp only [accepts, Bool.and_eq_true, List.all_eq_true] at haccepts
      apply InTurn.of_forall
      intro elem hmem
      exact etype.agrees_of_isFlat elem hflat (haccepts.2 elem hmem)
    | _ => simp [accepts] at haccepts
  | .map ktype less vtype =>
    intro v hflat haccepts
    cases v with
    | map ktype' vtype' entries =>
      simp only [isFlat, Bool.and_eq_true, bne_iff_ne] at hflat
      simp only [accepts, Bool.and_eq_true, List.all_eq_true] at haccepts
      refine ⟨?_, ?_⟩
      . apply InTurn.of_forall
        intro p hmem
        have hp := haccepts.2 p hmem
        exact ⟨ktype.agrees_of_isFlat p.1 hflat.1 hp.1,
          fun _ => vtype.agrees_of_isFlat p.2 hflat.2.1 hp.2⟩
      . simp only [fromWire]
        congr 1
        funext m p
        unfold putOver
        congr 1
        funext key
        rw [fromWire_eq_of_isFlat hflat.2.1 hflat.2.2 _ vtype.dflt]
    | _ => simp [accepts] at haccepts
  | .bool | .i8 | .i16 | .i32 | .i64 | .double | .string | .binary =>
    intro v _ _
    simp [Agrees]

end Flat

mutual

/--
Every `__isset` of `x` is one of `y`, also in the structs inside.
-/
def FType.KeepsIsset (t : FType α) (x y : α) : Prop :=
  match t with
  | .struct fields => fields.KeepsIsset x y
  | _ => True

def Fields.KeepsIsset (fields : Fields σ) (x y : σ) : Prop :=
  match fields with
  | .nil => True
  | .required _ ftype rest => ftype.KeepsIsset x.1 y.1 ∧ rest.KeepsIsset x.2 y.2
  | .optional _ ftype rest =>
    (x.1.isset = true → y.1.isset = true) ∧ ftype.KeepsIsset x.1.value y.1.value
      ∧ rest.KeepsIsset x.2 y.2

end

section KeepsIsset

mutual

theorem FType.KeepsIsset.refl (t : FType α) : ∀ x, t.KeepsIsset x x := by
  match t with
  | .struct fields =>
    intro x
    unfold FType.KeepsIsset
    exact Fields.KeepsIsset.refl fields x
  | .bool | .i8 | .i16 | .i32 | .i64 | .double | .string | .binary | .vector _ | .set _ _
  | .map _ _ _ =>
    intro x
    trivial

theorem Fields.KeepsIsset.refl (fields : Fields σ) : ∀ x, fields.KeepsIsset x x := by
  match fields with
  | .nil =>
    intro x
    trivial
  | .required _ t rest =>
    intro x
    exact ⟨.refl t x.1, .refl rest x.2⟩
  | .optional _ t rest =>
    intro x
    exact ⟨id, .refl t x.1.value, .refl rest x.2⟩

end

mutual

theorem FType.KeepsIsset.trans (t : FType α)
    : ∀ x y z, t.KeepsIsset x y → t.KeepsIsset y z → t.KeepsIsset x z := by
  match t with
  | .struct fields =>
    intro x y z h h'
    unfold FType.KeepsIsset at h h' ⊢
    exact Fields.KeepsIsset.trans fields x y z h h'
  | .bool | .i8 | .i16 | .i32 | .i64 | .double | .string | .binary | .vector _ | .set _ _
  | .map _ _ _ =>
    intro x y z _ _
    trivial

theorem Fields.KeepsIsset.trans (fields : Fields σ)
    : ∀ x y z, fields.KeepsIsset x y → fields.KeepsIsset y z → fields.KeepsIsset x z := by
  match fields with
  | .nil =>
    intro x y z _ _
    trivial
  | .required _ t rest =>
    intro x y z h h'
    exact ⟨.trans t _ _ _ h.1 h'.1, .trans rest _ _ _ h.2 h'.2⟩
  | .optional _ t rest =>
    intro x y z h h'
    exact ⟨h'.1 ∘ h.1, .trans t _ _ _ h.2.1 h'.2.1, .trans rest _ _ _ h.2.2 h'.2.2⟩

end

def FType.ReadKeepsIsset (proto : TProtocol) (depth : Nat) (t : FType α) : Prop :=
  ∀ x s r s', t.read proto depth x s = some (r, s') → t.KeepsIsset x r

variable {proto : TProtocol} {depth : Nat}

theorem Fields.keepsIsset_readCase (fields : Fields σ)
    (hfields : fields.All (FType.ReadKeepsIsset proto depth)) {ftype : TType} {fid : Int16}
    {this : σ} {isset : List Int16} {s s' : Bytes} {r : σ × List Int16}
    (h : fields.readCase proto depth ftype fid this isset s = some (r, s'))
    : fields.KeepsIsset this r.1 := by
  induction fields using Fields.induct with
  | nil => trivial
  | required fid' t rest ih =>
    simp only [Fields.readCase] at h
    split at h
    . split at h
      . obtain ⟨x, s1, hx, h⟩ := exists_of_bind h
        obtain ⟨rfl, rfl⟩ := Prod.mk.inj (eq_of_pure h)
        exact ⟨hfields.1 _ _ _ _ hx, Fields.KeepsIsset.refl rest _⟩
      . obtain ⟨_, s1, _, h⟩ := exists_of_bind h
        obtain ⟨rfl, rfl⟩ := Prod.mk.inj (eq_of_pure h)
        exact Fields.KeepsIsset.refl _ _
    . obtain ⟨others, s1, hothers, h⟩ := exists_of_bind h
      obtain ⟨rfl, rfl⟩ := Prod.mk.inj (eq_of_pure h)
      exact ⟨.refl t _, ih hfields.2 hothers⟩
  | optional fid' t rest ih =>
    simp only [Fields.readCase] at h
    split at h
    . split at h
      . obtain ⟨x, s1, hx, h⟩ := exists_of_bind h
        obtain ⟨rfl, rfl⟩ := Prod.mk.inj (eq_of_pure h)
        exact ⟨fun _ => rfl, hfields.1 _ _ _ _ hx, Fields.KeepsIsset.refl rest _⟩
      . obtain ⟨_, s1, _, h⟩ := exists_of_bind h
        obtain ⟨rfl, rfl⟩ := Prod.mk.inj (eq_of_pure h)
        exact Fields.KeepsIsset.refl _ _
    . obtain ⟨others, s1, hothers, h⟩ := exists_of_bind h
      obtain ⟨rfl, rfl⟩ := Prod.mk.inj (eq_of_pure h)
      exact ⟨id, .refl t _, ih hfields.2 hothers⟩

theorem Fields.keepsIsset_readFields (fields : Fields σ)
    (hfields : fields.All (FType.ReadKeepsIsset proto depth)) {n : Nat} {this : σ}
    {isset : List Int16} {s s' : Bytes} {r : σ × List Int16}
    (h : readFields (fields.readCase proto depth) proto n this isset s = some (r, s'))
    : fields.KeepsIsset this r.1 := by
  induction n generalizing this isset s with
  | zero => exact absurd h failure_ne_some
  | succ n ih =>
    simp only [readFields] at h
    obtain ⟨header, s1, _, h⟩ := exists_of_bind h
    split at h
    . obtain ⟨rfl, rfl⟩ := Prod.mk.inj (eq_of_pure h)
      exact Fields.KeepsIsset.refl _ _
    . obtain ⟨state, s2, hcase, h⟩ := exists_of_bind h
      obtain ⟨_, s3, _, h⟩ := exists_of_bind h
      exact .trans _ _ _ _ (fields.keepsIsset_readCase hfields hcase) (ih h)

mutual

theorem FType.keepsIsset_read (t : FType α)
    : ∀ depth, t.ReadKeepsIsset proto depth := by
  match t with
  | .struct fields =>
    intro depth x s r s' h
    match depth with
    | 0 => exact absurd h failure_ne_some
    | depth + 1 =>
      unfold FType.read at h
      obtain ⟨_, s1, _, h⟩ := exists_of_bind h
      obtain ⟨_, s2, _, h⟩ := exists_of_bind h
      obtain ⟨state, s3, hfields, h⟩ := exists_of_bind h
      obtain ⟨_, s4, _, h⟩ := exists_of_bind h
      split at h
      . obtain ⟨rfl, rfl⟩ := Prod.mk.inj (eq_of_pure h)
        exact fields.keepsIsset_readFields (fields.keepsIsset_read depth) hfields
      . exact absurd h failure_ne_some
  | .bool | .i8 | .i16 | .i32 | .i64 | .double | .string | .binary | .vector _ | .set _ _
  | .map _ _ _ =>
    intro depth x s r s' _
    trivial

theorem Fields.keepsIsset_read (fields : Fields σ) (depth : Nat)
    : fields.All (FType.ReadKeepsIsset proto depth) := by
  match fields with
  | .nil => trivial
  | .required _ t rest => exact ⟨t.keepsIsset_read depth, rest.keepsIsset_read depth⟩
  | .optional _ t rest => exact ⟨t.keepsIsset_read depth, rest.keepsIsset_read depth⟩

end

end KeepsIsset

section Member

variable {fields : Fields σ} {t : FType α}

theorem Member.isset_dflt (m : Member fields t) : m.isset fields.dflt = m.isRequired := by
  induction m with
  | required => rfl
  | optional => rfl
  | afterRequired m ih => exact ih
  | afterOptional m ih => exact ih

theorem Member.isset_assign (m : Member fields t) (x : α) (this : σ)
    : m.isset (m.assign x this) = true := by
  induction m with
  | required => rfl
  | optional => rfl
  | afterRequired m ih => exact ih x this.2
  | afterOptional m ih => exact ih x this.2

theorem Member.of_keepsIsset (m : Member fields t) {x y : σ} (h : fields.KeepsIsset x y)
    : (m.isset x = true → m.isset y = true) ∧ t.KeepsIsset (m.get x) (m.get y) := by
  induction m with
  | required => exact ⟨fun _ => rfl, h.1⟩
  | optional => exact ⟨h.1, h.2.1⟩
  | afterRequired m ih => exact ih h.2
  | afterOptional m ih => exact ih h.2.2

theorem Member.nesting_le (m : Member fields t) : t.nesting ≤ fields.nesting := by
  induction m with
  | required => exact Nat.le_max_left _ _
  | optional => exact Nat.le_max_left _ _
  | afterRequired m ih => exact Nat.le_trans ih (Nat.le_max_right _ _)
  | afterOptional m ih => exact Nat.le_trans ih (Nat.le_max_right _ _)

theorem Member.isSome_occurrence (m : Member fields t) (hrequired : m.isRequired = true)
    {fs : List (Int16 × TValue)} (hoccur : fields.occur fs = true)
    : (t.occurrence m.fid fs).isSome = true := by
  induction m with
  | required =>
    simp only [Fields.occur, Bool.and_eq_true] at hoccur
    exact hoccur.1
  | optional => simp [isRequired] at hrequired
  | afterRequired m ih =>
    simp only [Fields.occur, Bool.and_eq_true] at hoccur
    exact ih hrequired hoccur.2
  | afterOptional m ih => exact ih hrequired hoccur

theorem Fields.exists_member_of_not_agreesAt {p : Int16 × TValue} (h : ¬fields.AgreesAt p)
    : ∃ (α : Type) (t : FType α) (m : Member fields t),
        m.fid = p.1 ∧ p.2.type = t.value ∧ ¬(t.accepts p.2 = true ∧ t.Agrees p.2) := by
  induction fields using Fields.induct with
  | nil => exact absurd trivial h
  | required fid t rest ih =>
    unfold AgreesAt at h
    split at h
    . next heq =>
      rw [Classical.not_imp] at h
      exact ⟨_, t, .required, heq.symm, h.1, h.2⟩
    . obtain ⟨α, t, m, hm⟩ := ih h
      exact ⟨α, t, .afterRequired m, hm⟩
  | optional fid t rest ih =>
    unfold AgreesAt at h
    split at h
    . next heq =>
      rw [Classical.not_imp] at h
      exact ⟨_, t, .optional, heq.symm, h.1, h.2⟩
    . obtain ⟨α, t, m, hm⟩ := ih h
      exact ⟨α, t, .afterOptional m, hm⟩

theorem Fields.ext_of_members {x y : σ}
    (h : ∀ {α : Type} {t : FType α} (m : Member fields t),
      m.get x = m.get y ∧ m.isset x = m.isset y)
    : x = y := by
  induction fields using Fields.induct with
  | nil => rfl
  | required fid t rest ih =>
    have hfirst := (h .required).1
    have hrest : x.2 = y.2 := ih fun m => h (.afterRequired m)
    exact Prod.ext hfirst hrest
  | optional fid t rest ih =>
    obtain ⟨hvalue, hisset⟩ := h .optional
    have hrest : x.2 = y.2 := ih fun m => h (.afterOptional m)
    refine Prod.ext ?_ hrest
    exact (Optional.mk.injEq _ _ _ _).mpr ⟨hvalue, hisset⟩

end Member

/--
A value of the declared type that holds a retyped one leaves an `__isset` behind that should not be.
-/
def FType.Misreads (proto : TProtocol) (t : FType α) : Prop :=
  ∀ depth v rest r rest' y, t.nesting ≤ depth → v.WellFormed → proto.Skips v → t.accepts v = true
    → ¬t.Agrees v → t.fromWire t.dflt v = some y
    → t.read proto depth t.dflt (v.encode proto ++ rest) = some (r, rest') → ¬t.KeepsIsset r y

section Misread

variable {proto : TProtocol} {depth : Nat}

theorem TValue.encodeFields_append (before after : List (Int16 × TValue))
    : encodeFields proto (before ++ after)
        = encodeFields proto before ++ encodeFields proto after := by
  induction before with
  | nil => rfl
  | cons p before ih =>
    simp only [List.cons_append, encodeFields, ih, List.append_assoc]

theorem Fields.read_of_retyped (hproto : proto.Lawful) {fields : Fields σ}
    (hids : fields.ids.Nodup) {t : FType α} (m : Member fields t) {p : Int16 × TValue}
    (hfid : m.fid = p.1) (htype : p.2.type = t.value) {n : Nat} {this : σ} {isset : List Int16}
    {s s' : Bytes} {r : σ × List Int16}
    (h : readFields (fields.readCase proto depth) proto (n + 1) this isset
      (proto.fieldBegin.write (p.2.type, p.1) ++ (p.2.encode proto ++ s)) = some (r, s'))
    : ∃ x s1, t.read proto depth (m.get this) (p.2.encode proto ++ s) = some (x, s1)
        ∧ fields.KeepsIsset (m.assign x this) r.1 := by
  have hstop : p.2.type ≠ .stop := p.2.type_ne_stop
  simp only [readFields] at h
  rw [(hproto.fieldBegin _ _ hstop).bind_apply] at h
  dsimp only at h
  rw [if_neg hstop, htype, ← hfid, m.readCase_eq hids] at h
  obtain ⟨state, s1, hcase, h⟩ := exists_of_bind h
  obtain ⟨x, s2, hx, hstate⟩ := exists_of_bind hcase
  obtain ⟨_, s3, _, hrest⟩ := exists_of_bind h
  obtain ⟨rfl, rfl⟩ := Prod.mk.inj (eq_of_pure hstate)
  exact ⟨x, _, hx, fields.keepsIsset_readFields (fields.keepsIsset_read depth) hrest⟩

-- the loop that the `read` of a struct runs
theorem FType.exists_readFields (hproto : proto.Lawful) {fields : Fields σ}
    {fs : List (Int16 × TValue)} {x r : σ} {rest rest' : Bytes}
    (h : (FType.struct fields).read proto (depth + 1) x ((TValue.struct fs).encode proto ++ rest)
      = some (r, rest'))
    : ∃ n isset s s', fs.length < n
        ∧ readFields (fields.readCase proto depth) proto n x [] (TValue.encodeFields proto fs ++ s)
          = some ((r, isset), s') := by
  unfold FType.read TValue.encode at h
  simp only [List.append_assoc] at h
  rw [hproto.structBegin.bind_apply, get_bind_apply] at h
  obtain ⟨state, s, hfields, h⟩ := exists_of_bind h
  obtain ⟨_, s', _, h⟩ := exists_of_bind h
  split at h
  . obtain ⟨rfl, rfl⟩ := Prod.mk.inj (eq_of_pure h)
    have hlen := TValue.length_le_encodeFields hproto fs
    refine ⟨_, state.2, _, s, ?_, hfields⟩
    simp only [List.length_append]
    omega
  . exact absurd h failure_ne_some

/--
What is read for a field of another type, behind fields that are read as they should be, is found in
the result.
-/
theorem Fields.exists_read_of_retyped {fields : Fields σ} (hproto : proto.Lawful)
    (hids : fields.ids.Nodup) (htakes : fields.All (FType.Takes proto))
    (hdepth : fields.nesting ≤ depth) {before after : List (Int16 × TValue)} {p : Int16 × TValue}
    (hv : (TValue.struct (before ++ p :: after)).WellFormed)
    (hskip : proto.Skips (.struct (before ++ p :: after)))
    (hbefore : InTurn fields.AgreesAt fields.CompleteAt before) {t : FType α}
    (m : Member fields t) (hfid : m.fid = p.1) (htype : p.2.type = t.value) {r : σ}
    {rest rest' : Bytes}
    (hread : (FType.struct fields).read proto (depth + 1) fields.dflt
      ((TValue.struct (before ++ p :: after)).encode proto ++ rest) = some (r, rest'))
    : ∃ x s s', t.read proto depth t.dflt (p.2.encode proto ++ s) = some (x, s')
        ∧ m.isset r = true ∧ t.KeepsIsset x (m.get r) := by
  obtain ⟨n, isset, s, s', hn, hfields⟩ := FType.exists_readFields hproto hread
  obtain ⟨n, rfl⟩ : ∃ n', n = before.length + (n' + 1) := by
    simp only [List.length_append, List.length_cons] at hn
    exact ⟨n - before.length - 1, by omega⟩
  cases hv with
  | struct hfs hv =>
    rw [List.map_append, List.map_cons, List.nodup_append] at hfs
    have hnew : m.fid ∉ before.map Prod.fst := by
      intro hmem
      exact hfs.2.2 m.fid hmem m.fid (by simp [hfid]) rfl
    have hparts : ∀ q ∈ before,
        Reader.Reads (proto.skip q.2.type) (q.2.encode proto) () ∧ proto.Skips q.2 := by
      intro q hmem
      have hpart : q.2.IsPart (.struct (before ++ p :: after)) := .field (by simp [hmem])
      exact ⟨hskip q.2 (.single hpart), hskip.part hpart⟩
    have hwf : ∀ q ∈ before, q.2.WellFormed := fun q hmem => hv q (by simp [hmem])
    rw [TValue.encodeFields_append, List.append_assoc,
      readFields_append hproto hids htakes hdepth hfs.1 hwf hparts hbefore] at hfields
    obtain ⟨this, hthis, hfields⟩ := Option.bind_eq_some_iff.mp hfields
    have hfresh := ((m.of_assign hthis).2 (FType.occurrence_eq_none (lookup_eq_none hnew))).1
    simp only [TValue.encodeFields, List.append_assoc] at hfields
    obtain ⟨x, s1, hx, hsofar⟩ := Fields.read_of_retyped hproto hids m hfid htype hfields
    have hset := m.of_keepsIsset hsofar
    rw [m.isset_assign, m.get_assign] at hset
    rw [hfresh, m.get_dflt] at hx
    exact ⟨x, _, s1, hx, hset.1 rfl, hset.2⟩

theorem FType.Misreads.struct {fields : Fields σ} (hproto : proto.Lawful)
    (hids : fields.ids.Nodup) (htakes : fields.All (FType.Takes proto))
    (hmisreads : fields.All (FType.Misreads proto))
    : (FType.struct fields).Misreads proto := by
  intro depth v rest r rest' y hdepth hv hskip haccepts hnot hy hread hkeeps
  have htype := type_of_accepts haccepts
  cases v with
  | struct fs =>
    obtain ⟨before, p, after, rfl, hbefore, hp⟩ := InTurn.exists_of_not hnot
    obtain ⟨α, t, m, hfid, htype, hretyped⟩ := Fields.exists_member_of_not_agreesAt hp
    have hdflt : (FType.struct fields).dflt = fields.dflt := rfl
    simp only [fromWire, hdflt, Option.ite_none_right_eq_some] at hy hread
    simp only [nesting] at hdepth
    obtain ⟨depth, rfl⟩ := Nat.exists_eq_add_of_le' (Nat.le_trans (Nat.le_add_left 1 _) hdepth)
    obtain ⟨x, s, s', hx, hisset, hkept⟩ := Fields.exists_read_of_retyped hproto hids htakes
      (by omega) hv hskip hbefore m hfid htype hread
    have hset := m.of_keepsIsset hkeeps
    have hexpected := m.of_assign hy.2
    have hlookup : (before ++ p :: after).lookup m.fid = some p.2 := by
      cases hv with
      | struct hfs _ =>
        rw [hfid]
        exact lookup_of_mem hfs (by simp)
    by_cases htyped : t.accepts p.2 = true
    . -- what is inside of the field is of another type
      have hinside : ¬t.Agrees p.2 := fun hagrees => hretyped ⟨htyped, hagrees⟩
      have hfrom := (hexpected.1 p.2 (FType.occurrence_eq_some hlookup htyped)).1
      rw [Member.get_dflt] at hfrom
      have hpart : p.2.IsPart (.struct (before ++ p :: after)) := .field (by simp)
      have hdepth := Nat.le_trans m.nesting_le (by omega : fields.nesting ≤ depth)
      exact m.of_all hmisreads depth p.2 _ x s' _ hdepth (hv.part hpart) (hskip.part hpart)
        htyped hinside hfrom hx (.trans _ _ _ _ hkept hset.2)
    . -- the field should not have been set, and it is not a required one
      have hnone : t.occurrence m.fid (before ++ p :: after) = none := by
        unfold FType.occurrence
        rw [hlookup, Option.filter_some, if_neg htyped]
      have hrequired : m.isRequired = true := by
        rw [← m.isset_dflt, ← (hexpected.2 hnone).2]
        exact hset.1 hisset
      have hsome := m.isSome_occurrence hrequired hy.1
      simp [hnone] at hsome
  | _ => simp [TValue.type, value] at htype

mutual

theorem FType.misreads (hproto : proto.Lawful) (t : FType α) (ht : t.Distinct)
    (hplain : t.isPlain = true)
    : t.Misreads proto := by
  match t with
  | .struct fields =>
    exact FType.Misreads.struct hproto ht.1 (fields.takes hproto ht.2)
      (fields.misreads hproto ht.2 hplain)
  | .bool | .i8 | .i16 | .i32 | .i64 | .double | .string | .binary | .vector _ | .set _ _
  | .map _ _ _ =>
    intro depth v rest r rest' y _ _ _ haccepts hnot
    exact absurd (FType.agrees_of_isFlat _ v hplain haccepts) hnot

theorem Fields.misreads (hproto : proto.Lawful) (fields : Fields σ) (hfields : fields.Distinct)
    (hplain : fields.isPlain = true)
    : fields.All (FType.Misreads proto) := by
  match fields with
  | .nil => trivial
  | .required _ t rest =>
    simp only [Fields.isPlain, Bool.and_eq_true] at hplain
    exact ⟨t.misreads hproto hfields.1 hplain.1, rest.misreads hproto hfields.2 hplain.2⟩
  | .optional _ t rest =>
    simp only [Fields.isPlain, Bool.and_eq_true] at hplain
    exact ⟨t.misreads hproto hfields.1 hplain.1, rest.misreads hproto hfields.2 hplain.2⟩

end

end Misread

section Result

variable {proto : TProtocol} {fields : Fields σ} {fs : List (Int16 × TValue)}

theorem Fields.ReadsForeign.fromWire_eq (h : fields.ReadsForeign proto fs) {r : σ}
    {rest rest' : Bytes}
    (hread : (FType.struct fields).read proto proto.recursionLimit fields.dflt
      ((TValue.struct fs).encode proto ++ rest) = some (r, rest'))
    (hcomplete : (FType.struct fields).Complete (.struct fs))
    : (FType.struct fields).fromWire fields.dflt (.struct fs) = some r := by
  rw [← (FType.struct fields).isSome_fromWire_iff (.struct fs) fields.dflt rfl] at hcomplete
  obtain ⟨y, hy⟩ := Option.isSome_iff_exists.mp hcomplete
  rw [hy, Option.some.injEq]
  simp only [FType.fromWire, Option.ite_none_right_eq_some] at hy
  apply fields.ext_of_members
  intro α t m
  have hexpected := m.of_assign hy.2
  have hsets := (h.sets rest r rest' hread).2 m
  cases hoccurs : t.occurrence m.fid fs with
  | none =>
    have hr := hsets.2 hoccurs
    have hm := hexpected.2 hoccurs
    rw [m.get_dflt] at hm
    exact ⟨hm.1.trans hr.1.symm, hm.2.trans hr.2.symm⟩
  | some v =>
    have hr := hsets.1 v hoccurs
    have hm := hexpected.1 v hoccurs
    rw [m.get_dflt, hr.1, Option.some.injEq] at hm
    exact ⟨hm.1.symm, hm.2.trans hr.2.symm⟩

-- what is read for a field of another type shows in the result, whatever comes behind it
theorem Fields.ReadsForeign.agrees (h : fields.ReadsForeign proto fs) (hproto : proto.Lawful)
    (hdistinct : (FType.struct fields).Distinct)
    (hnesting : (FType.struct fields).nesting ≤ proto.recursionLimit)
    (hfs : (TValue.struct fs).WellFormed) (hskip : proto.Skips (.struct fs))
    (hplain : fields.isPlain = true) (hcomplete : (FType.struct fields).Complete (.struct fs))
    : (FType.struct fields).Agrees (.struct fs) := by
  by_contra hnot
  have hsome : (FType.struct fields).read proto proto.recursionLimit fields.dflt
      ((TValue.struct fs).encode proto ++ []) ≠ none := by
    rw [Ne, h.fails, not_not]
    exact hcomplete
  obtain ⟨q, hread⟩ := Option.ne_none_iff_exists'.mp hsome
  obtain ⟨r, rest'⟩ := q
  have hexpected := h.fromWire_eq hread hcomplete
  exact FType.misreads hproto _ hdistinct hplain _ _ _ _ _ _ hnesting hfs hskip rfl hnot hexpected
    hread (.refl _ r)

end Result

/--
The encoding of any writer is read as it should be, unless a value that is read for a field is not
of exactly the declared type or is read over another value for the same key of a map. Where reading
never takes back what it has set and no required field is missing, it is not read as it should be
then.
-/
theorem Fields.readsForeign_iff_agrees {proto : TProtocol} (hproto : proto.Lawful)
    (fields : Fields σ) (hdistinct : (FType.struct fields).Distinct)
    (hnesting : (FType.struct fields).nesting ≤ proto.recursionLimit)
    (fs : List (Int16 × TValue)) (hfs : (TValue.struct fs).WellFormed)
    (hskip : proto.Skips (.struct fs))
    : ((FType.struct fields).Agrees (.struct fs) → fields.ReadsForeign proto fs)
      ∧ (fields.isPlain = true → (FType.struct fields).Complete (.struct fs)
        → (fields.ReadsForeign proto fs ↔ (FType.struct fields).Agrees (.struct fs))) := by
  have hreads : (FType.struct fields).Agrees (.struct fs) → fields.ReadsForeign proto fs :=
    fields.readsForeign_of_agrees hproto hdistinct hnesting fs hfs hskip
  refine ⟨hreads, ?_⟩
  intro hplain hcomplete
  refine ⟨?_, hreads⟩
  intro h
  exact h.agrees hproto hdistinct hnesting hfs hskip hplain hcomplete

-- the fields of another version: one that is not declared, one of another type
def foreignFields : List (Int16 × TValue) :=
  [(7, .list .i64 [.i64 1]), (3, .set .i32 [.i32 2]), (2, .bool true), (1, .i32 5)]

theorem foreignFields_wellFormed : (TValue.struct foreignFields).WellFormed := by
  apply TValue.WellFormed.struct (by decide)
  simp only [foreignFields, List.forall_mem_cons, List.not_mem_nil, false_implies, implies_true,
    and_true]
  refine ⟨.list (by decide) ?_ ?_, .set (by decide) ?_ ?_, .bool true, .i32 5⟩
  all_goals simp [TValue.type, TValue.WellFormed.i64, TValue.WellFormed.i32]

def retypedFields : List (Int16 × TValue) := [(1, .list .i64 [.i64 1])]

theorem retypedFields_wellFormed : (TValue.struct retypedFields).WellFormed := by
  apply TValue.WellFormed.struct (by decide)
  simp only [retypedFields, List.forall_mem_cons, List.not_mem_nil, false_implies, implies_true,
    and_true]
  apply TValue.WellFormed.list (by decide)
  all_goals simp [TValue.type, TValue.WellFormed.i64]

def nestedFields : Fields ((Optional (List Int32) × Unit) × Unit) :=
  .required 1 (.struct (.optional 1 (.vector .i32) .nil)) .nil

-- fields of another version of `exampleFields`, and a retyped field one level down
theorem Fields.readsForeign_iff_agrees_example
    : exampleFields.ReadsForeign TBinaryProtocol foreignFields
      ∧ ¬nestedFields.ReadsForeign TBinaryProtocol [(1, .struct retypedFields)] := by
  refine ⟨?_, ?_⟩
  . have hskip := TBinaryProtocol.skips foreignFields_wellFormed (by decide)
    apply (Fields.readsForeign_iff_agrees TBinaryProtocol.lawful exampleFields
      ⟨by decide, trivial, trivial, trivial, trivial⟩ (by decide) _ foreignFields_wellFormed
      hskip).1
    simp [FType.Agrees, foreignFields, InTurn, Fields.AgreesAt, exampleFields, FType.accepts,
      TValue.type, FType.value]
  . intro h
    have hfs : (TValue.struct [(1, .struct retypedFields)]).WellFormed :=
      .struct (by decide) (by simp [retypedFields_wellFormed])
    have hskip := TBinaryProtocol.skips hfs (by decide)
    have hcomplete : (FType.struct nestedFields).Complete
        (.struct [(1, .struct retypedFields)]) := by
      refine ⟨rfl, ?_, trivial⟩
      intro v hv
      cases hv
      refine ⟨rfl, ?_, trivial⟩
      intro w hw
      cases hw
    have hagrees := ((Fields.readsForeign_iff_agrees TBinaryProtocol.lawful nestedFields
      ⟨by decide, ⟨by decide, trivial, trivial⟩, trivial⟩ (by decide) _ hfs hskip).2 rfl
      hcomplete).mp h
    simp [FType.Agrees, InTurn, nestedFields, Fields.AgreesAt, retypedFields, FType.accepts,
      TValue.type, FType.value] at hagrees

/--
A list of one `i64` comes for a vector of `int32_t`. The field should be skipped, it is set to the
first half of the number and the second half is read as what comes behind it.
-/
theorem Fields.not_readsForeign_retyped
    : (TValue.struct retypedFields).WellFormed
      ∧ ¬(Fields.optional 1 (.vector .i32) .nil).ReadsForeign TBinaryProtocol
        retypedFields := by
  refine ⟨retypedFields_wellFormed, ?_⟩
  intro h
  have hread : (FType.struct (.optional 1 (.vector .i32) .nil)).read TBinaryProtocol 64
      (Fields.optional 1 (.vector .i32) .nil).dflt
      ((TValue.struct retypedFields).encode TBinaryProtocol ++ [])
        = some (⟨⟨[0], true⟩, ()⟩, [0, 0, 1, 0]) := by rfl
  have hset := (h.sets [] _ _ hread).2 (.optional : Member _ (.vector .i32))
  have hskipped := (hset.2 rfl).2
  simp [Member.isset, Fields.dflt] at hskipped

end MsgRpc
