import MsgRpc.Thrift.Message
import MsgRpc.Thrift.TValue

/-!
This module contains what a struct should make of the fields of any writer.
-/

namespace MsgRpc

open Reader

/--
`v` is of exactly the declared type, down to the elements of containers.
-/
def FType.accepts (t : FType α) (v : TValue) : Bool :=
  match t with
  | .vector etype =>
    match v with
    | .list etype' elems => etype' = etype.value && elems.all etype.accepts
    | _ => false
  | .set etype _ =>
    match v with
    | .set etype' elems => etype' = etype.value && elems.all etype.accepts
    | _ => false
  | .map ktype _ vtype =>
    match v with
    | .map ktype' vtype' entries =>
      ktype' = ktype.value && vtype' = vtype.value
        && entries.all fun p => ktype.accepts p.1 && vtype.accepts p.2
    | _ => false
  | t => v.type = t.value

-- the value of field `fid`, if it is of exactly the type `t`
def FType.occurrence (t : FType α) (fid : Int16) (fs : List (Int16 × TValue)) : Option TValue :=
  (fs.lookup fid).filter t.accepts

def Fields.occur (fields : Fields σ) (fs : List (Int16 × TValue)) : Bool :=
  match fields with
  | .nil => true
  | .required fid ftype rest => (ftype.occurrence fid fs).isSome && rest.occur fs
  | .optional _ _ rest => rest.occur fs

mutual

/--
What `v` makes of a target that holds `x`. Of the values for one key of a map the last one counts.
-/
def FType.fromWire (t : FType α) (x : α) (v : TValue) : Option α :=
  match t with
  | .bool =>
    match v with
    | .bool b => some b
    | _ => none
  | .i8 =>
    match v with
    | .byte i => some i
    | _ => none
  | .i16 =>
    match v with
    | .i16 i => some i
    | _ => none
  | .i32 =>
    match v with
    | .i32 i => some i
    | _ => none
  | .i64 =>
    match v with
    | .i64 i => some i
    | _ => none
  | .double =>
    match v with
    | .double bits => some bits
    | _ => none
  | .string =>
    match v with
    | .string s => some s
    | _ => none
  | .binary =>
    match v with
    | .string s => some s
    | _ => none
  | .struct fields =>
    match v with
    | .struct fs => if fields.occur fs then fields.assign x fs else none
    | _ => none
  | .vector etype =>
    match v with
    | .list _ elems => elems.mapM (etype.fromWire etype.dflt)
    | _ => none
  | .set etype _ =>
    match v with
    | .set _ elems => (elems.mapM (etype.fromWire etype.dflt)).map (·.foldl OrderedSet.insert x)
    | _ => none
  | .map ktype _ vtype =>
    match v with
    | .map _ _ entries =>
      entries.foldlM (fun m p => do
        let key ← ktype.fromWire ktype.dflt p.1
        let val ← vtype.fromWire vtype.dflt p.2
        return m.put key val) .empty
    | _ => none

-- a declared field is set to its value if it occurs and left alone if it does not
def Fields.assign (fields : Fields σ) (this : σ) (fs : List (Int16 × TValue)) : Option σ :=
  match fields with
  | .nil => some ()
  | .required fid ftype rest => do
    let field ← (ftype.occurrence fid fs).elim (some this.1) (ftype.fromWire this.1)
    let others ← rest.assign this.2 fs
    return ⟨field, others⟩
  | .optional fid ftype rest => do
    let field ← (ftype.occurrence fid fs).elim (some this.1) fun v =>
      (ftype.fromWire this.1.value v).map fun x => { value := x, isset := true }
    let others ← rest.assign this.2 fs
    return ⟨field, others⟩

end

mutual

/--
No required field is missing in `v`, at any level.
-/
def FType.Complete (t : FType α) (v : TValue) : Prop :=
  match t with
  | .struct fields =>
    match v with
    | .struct fs => fields.occur fs = true ∧ fields.Complete fs
    | _ => False
  | .vector etype =>
    match v with
    | .list _ elems => ∀ elem ∈ elems, etype.Complete elem
    | _ => False
  | .set etype _ =>
    match v with
    | .set _ elems => ∀ elem ∈ elems, etype.Complete elem
    | _ => False
  | .map ktype _ vtype =>
    match v with
    | .map _ _ entries => ∀ p ∈ entries, ktype.Complete p.1 ∧ vtype.Complete p.2
    | _ => False
  | _ => True

def Fields.Complete (fields : Fields σ) (fs : List (Int16 × TValue)) : Prop :=
  match fields with
  | .nil => True
  | .required fid ftype rest =>
    (∀ v, ftype.occurrence fid fs = some v → ftype.Complete v) ∧ rest.Complete fs
  | .optional fid ftype rest =>
    (∀ v, ftype.occurrence fid fs = some v → ftype.Complete v) ∧ rest.Complete fs

end

-- the value for a key that is in the map already is read over the old one
def FType.putOver {less : Less κ} (ktype : FType κ) (vtype : FType β) (m : OrderedMap less β)
    (p : TValue × TValue) : Option (OrderedMap less β) := do
  let key ← ktype.fromWire ktype.dflt p.1
  let val ← vtype.fromWire ((m.find key).getD vtype.dflt) p.2
  return m.put key val

-- field `p` lacks no required field if it is read
def Fields.CompleteAt (fields : Fields σ) (p : Int16 × TValue) : Prop :=
  match fields with
  | .nil => True
  | .required fid ftype rest =>
    if p.1 = fid then p.2.type = ftype.value → ftype.Complete p.2 else rest.CompleteAt p
  | .optional fid ftype rest =>
    if p.1 = fid then p.2.type = ftype.value → ftype.Complete p.2 else rest.CompleteAt p

mutual

/--
All fields that are read are of exactly the declared types, at any level, and the values for one key
of a map leave nothing of each other. Reading ends at the first value that lacks a required field.
-/
def FType.Agrees (t : FType α) (v : TValue) : Prop :=
  match t with
  | .struct fields =>
    match v with
    | .struct fs => InTurn fields.AgreesAt fields.CompleteAt fs
    | _ => True
  | .vector etype =>
    match v with
    | .list _ elems => InTurn etype.Agrees etype.Complete elems
    | _ => True
  | .set etype _ =>
    match v with
    | .set _ elems => InTurn etype.Agrees etype.Complete elems
    | _ => True
  | .map ktype less vtype =>
    match v with
    | .map ktype' vtype' entries =>
      InTurn (fun p => ktype.Agrees p.1 ∧ (ktype.Complete p.1 → vtype.Agrees p.2))
          (fun p => ktype.Complete p.1 ∧ vtype.Complete p.2) entries
        ∧ entries.foldlM (ktype.putOver vtype) .empty
          = (FType.map ktype less vtype).fromWire .empty (.map ktype' vtype' entries)
    | _ => True
  | _ => True

def Fields.AgreesAt (fields : Fields σ) (p : Int16 × TValue) : Prop :=
  match fields with
  | .nil => True
  | .required fid ftype rest =>
    if p.1 = fid then p.2.type = ftype.value → ftype.accepts p.2 = true ∧ ftype.Agrees p.2
    else rest.AgreesAt p
  | .optional fid ftype rest =>
    if p.1 = fid then p.2.type = ftype.value → ftype.accepts p.2 = true ∧ ftype.Agrees p.2
    else rest.AgreesAt p

end

mutual

def FType.Distinct (t : FType α) : Prop :=
  match t with
  | .struct fields => fields.ids.Nodup ∧ fields.Distinct
  | .vector etype => etype.Distinct
  | .set etype _ => etype.Distinct
  | .map ktype _ vtype => ktype.Distinct ∧ vtype.Distinct
  | _ => True

def Fields.Distinct (fields : Fields σ) : Prop :=
  match fields with
  | .nil => True
  | .required _ ftype rest => ftype.Distinct ∧ rest.Distinct
  | .optional _ ftype rest => ftype.Distinct ∧ rest.Distinct

end

mutual

def FType.nesting (t : FType α) : Nat :=
  match t with
  | .struct fields => fields.nesting + 1
  | .vector etype => etype.nesting
  | .set etype _ => etype.nesting
  | .map ktype _ vtype => max ktype.nesting vtype.nesting
  | _ => 0

def Fields.nesting (fields : Fields σ) : Nat :=
  match fields with
  | .nil => 0
  | .required _ ftype rest => max ftype.nesting rest.nesting
  | .optional _ ftype rest => max ftype.nesting rest.nesting

end

section Option

variable {α β γ : Type}

theorem foldlM_eq_mapM {f : γ → Option β} (g : α → β → α) (xs : List γ) (a : α)
    : xs.foldlM (fun a x => (f x).map (g a)) a = (xs.mapM f).map (·.foldl g a) := by
  induction xs generalizing a with
  | nil => rfl
  | cons x xs ih =>
    simp only [List.foldlM_cons, List.mapM_cons, Option.bind_eq_bind, Option.pure_def]
    cases hx : f x with
    | none => rfl
    | some b =>
      simp only [Option.map_some, Option.bind_some, ih]
      cases xs.mapM f <;> rfl

theorem isSome_foldlM_iff {step : α → γ → Option α} {P : γ → Prop} {xs : List γ}
    (h : ∀ a, ∀ x ∈ xs, (step a x).isSome = true ↔ P x) (a : α)
    : (xs.foldlM step a).isSome = true ↔ ∀ x ∈ xs, P x := by
  induction xs generalizing a with
  | nil => simp
  | cons x xs ih =>
    have hx := h a x List.mem_cons_self
    have hxs := fun a => ih (fun a y hy => h a y (List.mem_cons_of_mem _ hy)) a
    rw [List.foldlM_cons, List.forall_mem_cons, ← hx]
    cases step a x with
    | none => simp
    | some a' => simp [hxs a']

theorem isSome_mapM_iff {f : γ → Option β} {P : γ → Prop} {xs : List γ}
    (h : ∀ x ∈ xs, (f x).isSome = true ↔ P x)
    : (xs.mapM f).isSome = true ↔ ∀ x ∈ xs, P x := by
  induction xs with
  | nil => simp
  | cons x xs ih =>
    have hx := h x List.mem_cons_self
    have hxs := ih fun y hy => h y (List.mem_cons_of_mem _ hy)
    rw [List.mapM_cons, List.forall_mem_cons, ← hx, ← hxs]
    cases f x with
    | none => simp
    | some b => cases xs.mapM f <;> simp

end Option

section Complete

theorem FType.type_of_accepts {t : FType α} {v : TValue} (h : t.accepts v = true)
    : v.type = t.value := by
  cases t <;> cases v <;> simp_all [accepts, TValue.type, value]

theorem FType.accepts_of_occurrence {t : FType α} {fid : Int16} {fs : List (Int16 × TValue)}
    {v : TValue} (h : t.occurrence fid fs = some v)
    : t.accepts v = true := by
  unfold occurrence at h
  rw [Option.filter_eq_some_iff] at h
  exact h.2

mutual

theorem FType.isSome_fromWire_iff (t : FType α)
    : ∀ v x, t.accepts v = true → ((t.fromWire x v).isSome = true ↔ t.Complete v) := by
  match t with
  | .bool | .i8 | .i16 | .i32 | .i64 | .double | .string | .binary =>
    intro v x hv
    have htype := FType.type_of_accepts hv
    cases v <;> simp_all [TValue.type, FType.value, FType.fromWire, FType.Complete]
  | .struct fields =>
    intro v x hv
    have htype := FType.type_of_accepts hv
    cases v with
    | struct fs =>
      simp only [FType.fromWire, FType.Complete, ← fields.isSome_assign_iff x fs]
      split <;> simp_all
    | _ => simp [TValue.type, FType.value] at htype
  | .vector etype =>
    intro v x hv
    cases v with
    | list etype' elems =>
      simp only [FType.accepts, Bool.and_eq_true, List.all_eq_true] at hv
      simp only [FType.fromWire, FType.Complete]
      apply isSome_mapM_iff
      intro elem hmem
      exact etype.isSome_fromWire_iff elem etype.dflt (hv.2 elem hmem)
    | _ => simp [FType.accepts] at hv
  | .set etype less =>
    intro v x hv
    cases v with
    | set etype' elems =>
      simp only [FType.accepts, Bool.and_eq_true, List.all_eq_true] at hv
      simp only [FType.fromWire, FType.Complete, Option.isSome_map]
      apply isSome_mapM_iff
      intro elem hmem
      exact etype.isSome_fromWire_iff elem etype.dflt (hv.2 elem hmem)
    | _ => simp [FType.accepts] at hv
  | .map ktype less vtype =>
    intro v x hv
    cases v with
    | map ktype' vtype' entries =>
      simp only [FType.accepts, Bool.and_eq_true, List.all_eq_true] at hv
      simp only [FType.fromWire, FType.Complete]
      apply isSome_foldlM_iff
      intro m p hmem
      have hkey := ktype.isSome_fromWire_iff p.1 ktype.dflt (hv.2 p hmem).1
      have hval := vtype.isSome_fromWire_iff p.2 vtype.dflt (hv.2 p hmem).2
      rw [← hkey, ← hval]
      cases ktype.fromWire ktype.dflt p.1 <;> cases vtype.fromWire vtype.dflt p.2 <;> simp
    | _ => simp [FType.accepts] at hv

theorem Fields.isSome_assign_iff (fields : Fields σ)
    : ∀ this fs, (fields.assign this fs).isSome = true ↔ fields.Complete fs := by
  match fields with
  | .nil =>
    intro this fs
    simp [Fields.assign, Fields.Complete]
  | .required fid ftype rest =>
    intro this fs
    have hrest := rest.isSome_assign_iff this.2 fs
    simp only [Fields.assign, Fields.Complete, ← hrest]
    cases hv : ftype.occurrence fid fs with
    | none => cases rest.assign this.2 fs <;> simp
    | some v =>
      have hfield := ftype.isSome_fromWire_iff v this.1 (FType.accepts_of_occurrence hv)
      simp only [Option.some.injEq, forall_eq', ← hfield, Option.elim_some]
      cases ftype.fromWire this.1 v <;> cases rest.assign this.2 fs <;> simp
  | .optional fid ftype rest =>
    intro this fs
    have hrest := rest.isSome_assign_iff this.2 fs
    simp only [Fields.assign, Fields.Complete, ← hrest]
    cases hv : ftype.occurrence fid fs with
    | none => cases rest.assign this.2 fs <;> simp
    | some v =>
      have hfield := ftype.isSome_fromWire_iff v this.1.value (FType.accepts_of_occurrence hv)
      simp only [Option.some.injEq, forall_eq', ← hfield, Option.elim_some]
      cases ftype.fromWire this.1.value v <;> cases rest.assign this.2 fs <;> simp

end

theorem FType.occurrence_eq_some {t : FType α} {fid : Int16} {fs : List (Int16 × TValue)}
    {v : TValue} (hlookup : fs.lookup fid = some v) (haccepts : t.accepts v = true)
    : t.occurrence fid fs = some v := by
  unfold occurrence
  rw [hlookup, Option.filter_some, if_pos haccepts]

theorem Fields.completeAt_of_complete {fields : Fields σ} {fs : List (Int16 × TValue)}
    {p : Int16 × TValue} (hlookup : fs.lookup p.1 = some p.2) (hagrees : fields.AgreesAt p)
    (hcomplete : fields.Complete fs)
    : fields.CompleteAt p := by
  induction fields using Fields.induct with
  | nil => trivial
  | required fid t rest ih =>
    unfold AgreesAt at hagrees
    unfold CompleteAt
    split
    . next heq =>
      rw [if_pos heq] at hagrees
      intro htype
      rw [heq] at hlookup
      exact hcomplete.1 p.2 (FType.occurrence_eq_some hlookup (hagrees htype).1)
    . next hne =>
      rw [if_neg hne] at hagrees
      exact ih hagrees hcomplete.2
  | optional fid t rest ih =>
    unfold AgreesAt at hagrees
    unfold CompleteAt
    split
    . next heq =>
      rw [if_pos heq] at hagrees
      intro htype
      rw [heq] at hlookup
      exact hcomplete.1 p.2 (FType.occurrence_eq_some hlookup (hagrees htype).1)
    . next hne =>
      rw [if_neg hne] at hagrees
      exact ih hagrees hcomplete.2

end Complete

section Lookup

variable {fid fid' : Int16} {v : TValue} {fs : List (Int16 × TValue)}

theorem FType.occurrence_congr {t : FType α} {fs' : List (Int16 × TValue)}
    (h : fs.lookup fid = fs'.lookup fid)
    : t.occurrence fid fs = t.occurrence fid fs' := by
  unfold occurrence
  rw [h]

theorem Fields.assign_congr {fields : Fields σ} {fs' : List (Int16 × TValue)}
    (h : ∀ fid ∈ fields.ids, fs.lookup fid = fs'.lookup fid) (this : σ)
    : fields.assign this fs = fields.assign this fs' := by
  induction fields using Fields.induct with
  | nil => rfl
  | required fid t rest ih =>
    simp only [ids, List.forall_mem_cons] at h
    simp only [assign, FType.occurrence_congr h.1, ih h.2]
  | optional fid t rest ih =>
    simp only [ids, List.forall_mem_cons] at h
    simp only [assign, FType.occurrence_congr h.1, ih h.2]

theorem Fields.assign_nil (fields : Fields σ) (this : σ) : fields.assign this [] = some this := by
  induction fields using Fields.induct with
  | nil => rfl
  | required fid t rest ih => simp [assign, FType.occurrence, ih]
  | optional fid t rest ih => simp [assign, FType.occurrence, ih]

theorem Fields.assign_cons_of_not_mem {fields : Fields σ} (hfid : fid ∉ fields.ids) (this : σ)
    : fields.assign this ((fid, v) :: fs) = fields.assign this fs := by
  apply assign_congr
  intro fid' hmem
  have hne : fid' ≠ fid := ne_of_mem_of_not_mem hmem hfid
  simp [List.lookup_cons, beq_false_of_ne hne]

theorem FType.occurrence_cons_self {t : FType α}
    : t.occurrence fid ((fid, v) :: fs) = t.occurrence fid [(fid, v)] :=
  occurrence_congr (by simp)

theorem FType.occurrence_cons_of_ne {t : FType α} (hne : fid ≠ fid')
    : t.occurrence fid ((fid', v) :: fs) = t.occurrence fid fs :=
  occurrence_congr (by simp [List.lookup_cons, beq_false_of_ne hne])

theorem FType.occurrence_nil (t : FType α) (fid : Int16) : t.occurrence fid [] = none := rfl

theorem FType.occurrence_eq_none {t : FType α} (hfid : fs.lookup fid = none)
    : t.occurrence fid fs = none := by
  unfold occurrence
  rw [hfid]
  rfl

theorem Fields.assign_cons {fields : Fields σ} (hids : fields.ids.Nodup)
    (hfid : fs.lookup fid = none) (this : σ)
    : fields.assign this ((fid, v) :: fs)
        = (fields.assign this [(fid, v)]).bind fun this => fields.assign this fs := by
  induction fields using Fields.induct with
  | nil => rfl
  | required fid' t rest ih =>
    simp only [ids, List.nodup_cons] at hids
    simp only [assign, Option.bind_eq_bind, Option.pure_def]
    by_cases heq : fid = fid'
    . subst heq
      rw [FType.occurrence_cons_self, FType.occurrence_eq_none hfid, assign_cons_of_not_mem hids.1,
        assign_cons_of_not_mem hids.1, rest.assign_nil]
      simp only [Option.bind_assoc, Option.bind_some, Option.elim_none]
    . rw [FType.occurrence_cons_of_ne (Ne.symm heq), FType.occurrence_cons_of_ne (Ne.symm heq),
        FType.occurrence_nil, ih hids.2]
      simp only [Option.bind_assoc, Option.bind_some, Option.elim_none]
      rw [Option.bind_comm]
  | optional fid' t rest ih =>
    simp only [ids, List.nodup_cons] at hids
    simp only [assign, Option.bind_eq_bind, Option.pure_def]
    by_cases heq : fid = fid'
    . subst heq
      rw [FType.occurrence_cons_self, FType.occurrence_eq_none hfid, assign_cons_of_not_mem hids.1,
        assign_cons_of_not_mem hids.1, rest.assign_nil]
      simp only [Option.bind_assoc, Option.bind_some, Option.elim_none]
    . rw [FType.occurrence_cons_of_ne (Ne.symm heq), FType.occurrence_cons_of_ne (Ne.symm heq),
        FType.occurrence_nil, ih hids.2]
      simp only [Option.bind_assoc, Option.bind_some, Option.elim_none]
      rw [Option.bind_comm]

end Lookup

end MsgRpc
