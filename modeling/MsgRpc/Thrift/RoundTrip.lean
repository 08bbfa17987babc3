import MsgRpc.Thrift.BinaryProtocol
import MsgRpc.Thrift.Message

/-!
This module contains the proof that the generated `read` undoes the generated `write`.
-/

namespace MsgRpc

open Reader

mutual

/--
Field ids of a struct are distinct, and equal elements and keys are equivalent to their order.
-/
def FType.Proper (t : FType α) : Prop :=
  match t with
  | .struct fields => fields.ids.Nodup ∧ fields.Proper
  | .vector etype => etype.Proper
  | .set etype less => etype.Proper ∧ ∀ x y, etype.eq x y = true → less.Equiv x y
  | .map ktype less vtype =>
    ktype.Proper ∧ vtype.Proper ∧ ∀ x y, ktype.eq x y = true → less.Equiv x y
  | _ => True

def Fields.Proper (fields : Fields σ) : Prop :=
  match fields with
  | .nil => True
  | .required _ ftype rest => ftype.Proper ∧ rest.Proper
  | .optional _ ftype rest => ftype.Proper ∧ rest.Proper

end

mutual

/--
Sizes of strings and containers are below `2 ^ 31` and structs are nested at most `depth` times.
-/
def FType.Fits (t : FType α) (depth : Nat) (x : α) : Prop :=
  match t with
  | .string => x.length < 2 ^ 31
  | .binary => x.length < 2 ^ 31
  | .struct fields =>
    match depth with
    | 0 => False
    | depth + 1 => fields.Fits depth x
  | .vector etype => x.length < 2 ^ 31 ∧ ∀ y ∈ x, etype.Fits depth y
  | .set etype _ => x.elems.length < 2 ^ 31 ∧ ∀ y ∈ x.elems, etype.Fits depth y
  | .map ktype _ vtype =>
    x.entries.length < 2 ^ 31 ∧ ∀ p ∈ x.entries, ktype.Fits depth p.1 ∧ vtype.Fits depth p.2
  | _ => True

def Fields.Fits (fields : Fields σ) (depth : Nat) (this : σ) : Prop :=
  match fields with
  | .nil => True
  | .required _ ftype rest => ftype.Fits depth this.1 ∧ rest.Fits depth this.2
  | .optional _ ftype rest =>
    (this.1.isset = true → ftype.Fits depth this.1.value) ∧ rest.Fits depth this.2

end

section Entries

def Fields.All (P : {α : Type} → FType α → Prop) (fields : Fields σ) : Prop :=
  match fields with
  | .nil => True
  | .required _ ftype rest => P ftype ∧ rest.All P
  | .optional _ ftype rest => P ftype ∧ rest.All P

theorem Member.of_all {P : {α : Type} → FType α → Prop} {fields : Fields σ} {t : FType α}
    (m : Member fields t) (h : fields.All P)
    : P t := by
  induction m with
  | required => exact h.1
  | optional => exact h.1
  | afterRequired m ih => exact ih h.2
  | afterOptional m ih => exact ih h.2

namespace Entry

variable {α σ : Type} {fid : Int16} {t : FType α} {rest : Fields σ}

def afterRequired (fid : Int16) (t : FType α) (e : Entry rest) : Entry (.required fid t rest) :=
  ⟨.afterRequired e.member, e.value⟩

def afterOptional (fid : Int16) (t : FType α) (e : Entry rest) : Entry (.optional fid t rest) :=
  ⟨.afterOptional e.member, e.value⟩

theorem foldl_afterRequired (entries : List (Entry rest)) (x : α) (this : σ) (isset : List Int16)
    : (entries.map (afterRequired fid t)).foldl update ⟨⟨x, this⟩, isset⟩
        = ⟨⟨x, (entries.foldl update ⟨this, isset⟩).1⟩, (entries.foldl update ⟨this, isset⟩).2⟩ := by
  induction entries generalizing this isset with
  | nil => rfl
  | cons e entries ih =>
    simp only [List.map_cons, List.foldl_cons]
    exact ih _ _

theorem foldl_afterOptional (entries : List (Entry rest)) (x : Optional α) (this : σ)
    (isset : List Int16)
    : (entries.map (afterOptional fid t)).foldl update ⟨⟨x, this⟩, isset⟩
        = ⟨⟨x, (entries.foldl update ⟨this, isset⟩).1⟩, (entries.foldl update ⟨this, isset⟩).2⟩ := by
  induction entries generalizing this isset with
  | nil => rfl
  | cons e entries ih =>
    simp only [List.map_cons, List.foldl_cons]
    exact ih _ _

end Entry

def Fields.entries (fields : Fields σ) (this : σ) : List (Entry fields) :=
  match fields with
  | .nil => []
  | .required fid ftype rest =>
    ⟨.required, this.1⟩ :: (rest.entries this.2).map (Entry.afterRequired fid ftype)
  | .optional fid ftype rest =>
    if this.1.isset then
      ⟨.optional, this.1.value⟩ :: (rest.entries this.2).map (Entry.afterOptional fid ftype)
    else
      (rest.entries this.2).map (Entry.afterOptional fid ftype)

theorem writeAll_map {γ δ : Type*} {α : Type} {write : γ → Option (List α)} (f : δ → γ)
    (xs : List δ)
    : writeAll write (xs.map f) = writeAll (fun x => write (f x)) xs := by
  induction xs with
  | nil => rfl
  | cons x xs ih => simp only [List.map_cons, writeAll, ih]

theorem Fields.write_eq (proto : TProtocol) (fields : Fields σ) (depth : Nat) (this : σ)
    : fields.write proto depth this = writeAll (Entry.write proto depth) (fields.entries this) := by
  induction fields using Fields.induct with
  | nil => rfl
  | required fid t rest ih =>
    have htail : writeAll (Entry.write proto depth)
        ((rest.entries this.2).map (Entry.afterRequired fid t)) = rest.write proto depth this.2 := by
      rw [writeAll_map, ih]
      rfl
    simp only [write, entries, writeAll, htail, Entry.write, Member.fid]
    cases t.write proto depth this.1 <;> simp
  | optional fid t rest ih =>
    have htail : writeAll (Entry.write proto depth)
        ((rest.entries this.2).map (Entry.afterOptional fid t)) = rest.write proto depth this.2 := by
      rw [writeAll_map, ih]
      rfl
    unfold write entries
    split
    . simp only [writeAll, htail, Entry.write, Member.fid]
      cases t.write proto depth this.1.value <;> simp
    . exact htail.symm

theorem Fields.foldl_entries (fields : Fields σ) (x y : σ) (isset : List Int16)
    : ((fields.entries y).foldl Entry.update ⟨x, isset⟩).1 = fields.onto x y := by
  induction fields using Fields.induct generalizing isset with
  | nil => rfl
  | required fid t rest ih =>
    simp only [entries, onto, List.foldl_cons, Entry.update, Member.assign, Entry.result,
      Member.get, Entry.foldl_afterRequired, ih]
  | optional fid t rest ih =>
    unfold entries onto
    cases hisset : y.1.isset with
    | true =>
      simp only [↓reduceIte, List.foldl_cons, Entry.update, Member.assign, Entry.result,
        Member.get, Entry.foldl_afterOptional, ih]
    | false =>
      simp only [Bool.false_eq_true, ↓reduceIte]
      rw [← ih x.2 y.2 isset]
      exact congrArg Prod.fst (Entry.foldl_afterOptional (rest.entries y.2) x.1 x.2 isset)

theorem Fields.exists_entry (fields : Fields σ) (this : σ) {fid : Int16}
    (h : fid ∈ fields.requiredIds)
    : ∃ e ∈ fields.entries this, e.member.isRequired = true ∧ e.member.fid = fid := by
  induction fields using Fields.induct with
  | nil => simp [requiredIds] at h
  | required fid' t rest ih =>
    simp only [requiredIds, List.mem_cons] at h
    cases h with
    | inl heq => exact ⟨⟨.required, this.1⟩, List.mem_cons_self, rfl, heq.symm⟩
    | inr hmem =>
      obtain ⟨e, he, hrequired, hfid⟩ := ih this.2 hmem
      refine ⟨e.afterRequired fid' t, ?_, hrequired, hfid⟩
      exact List.mem_cons_of_mem _ (List.mem_map_of_mem he)
  | optional fid' t rest ih =>
    obtain ⟨e, he, hrequired, hfid⟩ := ih this.2 h
    refine ⟨e.afterOptional fid' t, ?_, hrequired, hfid⟩
    unfold entries
    split
    . exact List.mem_cons_of_mem _ (List.mem_map_of_mem he)
    . exact List.mem_map_of_mem he

theorem Fields.received_entries (fields : Fields σ) (x y : σ)
    : fields.received ((fields.entries y).foldl Entry.update ⟨x, []⟩).2 = true := by
  rw [Fields.received_iff]
  intro fid hfid
  rw [Entry.mem_foldl_update]
  exact Or.inr (fields.exists_entry y hfid)

theorem Fields.Fits.entry {fields : Fields σ} {depth : Nat} {this : σ}
    (h : fields.Fits depth this) {e : Entry fields} (he : e ∈ fields.entries this)
    : e.ftype.Fits depth e.value := by
  induction fields using Fields.induct with
  | nil => simp [entries] at he
  | required fid t rest ih =>
    unfold Fits at h
    simp only [entries, List.mem_cons, List.mem_map] at he
    cases he with
    | inl heq =>
      subst heq
      exact h.1
    | inr hmem =>
      obtain ⟨e', he', rfl⟩ := hmem
      exact ih h.2 he'
  | optional fid t rest ih =>
    unfold Fits at h
    unfold entries at he
    split at he
    . next hisset =>
      simp only [List.mem_cons, List.mem_map] at he
      cases he with
      | inl heq =>
        subst heq
        exact h.1 hisset
      | inr hmem =>
        obtain ⟨e', he', rfl⟩ := hmem
        exact ih h.2 he'
    . rw [List.mem_map] at he
      obtain ⟨e', he', rfl⟩ := he
      exact ih h.2 he'

end Entries

/--
Reading takes the encoding of a value whatever the target holds.
-/
def FType.Reads (proto : TProtocol) (t : FType α) : Prop :=
  ∀ depth x y chunk, t.Fits depth y → t.write proto depth y = some chunk
    → Reader.Reads (t.read proto depth x) chunk (t.onto x y)

section ReadWrite

variable {proto : TProtocol}

theorem FType.Reads.primitive {t : FType α} {read : Reader UInt8 α} {write : α → Bytes}
    (hread : ∀ depth x, t.read proto depth x = read)
    (hwrite : ∀ depth y, t.write proto depth y = some (write y)) (honto : ∀ x y, t.onto x y = y)
    (h : ∀ depth y, t.Fits depth y → Reader.Reads read (write y) y)
    : t.Reads proto := by
  intro depth x y chunk hfits hchunk
  rw [hwrite, Option.some.injEq] at hchunk
  rw [hread, honto, ← hchunk]
  exact h depth y hfits

theorem FType.Reads.vector {etype : FType α} (hproto : proto.Lawful) (he : etype.Reads proto)
    : (FType.vector etype).Reads proto := by
  intro depth x y chunk hfits hwrite
  unfold Fits at hfits
  unfold write at hwrite
  simp only [Option.bind_eq_bind, Option.bind_eq_some_iff, Option.pure_def,
    Option.some.injEq] at hwrite
  obtain ⟨buf, hbuf, rfl⟩ := hwrite
  have hsize := toNat_size hfits.1
  unfold read onto
  apply (hproto.listBegin _ _ (by rw [hsize]; exact hfits.1)).bind
  dsimp only
  rw [hsize]
  apply (Reader.Reads.iterate hbuf _ []).bind
  . exact hproto.listEnd.bind_pure
  . intro xs elem hmem chunk helem
    exact (he depth etype.dflt elem chunk (hfits.2 elem hmem) helem).bind_pure

theorem FType.Reads.set {etype : FType α} {less : Less α} (hproto : proto.Lawful)
    (he : etype.Reads proto)
    : (FType.set etype less).Reads proto := by
  intro depth x y chunk hfits hwrite
  unfold Fits at hfits
  unfold write at hwrite
  simp only [Option.bind_eq_bind, Option.bind_eq_some_iff, Option.pure_def,
    Option.some.injEq] at hwrite
  obtain ⟨buf, hbuf, rfl⟩ := hwrite
  have hsize := toNat_size hfits.1
  unfold read onto
  apply (hproto.setBegin _ _ (by rw [hsize]; exact hfits.1)).bind
  dsimp only
  rw [hsize]
  apply (Reader.Reads.iterate hbuf _ x).bind
  . exact hproto.setEnd.bind_pure
  . intro s elem hmem chunk helem
    exact (he depth etype.dflt elem chunk (hfits.2 elem hmem) helem).bind_pure

theorem FType.Reads.map {ktype : FType κ} {less : Less κ} {vtype : FType β}
    (hproto : proto.Lawful) (hk : ktype.Reads proto) (hv : vtype.Reads proto)
    : (FType.map ktype less vtype).Reads proto := by
  intro depth x y chunk hfits hwrite
  unfold Fits at hfits
  unfold write at hwrite
  simp only [Option.bind_eq_bind, Option.bind_eq_some_iff, Option.pure_def,
    Option.some.injEq] at hwrite
  obtain ⟨buf, hbuf, rfl⟩ := hwrite
  have hsize := toNat_size hfits.1
  unfold read onto
  apply (hproto.mapBegin _ _ _ (by rw [hsize]; exact hfits.1)).bind
  dsimp only
  rw [hsize]
  apply (Reader.Reads.iterate hbuf _ OrderedMap.empty).bind
  . exact hproto.mapEnd.bind_pure
  . intro m p hmem chunk hentry
    simp only [Option.bind_eq_some_iff, Option.some.injEq] at hentry
    obtain ⟨kbuf, hkey, vbuf, hval, rfl⟩ := hentry
    have hp := hfits.2 p hmem
    apply (hk depth ktype.dflt p.1 kbuf hp.1 hkey).bind
    exact (hv depth _ p.2 vbuf hp.2 hval).bind_pure

theorem FType.Reads.struct {fields : Fields σ} (hproto : proto.Lawful) (hids : fields.ids.Nodup)
    (hfields : fields.All (FType.Reads proto))
    : (FType.struct fields).Reads proto := by
  intro depth x y chunk hfits hwrite
  cases depth with
  | zero => simp [write] at hwrite
  | succ depth =>
    have hmessage : writeMessage proto depth (fields.entries y) = some chunk := by
      unfold write at hwrite
      simpa only [writeMessage, ← fields.write_eq] using hwrite
    have hreadable : ∀ e ∈ fields.entries y, Readable proto depth e := by
      intro e he this buf hbuf
      exact e.member.of_all hfields depth _ _ buf (hfits.entry he) hbuf
    have hread := reads_message hproto hids hreadable hmessage (fields.received_entries x y)
    rwa [fields.foldl_entries] at hread

mutual

theorem FType.reads (hproto : proto.Lawful) (t : FType α) (ht : t.Proper) : t.Reads proto := by
  match t with
  | .bool =>
    exact .primitive (fun _ _ => rfl) (fun _ _ => rfl) (fun _ _ => rfl) fun _ y _ => hproto.bool y
  | .i8 =>
    exact .primitive (fun _ _ => rfl) (fun _ _ => rfl) (fun _ _ => rfl) fun _ y _ => hproto.byte y
  | .i16 =>
    exact .primitive (fun _ _ => rfl) (fun _ _ => rfl) (fun _ _ => rfl) fun _ y _ => hproto.i16 y
  | .i32 =>
    exact .primitive (fun _ _ => rfl) (fun _ _ => rfl) (fun _ _ => rfl) fun _ y _ => hproto.i32 y
  | .i64 =>
    exact .primitive (fun _ _ => rfl) (fun _ _ => rfl) (fun _ _ => rfl) fun _ y _ => hproto.i64 y
  | .double =>
    exact .primitive (fun _ _ => rfl) (fun _ _ => rfl) (fun _ _ => rfl) fun _ y _ => hproto.double y
  | .string =>
    exact .primitive (fun _ _ => rfl) (fun _ _ => rfl) (fun _ _ => rfl)
      fun _ y hfits => hproto.string y hfits
  | .binary =>
    exact .primitive (fun _ _ => rfl) (fun _ _ => rfl) (fun _ _ => rfl)
      fun _ y hfits => hproto.readBinary y hfits
  | .struct fields => exact FType.Reads.struct hproto ht.1 (fields.reads hproto ht.2)
  | .vector etype => exact FType.Reads.vector hproto (etype.reads hproto ht)
  | .set etype less => exact FType.Reads.set hproto (etype.reads hproto ht.1)
  | .map ktype less vtype =>
    exact FType.Reads.map hproto (ktype.reads hproto ht.1) (vtype.reads hproto ht.2.1)

theorem Fields.reads (hproto : proto.Lawful) (fields : Fields σ) (hfields : fields.Proper)
    : fields.All (FType.Reads proto) := by
  match fields with
  | .nil => trivial
  | .required _ ftype rest =>
    exact ⟨ftype.reads hproto hfields.1, rest.reads hproto hfields.2⟩
  | .optional _ ftype rest =>
    exact ⟨ftype.reads hproto hfields.1, rest.reads hproto hfields.2⟩

end

end ReadWrite

section Eq

theorem isEqv_iff_forall₂ {eq : α → α → Bool} {xs ys : List α}
    : xs.isEqv ys eq = true ↔ List.Forall₂ (eq · · = true) xs ys := by
  induction xs generalizing ys with
  | nil => cases ys <;> simp
  | cons x xs ih =>
    cases ys with
    | nil => simp
    | cons y ys => simp [List.isEqv_cons_cons, ih]

theorem isEqv_map {eq : α → α → Bool} {f : α → α} {xs : List α}
    (h : ∀ x ∈ xs, eq (f x) x = true)
    : (xs.map f).isEqv xs eq = true := by
  induction xs with
  | nil => rfl
  | cons x xs ih =>
    simp only [List.map_cons, List.isEqv_cons_cons, Bool.and_eq_true]
    exact ⟨h x List.mem_cons_self, ih fun y hy => h y (List.mem_cons_of_mem _ hy)⟩

-- reading into a new object
def FType.Rereads (t : FType α) : Prop := ∀ y, t.eq (t.onto t.dflt y) y = true

theorem FType.Rereads.vector {etype : FType α} (he : etype.Rereads) (x y : List α)
    : (FType.vector etype).eq ((FType.vector etype).onto x y) y = true := by
  have hmap : y.foldl (fun xs elem => xs ++ [etype.onto etype.dflt elem]) []
      = y.map (etype.onto etype.dflt) := by
    rw [List.map_eq_flatMap, List.flatMap_eq_foldl]
  unfold eq onto
  rw [hmap]
  exact isEqv_map fun elem _ => he elem

theorem FType.Rereads.set_iff {etype : FType α} {less : Less α} (he : etype.Rereads)
    (hless : ∀ x y, etype.eq x y = true → less.Equiv x y) (x y : OrderedSet less)
    : (FType.set etype less).eq ((FType.set etype less).onto x y) y = true
        ↔
      ∀ elem ∈ x.elems, ∃ elem' ∈ y.elems, etype.eq elem elem' = true := by
  change ((y.elems.foldl (fun s elem => s.insert (etype.onto etype.dflt elem)) x).elems.isEqv
    y.elems etype.eq = true) ↔ _
  rw [isEqv_iff_forall₂]
  exact OrderedSet.forall₂_foldl_insert_iff hless fun elem _ => he elem

theorem FType.Rereads.map {ktype : FType κ} {less : Less κ} {vtype : FType β}
    (hk : ktype.Rereads) (hv : vtype.Rereads)
    (hless : ∀ x y, ktype.eq x y = true → less.Equiv x y) (x y : OrderedMap less β)
    : (FType.map ktype less vtype).eq ((FType.map ktype less vtype).onto x y) y = true := by
  unfold eq onto
  rw [OrderedMap.entries_foldl_put vtype.dflt y.sorted fun p _ => hless _ _ (hk p.1)]
  . exact isEqv_map fun p _ => by simp [hk p.1, hv p.2]
  . simp [OrderedMap.empty]

mutual

theorem FType.rereads (t : FType α) (ht : t.Proper) : t.Rereads := by
  match t with
  | .bool | .i8 | .i16 | .i32 | .i64 | .double | .string | .binary =>
    intro y
    exact beq_self_eq_true y
  | .struct fields => exact fields.rereads ht.2
  | .vector etype => exact fun y => FType.Rereads.vector (etype.rereads ht) [] y
  | .set etype less =>
    intro y
    apply (FType.Rereads.set_iff (etype.rereads ht.1) ht.2 _ y).mpr
    intro elem helem
    exact absurd helem List.not_mem_nil
  | .map ktype less vtype =>
    exact fun y => FType.Rereads.map (ktype.rereads ht.1) (vtype.rereads ht.2.1) ht.2.2 _ y

theorem Fields.rereads (fields : Fields σ) (hfields : fields.Proper)
    : ∀ y, fields.eq (fields.onto fields.dflt y) y = true := by
  match fields with
  | .nil =>
    intro _
    rfl
  | .required _ ftype rest =>
    intro y
    have hhead := ftype.rereads hfields.1 y.1
    have htail := rest.rereads hfields.2 y.2
    simp [Fields.eq, Fields.onto, Fields.dflt, hhead, htail]
  | .optional _ ftype rest =>
    intro y
    have hhead := ftype.rereads hfields.1 y.1.value
    have htail := rest.rereads hfields.2 y.2
    cases hisset : y.1.isset <;> simp [Fields.eq, Fields.onto, Fields.dflt, hisset, hhead, htail]

end

end Eq

section Write

variable {proto : TProtocol}

theorem exists_writeAll {γ : Type} {write : γ → Option Bytes} {xs : List γ}
    (h : ∀ x ∈ xs, ∃ chunk, write x = some chunk)
    : ∃ chunk, writeAll write xs = some chunk := by
  induction xs with
  | nil => exact ⟨[], rfl⟩
  | cons x xs ih =>
    obtain ⟨chunk, hchunk⟩ := h x List.mem_cons_self
    obtain ⟨chunks, hchunks⟩ := ih fun y hy => h y (List.mem_cons_of_mem _ hy)
    exact ⟨chunk ++ chunks, by simp [writeAll, hchunk, hchunks]⟩

mutual

theorem FType.exists_write (proto : TProtocol) (t : FType α)
    : ∀ depth x, t.Fits depth x → ∃ chunk, t.write proto depth x = some chunk := by
  match t with
  | .bool | .i8 | .i16 | .i32 | .i64 | .double | .string | .binary =>
    intro depth x _
    exact ⟨_, rfl⟩
  | .struct fields =>
    intro depth x hfits
    cases depth with
    | zero => exact absurd hfits id
    | succ depth =>
      obtain ⟨buf, hbuf⟩ := fields.exists_write proto depth x hfits
      exact ⟨_, by simp only [FType.write, hbuf]; rfl⟩
  | .vector etype =>
    intro depth x hfits
    obtain ⟨buf, hbuf⟩ := exists_writeAll fun y hy => etype.exists_write proto depth y (hfits.2 y hy)
    exact ⟨_, by simp only [FType.write, hbuf]; rfl⟩
  | .set etype less =>
    intro depth x hfits
    obtain ⟨buf, hbuf⟩ := exists_writeAll fun y hy => etype.exists_write proto depth y (hfits.2 y hy)
    exact ⟨_, by simp only [FType.write, hbuf]; rfl⟩
  | .map ktype less vtype =>
    intro depth x hfits
    have hentries : ∀ p ∈ x.entries, ∃ chunk, (do
        let key ← ktype.write proto depth p.1
        let val ← vtype.write proto depth p.2
        return key ++ val) = some chunk := by
      intro p hp
      obtain ⟨key, hkey⟩ := ktype.exists_write proto depth p.1 (hfits.2 p hp).1
      obtain ⟨val, hval⟩ := vtype.exists_write proto depth p.2 (hfits.2 p hp).2
      exact ⟨key ++ val, by simp only [hkey, hval]; rfl⟩
    obtain ⟨buf, hbuf⟩ := exists_writeAll hentries
    exact ⟨_, by simp only [FType.write, hbuf]; rfl⟩

theorem Fields.exists_write (proto : TProtocol) (fields : Fields σ)
    : ∀ depth this, fields.Fits depth this
      → ∃ chunk, fields.write proto depth this = some chunk := by
  match fields with
  | .nil =>
    intro depth this _
    exact ⟨[], rfl⟩
  | .required fid ftype rest =>
    intro depth this hfits
    obtain ⟨buf, hbuf⟩ := ftype.exists_write proto depth this.1 hfits.1
    obtain ⟨bufs, hbufs⟩ := rest.exists_write proto depth this.2 hfits.2
    exact ⟨_, by simp only [Fields.write, hbuf, hbufs]; rfl⟩
  | .optional fid ftype rest =>
    intro depth this hfits
    obtain ⟨bufs, hbufs⟩ := rest.exists_write proto depth this.2 hfits.2
    cases hisset : this.1.isset with
    | true =>
      obtain ⟨buf, hbuf⟩ := ftype.exists_write proto depth this.1.value (hfits.1 hisset)
      exact ⟨_, by simp only [Fields.write, hisset, ↓reduceIte, hbuf, hbufs]; rfl⟩
    | false =>
      exact ⟨bufs, by simp only [Fields.write, hisset, Bool.false_eq_true, ↓reduceIte, hbufs]⟩

end

end Write

/--
A struct that has been written is read into a new one, whatever comes behind it.
-/
theorem Fields.read_write {proto : TProtocol} (hproto : proto.Lawful) (fields : Fields σ)
    (hproper : (FType.struct fields).Proper) (v : σ)
    (hfits : (FType.struct fields).Fits proto.recursionLimit v)
    : ∃ buf, (FType.struct fields).write proto proto.recursionLimit v = some buf
        ∧ ∃ r, (∀ rest, (FType.struct fields).read proto proto.recursionLimit
            (FType.struct fields).dflt (buf ++ rest) = some (r, rest))
          ∧ (FType.struct fields).eq r v = true := by
  obtain ⟨buf, hbuf⟩ := FType.exists_write proto _ _ v hfits
  refine ⟨buf, hbuf, _, ?_, FType.rereads _ hproper v⟩
  exact FType.reads hproto _ hproper _ _ v buf hfits hbuf

-- a field of each kind of presence, and a container that is rebuilt
def exampleFields : Fields (Int32 × Optional Bytes × OrderedSet (Less.ofKey Int32.toInt) × Unit) :=
  .required 1 .i32 (.optional 2 .string (.required 3 (.set .i32 (Less.ofKey Int32.toInt)) .nil))

theorem exampleFields_proper : (FType.struct exampleFields).Proper := by
  refine ⟨by decide, trivial, trivial, ⟨trivial, ?_⟩, trivial⟩
  intro x y heq
  rw [eq_of_beq heq]
  exact Less.Equiv.refl y

theorem Fields.read_write_example
    : ∃ buf, (FType.struct exampleFields).write TBinaryProtocol 64
          ⟨7, ⟨[104], true⟩, ⟨[1, 2], by decide⟩, ()⟩ = some buf
        ∧ ∃ r, (∀ rest, (FType.struct exampleFields).read TBinaryProtocol 64
            (FType.struct exampleFields).dflt (buf ++ rest) = some (r, rest))
          ∧ (FType.struct exampleFields).eq r ⟨7, ⟨[104], true⟩, ⟨[1, 2], by decide⟩, ()⟩ = true :=
  Fields.read_write TBinaryProtocol.lawful exampleFields exampleFields_proper _
    ⟨trivial, fun _ => (by decide : 1 < 2 ^ 31), ⟨(by decide : 2 < 2 ^ 31), fun _ _ => trivial⟩,
      trivial⟩

end MsgRpc
