import MsgRpc.Thrift.Schema

/-!
This module contains messages, encodings of a struct that give its fields in any order and any
number of times, and the proof that the generated `read` takes their values one after the other.
-/

namespace MsgRpc

open Reader

inductive Member : {σ α : Type} → Fields σ → FType α → Type 1 where
  | required {σ α : Type} {fid : Int16} {t : FType α} {rest : Fields σ}
    : Member (.required fid t rest) t
  | optional {σ α : Type} {fid : Int16} {t : FType α} {rest : Fields σ}
    : Member (.optional fid t rest) t
  | afterRequired {σ α β : Type} {fid : Int16} {t : FType α} {t' : FType β} {rest : Fields σ}
      (m : Member rest t)
    : Member (.required fid t' rest) t
  | afterOptional {σ α β : Type} {fid : Int16} {t : FType α} {t' : FType β} {rest : Fields σ}
      (m : Member rest t)
    : Member (.optional fid t' rest) t

namespace Member

def fid {σ α : Type} {fields : Fields σ} {t : FType α} (m : Member fields t) : Int16 :=
  match m with
  | @required _ _ fid _ _ => fid
  | @optional _ _ fid _ _ => fid
  | afterRequired m => m.fid
  | afterOptional m => m.fid

def isRequired {σ α : Type} {fields : Fields σ} {t : FType α} (m : Member fields t) : Bool :=
  match m with
  | required => true
  | optional => false
  | afterRequired m => m.isRequired
  | afterOptional m => m.isRequired

def get {σ α : Type} {fields : Fields σ} {t : FType α} (m : Member fields t) (this : σ) : α :=
  match m with
  | required => this.1
  | optional => this.1.value
  | afterRequired m => m.get this.2
  | afterOptional m => m.get this.2

def assign {σ α : Type} {fields : Fields σ} {t : FType α} (m : Member fields t) (x : α)
    (this : σ) : σ :=
  match m with
  | required => ⟨x, this.2⟩
  | optional => ⟨{ value := x, isset := true }, this.2⟩
  | afterRequired m => ⟨this.1, m.assign x this.2⟩
  | afterOptional m => ⟨this.1, m.assign x this.2⟩

end Member

@[elab_as_elim]
theorem Fields.induct {motive : {σ : Type} → Fields σ → Prop} (nil : motive .nil)
    (required : ∀ {α σ : Type} (fid : Int16) (t : FType α) (rest : Fields σ),
      motive rest → motive (.required fid t rest))
    (optional : ∀ {α σ : Type} (fid : Int16) (t : FType α) (rest : Fields σ),
      motive rest → motive (.optional fid t rest))
    {σ : Type} (fields : Fields σ)
    : motive fields :=
  match fields with
  | .nil => nil
  | .required fid t rest => required fid t rest (Fields.induct nil required optional rest)
  | .optional fid t rest => optional fid t rest (Fields.induct nil required optional rest)

def Fields.ids (fields : Fields σ) : List Int16 :=
  match fields with
  | .nil => []
  | .required fid _ rest => fid :: rest.ids
  | .optional fid _ rest => fid :: rest.ids

theorem Member.get_assign {fields : Fields σ} {t : FType α} (m : Member fields t) (x : α)
    (this : σ)
    : m.get (m.assign x this) = x := by
  induction m with
  | required => rfl
  | optional => rfl
  | afterRequired m ih => exact ih x this.2
  | afterOptional m ih => exact ih x this.2

theorem Member.fid_mem {fields : Fields σ} {t : FType α} (m : Member fields t)
    : m.fid ∈ fields.ids := by
  induction m with
  | required => exact List.mem_cons_self
  | optional => exact List.mem_cons_self
  | afterRequired m ih => exact List.mem_cons_of_mem _ ih
  | afterOptional m ih => exact List.mem_cons_of_mem _ ih

mutual

/--
What reading the encoding of `y` makes of the content `x` of the target.
-/
def FType.onto (t : FType α) (x y : α) : α :=
  match t with
  | .bool => y
  | .i8 => y
  | .i16 => y
  | .i32 => y
  | .i64 => y
  | .double => y
  | .string => y
  | .binary => y
  | .struct fields => fields.onto x y
  | .vector etype => y.foldl (fun xs elem => xs ++ [etype.onto etype.dflt elem]) []
  | .set etype _ => y.elems.foldl (fun s elem => s.insert (etype.onto etype.dflt elem)) x
  | .map ktype _ vtype =>
    y.entries.foldl (fun m p =>
      m.put (ktype.onto ktype.dflt p.1)
        (vtype.onto ((m.find (ktype.onto ktype.dflt p.1)).getD vtype.dflt) p.2)) .empty

def Fields.onto (fields : Fields σ) (x y : σ) : σ :=
  match fields with
  | .nil => y
  | .required _ ftype rest => ⟨ftype.onto x.1 y.1, rest.onto x.2 y.2⟩
  | .optional _ ftype rest =>
    ⟨if y.1.isset then { value := ftype.onto x.1.value y.1.value, isset := true } else x.1,
      rest.onto x.2 y.2⟩

end

structure Entry {σ : Type} (fields : Fields σ) where
  {α : Type}
  {ftype : FType α}
  member : Member fields ftype
  value : α

namespace Entry

variable {σ : Type} {fields : Fields σ}

def write (proto : TProtocol) (depth : Nat) (e : Entry fields) : Option Bytes := do
  let buf ← e.ftype.write proto depth e.value
  return proto.fieldBegin.write (e.ftype.value, e.member.fid) ++ (buf ++ proto.fieldEnd.write ())

-- the field after the entry has been read
def result (e : Entry fields) (this : σ) : e.α :=
  e.ftype.onto (e.member.get this) e.value

def update (state : σ × List Int16) (e : Entry fields) : σ × List Int16 :=
  ⟨e.member.assign (e.result state.1) state.1,
    if e.member.isRequired then e.member.fid :: state.2 else state.2⟩

end Entry

/--
A struct that consists of `entries`.
-/
def writeMessage {fields : Fields σ} (proto : TProtocol) (depth : Nat)
    (entries : List (Entry fields)) : Option Bytes := do
  let buf ← writeAll (Entry.write proto depth) entries
  return proto.structBegin.write () ++ (buf ++ (proto.fieldStop ++ proto.structEnd.write ()))

section Read

variable {proto : TProtocol} {depth : Nat} {fields : Fields σ}

theorem FType.value_ne_stop (t : FType α) : t.value ≠ .stop := by
  cases t <;> simp [FType.value]

theorem Member.readCase_eq {t : FType α} (m : Member fields t) (hids : fields.ids.Nodup)
    (this : σ) (isset : List Int16)
    : fields.readCase proto depth t.value m.fid this isset
        = t.read proto depth (m.get this) >>= fun x =>
          pure ⟨m.assign x this, if m.isRequired then m.fid :: isset else isset⟩ := by
  induction m with
  | required =>
    simp only [Fields.readCase, Member.fid, ↓reduceIte]
    rfl
  | optional =>
    simp only [Fields.readCase, Member.fid, ↓reduceIte]
    rfl
  | afterRequired m ih =>
    simp only [Fields.ids, List.nodup_cons] at hids
    have hne := ne_of_mem_of_not_mem m.fid_mem hids.1
    simp only [Fields.readCase, Member.fid, hne, ↓reduceIte, ih hids.2, bind_assoc, pure_bind]
    rfl
  | afterOptional m ih =>
    simp only [Fields.ids, List.nodup_cons] at hids
    have hne := ne_of_mem_of_not_mem m.fid_mem hids.1
    simp only [Fields.readCase, Member.fid, hne, ↓reduceIte, ih hids.2, bind_assoc, pure_bind]
    rfl

theorem Member.reads_readCase {t : FType α} (m : Member fields t) (hids : fields.ids.Nodup)
    {this : σ} {x : α} {chunk : Bytes} (hread : Reads (t.read proto depth (m.get this)) chunk x)
    (isset : List Int16)
    : Reads (fields.readCase proto depth t.value m.fid this isset) chunk
        ⟨m.assign x this, if m.isRequired then m.fid :: isset else isset⟩ := by
  rw [m.readCase_eq hids]
  exact hread.bind_pure

def Readable (proto : TProtocol) (depth : Nat) (e : Entry fields) : Prop :=
  ∀ this chunk, e.ftype.write proto depth e.value = some chunk
    → Reads (e.ftype.read proto depth (e.member.get this)) chunk (e.result this)

theorem reads_readFields (hproto : proto.Lawful) (hids : fields.ids.Nodup)
    {entries : List (Entry fields)} (hread : ∀ e ∈ entries, Readable proto depth e)
    {chunk : Bytes} (hwrite : writeAll (Entry.write proto depth) entries = some chunk) {n : Nat}
    (hn : entries.length < n) (this : σ) (isset : List Int16)
    : Reads (readFields (fields.readCase proto depth) proto n this isset)
        (chunk ++ proto.fieldStop) (entries.foldl Entry.update ⟨this, isset⟩) := by
  induction entries generalizing chunk n this isset with
  | nil =>
    simp only [writeAll, Option.some.injEq] at hwrite
    subst hwrite
    obtain ⟨n, rfl⟩ := Nat.exists_eq_add_of_lt hn
    obtain ⟨fid, hstop⟩ := hproto.fieldStop
    simp only [List.length_nil, Nat.zero_add, readFields]
    exact hstop.bind_nil (Reads.pure _)
  | cons e entries ih =>
    simp only [writeAll, Option.bind_eq_bind, Option.bind_eq_some_iff, Option.pure_def,
      Option.some.injEq, Entry.write] at hwrite
    obtain ⟨_, ⟨buf, hbuf, rfl⟩, bufs, hbufs, rfl⟩ := hwrite
    obtain ⟨n, rfl⟩ := Nat.exists_eq_add_of_lt hn
    have hstop : e.ftype.value ≠ .stop := e.ftype.value_ne_stop
    simp only [readFields, List.append_assoc]
    apply (hproto.fieldBegin _ _ hstop).bind
    rw [if_neg hstop]
    apply (e.member.reads_readCase hids (hread e List.mem_cons_self this buf hbuf) isset).bind
    apply hproto.fieldEnd.bind
    apply ih _ hbufs
    . simp only [List.length_cons]
      omega
    . intro e' he'
      exact hread e' (List.mem_cons_of_mem _ he')

theorem length_le_of_writeAll (hproto : proto.Lawful) {entries : List (Entry fields)}
    {chunk : Bytes} (hwrite : writeAll (Entry.write proto depth) entries = some chunk)
    : entries.length ≤ chunk.length := by
  induction entries generalizing chunk with
  | nil => exact Nat.zero_le _
  | cons e entries ih =>
    simp only [writeAll, Option.bind_eq_bind, Option.bind_eq_some_iff, Option.pure_def,
      Option.some.injEq, Entry.write] at hwrite
    obtain ⟨_, ⟨buf, _, rfl⟩, bufs, hbufs, rfl⟩ := hwrite
    have hpos := hproto.fieldBegin_pos e.ftype.value_ne_stop e.member.fid
    have hrest := ih hbufs
    simp only [List.length_cons, List.length_append]
    omega

theorem reads_message (hproto : proto.Lawful) (hids : fields.ids.Nodup)
    {entries : List (Entry fields)} (hread : ∀ e ∈ entries, Readable proto depth e)
    {chunk : Bytes} (hwrite : writeMessage proto depth entries = some chunk) {this : σ}
    (hreceived : fields.received (entries.foldl Entry.update ⟨this, []⟩).2 = true)
    : Reads ((FType.struct fields).read proto (depth + 1) this) chunk
        (entries.foldl Entry.update ⟨this, []⟩).1 := by
  simp only [writeMessage, Option.bind_eq_bind, Option.bind_eq_some_iff, Option.pure_def,
    Option.some.injEq] at hwrite
  obtain ⟨buf, hbuf, rfl⟩ := hwrite
  unfold FType.read
  apply hproto.structBegin.bind
  apply Reads.with_get
  intro s hs
  have hlen := length_le_of_writeAll hproto hbuf
  simp only [List.length_append] at hs
  rw [← List.append_assoc]
  apply (reads_readFields hproto hids hread hbuf (by omega) this []).bind
  apply hproto.structEnd.bind_nil
  rw [if_pos hreceived]
  exact Reads.pure _

end Read

def Fields.requiredIds (fields : Fields σ) : List Int16 :=
  match fields with
  | .nil => []
  | .required fid _ rest => fid :: rest.requiredIds
  | .optional _ _ rest => rest.requiredIds

theorem Fields.received_iff (fields : Fields σ) {isset : List Int16}
    : fields.received isset = true ↔ fields.requiredIds ⊆ isset := by
  induction fields using Fields.induct with
  | nil => simp [received, requiredIds]
  | required fid t rest ih => simp [received, requiredIds, ih]
  | optional fid t rest ih => simp [received, requiredIds, ih]

theorem Entry.mem_foldl_update {fields : Fields σ} {entries : List (Entry fields)} {fid : Int16}
    {this : σ} {isset : List Int16}
    : fid ∈ (entries.foldl Entry.update ⟨this, isset⟩).2
        ↔
      fid ∈ isset ∨ ∃ e ∈ entries, e.member.isRequired = true ∧ e.member.fid = fid := by
  induction entries generalizing this isset with
  | nil => simp
  | cons e entries ih =>
    simp only [List.foldl_cons, Entry.update]
    rw [ih]
    cases hrequired : e.member.isRequired <;> grind

end MsgRpc
