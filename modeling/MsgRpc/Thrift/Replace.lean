import MsgRpc.Thrift.RoundTrip

/-!
This module contains what reading a container leaves of the old content of its target: nothing of a
vector or a map, all of a set.
-/

namespace MsgRpc

open Reader

namespace FType

def isContainer (t : FType α) : Bool :=
  match t with
  | .vector _ | .set _ _ | .map _ _ _ => true
  | _ => false

/--
The old content `x` of a set has to be part of the new content `y`, sets are not cleared.
-/
def Discards (t : FType α) (x y : α) : Prop :=
  match t with
  | .set etype _ => ∀ elem ∈ x.elems, ∃ elem' ∈ y.elems, etype.eq elem elem' = true
  | _ => True

theorem eq_onto_iff {t : FType α} (ht : t.Proper) (hcontainer : t.isContainer = true) (x y : α)
    : t.eq (t.onto x y) y = true ↔ t.Discards x y := by
  cases t with
  | vector etype =>
    simp only [Discards, iff_true]
    exact Rereads.vector (etype.rereads ht) x y
  | set etype less => exact Rereads.set_iff (etype.rereads ht.1) ht.2 x y
  | map ktype less vtype =>
    simp only [Discards, iff_true]
    exact Rereads.map (ktype.rereads ht.1) (vtype.rereads ht.2.1) ht.2.2 x y
  | _ => simp [isContainer] at hcontainer

def Replaces (proto : TProtocol) (t : FType α) (depth : Nat) (x y : α) : Prop :=
  ∀ chunk rest, t.write proto depth y = some chunk
    → ∃ r, t.read proto depth x (chunk ++ rest) = some (r, rest) ∧ t.eq r y = true

theorem replaces_iff {proto : TProtocol} (hproto : proto.Lawful) {t : FType α} (ht : t.Proper)
    (hcontainer : t.isContainer = true) {depth : Nat} {x y : α} (hfits : t.Fits depth y)
    : t.Replaces proto depth x y ↔ t.Discards x y := by
  obtain ⟨chunk, hchunk⟩ := t.exists_write proto depth y hfits
  rw [← eq_onto_iff ht hcontainer]
  constructor
  . intro h
    obtain ⟨r, hr, heq⟩ := h chunk [] hchunk
    rw [t.reads hproto ht depth x y chunk hfits hchunk, Option.some.injEq, Prod.mk.injEq] at hr
    rwa [hr.1]
  . intro heq chunk rest hwrite
    exact ⟨t.onto x y, t.reads hproto ht depth x y chunk hfits hwrite rest, heq⟩

end FType

def Fields.lookup (fields : Fields σ) (fid : Int16) (this : σ) : Option ((α : Type) × α) :=
  match fields with
  | .nil => none
  | .required fid' _ rest => if fid = fid' then some ⟨_, this.1⟩ else rest.lookup fid this.2
  | .optional fid' _ rest => if fid = fid' then some ⟨_, this.1.value⟩ else rest.lookup fid this.2

section Message

variable {σ α : Type} {fields : Fields σ} {t : FType α}

theorem Fields.Proper.member (m : Member fields t) (h : fields.Proper) : t.Proper := by
  induction m with
  | required => exact h.1
  | optional => exact h.1
  | afterRequired m ih => exact ih h.2
  | afterOptional m ih => exact ih h.2

theorem Member.lookup_fid (m : Member fields t) (hids : fields.ids.Nodup) (this : σ)
    : fields.lookup m.fid this = some ⟨α, m.get this⟩ := by
  induction m with
  | required => simp [Fields.lookup, fid, get]
  | optional => simp [Fields.lookup, fid, get]
  | afterRequired m ih =>
    simp only [Fields.ids, List.nodup_cons] at hids
    have hne := ne_of_mem_of_not_mem m.fid_mem hids.1
    simp only [Fields.lookup, fid, hne, ↓reduceIte]
    exact ih hids.2 this.2
  | afterOptional m ih =>
    simp only [Fields.ids, List.nodup_cons] at hids
    have hne := ne_of_mem_of_not_mem m.fid_mem hids.1
    simp only [Fields.lookup, fid, hne, ↓reduceIte]
    exact ih hids.2 this.2

theorem Member.lookup_assign (m : Member fields t) {fid : Int16} (hne : fid ≠ m.fid) (x : α)
    (this : σ)
    : fields.lookup fid (m.assign x this) = fields.lookup fid this := by
  induction m with
  | required =>
    simp only [Member.fid] at hne
    simp [Fields.lookup, assign, hne]
  | optional =>
    simp only [Member.fid] at hne
    simp [Fields.lookup, assign, hne]
  | afterRequired m ih => simp only [Fields.lookup, assign, ih hne]
  | afterOptional m ih => simp only [Fields.lookup, assign, ih hne]

theorem Member.get_assign_of_ne {β : Type} {u : FType β} (hids : fields.ids.Nodup)
    (m : Member fields t) (m' : Member fields u) (hne : m.fid ≠ m'.fid) (y : β) (this : σ)
    : m.get (m'.assign y this) = m.get this := by
  have h := m'.lookup_assign hne y this
  rw [m.lookup_fid hids, m.lookup_fid hids, Option.some.injEq, Sigma.mk.injEq] at h
  exact eq_of_heq h.2

theorem Member.get_foldl_update (hids : fields.ids.Nodup) (m : Member fields t)
    {entries : List (Entry fields)} (hother : ∀ e ∈ entries, m.fid ≠ e.member.fid)
    (state : σ × List Int16)
    : m.get (entries.foldl Entry.update state).1 = m.get state.1 := by
  induction entries generalizing state with
  | nil => rfl
  | cons e entries ih =>
    rw [List.foldl_cons, ih fun e' he' => hother e' (List.mem_cons_of_mem _ he')]
    exact m.get_assign_of_ne hids e.member (hother e List.mem_cons_self) _ _

theorem Member.lastWins_iff {proto : TProtocol} (hproto : proto.Lawful)
    (hproper : (FType.struct fields).Proper) (m : Member fields t)
    (hcontainer : t.isContainer = true) {depth : Nat} (this : σ) {before after : List (Entry fields)}
    {y : α} (hfits : ∀ e ∈ before ++ ⟨m, y⟩ :: after, e.ftype.Fits depth e.value)
    (hlast : ∀ e ∈ after, m.fid ≠ e.member.fid)
    (hrequired : ∀ fid ∈ fields.requiredIds, ∃ e ∈ before ++ ⟨m, y⟩ :: after,
      e.member.isRequired = true ∧ e.member.fid = fid)
    {chunk : Bytes} (hchunk : writeMessage proto depth (before ++ ⟨m, y⟩ :: after) = some chunk)
    : ∃ r, (∀ rest, (FType.struct fields).read proto (depth + 1) this (chunk ++ rest)
          = some (r, rest))
        ∧ (t.eq (m.get r) y = true
          ↔ t.Discards (m.get (before.foldl Entry.update ⟨this, []⟩).1) y) := by
  have hall := fields.reads hproto hproper.2
  have hreadable : ∀ e ∈ before ++ ⟨m, y⟩ :: after, Readable proto depth e := by
    intro e he this buf hbuf
    exact e.member.of_all hall depth _ _ buf (hfits e he) hbuf
  have hreceived : fields.received
      ((before ++ ⟨m, y⟩ :: after).foldl Entry.update ⟨this, []⟩).2 = true := by
    rw [Fields.received_iff]
    intro fid hfid
    exact Entry.mem_foldl_update.mpr (Or.inr (hrequired fid hfid))
  refine ⟨_, reads_message hproto hproper.1 hreadable hchunk hreceived, ?_⟩
  have ht : t.Proper := hproper.2.member m
  rw [List.foldl_append, List.foldl_cons, m.get_foldl_update hproper.1 hlast]
  simp only [Entry.update, m.get_assign, Entry.result]
  exact FType.eq_onto_iff ht hcontainer _ y

end Message

/--
Reading replaces the old content of a vector and of a map, and that of a set only if it is part of
the new one. The same holds of a container field the last time it occurs in a message.
-/
theorem FType.replaces_iff_discards {proto : TProtocol} (hproto : proto.Lawful) {t : FType α}
    (ht : t.Proper) (hcontainer : t.isContainer = true)
    : (∀ depth x y, t.Fits depth y → (t.Replaces proto depth x y ↔ t.Discards x y))
      ∧ ∀ {σ : Type} {fields : Fields σ}, (FType.struct fields).Proper
        → ∀ (m : Member fields t) depth this before y after chunk,
          (∀ e ∈ before ++ ⟨m, y⟩ :: after, e.ftype.Fits depth e.value)
          → (∀ e ∈ after, m.fid ≠ e.member.fid)
          → (∀ fid ∈ fields.requiredIds, ∃ e ∈ before ++ ⟨m, y⟩ :: after,
            e.member.isRequired = true ∧ e.member.fid = fid)
          → writeMessage proto depth (before ++ ⟨m, y⟩ :: after) = some chunk
          → ∃ r, (∀ rest, (FType.struct fields).read proto (depth + 1) this (chunk ++ rest)
              = some (r, rest))
            ∧ (t.eq (m.get r) y = true
              ↔ t.Discards (m.get (before.foldl Entry.update ⟨this, []⟩).1) y) := by
  refine ⟨?_, ?_⟩
  . intro depth x y hfits
    exact replaces_iff hproto ht hcontainer hfits
  . intro σ fields hproper m depth this before y after chunk hfits hlast hrequired hchunk
    exact m.lastWins_iff hproto hproper hcontainer this hfits hlast hrequired hchunk

theorem FType.proper_set : (FType.set .i32 (Less.ofKey Int32.toInt)).Proper := by
  refine ⟨trivial, ?_⟩
  intro x y heq
  rw [eq_of_beq heq]
  exact Less.Equiv.refl y

theorem FType.replaces_iff_discards_superset
    : (FType.set .i32 (Less.ofKey Int32.toInt)).Replaces TBinaryProtocol 64
        ⟨[2], by decide⟩ ⟨[1, 2], by decide⟩ := by
  have hfits : (FType.set .i32 (Less.ofKey Int32.toInt)).Fits 64 ⟨[1, 2], by decide⟩ :=
    ⟨(by decide : 2 < 2 ^ 31), fun _ _ => trivial⟩
  apply ((FType.replaces_iff_discards TBinaryProtocol.lawful FType.proper_set rfl).1 64 _ _
    hfits).mpr
  intro elem helem
  exact ⟨2, by simp, by simpa [FType.eq] using helem⟩

/--
A set that holds 1 holds 1 and 2 once the set of 2 has been read into it.
-/
theorem FType.not_replaces_set
    : ¬(FType.set .i32 (Less.ofKey Int32.toInt)).Replaces TBinaryProtocol 64
        ⟨[1], by decide⟩ ⟨[2], by decide⟩ := by
  have hfits : (FType.set .i32 (Less.ofKey Int32.toInt)).Fits 64 ⟨[2], by decide⟩ :=
    ⟨(by decide : 1 < 2 ^ 31), fun _ _ => trivial⟩
  rw [FType.replaces_iff TBinaryProtocol.lawful FType.proper_set rfl hfits]
  intro hdiscards
  obtain ⟨elem, helem, heq⟩ := hdiscards 1 (by simp)
  simp only [List.mem_singleton] at helem
  subst helem
  exact absurd heq (by decide)

end MsgRpc
