import MsgRpc.Cell.Lemmas.Effect

/-!
This module contains what a cell owes its listeners, as the log of its interaction has it: listeners
are collected until the cell has its value or error and then told in turn.
-/

namespace MsgRpc

namespace Ev

def concerns (c : CellId) : Ev V → Bool
  | .registered c' _ | .notified c' _ | .assigned c' _ => c' = c
  | _ => false

def assigns (c : CellId) : Ev V → Bool
  | .assigned c' _ => c' = c
  | _ => false

end Ev

inductive Delivery where
  | collecting (us : List Updatable)
  | telling (us : List Updatable) (pending : List Updatable)

/--
What the events of a log make of cell `c`. It is `failed` if it is created with its error. A
listener that comes late is told at once.
-/
inductive Delivers (c : CellId) (failed : Bool) : List (Ev V) → Delivery → Prop where
  | empty (hfailed : failed = false) : Delivers c failed [] (.collecting [])
  | failed (hfailed : failed = true) : Delivers c failed [] (.telling [] [])
  | other (log : List (Ev V)) (d : Delivery) (e : Ev V) (he : e.concerns c = false)
      (h : Delivers c failed log d)
    : Delivers c failed (log ++ [e]) d
  | register (log : List (Ev V)) (us : List Updatable) (u : Updatable)
      (h : Delivers c failed log (.collecting us))
    : Delivers c failed (log ++ [.registered c u]) (.collecting (us ++ [u]))
  | assign (log : List (Ev V)) (us : List Updatable) (o : Outcome V)
      (h : Delivers c failed log (.collecting us))
    : Delivers c failed (log ++ [.assigned c o]) (.telling us us)
  | late (log : List (Ev V)) (us pending : List Updatable) (u : Updatable)
      (h : Delivers c failed log (.telling us pending))
    : Delivers c failed (log ++ [.registered c u] ++ [.notified c u]) (.telling us pending)
  | tell (log : List (Ev V)) (us pending : List Updatable) (u : Updatable)
      (h : Delivers c failed log (.telling us (u :: pending)))
    : Delivers c failed (log ++ [.notified c u]) (.telling us pending)

/--
`c` is set at most once, to a value or an error.
-/
structure SingleAssignment (c : CellId) (log : List (Ev V)) : Prop where
  once : log.countP (Ev.assigns c) ≤ 1
  set : .assigned c (.error .succeeded) ∉ log

theorem SingleAssignment.of_le {c : CellId} {log log' : List (Ev V)}
    (h : SingleAssignment c log') (hlog : log <+: log')
    : SingleAssignment c log where
  once := Nat.le_trans (hlog.sublist.countP_le) h.once
  set hmem := h.set (hlog.subset hmem)

namespace Delivers

variable {c : CellId} {failed : Bool} {log : List (Ev V)} {d : Delivery}

theorem others {es : List (Ev V)} (h : Delivers c failed log d)
    (hes : ∀ e ∈ es, e.concerns c = false)
    : Delivers c failed (log ++ es) d := by
  induction es generalizing log with
  | nil =>
    rw [List.append_nil]
    exact h
  | cons e es ih =>
    rw [List.append_cons]
    apply ih (.other log d e (hes e List.mem_cons_self) h)
    intro e' he'
    exact hes e' (List.mem_cons_of_mem e he')

theorem assigned {us pending : List Updatable} (h : Delivers c false log (.telling us pending))
    : 1 ≤ log.countP (Ev.assigns c) := by
  generalize hd : Delivery.telling us pending = d at h
  induction h generalizing us pending with
  | empty _ => simp at hd
  | failed hfailed => simp at hfailed
  | other log d e _ _ ih =>
    have := ih hd
    rw [List.countP_append]
    omega
  | register log us' u _ _ => simp at hd
  | assign log us' o _ _ => simp [Ev.assigns]
  | late log us' pending' u _ ih =>
    have := ih rfl
    rw [List.append_assoc, List.countP_append]
    omega
  | tell log us' pending' u _ ih =>
    have := ih rfl
    rw [List.countP_append]
    omega

theorem toFailed (h : Delivers c failed log (.collecting []))
    : Delivers c true log (.telling [] []) := by
  generalize hd : Delivery.collecting [] = d at h
  induction h with
  | empty _ => exact .failed rfl
  | failed _ => simp at hd
  | other log d e he _ ih => exact .other log _ e he (ih hd)
  | register log us u _ _ => simp at hd
  | assign log us o _ _ => simp at hd
  | late log us pending u _ _ => simp at hd
  | tell log us pending u _ _ => simp at hd

end Delivers

/--
`pending` are the listeners cell `c` has yet to tell.
-/
structure Interaction.Pending (it : Interaction V) (c : CellId) (pending : List Updatable) :
    Prop where
  delivers : ∃ failed, (failed = true → c < it.cellCount ∧ (it.cells c).role = .cell)
    ∧ Delivers c failed it.log
      (if (it.cells c).hasValueOrError then .telling (it.cells c).updatables pending
        else .collecting (it.cells c).updatables)
  isEmpty : (it.cells c).hasValueOrError = false → pending = []

-- `c` has in `it'` to tell whom it had to tell in `it`, unless it is set twice
def SamePending (c : CellId) (it it' : Interaction V) : Prop :=
  SingleAssignment c it'.log → ∀ pending, it.Pending c pending → it'.Pending c pending

theorem SamePending.refl (c : CellId) (it : Interaction V) : SamePending c it it := by
  intro _ pending h
  exact h

theorem SamePending.trans {c : CellId} {it1 it2 it3 : Interaction V} (h : SamePending c it1 it2)
    (h' : SamePending c it2 it3) (hlog : it2.log <+: it3.log)
    : SamePending c it1 it3 := by
  intro hsingle pending hpending
  apply h' hsingle
  exact h (hsingle.of_le hlog) pending hpending

section Step

variable {c : CellId} {it it' : Interaction V}

theorem SamePending.others (es : List (Ev V)) (hlog : it'.log = it.log ++ es)
    (hes : ∀ e ∈ es, e.concerns c = false) (hview : (it'.cells c).view = (it.cells c).view)
    (hupdatables : (it'.cells c).updatables = (it.cells c).updatables)
    (hcount : it.cellCount ≤ it'.cellCount)
    (hrole : c < it.cellCount → (it'.cells c).role = (it.cells c).role)
    : SamePending c it it' := by
  rintro _ pending ⟨⟨failed, hfailed, hdelivers⟩, hempty⟩
  have hset : (it'.cells c).hasValueOrError = (it.cells c).hasValueOrError :=
    congrArg CellView.hasValueOrError hview
  refine ⟨⟨failed, ?_, ?_⟩, ?_⟩
  . intro h
    obtain ⟨hlt, hcell⟩ := hfailed h
    exact ⟨Nat.lt_of_lt_of_le hlt hcount, by rw [hrole hlt, hcell]⟩
  . rw [hset, hupdatables, hlog]
    exact hdelivers.others hes
  . rw [hset]
    exact hempty

theorem SamePending.same (hlog : it'.log = it.log) (hview : (it'.cells c).view = (it.cells c).view)
    (hupdatables : (it'.cells c).updatables = (it.cells c).updatables)
    (hcount : it.cellCount ≤ it'.cellCount)
    (hrole : c < it.cellCount → (it'.cells c).role = (it.cells c).role)
    : SamePending c it it' :=
  SamePending.others [] (by rw [hlog, List.append_nil]) (by simp) hview hupdatables hcount
    hrole

theorem SamePending.record {s : St V} {e : Ev V} (he : e.concerns c = false)
    : SamePending c s.it (s.record e).it := by
  apply SamePending.others [e]
  . rfl
  . simp [he]
  . rfl
  . rfl
  . exact Nat.le_refl _
  . exact fun _ => rfl

theorem SamePending.collect {u : Updatable} (hempty : (it.cells c).hasValueOrError = false)
    (hlog : it'.log = it.log ++ [.registered c u])
    (hview : (it'.cells c).view = (it.cells c).view)
    (hupdatables : (it'.cells c).updatables = (it.cells c).updatables ++ [u])
    (hcount : it.cellCount ≤ it'.cellCount)
    (hrole : c < it.cellCount → (it'.cells c).role = (it.cells c).role)
    : SamePending c it it' := by
  rintro _ pending ⟨⟨failed, hfailed, hdelivers⟩, hpending⟩
  have hset : (it'.cells c).hasValueOrError = false := by
    rw [← hempty]
    exact congrArg CellView.hasValueOrError hview
  simp only [hempty, Bool.false_eq_true, ↓reduceIte] at hdelivers
  refine ⟨⟨failed, ?_, ?_⟩, fun _ => hpending hempty⟩
  . intro h
    obtain ⟨hlt, hcell⟩ := hfailed h
    exact ⟨Nat.lt_of_lt_of_le hlt hcount, by rw [hrole hlt, hcell]⟩
  . simp only [hset, Bool.false_eq_true, ↓reduceIte, hupdatables, hlog]
    exact .register _ _ u hdelivers

theorem SamePending.late {s : St V} {u : Updatable}
    (hset : (s.it.cells c).hasValueOrError = true)
    : SamePending c s.it ((s.record (.registered c u)).record (.notified c u)).it := by
  rintro _ pending ⟨⟨failed, hfailed, hdelivers⟩, hpending⟩
  refine ⟨⟨failed, hfailed, ?_⟩, hpending⟩
  change Delivers c failed _ (if (s.it.cells c).hasValueOrError then
    .telling (s.it.cells c).updatables pending else .collecting (s.it.cells c).updatables)
  simp only [hset, ↓reduceIte] at hdelivers ⊢
  exact .late _ _ pending u hdelivers

theorem SamePending.addCell {s : St V} (hwf : WellFormed s) (type : Ty) (kind : CellKind V)
    (status : RpcResult) (hstatus : status = .succeeded ∨ kind.role = .cell) (c : CellId)
    : SamePending c s.it (s.addCell { type, kind, status }).it := by
  by_cases hnew : c = s.it.cellCount
  . subst hnew
    rintro _ pending ⟨⟨failed, hfailed, hdelivers⟩, hpending⟩
    have hold : s.it.cells s.it.cellCount = .unallocated := hwf.cellFresh _ (Nat.le_refl _)
    have hempty : (Cell.unallocated (V := V)).hasValueOrError = false := rfl
    have hnone : (Cell.unallocated (V := V)).updatables = [] := rfl
    simp only [hold, hempty, hnone, Bool.false_eq_true, ↓reduceIte] at hdelivers hpending
    have hcell : (s.addCell { type, kind, status }).it.cells s.it.cellCount
        = { type, kind, status } := by
      simp [St.addCell]
    have hset : ({ type, kind, status } : Cell V).hasValueOrError = !decide (status = .succeeded) := by
      by_cases hs : status = .succeeded <;>
        simp [hs, Cell.hasValueOrError, Cell.view, CellView.hasValueOrError, CellView.hasValue,
          CellView.hasError]
    have hlog : (s.addCell { type, kind, status }).it.log = s.it.log := rfl
    rw [hpending trivial]
    constructor
    . rw [hcell, hset, hlog]
      by_cases hs : status = .succeeded
      . refine ⟨failed, ?_, ?_⟩
        . intro h
          exact absurd (hfailed h).1 (Nat.lt_irrefl _)
        . simpa [hs] using hdelivers
      . refine ⟨true, ?_, ?_⟩
        . intro _
          refine ⟨Nat.lt_succ_self _, ?_⟩
          exact hstatus.resolve_left hs
        . simpa [hs] using hdelivers.toFailed
    . intro _
      rfl
  . have hcell : (s.addCell { type, kind, status }).it.cells c = s.it.cells c := by
      simp [St.addCell, hnew]
    apply SamePending.same
    . rfl
    . rw [hcell]
    . rw [hcell]
    . exact Nat.le_succ _
    . rw [hcell]
      exact fun _ => rfl

theorem Interaction.Pending.tell {s : St V} {u : Updatable} {pending : List Updatable}
    (h : s.it.Pending c (u :: pending))
    : (s.record (.notified c u)).it.Pending c pending := by
  obtain ⟨failed, hfailed, hdelivers⟩ := h.delivers
  have hset : (s.it.cells c).hasValueOrError = true := by
    cases hset : (s.it.cells c).hasValueOrError with
    | true => rfl
    | false =>
      have := h.isEmpty hset
      simp at this
  simp only [hset, ↓reduceIte] at hdelivers
  refine ⟨⟨failed, hfailed, ?_⟩, ?_⟩
  . change Delivers c failed _ (if (s.it.cells c).hasValueOrError then
      .telling (s.it.cells c).updatables pending else .collecting (s.it.cells c).updatables)
    simp only [hset, ↓reduceIte]
    exact .tell _ _ pending u hdelivers
  . intro hno
    have hno : (s.it.cells c).hasValueOrError = false := hno
    simp [hset] at hno

theorem Interaction.Pending.assign {s : St V} {o : Outcome V} {pending : List Updatable}
    (h : s.it.Pending c pending)
    (hc : (s.it.cells c).role ≠ .cell ∨ (s.it.cells c).hasValueOrError = false)
    (hsingle : SingleAssignment c (s.assign c o).it.log)
    : pending = [] ∧ (s.assign c o).it.Pending c (s.it.cells c).updatables := by
  obtain ⟨failed, hfailed, hdelivers⟩ := h.delivers
  have hlog : (s.assign c o).it.log = s.it.log ++ [.assigned c o] := by
    cases o <;> rfl
  have hsame : (s.assign c o).it.cellCount = s.it.cellCount
      ∧ ((s.assign c o).it.cells c).role = (s.it.cells c).role
      ∧ ((s.assign c o).it.cells c).updatables = (s.it.cells c).updatables := by
    cases o <;> simp [St.assign, St.record, St.setCell, Cell.role]
  have hempty : (s.it.cells c).hasValueOrError = false := by
    cases hset : (s.it.cells c).hasValueOrError with
    | false => rfl
    | true =>
      have hrole := hc.resolve_right (by simp [hset])
      have hborn : failed = false := by
        cases failed with
        | false => rfl
        | true => exact absurd (hfailed rfl).2 hrole
      rw [hset, hborn] at hdelivers
      have honce := hsingle.once
      have hbefore := hdelivers.assigned
      rw [hlog, List.countP_append] at honce
      simp only [List.countP_singleton, Ev.assigns, decide_true, ↓reduceIte] at honce
      omega
  have hset : ((s.assign c o).it.cells c).hasValueOrError = true := by
    cases o with
    | value v =>
      simp [St.assign, St.record, St.setCell, Cell.hasValueOrError, Cell.view,
        CellView.hasValueOrError, CellView.hasValue]
    | error reason =>
      have hne : reason ≠ .succeeded := by
        intro heq
        apply hsingle.set
        rw [hlog, heq]
        exact List.mem_append_right _ List.mem_cons_self
      simp [St.assign, St.record, St.setCell, Cell.hasValueOrError, Cell.view,
        CellView.hasValueOrError, CellView.hasError, hne]
  refine ⟨h.isEmpty hempty, ⟨failed, ?_, ?_⟩, ?_⟩
  . intro h
    rw [hsame.1, hsame.2.1]
    exact hfailed h
  . simp only [hempty, Bool.false_eq_true, ↓reduceIte] at hdelivers
    simp only [hset, ↓reduceIte, hlog, hsame.2.2]
    exact .assign _ _ o hdelivers
  . intro hno
    simp [hset] at hno

theorem SamePending.assign {s : St V} {c' : CellId} (o : Outcome V) (hne : c' ≠ c)
    : SamePending c' s.it (s.assign c o).it := by
  have hcell : (s.assign c o).it.cells c' = s.it.cells c' := by
    cases o <;> simp [St.assign, St.record, St.setCell, hne]
  apply SamePending.others [.assigned c o]
  . cases o <;> rfl
  . simp [Ev.concerns, Ne.symm hne]
  . rw [hcell]
  . rw [hcell]
  . cases o <;> exact Nat.le_refl _
  . rw [hcell]
    exact fun _ => rfl

end Step

end MsgRpc
