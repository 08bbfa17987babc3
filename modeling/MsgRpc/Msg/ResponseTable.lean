import MsgRpc.Lib.Registry
import MsgRpc.Msg.Lemmas.Handlers

/-!
This module contains the invariant of the response table: it maps an id to a cell if and only if the
cell is alive and has this id, and cells that have an id are empty.
-/

namespace MsgRpc

open StateProg

-- the id a cell is registered under, if the table is to be believed
def Cell.key (o : Cell V) : Option RpcSequenceIdT :=
  if o.alive = true ∧ o.hasSeqId = true then some o.seqId else none

theorem Cell.key_eq_some {o : Cell V} {k : RpcSequenceIdT}
    : o.key = some k ↔ o.alive = true ∧ o.hasSeqId = true ∧ o.seqId = k := by
  unfold Cell.key
  split
  . next h => simp [h]
  . next h =>
    simp only [reduceCtorEq, false_iff]
    intro hk
    exact h ⟨hk.1, hk.2.1⟩

-- all cells of the process, the interaction that runs keeps its own in `s`
def world (others : Nat → CellId → Cell V) (s : St V) : Nat × CellId → Cell V :=
  fun o => if o.1 = s.own then s.it.cells o.2 else others o.1 o.2

/--
The invariant of the response table next to all cells of the process. The cell registered under
`hole` is being resolved.
-/
structure Table (hole : Option RpcSequenceIdT) (start : UInt32) (cells : Nat × CellId → Cell V)
    (sh : Shared V) : Prop where
  agrees : Registry.Agrees sh.idFuncMap (fun o => (cells o).key)
  role : ∀ o k, (cells o).key = some k → (cells o).role = .cell
  isEmpty : ∀ o k, (cells o).key = some k → hole ≠ some k → (cells o).hasValueOrError = false
  issued : ∀ o k, (cells o).key = some k → k ∈ sh.issued
  ids : sh.issued.length < 4294967295 → RpcSequenceId.Issued start sh.sequenceId sh.issued

-- the invariant while interaction `s.own` runs
def TableIn (others : Nat → CellId → Cell V) (hole : Option RpcSequenceIdT) (start : UInt32)
    (s : St V) : Prop :=
  Table hole start (world others s) s.sh

namespace TableIn

variable {others : Nat → CellId → Cell V} {hole : Option RpcSequenceIdT} {start : UInt32}
variable {s s' : St V}

theorem congr (h : TableIn others hole start s) (hown : s'.own = s.own)
    (hkey : ∀ c, (s'.it.cells c).key = (s.it.cells c).key)
    (hcell : ∀ c k, (s.it.cells c).key = some k
      → (s'.it.cells c).role = (s.it.cells c).role ∧ (s'.it.cells c).view = (s.it.cells c).view)
    (htable : s'.sh.idFuncMap = s.sh.idFuncMap) (hseq : s'.sh.sequenceId = s.sh.sequenceId)
    (hissued : s'.sh.issued = s.sh.issued)
    : TableIn others hole start s' := by
  have hkeys : ∀ o, (world others s' o).key = (world others s o).key := by
    intro o
    unfold world
    rw [hown]
    split
    . exact hkey o.2
    . rfl
  have hcells : ∀ o k, (world others s o).key = some k
      → (world others s' o).role = (world others s o).role
        ∧ (world others s' o).view = (world others s o).view := by
    intro o k hk
    unfold world at hk ⊢
    rw [hown]
    split
    . next hm =>
      rw [if_pos hm] at hk
      exact hcell o.2 k hk
    . exact ⟨rfl, rfl⟩
  constructor
  . apply h.agrees.congr
    . rw [htable]
      intro
      rfl
    . exact hkeys
  . intro o k hk
    rw [hkeys] at hk
    rw [(hcells o k hk).1]
    exact h.role o k hk
  . intro o k hk hhole
    rw [hkeys] at hk
    have hempty := h.isEmpty o k hk hhole
    unfold Cell.hasValueOrError at hempty ⊢
    rw [(hcells o k hk).2]
    exact hempty
  . intro o k hk
    rw [hkeys] at hk
    rw [hissued]
    exact h.issued o k hk
  . rw [hissued, hseq]
    exact h.ids

theorem of_it (h : TableIn others hole start s) (hown : s'.own = s.own)
    (hcells : s'.it.cells = s.it.cells) (htable : s'.sh.idFuncMap = s.sh.idFuncMap)
    (hseq : s'.sh.sequenceId = s.sh.sequenceId) (hissued : s'.sh.issued = s.sh.issued)
    : TableIn others hole start s' := by
  apply h.congr hown _ _ htable hseq hissued
  . simp [hcells]
  . simp [hcells]

theorem setCell (h : TableIn others hole start s) {c : CellId} {o : Cell V}
    (hkey : o.key = (s.it.cells c).key)
    (hsame : ∀ k, (s.it.cells c).key = some k
      → o.role = (s.it.cells c).role ∧ o.view = (s.it.cells c).view)
    : TableIn others hole start (s.setCell c o) := by
  have hcell : ∀ c', (s.setCell c o).it.cells c' = if c' = c then o else s.it.cells c' := by
    simp [St.setCell, Function.update_apply]
  apply h.congr
  . rfl
  . grind
  . grind
  . rfl
  . rfl
  . rfl

theorem addCell (h : TableIn others hole start s) (hwf : WellFormed s) {o : Cell V}
    (hid : o.hasSeqId = false)
    : TableIn others hole start (s.addCell o) := by
  have hnone : (s.it.cells s.it.cellCount).key = none := by
    rw [hwf.cellFresh _ (Nat.le_refl _)]
    rfl
  have hcell : ∀ c', (s.addCell o).it.cells c'
      = if c' = s.it.cellCount then o else s.it.cells c' := by
    simp [St.addCell, Function.update_apply]
  have hnew : o.key = none := by
    simp [Cell.key, hid]
  apply h.congr
  . rfl
  . grind
  . grind
  . rfl
  . rfl
  . rfl

-- only cells that have no id may be set
theorem assign (h : TableIn others hole start s) {c : CellId} (o : Outcome V)
    (hnone : (s.it.cells c).key = none)
    : TableIn others hole start (s.assign c o) := by
  cases o with
  | value v =>
    have hset : TableIn others hole start
        (s.setCell c { s.it.cells c with value := some v }) := by
      apply h.setCell
      . rfl
      . simp [hnone]
    apply hset.of_it <;> rfl
  | error reason =>
    have hset : TableIn others hole start
        (s.setCell c { s.it.cells c with status := reason }) := by
      apply h.setCell
      . rfl
      . simp [hnone]
    apply hset.of_it <;> rfl

theorem key_of_role (h : TableIn others hole start s) {c : CellId}
    (hrole : (s.it.cells c).role ≠ .cell)
    : (s.it.cells c).key = none := by
  cases hk : (s.it.cells c).key with
  | none => rfl
  | some k =>
    have hcell := h.role (s.own, c) k
    simp only [world, ↓reduceIte] at hcell
    exact absurd (hcell hk) hrole

-- the cell that is being resolved
theorem resolve {k : RpcSequenceIdT} (h : TableIn others (some k) start s) {c : CellId}
    (o : Outcome V) (hk : (s.it.cells c).key = some k)
    : TableIn others (some k) start (s.assign c o) := by
  have hown : (s.assign c o).own = s.own := by
    cases o <;> rfl
  have hsh : (s.assign c o).sh = s.sh := by
    cases o <;> rfl
  have hother : ∀ c', c' ≠ c → (s.assign c o).it.cells c' = s.it.cells c' := by
    intro c' hne
    cases o <;> simp [St.assign, St.record, St.setCell, hne]
  have hself : ((s.assign c o).it.cells c).key = (s.it.cells c).key
      ∧ ((s.assign c o).it.cells c).role = (s.it.cells c).role := by
    cases o <;> simp [St.assign, St.record, St.setCell, Cell.key, Cell.role]
  have hsame : ∀ c', ((s.assign c o).it.cells c').key = (s.it.cells c').key
      ∧ ((s.assign c o).it.cells c').role = (s.it.cells c').role := by
    intro c'
    by_cases heq : c' = c
    . rw [heq]
      exact hself
    . rw [hother c' heq]
      exact ⟨rfl, rfl⟩
  have hkeys : ∀ o', (world others (s.assign c o) o').key = (world others s o').key
      ∧ (world others (s.assign c o) o').role = (world others s o').role := by
    intro o'
    unfold world
    rw [hown]
    split
    . exact hsame o'.2
    . exact ⟨rfl, rfl⟩
  constructor
  . rw [hsh]
    apply h.agrees.congr
    . intro
      rfl
    . intro o'
      exact (hkeys o').1
  . intro o' k' hk'
    rw [(hkeys o').1] at hk'
    rw [(hkeys o').2]
    exact h.role o' k' hk'
  . intro o' k' hk' hhole
    rw [(hkeys o').1] at hk'
    have hempty := h.isEmpty o' k' hk' hhole
    unfold world at hk' hempty ⊢
    rw [hown]
    by_cases hm : o'.1 = s.own
    . rw [if_pos hm] at hk' hempty ⊢
      rw [hother o'.2]
      . exact hempty
      . intro heq
        rw [heq, hk] at hk'
        exact hhole hk'
    . rw [if_neg hm] at hempty ⊢
      exact hempty
  . intro o' k' hk'
    rw [(hkeys o').1] at hk'
    rw [hsh]
    exact h.issued o' k' hk'
  . rw [hsh]
    exact h.ids

theorem register (h : TableIn others hole start s) {c : CellId}
    (hnew : s.it.cells c = { type := (s.it.cells c).type, kind := .cell })
    (hunique : s.sh.idFuncMap s.nextSeqId = none)
    : TableIn others hole start (s.register c) := by
  have hcell : ∀ c', (s.register c).it.cells c'
      = if c' = c then { s.it.cells c with hasSeqId := true, seqId := s.nextSeqId }
        else s.it.cells c' := by
    simp [St.register, St.setSeqId, St.setCell, St.setRspHandler, St.next, Function.update_apply]
  have hworld : ∀ o, world others (s.register c) o
      = if o = (s.own, c) then { s.it.cells c with hasSeqId := true, seqId := s.nextSeqId }
        else world others s o := by
    intro o
    have hown : (s.register c).own = s.own := rfl
    unfold world
    rw [hown, hcell]
    by_cases hm : o.1 = s.own
    . by_cases hc : o.2 = c
      . have heq : o = (s.own, c) := Prod.ext hm hc
        simp [heq]
      . have hne : o ≠ (s.own, c) := by
          intro heq
          simp [heq] at hc
        simp [hm, hc, hne]
    . have hne : o ≠ (s.own, c) := by
        intro heq
        simp [heq] at hm
      simp [hm, hne]
  have hself : world others s (s.own, c) = s.it.cells c := by
    simp [world]
  have hkeyNew : (world others (s.register c) (s.own, c)).key = some s.nextSeqId := by
    rw [hworld, if_pos rfl, Cell.key_eq_some]
    simp only [and_true]
    rw [hnew]
  have hissued : (s.register c).sh.issued = s.nextSeqId :: s.sh.issued := rfl
  -- a cell with an id either is `c` or is as before
  have hcases : ∀ o k, (world others (s.register c) o).key = some k
      → o = (s.own, c) ∧ k = s.nextSeqId ∨ world others (s.register c) o = world others s o := by
    intro o k hk
    by_cases heq : o = (s.own, c)
    . rw [heq, hkeyNew] at hk
      simp only [Option.some.injEq] at hk
      exact Or.inl ⟨heq, hk.symm⟩
    . rw [hworld, if_neg heq]
      exact Or.inr rfl
  constructor
  . apply h.agrees.insert hunique
    . rw [hself, hnew]
      rfl
    . rfl
    . intro o
      by_cases heq : o = (s.own, c)
      . exact Or.inr heq
      . rw [hworld, if_neg heq]
        exact Or.inl rfl
    . exact hkeyNew
  . intro o k hk
    cases hcases o k hk with
    | inl heq =>
      rw [heq.1, hworld, if_pos rfl, hnew]
      rfl
    | inr hsame =>
      rw [hsame] at hk ⊢
      exact h.role o k hk
  . intro o k hk hhole
    cases hcases o k hk with
    | inl heq =>
      rw [heq.1, hworld, if_pos rfl, hnew]
      rfl
    | inr hsame =>
      rw [hsame] at hk ⊢
      exact h.isEmpty o k hk hhole
  . intro o k hk
    rw [hissued]
    cases hcases o k hk with
    | inl heq =>
      rw [heq.2]
      exact List.mem_cons_self
    | inr hsame =>
      rw [hsame] at hk
      exact List.mem_cons_of_mem _ (h.issued o k hk)
  . rw [hissued]
    intro hlen
    simp only [List.length_cons] at hlen
    exact (h.ids (by omega)).get hlen

theorem unique (h : TableIn others hole start s)
    (hlen : s.next.sh.issued.length < 4294967295)
    : s.sh.idFuncMap s.nextSeqId = none := by
  have hlen' : s.sh.issued.length + 1 < 4294967295 := hlen
  cases hmapped : s.sh.idFuncMap s.nextSeqId with
  | none => rfl
  | some o =>
    have hk := (h.agrees _ o).mp hmapped
    have hmem := h.issued o _ hk
    exact absurd hmem ((h.ids (by omega)).get_not_mem hlen')

theorem frees (h : TableIn others hole start s) (hfrees : Frees s s')
    : TableIn others hole start s' := by
  have hworld : ∀ o, world others s' o = world others s o
      ∨ o.1 = s.own ∧ (s.it.cells o.2).alive = true ∧ (s'.it.cells o.2).alive = false
        ∧ (world others s' o).key = none := by
    intro o
    unfold world
    rw [hfrees.own]
    by_cases hm : o.1 = s.own
    . simp only [hm, ↓reduceIte, true_and]
      have hcell := hfrees.cell o.2
      have hdead := hfrees.deadCell o.2
      cases hbefore : (s.it.cells o.2).alive with
      | false =>
        rw [hdead hbefore, ← hbefore] at hcell
        exact Or.inl hcell
      | true =>
        cases hafter : (s'.it.cells o.2).alive with
        | true =>
          rw [hafter, ← hbefore] at hcell
          exact Or.inl hcell
        | false =>
          right
          simp [Cell.key, hafter]
    . simp [hm]
  have hback : ∀ o k, (world others s' o).key = some k → world others s' o = world others s o := by
    intro o k hk
    cases hworld o with
    | inl hsame => exact hsame
    | inr hgone =>
      rw [hgone.2.2.2] at hk
      simp at hk
  have hissued : s'.sh.issued = s.sh.issued := by
    rw [hfrees.shared]
  have hseq : s'.sh.sequenceId = s.sh.sequenceId := by
    rw [hfrees.shared]
  constructor
  . apply h.agrees.drop (fun o => o.1 = s.own ∧ (s.it.cells o.2).alive = true
      ∧ (s'.it.cells o.2).alive = false)
    . intro k
      cases hfrees.removed k with
      | inl hsame => exact Or.inl hsame
      | inr hgone =>
        obtain ⟨hnone, c, hc, hc', hid, hk⟩ := hgone
        refine Or.inr ⟨hnone, (s.own, c), ⟨rfl, hc, hc'⟩, ?_⟩
        simp only [world, ↓reduceIte]
        exact Cell.key_eq_some.mpr ⟨hc, hid, hk⟩
    . rintro o k ⟨hm, hc, hc'⟩ hk
      have hrole := h.role o k hk
      simp only [world, hm, ↓reduceIte] at hk hrole
      obtain ⟨_, hid, hseqId⟩ := Cell.key_eq_some.mp hk
      rw [← hseqId]
      apply hfrees.unregistered o.2 hc hc' _ hid
      simp [hrole]
    . intro o ho
      cases hworld o with
      | inl hsame => rw [hsame]
      | inr hgone => exact absurd ⟨hgone.1, hgone.2.1, hgone.2.2.1⟩ ho
    . rintro o ⟨hm, _, hc'⟩
      have hm' : o.1 = s'.own := by rw [hm, hfrees.own]
      simp [world, hm', Cell.key, hc']
  . intro o k hk
    have hsame := hback o k hk
    rw [hsame] at hk ⊢
    exact h.role o k hk
  . intro o k hk hhole
    have hsame := hback o k hk
    rw [hsame] at hk ⊢
    exact h.isEmpty o k hk hhole
  . intro o k hk
    rw [hback o k hk] at hk
    rw [hissued]
    exact h.issued o k hk
  . rw [hissued, hseq]
    exact h.ids

theorem setRspHandler_none (h : TableIn others hole start s) {c : CellId} {k : RpcSequenceIdT}
    (hk : (s.it.cells c).key = some k) {o : Cell V} (ho : o.key = none)
    : TableIn others hole start ((s.setRspHandler k none).setCell c o) := by
  have hworld : ∀ o', world others ((s.setRspHandler k none).setCell c o) o'
      = if o' = (s.own, c) then o else world others s o' := by
    intro o'
    have hown : ((s.setRspHandler k none).setCell c o).own = s.own := rfl
    have hcell : ((s.setRspHandler k none).setCell c o).it.cells o'.2
        = if o'.2 = c then o else s.it.cells o'.2 := by
      simp [St.setCell, St.setRspHandler, Function.update_apply]
    unfold world
    rw [hown, hcell]
    by_cases hm : o'.1 = s.own
    . by_cases hc : o'.2 = c
      . have heq : o' = (s.own, c) := Prod.ext hm hc
        simp [heq]
      . have hne : o' ≠ (s.own, c) := by
          intro heq
          simp [heq] at hc
        simp [hm, hc, hne]
    . have hne : o' ≠ (s.own, c) := by
        intro heq
        simp [heq] at hm
      simp [hm, hne]
  have hself : (world others s (s.own, c)).key = some k := by
    simpa [world] using hk
  have hback : ∀ o' k', (world others ((s.setRspHandler k none).setCell c o) o').key = some k'
      → world others ((s.setRspHandler k none).setCell c o) o' = world others s o' := by
    intro o' k' hk'
    by_cases heq : o' = (s.own, c)
    . rw [hworld, if_pos heq, ho] at hk'
      simp at hk'
    . rw [hworld, if_neg heq]
  constructor
  . apply h.agrees.drop (fun o' => o' = (s.own, c))
    . intro k'
      by_cases heq : k' = k
      . right
        subst heq
        refine ⟨by simp [St.setCell, St.setRspHandler], (s.own, c), rfl, hself⟩
      . left
        simp [St.setCell, St.setRspHandler, heq]
    . intro o' k' ho' hk'
      rw [ho', hself] at hk'
      simp only [Option.some.injEq] at hk'
      simp [St.setCell, St.setRspHandler, hk']
    . intro o' ho'
      rw [hworld, if_neg ho']
    . intro o' ho'
      rw [hworld, if_pos ho', ho]
  . intro o' k' hk'
    have hsame := hback o' k' hk'
    rw [hsame] at hk' ⊢
    exact h.role o' k' hk'
  . intro o' k' hk' hhole
    have hsame := hback o' k' hk'
    rw [hsame] at hk' ⊢
    exact h.isEmpty o' k' hk' hhole
  . intro o' k' hk'
    rw [hback o' k' hk'] at hk'
    exact h.issued o' k' hk'
  . exact h.ids

theorem record (h : TableIn others hole start s) (e : Ev V)
    : TableIn others hole start (s.record e) := by
  apply h.of_it <;> rfl

theorem drop (h : TableIn others hole start s) {c : CellId}
    (halive : (s.it.cells c).alive = true)
    : TableIn others hole start ((s.removeRspHandlerOf c).freeCell c) := by
  apply record
  unfold St.removeRspHandlerOf
  cases hid : (s.it.cells c).hasSeqId with
  | true =>
    apply h.setRspHandler_none
    . exact Cell.key_eq_some.mpr ⟨halive, hid, rfl⟩
    . rfl
  | false =>
    apply h.setCell
    . simp [Cell.key, hid]
    . intro k hk
      have := Cell.key_eq_some.mp hk
      simp [hid] at this

theorem effect {env : Env V} {A : Updatable → Prop} (h : TableIn others hole start s)
    (hwf : WellFormed s) (heffect : Effect env A s s')
    : TableIn others hole start s' := by
  cases heffect with
  | newCell type kind _ _ =>
    have hnew : TableIn others hole start (s.addCell { type, kind }) := h.addCell hwf rfl
    apply hnew.of_it <;> rfl
  | failedCell type reason _ =>
    have hnew : TableIn others hole start (s.addCell { type, kind := .cell, status := reason }) :=
      h.addCell hwf rfl
    apply hnew.of_it <;> rfl
  | drop c _ _ _ halive _ _ _ =>
    have hpop : TableIn others hole start s.popFrame := by
      apply h.of_it <;> rfl
    exact hpop.drop halive
  | subscribe c u _ _ _ _ _ =>
    have hset : TableIn others hole start (s.setCell c
        { s.it.cells c with updatables := (s.it.cells c).updatables ++ [u] }) := by
      apply h.setCell
      . rfl
      . intros
        exact ⟨rfl, rfl⟩
    apply hset.of_it <;> rfl
  | setData t data data' _ _ hkind _ =>
    apply h.setCell
    . rfl
    . intros
      refine ⟨?_, rfl⟩
      simp [Cell.role, hkind, CellKind.role]
  | newHook t data halive hkind _ =>
    have hlt := hwf.lt_of_alive halive
    have hne : t ≠ s.it.cellCount := by lia
    have hnew : TableIn others hole start
        (s.addCell { type := env.boolType, kind := .timeoutHook }) := h.addCell hwf rfl
    have hcell : (s.addCell { type := env.boolType, kind := .timeoutHook }).it.cells t
        = s.it.cells t := by
      simp [St.addCell, hne]
    apply hnew.setCell
    . rfl
    . intros
      refine ⟨?_, rfl⟩
      simp [Cell.role, hcell, hkind, CellKind.role]
  | register c _ _ _ hnew _ hunique => exact h.register hnew hunique
  | _ => apply h.of_it <;> rfl

/--
How the handlers may not end.
-/
def Sane (e : Fault) (s : St V) : Prop :=
  e ≠ .assertion .payload ∧ e ≠ .assertion .timerInfo
    ∧ (e = .assertion .uniqueSeqId → 4294967295 ≤ s.sh.issued.length)

theorem sane_of_doubleFree {s s' : St V} {e : Fault} (h : DoubleFree s e s') : Sane e s' := by
  simp [Sane, h.fault]

theorem keeps (env : Env V) (A : Updatable → Prop) (others : Nat → CellId → Cell V)
    (hole : Option RpcSequenceIdT) (start : UInt32)
    : Keeps env A (TableIn others hole start) Sane where
  effect s s' h hact := h.inv.effect h.wellFormed hact.effect
  assign s c o h _ _ hrole := h.inv.assign o (h.inv.key_of_role hrole)
  notify s c u h _ _ _ := h.inv.record _
  fault s s' e _ he _ := by
    refine ⟨?_, ?_, ?_⟩
    all_goals
      intro heq
      subst heq
      simp [Fault.isOrdinary] at he
  unique s h hused := by
    refine ⟨by simp, by simp, ?_⟩
    intro _
    by_contra hlen
    exact hused (h.inv.unique (by omega))

theorem keepsRelease (env : Env V) (A : Updatable → Prop) (others : Nat → CellId → Cell V)
    (hole : Option RpcSequenceIdT) (start : UInt32)
    : KeepsRelease env A (TableIn others hole start) (fun _ => TableIn others hole start) where
  ranAction s a h _ _ := h.inv.record _
  finished s a h _ _ := h.inv.record _
  response s a senderId rspHeader c v buf h _ _ _ _ := by
    apply h.inv.of_it <;> rfl
  release s s' a h _ _ hfrees := by
    apply (h.inv.frees hfrees).of_it <;> rfl

theorem keepsHandlers (cfg : Config V) (others : Nat → CellId → Cell V)
    (hole : Option RpcSequenceIdT) (start : UInt32)
    : KeepsHandlers cfg (TableIn others hole start) Sane where
  effect s s' h heffect := by
    cases heffect with
    | setResult c _ _ =>
      have hset : TableIn others hole start
          (s.setCell c { s.it.cells c with hasContext := true }) := by
        apply h.inv.setCell
        . rfl
        . intros
          exact ⟨rfl, rfl⟩
      apply hset.of_it <;> rfl
    | close bind c _ _ _ _ _ _ _ =>
      have hset : TableIn others hole start (s.setCell c
          { s.it.cells c with
            updatables := (s.it.cells c).updatables ++ [.action s.it.actionCount] }) := by
        apply h.inv.setCell
        . rfl
        . intros
          exact ⟨rfl, rfl⟩
      apply hset.of_it <;> rfl
    | newCell type status => exact h.inv.addCell h.wellFormed rfl
    | setNewCell c v _ hcell =>
      apply h.inv.assign
      rw [hcell]
      rfl
    | delete _ _ hfrees => exact h.inv.frees hfrees
    | _ => apply h.inv.of_it <;> rfl
  fault s s' a _ ha _ := by
    cases ha with
    | inl heq => simp [Sane, heq]
    | inr heq => simp [Sane, heq]

theorem updates (env : Env V) (A : Updatable → Prop) (others : Nat → CellId → Cell V)
    (hole : Option RpcSequenceIdT) (start : UInt32) (n : Nat)
    : Updates A (TableIn others hole start) (fun _ => TableIn others hole start) Sane
        (update env n) := by
  have hk := keeps env A others hole start
  apply hk.update hk.returns
  apply (keepsRelease env A others hole start).keepsFinal hk
  intro s s' e _ hdouble
  exact sane_of_doubleFree hdouble

end TableIn
end MsgRpc
