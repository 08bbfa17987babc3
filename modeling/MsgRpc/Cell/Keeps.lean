import MsgRpc.Cell.Delivery

/-!
This module contains the notion of an invariant of all code of an interaction and the rules to run
the code with it.
-/

namespace MsgRpc

open StateProg

/--
The listeners of a cell that got its value or error have run.
-/
def Notifies (s s' : St V) : Prop :=
  ∀ c a, (s.it.cells c).hasValueOrError = false → (s'.it.cells c).hasValueOrError = true
    → .action a ∈ (s.it.cells c).updatables → .ranAction a ∈ s'.it.log

structure Sound (A : Updatable → Prop) (P : St V → Prop) (s : St V) : Prop where
  wellFormed : WellFormed s
  fenced : Fenced A s
  inv : P s

/--
What the code knows that hands something to the channel or the timer. A cell a request is sent for
has had no id in a state with `P`, nothing has been handed out since.
-/
inductive Knows (P : St V → Prop) (s : St V) : Out V → Prop where
  | request (serviceId : ServiceId) (msg : Bytes) (c : CellId) (call : StubCall V) (s0 : St V)
      (h0 : P s0) (hown : s0.own = s.own) (hout : s0.sh.out = s.sh.out)
      (hnew : s0.it.cells c = { type := call.rspType, kind := .cell })
      (hvalid : (s.it.cells c).seqId ≠ kInvalidRpcSequenceId)
    : Knows P s (.request serviceId msg s.own c call)
  | setTimer (timeoutMs : TimeoutLenT) (c : CellId) (hid : (s.it.cells c).hasSeqId = true)
      (hsucceeded : (s.it.cells c).hasError = false)
    : Knows P s (.setTimer timeoutMs (s.it.cells c).seqId)
  | cancelTimer (c : CellId) (hid : (s.it.cells c).hasSeqId = true)
      (hset : (s.it.cells c).hasValueOrError = true)
    : Knows P s (.cancelTimer (s.it.cells c).seqId)

/--
An effect together with what the code that causes it knows.
-/
structure Act (env : Env V) (A : Updatable → Prop) (P : St V → Prop) (s s' : St V) : Prop where
  effect : Effect env A s s'
  knows : ∀ o, s'.sh.out = s.sh.out ++ [o] → Knows P s o

-- nothing is handed out
theorem Act.quiet {env : Env V} {A : Updatable → Prop} {P : St V → Prop} {s s' : St V}
    (heffect : Effect env A s s') (hout : s'.sh.out = s.sh.out)
    : Act env A P s s' where
  effect := heffect
  knows := by
    intro o ho
    simp [hout] at ho

theorem Act.output {env : Env V} {A : Updatable → Prop} {P : St V → Prop} {s : St V} {o : Out V}
    (heffect : Effect env A s (s.output o)) (hknows : Knows P s o)
    : Act env A P s (s.output o) where
  effect := heffect
  knows := by
    intro o' ho
    simp only [St.output, List.append_cancel_left_eq, List.cons.injEq, and_true] at ho
    rw [← ho]
    exact hknows

structure After (A : Updatable → Prop) (P : St V → Prop) (s s' : St V) : Prop where
  sound : Sound A P s'
  ext : Extends s s'
  notifies : Notifies s s'
  pending : ∀ c, SamePending c s.it s'.it

/--
`x` keeps `P` from `s` on and its result satisfies `Q` if it returns, and ends with `E` if not.
-/
def Runs (A : Updatable → Prop) (P : St V → Prop) (E : Fault → St V → Prop) (s : St V)
    (x : M V α) (Q : α → St V → Prop) : Prop :=
  wp x (fun r s' => After A P s s' ∧ s'.stack = s.stack ∧ Q r s') E s

-- the faults that tell nothing but that application code has gone wrong
def Fault.isOrdinary : Fault → Bool
  | .useAfterFree | .illTyped | .outOfStack => true
  | .assertion .hasSeqId | .assertion .hasValue | .assertion .hasArgs => true
  | .assertion _ => false

-- `u` has been told to update
def Due (s : St V) (u : Updatable) : Prop := ∃ c, .notified c u ∈ s.it.log

-- what `update` of `u` leaves behind
def Ran (u : Updatable) (s' : St V) : Prop := ∀ a, u = .action a → .ranAction a ∈ s'.it.log

/--
`R stack` is what is left of `P` when a call returns to `stack`. All of it is, if there is something
left to do in the innermost frame.
-/
structure Returns (A : Updatable → Prop) (P : St V → Prop) (R : List Frame → St V → Prop) :
    Prop where
  weaken : ∀ s stack, P s → R stack s
  resume : ∀ s f stack, s.stack = f :: stack → R (f :: stack) s → f.finished = false → P s
  leave : ∀ s f stack, Sound A (R (f :: stack)) s → f.isConstruct = false → s.stack = f :: stack
    → R stack s.popFrame

structure Updates (A : Updatable → Prop) (P : St V → Prop) (R : List Frame → St V → Prop)
    (E : Fault → St V → Prop) (upd : Updatable → M V Unit) : Prop where
  run : ∀ u s, Sound A P s → A u → Due s u
    → Runs A (R s.stack) E s (upd u) (fun _ s' => Ran u s')
  returns : Returns A P R

/--
All elementary effects keep `P`. Runs that end early end with `E`.
-/
structure Keeps (env : Env V) (A : Updatable → Prop) (P : St V → Prop)
    (E : Fault → St V → Prop) : Prop where
  effect : ∀ s s', Sound A P s → Act env A P s s' → P s'
  assign : ∀ s c o, Sound A P s → (s.it.cells c).alive = true → A (.cell c)
    → (s.it.cells c).role ≠ .cell → P (s.assign c o)
  notify : ∀ s c u, Sound A P s → (s.it.cells c).alive = true → u ∈ (s.it.cells c).updatables → A u
    → P (s.record (.notified c u))
  fault : ∀ s s' e, Sound A P s → e.isOrdinary = true → Breaks s s' → E e s'
  unique : ∀ s, Sound A P s → s.sh.idFuncMap s.nextSeqId ≠ none → E (.assertion .uniqueSeqId) s.next

/--
The update of a final action keeps `P` if everything it calls does.
-/
def KeepsFinal (env : Env V) (A : Updatable → Prop) (P : St V → Prop)
    (R : List Frame → St V → Prop) (E : Fault → St V → Prop) : Prop :=
  ∀ n a s, Sound A P s → A (.action a) → Due s (.action a) → (s.it.actions a).alive = true
    → (s.it.actions a).isFinalAction = true → Updates A P R E (update env n)
    → Runs A (R s.stack) E s (updateAction env (update env n) a) (fun _ s' => Ran (.action a) s')

-- code that may be interrupted anywhere leaves `P` behind
theorem Keeps.returns {env : Env V} {A : Updatable → Prop} {P : St V → Prop}
    {E : Fault → St V → Prop} (hk : Keeps env A P E)
    : Returns A P (fun _ => P) where
  weaken _ _ h := h
  resume _ _ _ _ h _ := h
  leave s f stack h hf hs := hk.effect s _ h (.quiet (.pop f stack hf hs) rfl)

theorem Notifies.of_view {s s' : St V} (h : WellFormed s)
    (hview : ∀ c < s.it.cellCount, (s'.it.cells c).view = (s.it.cells c).view)
    : Notifies s s' := by
  intro c a hempty hset hmem
  by_cases hc : c < s.it.cellCount
  . unfold Cell.hasValueOrError at hempty hset
    rw [hview c hc, hempty] at hset
    simp at hset
  . rw [h.cellFresh c (by lia)] at hmem
    simp [Cell.unallocated] at hmem

theorem Notifies.trans {s1 s2 s3 : St V} (hwf : WellFormed s1) (h12 : Notifies s1 s2)
    (h23 : Notifies s2 s3) (e12 : Extends s1 s2) (e23 : Extends s2 s3)
    : Notifies s1 s3 := by
  intro c a hempty hset hmem
  have hc : c < s1.it.cellCount := by
    by_contra hc
    rw [hwf.cellFresh c (by lia)] at hmem
    simp [Cell.unallocated] at hmem
  cases hmid : (s2.it.cells c).hasValueOrError with
  | true =>
    apply e23.log.subset
    apply h12 c a hempty hmid hmem
  | false =>
    apply h23 c a hmid hset
    apply (e12.updatables c hc).subset
    exact hmem

section Effect

attribute [local simp] St.setCell St.setAction St.record St.output St.pushFrame St.popFrame
  St.addCell St.addAction St.pushUpdatable St.setKind St.setSeqId St.freeCell St.freeAction St.track
  St.freeContext St.setRspHandler St.next St.register St.useNet St.removeRspHandlerOf

theorem Effect.view {env : Env V} {A : Updatable → Prop} {s s' : St V} (hwf : WellFormed s)
    (heffect : Effect env A s s') {c : CellId} (hnew : c ≠ s.it.cellCount)
    : (s'.it.cells c).view = (s.it.cells c).view := by
  cases heffect with
  | newCell _ _ _ _ => simp [hnew]
  | failedCell _ _ _ => simp [hnew]
  | drop c' _ _ _ _ _ _ _ =>
    cases hid : (s.it.cells c').hasSeqId <;> by_cases hcc : c = c' <;> simp [hid, hcc, Cell.view]
  | subscribe c' u _ _ _ _ _ => by_cases hcc : c = c' <;> simp [hcc, Cell.view]
  | setData t _ _ _ _ _ _ => by_cases hct : c = t <;> simp [hct, Cell.view]
  | newHook t _ halive _ _ =>
    have := hwf.lt_of_alive halive
    have hnew' : t ≠ s.it.cellCount := by lia
    by_cases hct : c = t <;> simp [hct, hnew, hnew', Cell.view]
  | register c' _ _ _ _ _ _ => by_cases hcc : c = c' <;> simp [hcc, Cell.view]
  | _ => simp

theorem Effect.value {env : Env V} {A : Updatable → Prop} {s s' : St V} (hwf : WellFormed s)
    (heffect : Effect env A s s') (c : CellId)
    : (s'.it.cells c).value = (s.it.cells c).value := by
  by_cases hnew : c = s.it.cellCount
  . have hnone : (s.it.cells c).value = none := by
      rw [hwf.cellFresh c (by lia)]
      rfl
    have hlt : ∀ c', (s.it.cells c').alive = true → c' ≠ s.it.cellCount := by
      intro c' halive
      have := hwf.lt_of_alive halive
      lia
    subst hnew
    cases heffect with
    | drop c' _ _ _ halive _ _ _ =>
      have := (hlt c' halive).symm
      cases hid : (s.it.cells c').hasSeqId <;> simp [hid, this]
    | subscribe c' u _ _ halive _ _ => simp [(hlt c' halive).symm]
    | setData t _ _ _ halive _ _ => simp [(hlt t halive).symm]
    | newHook t _ halive _ _ => simp [(hlt t halive).symm, hnone]
    | register c' _ _ _ hnew _ _ =>
      have halive : (s.it.cells c').alive = true := by
        rw [hnew]
      simp [(hlt c' halive).symm]
    | _ => simp [hnone]
  . have hview := heffect.view hwf hnew
    exact congrArg CellView.value hview

theorem Notifies.effect {env : Env V} {A : Updatable → Prop} {s s' : St V} (hwf : WellFormed s)
    (heffect : Effect env A s s')
    : Notifies s s' := by
  apply of_view hwf
  intro c hc
  exact heffect.view hwf (by lia)

theorem SamePending.effect {env : Env V} {A : Updatable → Prop} {s s' : St V} (hwf : WellFormed s)
    (heffect : Effect env A s s') (c : CellId)
    : SamePending c s.it s'.it := by
  have hext := Extends.effect hwf heffect
  have hnone : ∀ es, s'.it.log = s.it.log ++ es → (∀ e ∈ es, e.concerns c = false)
      → (s'.it.cells c).view = (s.it.cells c).view
      → (s'.it.cells c).updatables = (s.it.cells c).updatables → SamePending c s.it s'.it := by
    intro es hlog hes hview hupdatables
    exact SamePending.others _ hlog hes hview hupdatables hext.cellCount (hext.role c)
  have hquiet : s'.it.log = s.it.log → (s'.it.cells c).view = (s.it.cells c).view
      → (s'.it.cells c).updatables = (s.it.cells c).updatables → SamePending c s.it s'.it := by
    intro hlog hview hupdatables
    exact SamePending.same hlog hview hupdatables hext.cellCount (hext.role c)
  cases heffect with
  | newCell type kind _ _ => exact SamePending.addCell hwf type kind .succeeded (Or.inl rfl) c
  | failedCell type reason _ =>
    have hadd := SamePending.addCell hwf type .cell reason (Or.inr rfl) c
    have htrack : SamePending c (s.addCell { type, kind := .cell, status := reason }).it
        ((s.addCell { type, kind := .cell, status := reason }).track (.cell s.it.cellCount)).it :=
      SamePending.same rfl rfl rfl (Nat.le_refl _) (fun _ => rfl)
    exact hadd.trans htrack (List.prefix_refl _)
  | drop c' _ _ _ _ _ _ _ =>
    apply hnone [.freedCell c']
    . cases hid : (s.it.cells c').hasSeqId <;> simp [hid]
    . simp [Ev.concerns]
    . by_cases hcc : c = c' <;> cases hid : (s.it.cells c').hasSeqId <;> simp [hid, hcc, Cell.view]
    . by_cases hcc : c = c' <;> cases hid : (s.it.cells c').hasSeqId <;> simp [hid, hcc]
  | subscribe c' u _ _ _ hempty _ =>
    by_cases hcc : c = c'
    . subst hcc
      apply SamePending.collect hempty
      . rfl
      . simp [Cell.view]
      . simp
      . exact Nat.le_refl _
      . simp [Cell.role]
    . apply hnone [.registered c' u]
      . rfl
      . simp [Ev.concerns, Ne.symm hcc]
      . simp [hcc]
      . simp [hcc]
  | notifyNew c' u _ _ _ hset _ =>
    by_cases hcc : c = c'
    . subst hcc
      exact SamePending.late hset
    . apply hnone [.registered c' u, .notified c' u]
      . simp
      . simp [Ev.concerns, Ne.symm hcc]
      . rfl
      . rfl
  | setData t _ _ _ _ _ _ =>
    apply hquiet
    . rfl
    . by_cases hct : c = t <;> simp [hct, Cell.view]
    . by_cases hct : c = t <;> simp [hct]
  | newHook t data halive hkind _ =>
    have hlt := hwf.lt_of_alive halive
    have hadd := SamePending.addCell hwf env.boolType .timeoutHook .succeeded (Or.inl rfl) c
    have hset : SamePending c
        (s.addCell { type := env.boolType, kind := .timeoutHook }).it
        ((s.addCell { type := env.boolType, kind := .timeoutHook }).setKind t
          (.timeoutCell { data with timeoutCell := some s.it.cellCount })).it := by
      apply SamePending.same
      . rfl
      . by_cases hct : c = t <;> simp [hct, Cell.view]
      . by_cases hct : c = t <;> simp [hct]
      . exact Nat.le_refl _
      . intro _
        by_cases hct : c = t
        . subst hct
          have hne : c ≠ s.it.cellCount := by lia
          simp [Cell.role, CellKind.role, hne, hkind]
        . simp [hct]
    exact hadd.trans hset (List.prefix_refl _)
  | mark e he =>
    apply hnone [e]
    . rfl
    . cases e <;> simp [Ev.isMark] at he <;> simp [Ev.concerns]
    . rfl
    . rfl
  | register c' _ _ _ _ _ _ =>
    apply hquiet
    . rfl
    . by_cases hcc : c = c' <;> simp [hcc, Cell.view]
    . by_cases hcc : c = c' <;> simp [hcc]
  | ranAction a _ _ _ _ =>
    apply hnone [.ranAction a]
    . rfl
    . simp [Ev.concerns]
    . rfl
    . rfl
  | _ => exact hquiet rfl rfl rfl

end Effect

namespace After

variable {env : Env V} {A : Updatable → Prop} {P : St V → Prop} {E : Fault → St V → Prop}
variable {s s1 s2 : St V}

theorem refl (h : Sound A P s) : After A P s s :=
  ⟨h, Extends.refl s, Notifies.of_view h.wellFormed (by simp), fun c => SamePending.refl c s.it⟩

theorem trans {P' : St V → Prop} (hwf : WellFormed s) (h : After A P s s1)
    (h' : After A P' s1 s2)
    : After A P' s s2 :=
  ⟨h'.sound, h.ext.trans h'.ext, h.notifies.trans hwf h'.notifies h.ext h'.ext,
    fun c => (h.pending c).trans (h'.pending c) h'.ext.log⟩

theorem act (hk : Keeps env A P E) (h : Sound A P s) (hact : Act env A P s s1)
    : After A P s s1 where
  sound := ⟨h.wellFormed.effect hact.effect, h.fenced.effect h.wellFormed hact.effect,
    hk.effect s s1 h hact⟩
  ext := Extends.effect h.wellFormed hact.effect
  notifies := Notifies.effect h.wellFormed hact.effect
  pending := SamePending.effect h.wellFormed hact.effect

theorem effect (hk : Keeps env A P E) (h : Sound A P s) (heffect : Effect env A s s1)
    (hout : s1.sh.out = s.sh.out)
    : After A P s s1 :=
  act hk h (.quiet heffect hout)

end After

/--
Cell `c` has told its listeners `us` in turn.
-/
structure Tells (c : CellId) (us : List Updatable) (A : Updatable → Prop) (P : St V → Prop)
    (s s' : St V) : Prop where
  sound : Sound A P s'
  ext : Extends s s'
  notifies : Notifies s s'
  others : ∀ c', c' ≠ c → SamePending c' s.it s'.it
  told : ∀ a, .action a ∈ us → .ranAction a ∈ s'.it.log
  pending : SingleAssignment c s'.it.log → ∀ later,
    s.it.Pending c (us ++ later) → s'.it.Pending c later

namespace Tells

variable {c : CellId} {us us' : List Updatable} {A : Updatable → Prop} {P P' : St V → Prop}
variable {s s1 s2 : St V}

theorem nil (c : CellId) (h : After A P s s1) : Tells c [] A P s s1 where
  sound := h.sound
  ext := h.ext
  notifies := h.notifies
  others c' _ := h.pending c'
  told a ha := by simp at ha
  pending hsingle later hlater := h.pending c hsingle later hlater

theorem append (hwf : WellFormed s) (h : Tells c us A P s s1) (h' : Tells c us' A P' s1 s2)
    : Tells c (us ++ us') A P' s s2 where
  sound := h'.sound
  ext := h.ext.trans h'.ext
  notifies := h.notifies.trans hwf h'.notifies h.ext h'.ext
  others c' hne := (h.others c' hne).trans (h'.others c' hne) h'.ext.log
  told := by
    intro a ha
    cases List.mem_append.mp ha with
    | inl hmem => exact h'.ext.log.subset (h.told a hmem)
    | inr hmem => exact h'.told a hmem
  pending := by
    intro hsingle later hlater
    rw [List.append_assoc] at hlater
    exact h'.pending hsingle later (h.pending (hsingle.of_le h'.ext.log) _ hlater)

theorem one {u : Updatable} (hwf : WellFormed s)
    (hafter : After A P (s.record (.notified c u)) s1) (hran : Ran u s1)
    : Tells c [u] A P s s1 := by
  have hview : Notifies s (s.record (.notified c u)) :=
    Notifies.of_view hwf fun _ _ => rfl
  have hext : Extends s (s.record (.notified c u)) := Extends.record s rfl
  constructor
  . exact hafter.sound
  . exact hext.trans hafter.ext
  . exact hview.trans hwf hafter.notifies hext hafter.ext
  . intro c' hne
    have hsame : SamePending c' s.it (s.record (.notified c u)).it := by
      apply SamePending.record
      simp [Ev.concerns, Ne.symm hne]
    exact hsame.trans (hafter.pending c') hafter.ext.log
  . intro a ha
    rw [List.mem_singleton] at ha
    exact hran a ha.symm
  . intro hsingle later hlater
    exact hafter.pending c hsingle later hlater.tell

end Tells

theorem SamePending.of_tells {A : Updatable → Prop} {P : St V → Prop} {s s' : St V} {c : CellId}
    {o : Outcome V}
    (hc : (s.it.cells c).role ≠ .cell ∨ (s.it.cells c).hasValueOrError = false)
    (htells : Tells c (s.it.cells c).updatables A P (s.assign c o) s') (c' : CellId)
    : SamePending c' s.it s'.it := by
  by_cases heq : c' = c
  . subst heq
    intro hsingle pending hpending
    obtain ⟨hnone, hall⟩ := hpending.assign hc (hsingle.of_le htells.ext.log)
    rw [hnone]
    rw [← List.append_nil (s.it.cells c').updatables] at hall
    exact htells.pending hsingle [] hall
  . exact (SamePending.assign o heq).trans (htells.others c' heq) htells.ext.log

theorem After.assign {A : Updatable → Prop} {P : St V → Prop} {s s' : St V} {c : CellId}
    {o : Outcome V} (hwf : WellFormed s)
    (hext : Extends s (s.assign c o))
    (hc : (s.it.cells c).role ≠ .cell ∨ (s.it.cells c).hasValueOrError = false)
    (htells : Tells c (s.it.cells c).updatables A P (s.assign c o) s')
    : After A P s s' where
  sound := htells.sound
  ext := hext.trans htells.ext
  notifies := by
    intro c' a hempty hset hmem
    by_cases heq : c' = c
    . subst heq
      exact htells.told a hmem
    . have hother : (s.assign c o).it.cells c' = s.it.cells c' := by
        cases o <;> simp [St.assign, St.record, St.setCell, heq]
      rw [← hother] at hempty hmem
      exact htells.notifies c' a hempty hset hmem
  pending := SamePending.of_tells hc htells

namespace Runs

variable {env : Env V} {A : Updatable → Prop} {P : St V → Prop} {E : Fault → St V → Prop}
variable {s : St V} {Q : β → St V → Prop}

theorem pure {b : β} (h : Sound A P s) (hQ : Q b s) : Runs A P E s (pure b) Q :=
  ⟨After.refl h, rfl, hQ⟩

theorem fault {P' : St V → Prop} (hk : Keeps env A P E) (h : Sound A P s) {e : Fault}
    (he : e.isOrdinary = true)
    : Runs A P' E s (throw e) Q :=
  hk.fault s s e h he (Breaks.refl s)

theorem mono {x : M V β} {Q' : β → St V → Prop} (hx : Runs A P E s x Q)
    (hQ : ∀ b s', After A P s s' → Q b s' → Q' b s')
    : Runs A P E s x Q' := by
  apply wp_mono hx
  . rintro b s' ⟨hafter, hstack, hb⟩
    exact ⟨hafter, hstack, hQ b s' hafter hb⟩
  . intro e s' he
    exact he

theorem bind {x : M V α} {f : α → M V β} {P0 P' : St V → Prop} {Q' : α → St V → Prop}
    (h : Sound A P0 s) (hx : Runs A P E s x Q')
    (hf : ∀ a s', After A P s s' → s'.stack = s.stack → Q' a s' → Runs A P' E s' (f a) Q)
    : Runs A P' E s (x >>= f) Q := by
  unfold Runs
  rw [wp_bind]
  apply wp_mono hx
  . rintro a s1 ⟨hafter, hstack, ha⟩
    apply wp_mono (hf a s1 hafter hstack ha)
    . rintro b s2 ⟨hafter', hstack', hb⟩
      refine ⟨hafter.trans h.wellFormed hafter', ?_, hb⟩
      rw [hstack', hstack]
    . intro e s' he
      exact he
  . intro e s' he
    exact he

theorem weaken_inv {x : M V β} {P' : St V → Prop} (hx : Runs A P E s x Q)
    (hP : ∀ s', P s' → P' s')
    : Runs A P' E s x Q := by
  apply wp_mono hx
  . rintro b s' ⟨hafter, hstack, hb⟩
    refine ⟨⟨⟨hafter.sound.wellFormed, hafter.sound.fenced, ?_⟩, hafter.ext, hafter.notifies,
      hafter.pending⟩,
      hstack, hb⟩
    exact hP s' hafter.sound.inv
  . intro e s' he
    exact he

section Returns

variable {R : List Frame → St V → Prop}

theorem last (hr : Returns A P R) {x : M V β} (hx : Runs A P E s x Q) (stack : List Frame)
    : Runs A (R stack) E s x Q :=
  weaken_inv hx fun s' => hr.weaken s' stack

-- a call made by a frame with something left to do
theorem resume (hr : Returns A P R) {x : M V β} {f : Frame} {stack : List Frame}
    (hs : s.stack = f :: stack) (hf : f.finished = false) (hx : Runs A (R s.stack) E s x Q)
    : Runs A P E s x Q := by
  apply wp_mono hx
  . rintro b s' ⟨hafter, hstack, hb⟩
    refine ⟨⟨⟨hafter.sound.wellFormed, hafter.sound.fenced, ?_⟩, hafter.ext, hafter.notifies,
      hafter.pending⟩,
      hstack, hb⟩
    have hR := hafter.sound.inv
    rw [hs] at hR hstack
    exact hr.resume s' f stack hstack hR hf
  . intro e s' he
    exact he

end Returns

end Runs
end MsgRpc
