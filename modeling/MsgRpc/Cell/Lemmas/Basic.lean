import MsgRpc.Cell.Keeps

/-!
This module contains the proofs that the functions all cells are built from keep an invariant.
-/

namespace MsgRpc

open StateProg

section Wp

variable {E : Fault → St V → Prop} {s : St V}

@[simp]
theorem wp_alter {Q : Unit → St V → Prop} (f : St V → St V)
    : wp (alter f) Q E s ↔ Q () (f s) := Iff.rfl

@[simp]
theorem wp_assert {Q : Unit → St V → Prop} (b : Bool) (a : Assertion)
    : wp (assert b a) Q E s ↔ (b = true → Q () s) ∧ (b = false → E (.assertion a) s) := by
  cases b <;> simp [wp, assert]

@[simp]
theorem wp_cellAt {Q : Cell V → St V → Prop} (c : CellId)
    : wp (cellAt c) Q E s
        ↔
      ((s.it.cells c).alive = true → Q (s.it.cells c) s)
        ∧ ((s.it.cells c).alive = false → E .useAfterFree s) := by
  cases halive : (s.it.cells c).alive <;> simp [wp, cellAt, halive]

@[simp]
theorem wp_actionAt {Q : Action V → St V → Prop} (a : ActionId)
    : wp (actionAt a) Q E s
        ↔
      ((s.it.actions a).alive = true → Q (s.it.actions a) s)
        ∧ ((s.it.actions a).alive = false → E .useAfterFree s) := by
  cases halive : (s.it.actions a).alive <;> simp [wp, actionAt, halive]

@[simp]
theorem wp_newCell {Q : CellId → St V → Prop} (type : Ty) (kind : CellKind V)
    (status : RpcResult)
    : wp (newCell type kind status) Q E s
        ↔
      Q s.it.cellCount (s.addCell { type, kind, status }) := Iff.rfl

@[simp]
theorem wp_newAction {Q : ActionId → St V → Prop} (isFinalAction : Bool) (bind : Bind V)
    : wp (newAction isFinalAction bind) Q E s
        ↔
      Q s.it.actionCount (s.addAction { bind, isFinalAction }) := Iff.rfl

@[simp]
theorem wp_track {Q : Unit → St V → Prop} (u : Updatable)
    : wp (track u) Q E s
        ↔
      (s.it.ctxtAlive = true → Q () (s.track u))
        ∧ (s.it.ctxtAlive = false → E .useAfterFree s) := by
  cases hctxt : s.it.ctxtAlive <;> simp [wp, track, hctxt]

@[simp]
theorem wp_next {Q : RpcSequenceIdT → St V → Prop}
    : wp RpcSequenceId.next Q E s ↔ Q s.nextSeqId s.next := Iff.rfl

@[simp]
theorem wp_nextSendOutcome {Q : SendOutcome → St V → Prop}
    : wp nextSendOutcome Q E s ↔ Q (s.sh.net s.sh.sends) s.useNet := Iff.rfl

@[simp]
theorem wp_serviceResolver {Q : Unit → St V → Prop}
    : wp serviceResolver Q E s
        ↔
      (s.it.ctxtAlive = true → Q () s) ∧ (s.it.ctxtAlive = false → E .useAfterFree s) := by
  cases hctxt : s.it.ctxtAlive <;> simp [wp, serviceResolver, hctxt]

theorem wp_deleteCell {Q : Unit → St V → Prop} {c : CellId} (hkind : (s.it.cells c).kind = .cell)
    (hctxt : (s.it.cells c).hasContext = false)
    : wp (deleteCell c) Q E s
        ↔
      ((s.it.cells c).alive = true → Q () ((s.removeRspHandlerOf c).freeCell c))
        ∧ ((s.it.cells c).alive = false → E .useAfterFree s) := by
  unfold deleteCell timeoutCellDtor rspCellBaseDtor RspMsgHandler.removeRspHandler
    St.removeRspHandlerOf
  cases hid : (s.it.cells c).hasSeqId <;> simp [hkind, hctxt, hid, CellKind.hook]

end Wp

namespace Runs

variable {env : Env V} {A : Updatable → Prop} {P : St V → Prop} {E : Fault → St V → Prop}
variable {R : List Frame → St V → Prop}
variable {s : St V}

theorem cellAt (hk : Keeps env A P E) (h : Sound A P s) (c : CellId)
    : Runs A P E s (cellAt c)
        (fun o s' => s' = s ∧ o = s.it.cells c ∧ (s.it.cells c).alive = true) := by
  unfold Runs
  rw [wp_cellAt]
  refine ⟨?_, ?_⟩
  . intro halive
    exact ⟨After.refl h, rfl, rfl, rfl, halive⟩
  . intro
    exact hk.fault s s _ h rfl (Breaks.refl s)

theorem actionAt (hk : Keeps env A P E) (h : Sound A P s) (a : ActionId)
    : Runs A P E s (actionAt a)
        (fun o s' => s' = s ∧ o = s.it.actions a ∧ (s.it.actions a).alive = true) := by
  unfold Runs
  rw [wp_actionAt]
  refine ⟨?_, ?_⟩
  . intro halive
    exact ⟨After.refl h, rfl, rfl, rfl, halive⟩
  . intro
    exact hk.fault s s _ h rfl (Breaks.refl s)

theorem assert (hk : Keeps env A P E) (h : Sound A P s) (b : Bool) {a : Assertion}
    (ha : (Fault.assertion a).isOrdinary = true)
    : Runs A P E s (assert b a) (fun _ s' => s' = s ∧ b = true) := by
  unfold Runs
  rw [wp_assert]
  refine ⟨?_, ?_⟩
  . intro hb
    exact ⟨After.refl h, rfl, rfl, hb⟩
  . intro
    exact hk.fault s s _ h ha (Breaks.refl s)

theorem alter (hk : Keeps env A P E) (h : Sound A P s) {f : St V → St V}
    (heffect : Effect env A s (f s)) (hout : (f s).sh.out = s.sh.out)
    (hstack : (f s).stack = s.stack)
    : Runs A P E s (alter f) (fun _ s' => s' = f s) :=
  ⟨After.effect hk h heffect hout, hstack, rfl⟩

theorem output (hk : Keeps env A P E) (h : Sound A P s) {o : Out V}
    (heffect : Effect env A s (s.output o)) (hknows : Knows P s o)
    : Runs A P E s (MsgRpc.alter (St.output · o)) (fun _ s' => s' = s.output o) :=
  ⟨After.act hk h (.output heffect hknows), rfl, rfl⟩

theorem withFrame {Q Q' : β → St V → Prop} (hk : Keeps env A P E) (hr : Returns A P R)
    (h : Sound A P s) {f : Frame} {x : M V β} (hf : f.isConstruct = false)
    (hx : Sound A P (s.pushFrame f) → Runs A (R (f :: s.stack)) E (s.pushFrame f) x Q)
    (hQ : ∀ b s1, Q b s1 → Q' b s1.popFrame)
    : Runs A (R s.stack) E s (withFrame f x) Q' := by
  have hpush := After.effect hk h (.push f hf) rfl
  unfold Runs MsgRpc.withFrame
  simp only [wp_bind, wp_alter, wp_pure]
  apply wp_mono (hx hpush.sound)
  . rintro b s1 ⟨hafter, hstack, hb⟩
    have hstack1 : s1.stack = f :: s.stack := hstack
    have hwf1 := hafter.sound.wellFormed
    refine ⟨⟨⟨hwf1.popFrame, hafter.sound.fenced.popFrame, ?_⟩, ?_, ?_, ?_⟩, ?_, hQ b s1 hb⟩
    . exact hr.leave s1 f s.stack hafter.sound hf hstack1
    . exact (hpush.ext.trans hafter.ext).trans (Extends.popFrame s1)
    . exact (hpush.trans h.wellFormed hafter).notifies
    . exact (hpush.trans h.wellFormed hafter).pending
    . change s1.stack.tail = s.stack
      simp [hstack1]
  . intro e s1 he
    exact he

theorem withFrame_unfinished {Q Q' : β → St V → Prop} (hk : Keeps env A P E) (hr : Returns A P R)
    (h : Sound A P s) {f : Frame} {x : M V β} (hf : f.isConstruct = false)
    (hfinished : f.finished = false)
    (hx : Sound A P (s.pushFrame f) → Runs A (R (f :: s.stack)) E (s.pushFrame f) x Q)
    (hQ : ∀ b s1, Q b s1 → Q' b s1.popFrame)
    : Runs A P E s (MsgRpc.withFrame f x) Q' :=
  withFrame hk hk.returns h hf (fun hpush => resume hr rfl hfinished (hx hpush)) hQ

theorem construct (hk : Keeps env A P E) (h : Sound A P s) {s1 : St V} {u : Updatable}
    {x : M V Unit} (hnew : After A P s (s1.pushFrame (.construct u))) (hstack1 : s1.stack = s.stack)
    (hx : Runs A P E (s1.pushFrame (.construct u)) x (fun _ _ => True))
    : wp (construct u x)
        (fun _ s' =>
          After A P s s' ∧ Extends (s1.pushFrame (.construct u)) s' ∧ s'.stack = s.stack)
        E s1 := by
  unfold MsgRpc.construct MsgRpc.withFrame
  simp only [wp_bind, wp_alter, wp_pure, wp_track]
  apply wp_mono hx
  . rintro _ s2 ⟨hafter, hstack, _⟩
    have hstack2 : s2.stack = .construct u :: s.stack := by
      rw [hstack, ← hstack1]
      rfl
    refine ⟨?_, ?_⟩
    . intro hctxt
      have htrack := hafter.trans hnew.sound.wellFormed
        (After.effect hk hafter.sound (.track u s.stack hstack2 hctxt) rfl)
      refine ⟨hnew.trans h.wellFormed htrack, htrack.ext, ?_⟩
      change s2.stack.tail = s.stack
      simp [hstack2]
    . intro
      exact hk.fault s2 _ _ hafter.sound rfl ⟨rfl, rfl, rfl, rfl, Or.inl rfl⟩
  . intro e s' he
    exact he

theorem newCell (hk : Keeps env A P E) (h : Sound A P s) {type : Ty} {kind : CellKind V}
    (hkind : kind.hook = none) (hrole : kind.role ≠ .timeoutHook) {x : CellId → M V Unit}
    (hx : ∀ s1, After A P s s1 → s1.stack = .construct (.cell s.it.cellCount) :: s.stack
      → s1.it.cells s.it.cellCount = { type, kind } → s1.it.cellCount = s.it.cellCount + 1
      → Runs A P E s1 (x s.it.cellCount) (fun _ _ => True))
    : Runs A P E s
        (do let c ← newCell type kind; MsgRpc.construct (.cell c) (x c); return c)
        (fun c s' => c = s.it.cellCount ∧ c < s'.it.cellCount) := by
  have hnew := After.effect hk h (.newCell type kind hkind hrole) rfl
  unfold Runs
  simp only [wp_bind, wp_newCell, wp_pure]
  have hcell : (s.addCell { type, kind }).it.cells s.it.cellCount = { type, kind } := by
    simp [St.addCell]
  apply wp_mono (construct hk h hnew rfl (hx _ hnew rfl hcell rfl))
  . rintro _ s2 ⟨hafter, hext, hstack⟩
    have hcount := hext.cellCount
    simp only [St.addCell, St.pushFrame] at hcount
    exact ⟨hafter, hstack, trivial, hcount⟩
  . intro e s' he
    exact he

theorem newAction (hk : Keeps env A P E) (h : Sound A P s) {bind : Bind V}
    (hreply : bind.isReply = false)
    (htarget : ∀ t, bind.target = some t
      → A (.cell t) ∧ (s.it.cells t).role = bind.targetRole ∧ t < s.it.cellCount)
    {x : ActionId → M V Unit}
    (hx : ∀ s1, After A P s s1 → s1.stack = .construct (.action s.it.actionCount) :: s.stack
      → Runs A P E s1 (x s.it.actionCount) (fun _ _ => True))
    : Runs A P E s
        (do let a ← newAction false bind; MsgRpc.construct (.action a) (x a); return a)
        (fun _ _ => True) := by
  have hnew := After.effect hk h (.newAction bind hreply htarget) rfl
  unfold Runs
  simp only [wp_bind, wp_newAction, wp_pure]
  apply wp_mono (construct hk h hnew rfl (hx _ hnew rfl))
  . rintro _ s2 ⟨hafter, _, hstack⟩
    exact ⟨hafter, hstack, trivial⟩
  . intro e s' he
    exact he

section Notify

variable {upd : Updatable → M V Unit}

/--
The listeners in `us` are told in turn, those of `c` that come before them have been told and those
that have come later stand behind them.
-/
theorem evaluateAllDerivedCells_go (hk : Keeps env A P E) (hupd : Updates A P R E upd)
    {c : CellId} (hc : A (.cell c)) {size : Nat} (us told : List Updatable) {s : St V}
    (h : Sound A P s) (hsize : size = told.length + us.length)
    (hus : told ++ us <+: (s.it.cells c).updatables)
    : wp (evaluateAllDerivedCells.go upd c size us.length)
        (fun _ s' => Tells c us A (R s.stack) s s' ∧ s'.stack = s.stack) E s := by
  induction us generalizing told s with
  | nil =>
    unfold evaluateAllDerivedCells.go
    have hlast : Runs A (R s.stack) E s (Pure.pure () : M V Unit) (fun _ s' => s' = s) := by
      apply last hupd.returns
      exact pure h rfl
    exact ⟨Tells.nil c hlast.1, rfl⟩
  | cons u us ih =>
    unfold evaluateAllDerivedCells.go
    simp only [List.length_cons, wp_bind, wp_cellAt]
    refine ⟨?_, fun _ => hk.fault s s _ h rfl (Breaks.refl s)⟩
    intro halive
    have hlt := h.wellFormed.lt_of_alive halive
    have hindex : size - (us.length + 1) = told.length := by
      rw [hsize, List.length_cons]
      omega
    have hget : (s.it.cells c).updatables[size - (us.length + 1)]? = some u := by
      obtain ⟨later, hlater⟩ := hus
      rw [← hlater, hindex, List.append_assoc, List.getElem?_append_right (Nat.le_refl _)]
      simp
    have hmem := List.mem_of_getElem? hget
    have hA := h.fenced.updatables c hc u hmem
    rw [hget]
    simp only [wp_bind, wp_alter]
    have h1 : Sound A P (s.record (.notified c u)) :=
      ⟨h.wellFormed.record _, h.fenced.record _, hk.notify s c u h halive hmem hA⟩
    have hdue : Due ((s.record (.notified c u)).pushFrame (.loop c us.length)) u := by
      exists c
      simp [St.pushFrame, St.record]
    cases us with
    | nil =>
      -- the last iteration, nothing is read behind it
      have hframe : Runs A (R s.stack) E (s.record (.notified c u))
          (MsgRpc.withFrame (.loop c 0) (upd u)) (fun _ s2 => Ran u s2) := by
        apply withFrame hk hupd.returns h1 rfl
        . intro hpush
          exact hupd.run u _ hpush hA hdue
        . intro _ _ hran
          exact hran
      apply wp_mono hframe
      . rintro _ s2 ⟨hafter2, hstack2, hran⟩
        unfold evaluateAllDerivedCells.go
        exact ⟨Tells.one h.wellFormed hafter2 hran, hstack2⟩
      . intro e s2 he
        exact he
    | cons u' us =>
      have hframe : Runs A P E (s.record (.notified c u))
          (MsgRpc.withFrame (.loop c (us.length + 1)) (upd u)) (fun _ s2 => Ran u s2) := by
        apply withFrame_unfinished hk hupd.returns h1 rfl (by simp [Frame.finished])
        . intro hpush
          exact hupd.run u _ hpush hA hdue
        . intro _ _ hran
          exact hran
      apply wp_mono hframe
      . rintro _ s2 ⟨hafter2, hstack2, hran⟩
        have htells := Tells.one h.wellFormed hafter2 hran
        have hus2 : told ++ [u] ++ (u' :: us) <+: (s2.it.cells c).updatables := by
          rw [List.append_assoc]
          exact hus.trans (htells.ext.updatables c hlt)
        have hsize2 : size = (told ++ [u]).length + (u' :: us).length := by
          simp only [List.length_append, List.length_cons, List.length_nil] at hsize ⊢
          omega
        have hrest := ih (told ++ [u]) hafter2.sound hsize2 hus2
        rw [hstack2] at hrest
        apply wp_mono hrest
        . rintro _ s3 ⟨htells3, hstack3⟩
          exact ⟨htells.append h.wellFormed htells3, hstack3⟩
        . intro e s3 he
          exact he
      . intro e s2 he
        exact he

theorem evaluateAllDerivedCells (hk : Keeps env A P E) (hupd : Updates A P R E upd) {c : CellId}
    (hc : A (.cell c)) (h : Sound A P s)
    : wp (evaluateAllDerivedCells upd c)
        (fun _ s' => Tells c (s.it.cells c).updatables A (R s.stack) s s' ∧ s'.stack = s.stack) E
        s := by
  unfold MsgRpc.evaluateAllDerivedCells
  simp only [wp_bind, wp_cellAt]
  refine ⟨?_, fun _ => hk.fault s s _ h rfl (Breaks.refl s)⟩
  intro _
  exact evaluateAllDerivedCells_go hk hupd hc _ [] h (by simp) (List.prefix_refl _)

theorem assign (hk : Keeps env A P E) (hupd : Updates A P R E upd) {c : CellId}
    (hc : A (.cell c)) (h : Sound A P s) (hrole : (s.it.cells c).role ≠ .cell) (o : Outcome V)
    : Runs A (R s.stack) E s
        (do let _ ← MsgRpc.cellAt c; MsgRpc.alter (St.assign · c o)
            MsgRpc.evaluateAllDerivedCells upd c)
        (fun _ _ => True) := by
  unfold Runs
  simp only [wp_bind, wp_alter, wp_cellAt]
  refine ⟨?_, ?_⟩
  . intro halive
    have hlt := h.wellFormed.lt_of_alive halive
    have hsound : Sound A P (s.assign c o) :=
      ⟨h.wellFormed.assign o hlt, h.fenced.assign c o, hk.assign s c o h halive hc hrole⟩
    have hstack : (s.assign c o).stack = s.stack := by
      cases o <;> rfl
    have hupdatables : ((s.assign c o).it.cells c).updatables = (s.it.cells c).updatables := by
      cases o <;> simp [St.assign, St.record, St.setCell]
    have htell := evaluateAllDerivedCells hk hupd hc hsound
    rw [hstack, hupdatables] at htell
    apply wp_mono htell
    . rintro _ s' ⟨htells, hstack'⟩
      exact ⟨After.assign h.wellFormed (Extends.assign o hrole) (Or.inl hrole) htells, hstack',
        trivial⟩
    . intro e s' he
      exact he
  . intro
    exact hk.fault s s _ h rfl (Breaks.refl s)

theorem setFailedReason (hk : Keeps env A P E) (hupd : Updates A P R E upd) {c : CellId}
    (hc : A (.cell c)) (h : Sound A P s) (hrole : (s.it.cells c).role ≠ .cell) (ret : RpcResult)
    : Runs A (R s.stack) E s (setFailedReason upd c ret) (fun _ _ => True) :=
  assign hk hupd hc h hrole (.error ret)

theorem setValue (hk : Keeps env A P E) (hupd : Updates A P R E upd) {c : CellId}
    (hc : A (.cell c)) (h : Sound A P s) (hrole : (s.it.cells c).role ≠ .cell) (v : V)
    : Runs A (R s.stack) E s (setValue upd c v) (fun _ _ => True) :=
  assign hk hupd hc h hrole (.value v)

theorem setOutcome (hk : Keeps env A P E) (hupd : Updates A P R E upd) {c : CellId}
    (hc : A (.cell c)) (h : Sound A P s) (hrole : (s.it.cells c).role ≠ .cell) (o : Outcome V)
    : Runs A (R s.stack) E s (setOutcome upd c o) (fun _ _ => True) := by
  cases o with
  | value v => exact setValue hk hupd hc h hrole v
  | error reason => exact setFailedReason hk hupd hc h hrole reason

theorem setCellValue (hk : Keeps env A P E) (hupd : Updates A P R E upd) {c : CellId}
    (hc : A (.cell c)) (h : Sound A P s) (hrole : (s.it.cells c).role ≠ .cell) (rhs : CellId)
    : Runs A (R s.stack) E s (setCellValue upd c rhs) (fun _ _ => True) := by
  unfold MsgRpc.setCellValue
  apply bind h (cellAt hk h rhs)
  rintro r s' _ _ ⟨hs, _, _⟩
  subst hs
  split
  . exact setFailedReason hk hupd hc h hrole _
  . split
    . exact setValue hk hupd hc h hrole _
    . exact fault hk h rfl

theorem registerListener (hk : Keeps env A P E) (hupd : Updates A P R E upd) (c : CellId)
    {u : Updatable} (hu : A u) (h : Sound A P s) {stack : List Frame}
    (hs : s.stack = .construct u :: stack)
    : Runs A P E s (registerListener upd c u) (fun _ _ => True) := by
  unfold MsgRpc.registerListener
  apply bind h (cellAt hk h c)
  rintro o s' _ _ ⟨hs', ho, halive⟩
  subst hs' ho
  unfold Runs
  simp only [wp_bind, wp_alter]
  cases hset : (s'.it.cells c).hasValueOrError with
  | true =>
    have hafter := After.effect hk h (.notifyNew c u stack hs halive hset hu) rfl
    simp only [wp_bind, wp_alter, ↓reduceIte]
    have hdue : Due ((s'.record (.registered c u)).record (.notified c u)) u := by
      exists c
      simp [St.record]
    have hs1 : ((s'.record (.registered c u)).record (.notified c u)).stack
        = .construct u :: stack := hs
    apply wp_mono (resume hupd.returns hs1 rfl (hupd.run u _ hafter.sound hu hdue))
    . rintro _ s1 ⟨hafter1, hstack1, _⟩
      exact ⟨hafter.trans h.wellFormed hafter1, hstack1, trivial⟩
    . intro e s1 he
      exact he
  | false =>
    exact ⟨After.effect hk h (.subscribe c u stack hs halive hset hu) rfl, rfl, trivial⟩

theorem registerAsListener (hk : Keeps env A P E) (hupd : Updates A P R E upd) {u : Updatable}
    (hu : A u) (args : List CellId) (h : Sound A P s) {stack : List Frame}
    (hs : s.stack = .construct u :: stack)
    : Runs A P E s (registerAsListener upd u args) (fun _ _ => True) := by
  induction args generalizing s with
  | nil =>
    unfold MsgRpc.registerAsListener
    exact pure h trivial
  | cons c args ih =>
    unfold MsgRpc.registerAsListener
    apply bind h (registerListener hk hupd c hu h hs)
    intro _ s1 hafter hstack _
    apply ih hafter.sound
    rw [hstack, hs]

theorem deriveAction (hk : Keeps env A P E) (hupd : Updates A P R E upd) {bind : Bind V}
    (hreply : bind.isReply = false)
    (htarget : ∀ t, bind.target = some t
      → A (.cell t) ∧ (s.it.cells t).role = bind.targetRole ∧ t < s.it.cellCount)
    (args : List CellId) (h : Sound A P s)
    : Runs A P E s (deriveAction upd bind args) (fun _ _ => True) := by
  apply newAction hk h hreply htarget
  intro s1 hafter hstack
  apply registerAsListener hk hupd _ args hafter.sound hstack
  apply h.fenced.newAction
  exact Nat.le_refl _

end Notify

theorem failedCellWithReason (hk : Keeps env A P E) (h : Sound A P s) (type : Ty)
    (reason : RpcResult)
    : Runs A P E s (failedCellWithReason type reason)
        (fun c s' => c = s.it.cellCount ∧ c < s'.it.cellCount) := by
  unfold Runs MsgRpc.failedCellWithReason
  simp only [wp_bind, wp_newCell, wp_track, wp_pure]
  refine ⟨?_, ?_⟩
  . intro hctxt
    exact ⟨After.effect hk h (.failedCell type reason hctxt) rfl, rfl, trivial, Nat.lt_succ_self _⟩
  . intro
    exact hk.fault s _ _ h rfl ⟨rfl, rfl, rfl, rfl, Or.inl rfl⟩

section Stub

/--
`c` is as `encodeRequestAndSend` has allocated it, maybe it has got an id.
-/
structure Pending (s : St V) (c : CellId) : Prop where
  lt : c < s.it.cellCount
  alive : (s.it.cells c).alive = true
  kind : (s.it.cells c).kind = .cell
  hasContext : (s.it.cells c).hasContext = false

theorem Pending.congr {s s' : St V} {c : CellId} (h : Pending s c) (hit : s'.it = s.it)
    : Pending s' c := by
  constructor
  . rw [hit]
    exact h.lt
  . rw [hit]
    exact h.alive
  . rw [hit]
    exact h.kind
  . rw [hit]
    exact h.hasContext

theorem registerRspHandler {Q : β → St V → Prop} (hk : Keeps env A P E) (h : Sound A P s)
    {c : CellId} {stack : List Frame} (hs : s.stack = .construct (.cell c) :: stack)
    (hA : A (.cell c)) (hnew : s.it.cells c = { type := (s.it.cells c).type, kind := .cell })
    (hc : c < s.it.cellCount) {f : RpcSequenceIdT → M V β}
    (hf : After A P s (s.register c) → Runs A P E (s.register c) (f s.nextSeqId) Q)
    : Runs A P E s
        (do let seqId ← RpcSequenceId.next; RspMsgHandler.registerRspHandler seqId c; f seqId)
        Q := by
  unfold Runs RspMsgHandler.registerRspHandler
  simp only [wp_bind, wp_next, wp_get, wp_assert, wp_alter, wp_cellAt]
  refine ⟨?_, ?_⟩
  . intro hunique
    have hnone : s.sh.idFuncMap s.nextSeqId = none := by
      simpa [St.next] using hunique
    have halive : (s.it.cells c).alive = true := by rw [hnew]
    have hafter := After.effect hk h (.register c stack hs hA hnew hc hnone) rfl
    refine ⟨?_, ?_⟩
    . intro _
      apply wp_mono (hf hafter)
      . rintro b s1 ⟨hafter1, hstack1, hb⟩
        exact ⟨hafter.trans h.wellFormed hafter1, hstack1, hb⟩
      . intro e s1 he
        exact he
    . intro hdead
      simp [St.next, St.setRspHandler, halive] at hdead
  . intro hunique
    apply hk.unique s h
    intro hnone
    simp [St.next, hnone] at hunique

theorem serviceResolver (hk : Keeps env A P E) (h : Sound A P s)
    : Runs A P E s serviceResolver (fun _ s' => s' = s) := by
  unfold Runs
  rw [wp_serviceResolver]
  refine ⟨?_, ?_⟩
  . intro
    exact ⟨After.refl h, rfl, rfl⟩
  . intro
    exact hk.fault s s _ h rfl (Breaks.refl s)

theorem sendRpcRequestBuf (hk : Keeps env A P E) (h : Sound A P s) {c : CellId}
    {stack : List Frame} {call : StubCall V} {pbuf : Bytes}
    (hpbuf : ThriftEncoder.encode (env.codec call.reqType) call.req = some pbuf)
    (hs : s.stack = .construct (.cell c) :: stack) (hA : A (.cell c))
    (hnew : s.it.cells c = { type := call.rspType, kind := .cell }) (hc : c < s.it.cellCount)
    : Runs A P E s (sendRpcRequestBuf call pbuf c) (fun _ s' => Pending s' c) := by
  have hnew' : s.it.cells c = { type := (s.it.cells c).type, kind := .cell } := by
    rw [hnew]
  have hcell : (s.useNet.register c).it.cells c
      = { type := call.rspType, kind := .cell, hasSeqId := true, seqId := s.useNet.nextSeqId } := by
    simp [St.register, St.setSeqId, St.setCell, St.setRspHandler, St.next, St.useNet, hnew]
  have hpending : Pending s c := by
    constructor <;> simp [hc, hnew]
  have hregistered : Pending (s.useNet.register c) c := by
    constructor
    case lt => exact hc
    all_goals rw [hcell]
  unfold MsgRpc.sendRpcRequestBuf
  have hnet : Runs A P E s nextSendOutcome (fun _ s' => s' = s.useNet) :=
    ⟨After.effect hk h .useNet rfl, rfl, rfl⟩
  apply bind h hnet
  intro net s1 hafter1 _ hs1
  subst hs1
  split
  . apply registerRspHandler hk hafter1.sound hs hA hnew' hc
    intro hafter2
    apply bind hafter2.sound (serviceResolver hk hafter2.sound)
    intro _ s3 _ _ hs3
    subst hs3
    split
    . next serviceId _ =>
      split
      . have hsent : Effect env A (s.useNet.register c) ((s.useNet.register c).output
            (.request serviceId
              ((reqHeader call ((s.useNet.register c).it.cells c).seqId).toBytes ++ pbuf)
              (s.useNet.register c).own c call)) :=
          .request c serviceId call pbuf stack hs (by rw [hcell]) hregistered.lt hpbuf
        rw [hcell] at hsent
        have hknows : Knows P (s.useNet.register c) (.request serviceId
            ((reqHeader call s.useNet.nextSeqId).toBytes ++ pbuf) (s.useNet.register c).own c
            call) := by
          have hvalid : ((s.useNet.register c).it.cells c).seqId ≠ kInvalidRpcSequenceId := by
            rw [hcell]
            exact RpcSequenceId.get_valid _
          exact .request serviceId _ c call s h.inv rfl rfl hnew hvalid
        exact ⟨After.act hk hafter2.sound (.output hsent hknows), rfl, hregistered.congr rfl⟩
      . exact pure hafter2.sound hregistered
    . exact pure hafter2.sound hregistered
  . exact pure hafter1.sound (hpending.congr rfl)

theorem encodeRequestAndSend (hk : Keeps env A P E) (h : Sound A P s) (call : StubCall V)
    : Runs A P E s (encodeRequestAndSend env call)
        (fun c s' => s.it.cellCount ≤ c ∧ c < s'.it.cellCount) := by
  unfold MsgRpc.encodeRequestAndSend
  split
  . next pbuf hpbuf =>
    have hA := h.fenced.newCell _ (Nat.le_refl _)
    have hnew := After.effect hk h (.newCell call.rspType .cell rfl (by simp [CellKind.role]))
      rfl
    have hcell : (s.addCell { type := call.rspType, kind := .cell }).it.cells s.it.cellCount
        = { type := call.rspType, kind := .cell } := by
      simp [St.addCell]
    unfold Runs MsgRpc.withFrame
    simp only [wp_bind, wp_newCell, wp_alter, wp_pure]
    apply wp_mono (sendRpcRequestBuf hk hnew.sound hpbuf rfl hA hcell (Nat.lt_succ_self _))
    . rintro sent s1 ⟨hafter, hstack, hpending⟩
      have hstack1 : s1.stack = .construct (.cell s.it.cellCount) :: s.stack := hstack
      have hafter1 := hnew.trans h.wellFormed hafter
      cases sent with
      | true =>
        simp only [↓reduceIte, wp_bind, wp_track, wp_pure]
        refine ⟨?_, ?_⟩
        . intro hctxt
          have htrack := After.effect hk hafter1.sound (.track _ s.stack hstack1 hctxt) rfl
          refine ⟨hafter1.trans h.wellFormed htrack, ?_, Nat.le_refl _, hpending.lt⟩
          change s1.stack.tail = s.stack
          simp [hstack1]
        . intro
          exact hk.fault s1 _ _ hafter1.sound rfl ⟨rfl, rfl, rfl, rfl, Or.inl rfl⟩
      | false =>
        have hdrop := After.effect hk hafter1.sound
          (.drop _ s.stack hstack1 hA hpending.alive hpending.lt
            (by rw [Cell.role, hpending.kind]; rfl) hpending.hasContext)
          (by unfold St.removeRspHandlerOf; split <;> rfl)
        have hafter2 := hafter1.trans h.wellFormed hdrop
        simp only [Bool.false_eq_true, ↓reduceIte, wp_bind]
        have hpop : Pending s1.popFrame s.it.cellCount := hpending.congr rfl
        rw [wp_deleteCell hpop.kind hpop.hasContext]
        refine ⟨?_, ?_⟩
        . intro _
          apply wp_mono (failedCellWithReason hk hdrop.sound call.rspType .failed)
          . rintro c s2 ⟨hafter3, hstack3, hc, hlt⟩
            refine ⟨hafter2.trans h.wellFormed hafter3, ?_, ?_, hlt⟩
            . have hstack2 : ((s1.popFrame.removeRspHandlerOf s.it.cellCount).freeCell
                  s.it.cellCount).stack = s1.stack.tail := by
                unfold St.removeRspHandlerOf
                split <;> rfl
              rw [hstack3, hstack2, hstack1]
              rfl
            . rw [hc]
              exact hafter2.ext.cellCount
          . intro e s2 he
            exact he
        . intro hdead
          simp [hpop.alive] at hdead
    . intro e s1 he
      exact he
  . apply mono (failedCellWithReason hk h call.rspType .failed)
    rintro c s1 _ ⟨hc, hlt⟩
    refine ⟨?_, hlt⟩
    exact Nat.le_of_eq hc.symm

end Stub

end Runs
end MsgRpc
