import MsgRpc.Msg.Lemmas.Handlers
import MsgRpc.Msg.Lemmas.Tidy

/-!
This module contains the proof that an interaction passes through its stages in order: a final
action that waits for its cell runs once and releases the interaction.
-/

namespace MsgRpc

open StateProg

theorem Late.of_history {s s' : St V} (h : Late s) (hhistory : s'.it.history = s.it.history)
    : Late s' := by
  obtain ⟨a, c, bind, hist, hhist, howes⟩ := h
  exact ⟨a, c, bind, hist, by rw [hhistory, hhist], howes⟩

-- an interaction is closed once
theorem closed_of_history {s : St V} {h : List (Ev V)} {bind : Bind V} {a a' : ActionId}
    {c c' : CellId} {isEmpty isEmpty' : Bool} (hhist : s.it.history = h ++ [.closed a c isEmpty])
    (howes : Owes bind c isEmpty h) (hmem : .closed a' c' isEmpty' ∈ s.it.log)
    : a' = a ∧ c' = c ∧ isEmpty' = isEmpty := by
  rw [← Interaction.mem_history rfl, hhist, List.mem_append] at hmem
  cases hmem with
  | inl hold => exact absurd hold (howes.not_closed a' c' isEmpty')
  | inr heq => simpa using heq

namespace Cut

variable {env : Env V} {s s' : St V} {a : ActionId} {c : CellId}

theorem congr (h : Cut s.it) (hlog : s'.it.log = s.it.log)
    (hlist : s'.it.releaseList = s.it.releaseList)
    : Cut s'.it := by
  intro a c hclosed
  rw [hlog] at hclosed ⊢
  obtain ⟨hran, hfinalized⟩ := h a c hclosed
  refine ⟨hran, ?_⟩
  intro stack hreleased
  have hold := hfinalized stack hreleased
  exact ⟨by rw [hlog, hold.ran], by rw [hlog, hlist]; exact hold.released,
    by rw [hlog]; exact hold.cell, by rw [hlog]; exact hold.action, by rw [hlog]; exact hold.context⟩

theorem discards (h : Cut s.it) (hdiscards : Discards s s') (hledger : Ledger s') : Cut s'.it := by
  obtain ⟨frees, hlog⟩ := hdiscards.frees
  have hold : ∀ e : Ev V, e.isFreed = false → e ∈ s'.it.log → e ∈ s.it.log := by
    intro e he hmem
    rw [hlog.log, List.mem_append] at hmem
    cases hmem with
    | inl hmem => exact hmem
    | inr hmem => simp [hlog.isFreed e hmem] at he
  have hcount : ∀ a, s'.it.log.countP (Ev.runs a) = s.it.log.countP (Ev.runs a) := by
    intro a
    have hnone : frees.countP (Ev.runs a) = 0 := by
      rw [List.countP_eq_zero]
      intro e he
      have hfreed := hlog.isFreed e he
      cases e <;> simp [Ev.isFreed] at hfreed <;> simp [Ev.runs]
    rw [hlog.log, List.countP_append, hnone, Nat.add_zero]
  intro a c hclosed
  obtain ⟨hran, hfinalized⟩ := h a c (hold _ rfl hclosed)
  refine ⟨by rw [hcount]; exact hran, ?_⟩
  intro stack hreleased
  have hdone := hfinalized stack (hold _ rfl hreleased)
  obtain ⟨pre, frees', stack', post, hlog', hfrees', hfreed, hcontext, hlist⟩ := hdone.released
  refine ⟨by rw [hcount, hdone.ran], ⟨pre, frees', stack', post ++ frees, ?_, hfrees', hfreed,
    hcontext, ?_⟩, hledger.freesCell_le, hledger.freesAction_le, hledger.freesContext_le⟩
  . rw [hlog.log, hlog']
    simp
  . rw [hdiscards.releaseList]
    exact hlist

end Cut

theorem Waiting.cut {ran : Nat} {rs : List (ServiceId × Bytes)} {a : ActionId} {c : CellId}
    {s : St V} (h : Waiting ran rs a c s) (hran : ran ≤ 1)
    : Cut s.it := by
  intro a' c' hclosed
  obtain ⟨hist, hhist, howes⟩ := h.closes.history
  obtain ⟨ha, _, _⟩ := closed_of_history hhist howes hclosed
  rw [ha, h.ran]
  refine ⟨hran, ?_⟩
  intro stack hreleased
  exact absurd hreleased (h.unreleased stack)

-- an interaction that has a final action does not get another one
theorem Breaks.log_of_final {s s' : St V} {a : ActionId} (h : Breaks s s')
    (hfinal : (s.it.actions a).isFinalAction = true)
    : s'.it.log = s.it.log := by
  cases h.log with
  | inl hsame => exact hsame
  | inr hclosing =>
    obtain ⟨⟨hist, hopen⟩, _⟩ := hclosing
    simp [hopen.isFinalAction a] at hfinal

namespace Late

variable {env : Env V} {A : Updatable → Prop} {s s' : St V}

theorem cut (h : Late s) : Cut s.it := by
  obtain ⟨a, c, bind, hist, hhist, howes⟩ := h
  intro a' c' hclosed
  simpa using (closed_of_history hhist howes hclosed).2.2

theorem breaks (h : Late s) (hbreaks : Breaks s s') : Cut s'.it := by
  cases hbreaks.log with
  | inl hsame => exact h.cut.congr hsame hbreaks.releaseList
  | inr hclosing =>
    obtain ⟨⟨hist, hopen⟩, _⟩ := hclosing
    obtain ⟨a, c, bind, hist', hhist, _⟩ := h
    have hmem : .closed a c false ∈ hist := by
      rw [← hopen.history, hhist]
      simp
    exact absurd hmem (hopen.unclosed a c false)

theorem discards (h : Late s) (hdiscards : Discards s s') : Cut s'.it := by
  apply Late.cut
  apply h.of_history
  obtain ⟨frees, hlog⟩ := hdiscards.frees
  unfold Interaction.history
  have hnone : frees.filter Ev.isHandler = [] := by
    rw [List.filter_eq_nil_iff]
    intro e he
    have hfreed := hlog.isFreed e he
    cases e <;> simp [Ev.isFreed] at hfreed <;> simp [Ev.isHandler]
  rw [hlog.log, List.filter_append, hnone, List.append_nil]

theorem keeps (env : Env V) (A : Updatable → Prop) : Keeps env A Late (fun _ s => Cut s.it) where
  effect s s' h hact := h.inv.of_history (Extends.effect h.wellFormed hact.effect).history
  assign s c o h _ _ hrole := h.inv.of_history (Extends.assign o hrole).history
  notify s c u h _ _ _ := h.inv.of_history (Extends.record s rfl).history
  fault _ _ _ h _ hbreaks := h.inv.breaks hbreaks
  unique _ h _ := h.inv.cut.congr rfl rfl

theorem keepsRelease (env : Env V) (A : Updatable → Prop)
    : KeepsRelease env A Late (fun _ => Late) where
  ranAction s a h _ _ := h.inv.of_history (Extends.record s rfl).history
  finished s a h _ _ := h.inv.of_history (Extends.record s rfl).history
  response s a senderId rspHeader c v buf h _ _ _ _ := h.inv.of_history rfl
  release s s' a h _ _ hfrees := by
    apply h.inv.of_history
    rw [(Extends.release s').history, (Extends.frees hfrees).history]

theorem keepsFinal (env : Env V) (A : Updatable → Prop)
    : KeepsFinal env A Late (fun _ => Late) (fun _ s => Cut s.it) := by
  apply (keepsRelease env A).keepsFinal (keeps env A)
  intro s s' e h hdouble
  exact h.inv.discards hdouble.discards

end Late

/--
The final action runs its body: nothing the body does is heard of by final actions.
-/
structure Running (a : ActionId) (c : CellId) (s : St V) : Prop where
  tidy : Tidy s
  waiting : Waiting 1 [] a c s

namespace Running

variable {env : Env V} {a : ActionId} {c : CellId}

-- what is yet to be allocated
def New (s0 : St V) (u : Updatable) : Prop :=
  match u with
  | .cell c => s0.it.cellCount ≤ c
  | .action a => s0.it.actionCount ≤ a

theorem fenced {s : St V} (h : WellFormed s) : Fenced (New s) s where
  newCell c hc := hc
  newAction a ha := ha
  updatables c hc u hu := by
    rw [h.cellFresh c hc] at hu
    simp [Cell.unallocated] at hu
  target a t ha ht := by
    rw [h.actionFresh a ha] at ht
    simp [Action.unallocated, Bind.target] at ht
  hook c t hc ht := by
    rw [h.cellFresh c hc] at ht
    simp [Cell.unallocated, CellKind.hook] at ht

theorem keeps (env : Env V) (A : Updatable → Prop) (a : ActionId) (c : CellId)
    : Keeps env A (Running a c) (fun _ s => Cut s.it) where
  effect s s' h hact :=
    ⟨h.inv.tidy.effect h.wellFormed hact.effect,
      h.inv.waiting.spares h.wellFormed (Spares.effect h.wellFormed hact.effect)⟩
  assign s c' o h halive _ _ :=
    ⟨h.inv.tidy.assign h.wellFormed c' o,
      h.inv.waiting.spares h.wellFormed (Spares.assign halive o)⟩
  notify s c' u h _ _ _ :=
    ⟨h.inv.tidy.record rfl (by simp),
      h.inv.waiting.spares h.wellFormed (Spares.record s rfl (by simp) fun _ _ => rfl)⟩
  fault _ _ _ h _ hbreaks :=
    (h.inv.waiting.cut (Nat.le_refl _)).congr
      (hbreaks.log_of_final h.inv.waiting.closes.isFinalAction) hbreaks.releaseList
  unique _ h _ := (h.inv.waiting.cut (Nat.le_refl _)).congr rfl rfl

theorem updates (env : Env V) {s0 : St V} (ha : a < s0.it.actionCount) (n : Nat)
    : Updates (New s0) (Running a c) (fun _ => Running a c) (fun _ s => Cut s.it) (update env n) := by
  have hk := keeps env (New s0) a c
  apply hk.update hk.returns
  intro n a' s h ha' _ _ hfinal _
  have heq := h.inv.waiting.closes.only a' hfinal
  rw [heq] at ha'
  simp only [New] at ha'
  lia

-- after the body, before the release
def Ended (env : Env V) (a : ActionId) (c : CellId) (s : St V) : Prop :=
  Tidy s ∧ Waiting 1 (replyOf env (s.it.cells c) (s.it.actions a).bind) a c s

theorem user {s : St V} (h : Sound (fun _ => True) (Running a c) s) {f : Prog V}
    (hbind : (s.it.actions a).bind = .user f) (n : Nat)
    : Runs (fun _ => True) (Ended env a c) (fun _ s => Cut s.it) s
        (withFrame (.finalAction a) (callBind env (update env n) (.user f))) (fun _ _ => True) := by
  have ha := h.wellFormed.lt_of_final h.inv.waiting.closes.isFinalAction
  have hk := keeps env (New s) a c
  have hupd : Updates (New s) (Running a c) (fun _ => Running a c) (fun _ s => Cut s.it)
      (update env n) := updates env ha n
  have hnew : Sound (New s) (Running a c) s := ⟨h.wellFormed, fenced h.wellFormed, h.inv⟩
  have hrun : Runs (New s) (Running a c) (fun _ s => Cut s.it) s
      (withFrame (.finalAction a) (callBind env (update env n) (.user f))) (fun _ _ => True) := by
    apply Runs.withFrame_unfinished hk hk.returns hnew rfl rfl
    . intro hpush
      apply Runs.callBind hk hupd hpush rfl
      simp [Bind.target]
    . intros
      trivial
  apply wp_mono hrun
  . rintro _ s' ⟨hafter, hstack, _⟩
    have hbind' : (s'.it.actions a).bind = .user f := by
      rw [hafter.ext.bind a ha, hbind]
    refine ⟨⟨⟨hafter.sound.wellFormed, Fenced.all, hafter.sound.inv.tidy, ?_⟩, hafter.ext,
      hafter.notifies, hafter.pending⟩, hstack, trivial⟩
    rw [hbind']
    exact hafter.sound.inv.waiting
  . intro e s' he
    exact he

theorem reply {s : St V} (h : Sound (fun _ => True) (Running a c) s) {senderId : ServiceId}
    {rspHeader : RspMsgHeader} (hbind : (s.it.actions a).bind = .reply senderId rspHeader c)
    (upd : Updatable → M V Unit)
    : Runs (fun _ => True) (Ended env a c) (fun _ s => Cut s.it) s
        (withFrame (.finalAction a) (callBind env upd (.reply senderId rspHeader c)))
        (fun _ _ => True) := by
  have htidy := h.inv.tidy
  have hwaiting := h.inv.waiting
  have hnone : (s.it.cells c).value.bind (ThriftEncoder.encode (env.codec (s.it.cells c).type)) = none
      → After (fun _ => True) (Ended env a c) s s := by
    intro hempty
    apply After.same h h.wellFormed Fenced.all (Extends.refl s) (fun _ => rfl)
      (fun c' => SamePending.refl c' s.it)
    refine ⟨htidy, ?_⟩
    simp only [replyOf, hbind, hempty]
    exact hwaiting
  have hcut : Cut (s.pushFrame (.finalAction a)).it := (hwaiting.cut (Nat.le_refl _)).congr rfl rfl
  unfold Runs withFrame callBind
  simp only [wp_bind, wp_alter, wp_cellAt, wp_pure]
  refine ⟨?_, fun _ => hcut⟩
  intro _
  split
  . next hvalue =>
    rw [wp_bind]
    apply wp_sendRspCellValue
    . intro _
      exact hcut
    . intro hencode
      refine ⟨hnone ?_, rfl, trivial⟩
      cases hv : (s.it.cells c).value with
      | none => rfl
      | some v => exact hencode v hv
    . intro v buf _ hv hbuf
      have hv' : (s.it.cells c).value = some v := hv
      have hbuf' : ThriftEncoder.encode (env.codec (s.it.cells c).type) v = some buf := hbuf
      have hext : Extends s (s.output (.response senderId (rspHeader.toBytes ++ buf) s.own)) := by
        apply Extends.output
        right
        refine ⟨?_, a, hwaiting.closes.isFinalAction⟩
        intro m hm
        simp [Out.responseOf, Ne.symm hm]
      refine ⟨?_, rfl, trivial⟩
      apply After.same h (h.wellFormed.output _) Fenced.all hext
      . intro _
        rfl
      . intro c'
        exact SamePending.refl c' s.it
      . refine ⟨⟨htidy.ledger.congr rfl, htidy.owned.rpc, htidy.owned.holder⟩, ?_⟩
        have hsent : (s.sh.out ++ [Out.response senderId (rspHeader.toBytes ++ buf) s.own]).filterMap
            (Out.responseOf s.own) = replyOf env (s.it.cells c) (s.it.actions a).bind := by
          have hbefore := hwaiting.responses
          unfold Shared.responses at hbefore
          simp [hbefore, Out.responseOf, replyOf, hbind, hv', hbuf']
        have hcloses : Closes a c
            (s.output (.response senderId (rspHeader.toBytes ++ buf) s.own)) :=
          ⟨hwaiting.closes.isFinalAction, hwaiting.closes.history, hwaiting.closes.only,
            hwaiting.closes.hasContext⟩
        exact ⟨hcloses, hwaiting.cell, hwaiting.actionAlive, hwaiting.cellAlive,
          hwaiting.ctxtAlive, hwaiting.tracked, hwaiting.listens, hwaiting.ran,
          hwaiting.unreleased, hsent⟩
  . next hvalue =>
    refine ⟨hnone ?_, rfl, trivial⟩
    have : (s.it.cells c).value = none := by
      simpa [Cell.hasValue, CellView.hasValue, Cell.view, St.pushFrame] using hvalue
    rw [this]
    rfl

theorem callBind {s : St V} (h : Sound (fun _ => True) (Running a c) s) (n : Nat)
    : Runs (fun _ => True) (Ended env a c) (fun _ s => Cut s.it) s
        (withFrame (.finalAction a) (callBind env (update env n) (s.it.actions a).bind))
        (fun _ _ => True) := by
  obtain ⟨hist, _, howes⟩ := h.inv.waiting.closes.history
  cases howes with
  | user f hbind =>
    rw [hbind]
    exact user h hbind n
  | reply senderId reqHeader msg i req o hbind _ _ =>
    rw [hbind]
    exact reply h hbind _

end Running

-- what was alive before a deletion and is not afterwards has been freed in it
theorem FreeLog.mem {s s' : St V} {frees : List (Ev V)} (h : FreeLog s s' frees) {u : Updatable}
    (halive : s.isAlive u = true) (hdead : s'.isAlive u = false)
    : u.freed ∈ frees := by
  cases u with
  | cell c =>
    have hcount := h.cell c
    simp only [St.isAlive] at halive hdead
    simp only [halive, hdead, and_self, ↓reduceIte] at hcount
    obtain ⟨e, hmem, he⟩ := List.countP_pos_iff.mp (by omega : 0 < frees.countP (Ev.freesCell c))
    cases e <;> simp [Ev.freesCell] at he
    subst he
    exact hmem
  | action a =>
    have hcount := h.action a
    simp only [St.isAlive] at halive hdead
    simp only [halive, hdead, and_self, ↓reduceIte] at hcount
    obtain ⟨e, hmem, he⟩ := List.countP_pos_iff.mp (by omega : 0 < frees.countP (Ev.freesAction a))
    cases e <;> simp [Ev.freesAction] at he
    subst he
    exact hmem

theorem FreeLog.mem_context {s s' : St V} {frees : List (Ev V)} (h : FreeLog s s' frees)
    (halive : s.it.ctxtAlive = true) (hdead : s'.it.ctxtAlive = false)
    : .freedContext ∈ frees := by
  have hcount := h.context
  simp only [halive, hdead, and_self, ↓reduceIte] at hcount
  obtain ⟨e, hmem, he⟩ := List.countP_pos_iff.mp (by omega : 0 < frees.countP Ev.freesContext)
  cases e <;> simp [Ev.freesContext] at he
  exact hmem

namespace Kept

variable {env : Env V} {s : St V}

theorem assign (h : Kept env s) (hwf : WellFormed s) {c : CellId}
    (halive : (s.it.cells c).alive = true) (o : Outcome V)
    : Kept env (s.assign c o) := by
  have hspares := Spares.assign halive o
  cases h with
  | inl hlate => exact Or.inl (hlate.of_history hspares.history)
  | inr hkept => exact Or.inr ⟨hkept.1.assign hwf c o, hkept.2.spares hwf hspares⟩

theorem of_unclosed (h : Kept env s) {hist : List (Ev V)} (hopen : s.Unclosed hist)
    : Tidy s ∧ ∀ stack, .released stack ∉ s.it.log := by
  cases h with
  | inl hlate =>
    obtain ⟨a, c, bind, hist', hhist, _⟩ := hlate
    have hmem : .closed a c false ∈ hist := by
      rw [← hopen.history, hhist]
      simp
    exact absurd hmem (hopen.unclosed a c false)
  | inr hkept =>
    refine ⟨hkept.1, ?_⟩
    cases hkept.2 with
    | unclosed _ _ hunreleased => exact hunreleased
    | answered hanswered =>
      obtain ⟨senderId, reqHeader, msg, hanswer⟩ := hanswered.answer
      simp [hopen.unanswered] at hanswer
    | waiting a c hwaiting =>
      have := hwaiting.closes.isFinalAction
      simp [hopen.isFinalAction a] at this
    | completed a c hcompleted =>
      have := hcompleted.closes.isFinalAction
      simp [hopen.isFinalAction a] at this

theorem finalized {a : ActionId} {c : CellId} (h : Completed env a c s) (hledger : Ledger s)
    : Finalized a c s.it :=
  ⟨h.ran, h.released, hledger.freesCell_le, hledger.freesAction_le, hledger.freesContext_le⟩

theorem closed (h : Kept env s) {a : ActionId} {c : CellId} (hclosed : .closed a c true ∈ s.it.log)
    : Tidy s ∧ (Waiting 0 [] a c s ∨ Completed env a c s) := by
  cases h with
  | inl hlate =>
    obtain ⟨a', c', bind, hist, hhist, howes⟩ := hlate
    simpa using (closed_of_history hhist howes hclosed).2.2
  | inr hkept =>
    obtain ⟨htidy, hstage⟩ := hkept
    refine ⟨htidy, ?_⟩
    cases hstage with
    | unclosed hist hopen _ => exact absurd hclosed (hopen.not_mem a c true)
    | answered hanswered =>
      rw [← Interaction.mem_history rfl] at hclosed
      exact absurd hclosed (hanswered.unclosed a c true)
    | waiting a' c' hwaiting =>
      obtain ⟨hist, hhist, howes⟩ := hwaiting.closes.history
      obtain ⟨ha, hc, _⟩ := closed_of_history hhist howes hclosed
      subst ha hc
      exact Or.inl hwaiting
    | completed a' c' hcompleted =>
      obtain ⟨hist, hhist, howes⟩ := hcompleted.closes.history
      obtain ⟨ha, hc, _⟩ := closed_of_history hhist howes hclosed
      subst ha hc
      exact Or.inr hcompleted

theorem cut (h : Kept env s) : Cut s.it := by
  intro a c hclosed
  obtain ⟨htidy, hstage⟩ := h.closed hclosed
  cases hstage with
  | inl hwaiting => exact hwaiting.cut (Nat.zero_le _) a c hclosed
  | inr hcompleted =>
    have hfinalized := finalized hcompleted htidy.ledger
    exact ⟨Nat.le_of_eq hfinalized.ran, fun _ _ => hfinalized⟩

theorem breaks {s' : St V} (h : Kept env s) (hbreaks : Breaks s s') : Cut s'.it := by
  cases hbreaks.log with
  | inl hsame => exact h.cut.congr hsame hbreaks.releaseList
  | inr hclosing =>
    obtain ⟨⟨hist, hopen⟩, c, u, hlog⟩ := hclosing
    obtain ⟨htidy, hunreleased⟩ := h.of_unclosed hopen
    intro a' c' hclosed
    simp only [hlog, List.mem_append, List.mem_cons, Ev.closed.injEq, reduceCtorEq,
      List.not_mem_nil, or_false] at hclosed
    cases hclosed with
    | inl hold => exact absurd hold (hopen.not_mem a' c' true)
    | inr hnew =>
      refine ⟨?_, ?_⟩
      . rw [hnew.1, hlog, List.countP_append, htidy.ledger.countP_runs_new]
        simp [Ev.runs]
      . intro stack hreleased
        simp [hlog, hunreleased stack] at hreleased

theorem discards {s' : St V} (h : Kept env s) (hwf : WellFormed s) (hdiscards : Discards s s')
    : Cut s'.it := by
  cases h with
  | inl hlate => exact hlate.discards hdiscards
  | inr hkept =>
    have hcut : Cut s.it := cut (Or.inr hkept)
    exact hcut.discards hdiscards (hkept.1.ledger.discards hwf hdiscards)

theorem keeps (env : Env V) (A : Updatable → Prop) : Keeps env A (Kept env) (fun _ s => Cut s.it) where
  effect s s' h hact := by
    cases h.inv with
    | inl hlate => exact Or.inl (hlate.of_history (Extends.effect h.wellFormed hact.effect).history)
    | inr hkept =>
      refine Or.inr ⟨hkept.1.effect h.wellFormed hact.effect, ?_⟩
      exact hkept.2.spares h.wellFormed (Spares.effect h.wellFormed hact.effect)
  assign s c o h halive _ _ := h.inv.assign h.wellFormed halive o
  notify s c u h _ _ _ := by
    cases h.inv with
    | inl hlate => exact Or.inl (hlate.of_history (Extends.record s rfl).history)
    | inr hkept =>
      refine Or.inr ⟨hkept.1.record rfl (by simp), ?_⟩
      exact hkept.2.spares h.wellFormed (Spares.record s rfl (by simp) fun _ _ => rfl)
  fault _ _ _ h _ hbreaks := h.inv.breaks hbreaks
  unique _ h _ := h.inv.cut.congr rfl rfl

theorem completed {a : ActionId} {c : CellId} {s s' : St V} (hended : Running.Ended env a c s)
    (hwf : WellFormed s) (hfrees : Frees (s.record (.finished a)) s') (hgone : Gone s' (.cell c))
    (hcontext : ContextGone (s.record (.finished a)) s')
    : Completed env a c s'.release := by
  obtain ⟨_, hwaiting⟩ := hended
  have hext : Extends s s'.release :=
    ((Extends.record s rfl).trans (Extends.frees hfrees)).trans (Extends.release s')
  obtain ⟨frees, hlog⟩ := hfrees.frees
  have hlog' : s'.release.it.log = s.it.log ++ .finished a :: (frees ++ [.released s'.stack]) := by
    change s'.it.log ++ [.released s'.stack] = _
    rw [hlog.log]
    simp [St.record]
  constructor
  . exact hwaiting.closes.extends hwf hext
  . have hnone : frees.countP (Ev.runs a) = 0 := by
      rw [List.countP_eq_zero]
      intro e he
      have hfreed := hlog.isFreed e he
      cases e <;> simp [Ev.isFreed] at hfreed <;> simp [Ev.runs]
    rw [hlog', List.countP_append, List.countP_cons, List.countP_append, hnone, hwaiting.ran]
    simp [Ev.runs]
  . refine ⟨s.it.log, frees, s'.stack, [], hlog', hlog.isFreed, ?_, ?_, ?_⟩
    . exact hlog.mem (u := .cell c) hwaiting.cellAlive hgone.1
    . exact hlog.mem_context hwaiting.ctxtAlive hcontext.1
    . intro u hu
      change u ∈ s'.it.releaseList at hu
      rw [hfrees.releaseList] at hu
      obtain ⟨halive, hdead⟩ := hcontext.2 u hu
      apply hlog.mem halive
      cases u with
      | cell c' => exact hdead.1
      | action a' => exact hdead
  . exact hcontext.1
  . exact hgone.1
  . exact (hcontext.2 (.action a) hwaiting.tracked).2
  . change s'.sh.responses s'.own = replyOf env (s'.it.cells c) (s'.it.actions a).bind
    rw [hfrees.own, hfrees.cell c, hfrees.action a]
    have hsh : s'.sh.responses s.own = s.sh.responses s.own := by
      unfold Shared.responses
      rw [hfrees.shared]
      rfl
    exact hsh.trans hwaiting.responses

theorem updateAction {a : ActionId} {c : CellId} (h : Sound (fun _ => True) (Kept env) s)
    (htidy : Tidy s) (hwaiting : Waiting 0 [] a c s) (n : Nat)
    : Runs (fun _ => True) (Kept env) (fun _ s => Cut s.it) s (updateAction env (update env n) a)
        (fun _ s' => Ran (.action a) s') := by
  have hfinal := hwaiting.closes.isFinalAction
  have hlt := h.wellFormed.lt_of_final hfinal
  have hwf1 := h.wellFormed.record (.ranAction a)
  have hran : After (fun _ => True) (Running a c) s (s.record (.ranAction a)) := by
    apply After.same h hwf1 Fenced.all (Extends.record s rfl) (fun _ => rfl)
      (fun _ => SamePending.record rfl)
    refine ⟨htidy.record rfl ?_, ?_⟩
    . intro a' heq
      simp only [Ev.ranAction.injEq] at heq
      rw [← heq]
      exact hlt
    . have hcount : (s.it.log ++ [Ev.ranAction a]).countP (Ev.runs a) = 1 := by
        rw [List.countP_append, hwaiting.ran]
        simp [Ev.runs]
      exact ⟨hwaiting.closes.extends h.wellFormed (Extends.record s rfl), hwaiting.cell,
        hwaiting.actionAlive, hwaiting.cellAlive, hwaiting.ctxtAlive, hwaiting.tracked,
        hwaiting.listens, hcount, by simpa [St.record] using hwaiting.unreleased,
        hwaiting.responses⟩
  unfold Runs MsgRpc.updateAction
  simp only [wp_bind, wp_actionAt, wp_alter, hfinal, ↓reduceIte]
  refine ⟨?_, fun _ => hwaiting.cut (Nat.zero_le _)⟩
  intro _
  apply wp_mono (Running.callBind hran.sound n)
  . rintro _ s3 ⟨hafter3, hstack3, _⟩
    have hended : Running.Ended env a c s3 := hafter3.sound.inv
    have hwf3 := hafter3.sound.wellFormed
    have hcell : ((s3.record (.finished a)).it.actions a).cell = some c := hended.2.cell
    have hwf4 := hwf3.record (.finished a)
    have htidy4 : Tidy (s3.record (.finished a)) := hended.1.record rfl (by simp)
    have hcut4 : Cut (s3.record (.finished a)).it := by
      have hspares : Spares s3 (s3.record (.finished a)) :=
        Spares.record s3 rfl (by simp) fun _ _ => rfl
      exact (hended.2.spares hwf3 hspares).cut (Nat.le_refl _)
    refine ⟨?_, fun _ => hcut4⟩
    intro _
    simp only [hcell, wp_bind, wp_alter]
    apply wp_mono (wp_deleteCell_frees hwf4 c)
    . rintro _ s6 ⟨hfrees, _, hgone, hcontext⟩
      have hcompleted : Completed env a c s6.release :=
        completed hended hwf3 hfrees hgone (hcontext hended.2.closes.hasContext).2
      have htidy6 := htidy4.frees hwf4 hfrees
      have htidy7 : Tidy (s6.record (.released s6.stack)) := htidy6.record rfl (by simp)
      have hext : Extends s3 s6.release :=
        ((Extends.record s3 rfl).trans (Extends.frees hfrees)).trans (Extends.release s6)
      have hafter6 : After (fun _ => True) (Kept env) s3 s6.release := by
        apply After.same hafter3.sound (hwf4.frees hfrees).release Fenced.all hext
        . intro c'
          change (s6.it.cells c').view = _
          rw [hfrees.cell c']
          rfl
        . intro c'
          have hfreed : SamePending c' s3.it s6.it :=
            (SamePending.record rfl).trans (SamePending.frees hfrees c') hfrees.log
          exact hfreed.trans (SamePending.record rfl) (List.prefix_append _ _)
        . exact Or.inr ⟨⟨htidy7.ledger.congr rfl, htidy7.owned.rpc, htidy7.owned.holder⟩,
            .completed a c hcompleted⟩
      refine ⟨(hran.trans h.wellFormed hafter3).trans h.wellFormed hafter6, ?_, ?_⟩
      . exact hfrees.stack.trans hstack3
      . intro b hb
        simp only [Updatable.action.injEq] at hb
        subst hb
        apply hafter6.ext.log.subset
        apply hafter3.ext.log.subset
        simp [St.record]
    . intro e s6 he
      exact hcut4.discards he.discards (htidy4.ledger.discards hwf4 he.discards)
  . intro e s3 he
    exact he

theorem keepsFinal (env : Env V)
    : KeepsFinal env (fun _ => True) (Kept env) (fun _ => Kept env) (fun _ s => Cut s.it) := by
  intro n a s h ha hdue halive hfinal _
  cases h.inv with
  | inl hlate =>
    have hk := Late.keeps env (fun _ => True)
    have hupd := hk.update hk.returns (Late.keepsFinal env _) n
    have hrun := Late.keepsFinal env (fun _ => True) n a s ⟨h.wellFormed, h.fenced, hlate⟩ ha hdue
      halive hfinal hupd
    exact hrun.weaken_inv fun _ hlate' => Or.inl hlate'
  | inr hkept =>
    obtain ⟨htidy, hstage⟩ := hkept
    cases hstage with
    | unclosed hist hopen hunreleased =>
      have := hopen.isFinalAction a
      simp [hfinal] at this
    | answered hanswered =>
      have := hanswered.isFinalAction a
      simp [hfinal] at this
    | waiting a' c hwaiting =>
      have heq := hwaiting.closes.only a hfinal
      subst heq
      exact updateAction h htidy hwaiting n
    | completed a' c hcompleted =>
      have heq := hcompleted.closes.only a hfinal
      subst heq
      have := hcompleted.actionDead
      simp [halive] at this

theorem updates (env : Env V) (n : Nat)
    : Updates (fun _ => True) (Kept env) (fun _ => Kept env) (fun _ s => Cut s.it) (update env n) := by
  have hk := keeps env (fun _ => True)
  exact hk.update hk.returns (keepsFinal env) n

theorem late (h : Kept env s) (hlate : ∃ a c, .closed a c false ∈ s.it.log) : Late s := by
  obtain ⟨a, c, hmem⟩ := hlate
  cases h with
  | inl hlate => exact hlate
  | inr hkept =>
    cases hkept.2 with
    | unclosed hist hopen hunreleased => exact absurd hmem (hopen.not_mem a c false)
    | answered hanswered =>
      rw [← Interaction.mem_history rfl] at hmem
      exact absurd hmem (hanswered.unclosed a c false)
    | waiting a' c' hwaiting =>
      obtain ⟨hist, hhist, howes⟩ := hwaiting.closes.history
      simpa using (closed_of_history hhist howes hmem).2.2
    | completed a' c' hcompleted =>
      obtain ⟨hist, hhist, howes⟩ := hcompleted.closes.history
      simpa using (closed_of_history hhist howes hmem).2.2

theorem record (h : Kept env s) {hist : List (Ev V)} {e : Ev V} (hopen : s.Unclosed hist)
    (he : e.isHandler = true) (hclosed : ∀ a c isEmpty, e ≠ .closed a c isEmpty)
    : Kept env (s.record e) := by
  obtain ⟨htidy, hunreleased⟩ := h.of_unclosed hopen
  refine Or.inr ⟨htidy.record ?_ ?_, .unclosed (hist ++ [e]) (hopen.record he hclosed) ?_⟩
  . cases e <;> simp [Ev.isHandler] at he <;> rfl
  . intro a heq
    simp [heq, Ev.isHandler] at he
  . intro stack hmem
    simp only [St.record, List.mem_append, List.mem_singleton] at hmem
    cases hmem with
    | inl hold => exact hunreleased stack hold
    | inr heq => simp [← heq, Ev.isHandler] at he

section Handlers

attribute [local simp] St.close St.addFinalAction St.setActionCell St.setAction St.pushUpdatable
  St.setCell St.track St.record St.addAction

theorem close (h : Kept env s) (hwf : WellFormed s) {bind : Bind V} {c : CellId}
    {hist : List (Ev V)} (howes : Owes bind c true hist) (hopen : s.Unclosed hist)
    (halive : (s.it.cells c).alive = true) (hcontext : (s.it.cells c).hasContext = true)
    (hctxt : s.it.ctxtAlive = true)
    : Kept env (s.close bind c) := by
  obtain ⟨htidy, hunreleased⟩ := h.of_unclosed hopen
  have hlt := hwf.lt_of_alive halive
  have haction : (s.close bind c).it.actions s.it.actionCount
      = { bind, isFinalAction := true, cell := some c } := by
    simp
  have hother : ∀ a, a ≠ s.it.actionCount → (s.close bind c).it.actions a = s.it.actions a := by
    intro a hne
    simp [hne]
  have hself : (s.close bind c).it.cells c
      = { s.it.cells c with
          updatables := (s.it.cells c).updatables ++ [.action s.it.actionCount] } := by
    simp
  have hcell : ∀ c', c' ≠ c → (s.close bind c).it.cells c' = s.it.cells c' := by
    intro c' hne
    simp [hne]
  have hlog : (s.close bind c).it.log = s.it.log ++ [.closed s.it.actionCount c true]
      ++ [.registered c (.action s.it.actionCount)] := by
    simp
  right
  refine ⟨⟨?_, ?_⟩, .waiting s.it.actionCount c ?_⟩
  . have hnew : Ledger (s.addFinalAction bind c true) := by
      apply Ledger.record
      . exact htidy.ledger.addAction rfl
      . rfl
      . simp
    have hregistered : Ledger ((s.addFinalAction bind c true).record
        (.registered c (.action s.it.actionCount))) := by
      apply hnew.record rfl
      simp
    apply (hregistered.setCell (c := c) (o := (s.close bind c).it.cells c) (by simp)).step
    . simp
    . intro c'
      by_cases heq : c' = c
      . simp [heq]
      . simp [heq]
    . intro a
      by_cases heq : a = s.it.actionCount
      . simp [heq]
      . simp [heq]
    . simp
    . simp
  . apply htidy.owned.step hwf
    . intro c' _
      by_cases heq : c' = c
      . rw [heq, hself]
      . rw [hcell c' heq]
    . intro c' hc'
      by_cases heq : c' = c
      . rw [heq, hcontext]
      . rw [← hcell c' heq, hc']
    . exact List.prefix_append _ _
    . intro c' halive' hid
      right
      by_cases heq : c' = c
      . rw [heq, hself] at halive' hid
        rw [heq]
        exact ⟨halive', hid, fun hmem => Or.inl hmem⟩
      . rw [hcell c' heq] at halive' hid
        exact ⟨halive', hid, fun hmem => Or.inl hmem⟩
  . have hran := htidy.ledger.countP_runs_new
    constructor
    . constructor
      . rw [haction]
      . refine ⟨hist, ?_, ?_⟩
        . have hhistory := hopen.history
          unfold Interaction.history at hhistory ⊢
          rw [hlog]
          simp [hhistory]
          rfl
        . rw [haction]
          exact howes
      . intro a ha
        by_contra hne
        rw [hother a hne, hopen.isFinalAction a] at ha
        simp at ha
      . rw [hself, hcontext]
    . rw [haction]
    . rw [haction]
    . rw [hself, halive]
    . exact hctxt
    . simp
    . rw [hself]
      simp
    . rw [hlog, List.countP_append, List.countP_append, hran]
      simp [Ev.runs]
    . intro stack
      rw [hlog]
      simp [hunreleased stack]
    . exact hopen.unanswered

theorem setResult (h : Kept env s) (hwf : WellFormed s) {c : CellId}
    (halive : (s.it.cells c).alive = true) (hunowned : s.Unowned)
    : Kept env (s.setResult c) := by
  cases h with
  | inl hlate => exact Or.inl (hlate.of_history rfl)
  | inr hkept =>
    obtain ⟨htidy, hstage⟩ := hkept
    right
    refine ⟨⟨?_, ?_⟩, ?_⟩
    . apply htidy.ledger.step
      . rfl
      . intro c'
        by_cases heq : c' = c
        . simp [St.setResult, heq]
        . simp [St.setResult, heq]
      . intro a
        rfl
      . rfl
      . exact Nat.le_refl _
    . constructor
      . intro c' halive' hid
        by_cases heq : c' = c
        . right
          left
          simp [St.setResult, heq]
        . simp only [St.setResult, Function.update_of_ne heq] at halive' hid ⊢
          cases htidy.owned.rpc c' halive' hid with
          | inl hmem =>
            left
            simp [hmem, heq]
          | inr hrest => exact Or.inr hrest
      . have honly : ∀ c', ((s.setResult c).it.cells c').hasContext = true → c' = c := by
          intro c' hc'
          by_contra hne
          simp only [St.setResult, Function.update_of_ne hne] at hc'
          simp [hunowned c'] at hc'
        intro c1 c2 h1 h2
        rw [honly c1 h1, honly c2 h2]
    . cases hstage with
      | unclosed hist hopen hunreleased =>
        exact .unclosed hist
          ⟨hopen.isFinalAction, hopen.history, hopen.unclosed, hopen.unanswered⟩ hunreleased
      | answered hanswered => exact .answered (hanswered.congr (fun _ ha => ha) rfl rfl rfl)
      | waiting a c' hwaiting =>
        have := hwaiting.closes.hasContext
        simp [hunowned c'] at this
      | completed a c' hcompleted =>
        have := hcompleted.closes.hasContext
        simp [hunowned c'] at this

theorem newCell (h : Kept env s) (hwf : WellFormed s) (type : Ty) (status : RpcResult)
    : Kept env (s.addCell { type, kind := .cell, status }) := by
  have hspares := Spares.addCell s { type, kind := .cell, status }
  cases h with
  | inl hlate => exact Or.inl (hlate.of_history hspares.history)
  | inr hkept =>
    obtain ⟨htidy, hstage⟩ := hkept
    refine Or.inr ⟨⟨htidy.ledger.addCell rfl, ?_⟩, hstage.spares hwf hspares⟩
    have hcell : ∀ c, c ≠ s.it.cellCount
        → (s.addCell { type, kind := .cell, status }).it.cells c = s.it.cells c := by
      intro c hne
      simp [St.addCell, hne]
    apply htidy.owned.step hwf hspares.hasContext _ hspares.releaseList
    . intro c halive hid
      by_cases heq : c = s.it.cellCount
      . simp [St.addCell, heq] at hid
      . rw [hcell c heq] at halive hid
        exact Or.inr ⟨halive, hid, fun hmem => Or.inl hmem⟩
    . intro c hc
      by_cases heq : c = s.it.cellCount
      . simp [St.addCell, heq] at hc
      . rw [hcell c heq] at hc
        exact hc

theorem delete {s' : St V} (h : Kept env s) (hwf : WellFormed s)
    (hopen : ∀ a, (s.it.actions a).isFinalAction = false) (hfrees : Frees s s')
    : Kept env s' := by
  have hext := Extends.frees hfrees
  cases h with
  | inl hlate => exact Or.inl (hlate.of_history hext.history)
  | inr hkept =>
    obtain ⟨htidy, hstage⟩ := hkept
    refine Or.inr ⟨htidy.frees hwf hfrees, ?_⟩
    cases hstage with
    | unclosed hist hopen hunreleased =>
      refine .unclosed hist (hext.unclosed hopen) ?_
      obtain ⟨frees, hlog⟩ := hfrees.frees
      intro stack hmem
      rw [hlog.log, List.mem_append] at hmem
      cases hmem with
      | inl hold => exact hunreleased stack hold
      | inr hfreed => simpa [Ev.isFreed] using hlog.isFreed _ hfreed
    | answered hanswered =>
      apply Stage.answered
      apply hanswered.congr hext.newFinal hext.own hext.history
      unfold Shared.responses
      rw [hfrees.shared]
    | waiting a c hwaiting =>
      have := hwaiting.closes.isFinalAction
      simp [hopen a] at this
    | completed a c hcompleted =>
      have := hcompleted.closes.isFinalAction
      simp [hopen a] at this

end Handlers

theorem keepsHandlers (cfg : Config V)
    : KeepsHandlers cfg (Kept cfg.env) (fun _ s => Cut s.it) where
  effect s s' h heffect := by
    cases heffect with
    | received senderId reqHeader msg hopen =>
      exact h.inv.record hopen rfl (by simp)
    | invoked senderId reqHeader msg req method hopen _ _ =>
      exact h.inv.record hopen rfl (by simp)
    | called senderId reqHeader msg req method rspCell hopen _ _ _ =>
      exact h.inv.record hopen rfl (by simp)
    | setResult c halive hunowned => exact h.inv.setResult h.wellFormed halive hunowned
    | close bind c hist howes hopen halive _ hcontext hctxt =>
      exact h.inv.close h.wellFormed howes hopen halive hcontext hctxt
    | closeLate bind c hist howes hopen halive _ =>
      left
      refine ⟨s.it.actionCount, c, bind, hist, ?_, howes⟩
      have hhistory := hopen.history
      simp only [Interaction.history] at hhistory ⊢
      simp [St.addFinalAction, St.pushFrame, St.record, St.addAction, hhistory, Ev.isHandler]
    | popFrame hlate => exact Or.inl ((h.inv.late hlate).of_history rfl)
    | track u hlate => exact Or.inl ((h.inv.late hlate).of_history rfl)
    | setActionCell a c _ hlate => exact Or.inl ((h.inv.late hlate).of_history rfl)
    | newCell type status => exact h.inv.newCell h.wellFormed type status
    | setNewCell c v hlt hcell =>
      apply h.inv.assign h.wellFormed
      rw [hcell]
    | delete _ hopen hfrees => exact h.inv.delete h.wellFormed hopen hfrees
    | failure senderId reqHeader msg rpcResult hist hopen hfails =>
      have htidy := (h.inv.of_unclosed hopen).1
      refine Or.inr ⟨⟨htidy.ledger.congr rfl, htidy.owned.rpc, htidy.owned.holder⟩, .answered ?_⟩
      refine ⟨hopen.isFinalAction, ?_, senderId, reqHeader, msg,
        Or.inl ⟨rpcResult, hfails.ne_succeeded, ?_, ?_⟩⟩
      . exact hopen.history ▸ hopen.unclosed
      . exact hopen.history ▸ hfails.fruitless
      . have hnone := hopen.unanswered
        unfold Shared.responses at hnone ⊢
        simp [St.output, hnone, Out.responseOf]
    | response senderId reqHeader msg i req c o v buf hopen hv hbuf =>
      have htidy := (h.inv.of_unclosed hopen).1
      refine Or.inr ⟨⟨htidy.ledger.congr rfl, htidy.owned.rpc, htidy.owned.holder⟩, .answered ?_⟩
      refine ⟨hopen.isFinalAction, ?_, senderId, reqHeader, msg,
        Or.inr ⟨i, req, c, o, v, buf, hopen.history, hv, hbuf, ?_⟩⟩
      . exact hopen.history ▸ hopen.unclosed
      . have hnone := hopen.unanswered
        unfold Shared.responses at hnone ⊢
        simp [St.output, hnone, Out.responseOf]
  fault _ _ _ h _ hbreaks := h.inv.breaks hbreaks

end Kept
end MsgRpc
