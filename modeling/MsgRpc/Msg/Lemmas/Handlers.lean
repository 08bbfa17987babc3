import MsgRpc.Msg.Handlers

/-!
This module contains the proof that the handlers keep every invariant their effects keep.
-/

namespace MsgRpc
namespace Handles

open StateProg

variable {cfg : Config V} {P : St V → Prop} {E : Fault → St V → Prop} {s : St V}
variable {R : List Frame → St V → Prop} {upd : Updatable → M V Unit}

theorem runSi (hh : KeepsClosing cfg P E) (hk : Keeps cfg.env (fun _ => True) P E)
    (hupd : Updates (fun _ => True) P R E upd) (h : Sound (fun _ => True) P s)
    (hunowned : s.Unowned) (si : Prog V)
    : Handles P E s (runSi cfg.env upd si)
        (fun c s' => c < s'.it.cellCount ∧ ∀ h, s.Unclosed h → s'.Unclosed h) := by
  unfold MsgRpc.runSi
  apply bind (of_runs (Runs.runProg hk hupd h Runs.Settable.none si))
  rintro c s1 h1 _ ⟨hext, _⟩
  split
  . next c =>
    apply bind (of_runs (Runs.cellAt hk h1 c))
    rintro o s2 _ _ ⟨_, hs2, ho, halive⟩
    subst hs2 ho
    have hlt := h1.wellFormed.lt_of_alive halive
    have heffect : HandlerEffect cfg _ _ := .setResult c halive (hext.unowned hunowned)
    have hset := sound_closing hh h1 heffect rfl
    unfold Handles
    simp only [wp_bind, wp_alter, wp_pure]
    refine ⟨hset, ⟨rfl, rfl, Nat.le_refl _, List.prefix_refl _, fun _ _ => rfl,
      SamePending.handlerEffect h1.wellFormed heffect⟩, hlt, ?_⟩
    intro hist hopen
    have hsame := hext.unclosed hopen
    exact ⟨hsame.isFinalAction, hsame.history, hsame.unclosed, hsame.unanswered⟩
  . exact hh.fault s1 s1 _ h1 (Or.inr rfl) (Breaks.refl _)

theorem Settled.close {hist : List (Ev V)} (hopen : s.Unclosed hist) (bind : Bind V) {c : CellId}
    (hempty : (s.it.cells c).hasValueOrError = false)
    : Settled (s.close bind c) := by
  intro a c' hclosed
  have hlog : (s.close bind c).it.log = s.it.log ++ [.closed s.it.actionCount c true]
      ++ [.registered c (.action s.it.actionCount)] := rfl
  simp only [hlog, List.mem_append, List.mem_singleton, Ev.closed.injEq, and_true, reduceCtorEq,
    or_false] at hclosed
  cases hclosed with
  | inl hmem => exact absurd hmem (hopen.not_mem a c' true)
  | inr heq =>
    rw [heq.2]
    simpa [St.close, St.addFinalAction, St.record, St.pushUpdatable, St.setCell, St.addAction,
      St.track, St.setActionCell, St.setAction, Cell.hasValueOrError, Cell.view] using hempty

theorem deriveFinalAction_empty (hh : KeepsClosing cfg P E) (hk : Keeps cfg.env (fun _ => True) P E)
    (h : Sound (fun _ => True) P s) {hist : List (Ev V)} (hopen : s.Unclosed hist) {bind : Bind V}
    {c : CellId} (howes : Owes bind c true hist) (halive : (s.it.cells c).alive = true)
    (hempty : (s.it.cells c).hasValueOrError = false)
    : Handles P E s (deriveFinalAction upd bind c)
        (fun _ s' => Settled s' ∧ ∃ a isEmpty, s'.it.history = hist ++ [.closed a c isEmpty]) := by
  have hempty' : (s.it.cells c).isEmpty = true := by
    unfold Cell.hasValueOrError at hempty
    simp [Cell.isEmpty, CellView.isEmpty, hempty]
  have hlog : ∀ e e', s.it.log <+: s.it.log ++ [e] ++ [e'] := by
    intro e e'
    rw [List.append_assoc]
    exact List.prefix_append _ _
  have hbreaks : ∀ s', s'.own = s.own → s'.released = s.released → s'.sh.out = s.sh.out
      → s'.it.releaseList = s.it.releaseList
      → s'.it.log = s.it.log ++ [.closed s.it.actionCount c true]
        ++ [.registered c (.action s.it.actionCount)]
      → Breaks s s' := by
    intro s' hown hreleased hout hlist heq
    refine ⟨hown, hreleased, hout, hlist, Or.inr ⟨⟨hist, hopen⟩, c, .action s.it.actionCount, ?_⟩⟩
    rw [heq, List.append_assoc]
    rfl
  unfold Handles MsgRpc.deriveFinalAction withFrame registerListener
  simp only [wp_bind, wp_newAction, wp_alter, wp_cellAt, wp_pure, hempty']
  refine ⟨?_, fun hdead => by simp [halive] at hdead⟩
  intro _
  refine ⟨?_, fun hdead => by simp [St.addAction, St.record, St.pushFrame, halive] at hdead⟩
  intro _
  rw [if_neg (by simp [St.addAction, St.record, St.pushFrame, hempty])]
  simp only [wp_alter, wp_assert, wp_track, wp_actionAt]
  refine ⟨?_, fun _ => hk.fault _ _ _ h rfl (hbreaks _ rfl rfl rfl rfl rfl)⟩
  intro _
  refine ⟨?_, fun _ => hh.fault _ _ _ h (Or.inl rfl) (hbreaks _ rfl rfl rfl rfl rfl)⟩
  intro hcontext
  refine ⟨?_, fun _ => hk.fault _ _ _ h rfl (hbreaks _ rfl rfl rfl rfl rfl)⟩
  intro hctxt
  refine ⟨?_, fun hdead => by
    simp [St.track, St.popFrame, St.pushUpdatable, St.setCell, St.record, St.pushFrame,
      St.addAction] at hdead⟩
  intro _
  have hcontext' : (s.it.cells c).hasContext = true := by
    simpa [St.popFrame, St.pushUpdatable, St.setCell, St.record, St.pushFrame, St.addAction]
      using hcontext
  have heffect : HandlerEffect cfg s _ :=
    .close bind c hist howes hopen halive hempty hcontext' hctxt
  have hcalls : (s.close bind c).it.calls = s.it.calls := by
    change (s.it.log ++ [_] ++ [_]).filter Ev.isCall = s.it.log.filter Ev.isCall
    simp [Ev.isCall]
  refine ⟨sound_closing hh h heffect hcalls, ⟨rfl, rfl, Nat.le_refl _, hlog _ _, fun _ _ => rfl,
    SamePending.handlerEffect h.wellFormed heffect⟩,
    Settled.close hopen bind hempty, s.it.actionCount, true, ?_⟩
  rw [← hopen.history]
  change (s.it.log ++ [_] ++ [_]).filter Ev.isHandler = _
  simp [Interaction.history]
  rfl

theorem deriveFinalAction_set (hh : KeepsClosing cfg P E) (hk : Keeps cfg.env (fun _ => True) P E)
    (hupd : Updates (fun _ => True) P R E upd) (h : Sound (fun _ => True) P s)
    {hist : List (Ev V)} (hopen : s.Unclosed hist) {bind : Bind V} {c : CellId}
    (howes : Owes bind c false hist) (halive : (s.it.cells c).alive = true)
    (hset : (s.it.cells c).hasValueOrError = true)
    : Handles P E s (deriveFinalAction upd bind c)
        (fun _ s' => Settled s' ∧ ∃ a isEmpty, s'.it.history = hist ++ [.closed a c isEmpty]) := by
  have hempty' : (s.it.cells c).isEmpty = false := by
    unfold Cell.hasValueOrError at hset
    simp [Cell.isEmpty, CellView.isEmpty, hset]
  have heffect : HandlerEffect cfg s _ := .closeLate bind c hist howes hopen halive hset
  have hcalls : (s.addFinalAction bind c false).it.calls = s.it.calls := by
    change (s.it.log ++ [_]).filter Ev.isCall = s.it.log.filter Ev.isCall
    simp [Ev.isCall]
  have hnew := sound_closing hh h heffect hcalls
  unfold Handles MsgRpc.deriveFinalAction withFrame
  simp only [wp_bind, wp_newAction, wp_alter, wp_cellAt, hempty']
  refine ⟨?_, fun hdead => by simp [halive] at hdead⟩
  intro _
  apply wp_mono (Runs.registerListener hk hupd c trivial hnew rfl)
  . rintro _ s1 ⟨hafter, hstack, _⟩
    have hlate : .closed s.it.actionCount c false ∈ s1.it.log := by
      apply hafter.ext.log.subset
      simp [St.addFinalAction, St.pushFrame, St.record]
    have hpop := sound_closing hh hafter.sound (.popFrame ⟨_, _, hlate⟩) rfl
    have hgrows : Grows s s1.popFrame := by
      constructor
      . exact hafter.ext.own
      . simp [St.popFrame, hstack, St.pushFrame, St.addFinalAction, St.addAction, St.record]
      . exact hafter.ext.cellCount
      . exact (List.prefix_append _ _).trans hafter.ext.log
      . exact (Grows.extends hafter.ext hstack hafter.pending).responses
      . intro c'
        have hadd := SamePending.handlerEffect h.wellFormed heffect c'
        exact hadd.trans (hafter.pending c') hafter.ext.log
    simp only [wp_pure, wp_assert, wp_track, wp_actionAt]
    refine ⟨?_, fun _ => hk.fault _ _ _ hpop rfl (Breaks.refl _)⟩
    intro _
    refine ⟨?_, fun _ => hh.fault _ _ _ hpop (Or.inl rfl) (Breaks.refl _)⟩
    intro _
    refine ⟨?_, fun _ => hk.fault _ _ _ hpop rfl (Breaks.refl _)⟩
    intro _
    have htrack := sound_closing hh hpop (.track s.it.actionCount ⟨_, _, hlate⟩) rfl
    refine ⟨?_, fun _ => hk.fault _ _ _ htrack rfl (Breaks.refl _)⟩
    intro hactive
    have hcell := sound_closing hh htrack (.setActionCell s.it.actionCount c hactive ⟨_, _, hlate⟩)
      rfl
    have hhistory : s1.it.history = hist ++ [.closed s.it.actionCount c false] := by
      rw [hafter.ext.history, ← hopen.history]
      simp [Interaction.history, St.addFinalAction, St.pushFrame, St.record, St.addAction,
        Ev.isHandler]
    have htracked : ∀ c', SamePending c' s1.popFrame.it
        ((s1.popFrame.track (.action s.it.actionCount)).setActionCell s.it.actionCount c).it :=
      fun _ => SamePending.same rfl rfl rfl (Nat.le_refl _) fun _ => rfl
    refine ⟨hcell, ⟨hgrows.own, hgrows.stack, hgrows.cellCount, hgrows.log, hgrows.responses,
      fun c' => (hgrows.pending c').trans (htracked c') (List.prefix_refl _)⟩, ?_,
      s.it.actionCount, false, hhistory⟩
    intro a' c' hclosed
    have hclosed1 : .closed a' c' true ∈ s1.it.log := hclosed
    rw [← Interaction.mem_history rfl, hafter.ext.history, Interaction.mem_history rfl] at hclosed1
    simp only [St.addFinalAction, St.pushFrame, St.record, St.addAction, List.mem_append,
      List.mem_singleton, Ev.closed.injEq, Bool.true_eq_false, and_false, or_false] at hclosed1
    exact absurd hclosed1 (hopen.not_mem a' c' true)
  . intro e s1 he
    exact he

theorem deriveFinalAction (hh : KeepsClosing cfg P E) (hk : Keeps cfg.env (fun _ => True) P E)
    (hupd : Updates (fun _ => True) P R E upd) (h : Sound (fun _ => True) P s)
    {hist : List (Ev V)} (hopen : s.Unclosed hist) {bind : Bind V} {c : CellId}
    (howes : Owes bind c (s.it.cells c).isEmpty hist)
    : Handles P E s (deriveFinalAction upd bind c)
        (fun _ s' => Settled s' ∧ ∃ a isEmpty, s'.it.history = hist ++ [.closed a c isEmpty]) := by
  have hisEmpty : (s.it.cells c).isEmpty = !(s.it.cells c).hasValueOrError := rfl
  cases halive : (s.it.cells c).alive with
  | true =>
    cases hset : (s.it.cells c).hasValueOrError with
    | false =>
      rw [hisEmpty, hset] at howes
      exact deriveFinalAction_empty hh hk h hopen howes halive hset
    | true =>
      rw [hisEmpty, hset] at howes
      exact deriveFinalAction_set hh hk hupd h hopen howes halive hset
  | false =>
    unfold Handles MsgRpc.deriveFinalAction
    simp only [wp_bind, wp_cellAt, halive]
    refine ⟨fun hactive => by simp at hactive, fun _ => ?_⟩
    exact hk.fault _ _ _ h rfl (Breaks.refl _)

theorem startInteraction_closing (hh : KeepsClosing cfg P E) (hk : Keeps cfg.env (fun _ => True) P E)
    (hupd : Updates (fun _ => True) P R E upd) (h : Sound (fun _ => True) P s)
    (hunowned : s.Unowned) (hopen : s.Unclosed []) (si : Prog V)
    (finalAction : Option (CellId → Prog V))
    : Handles P E s (startInteraction cfg.env upd si finalAction)
        (fun _ s' => Settled s' ∧ ∀ senderId reqHeader msg,
          .received senderId reqHeader msg ∉ s'.it.history) := by
  unfold MsgRpc.startInteraction
  apply bind (runSi hh hk hupd h hunowned si)
  rintro c s1 h1 _ ⟨_, hopen1⟩
  have hopen1 := hopen1 [] hopen
  split
  . next f =>
    apply bind (deriveFinalAction hh hk hupd h1 hopen1 (.user (f c) rfl))
    rintro _ s2 h2 _ ⟨hsettled, a, isEmpty, hhistory⟩
    exact pure h2 ⟨hsettled, by simp [hhistory]⟩
  . exact pure h1 ⟨Settled.of_unclosed hopen1, by simp [hopen1.history]⟩

theorem startInteraction (hh : KeepsHandlers cfg P E) (hk : Keeps cfg.env (fun _ => True) P E)
    (hupd : Updates (fun _ => True) P R E upd) (h : Sound (fun _ => True) P s)
    (hunowned : s.Unowned) (hopen : s.Unclosed []) (si : Prog V)
    (finalAction : Option (CellId → Prog V))
    : Handles P E s (MsgRpc.startInteraction cfg.env upd si finalAction)
        (fun _ s' => Settled s' ∧ ∀ senderId reqHeader msg,
          .received senderId reqHeader msg ∉ s'.it.history) :=
  startInteraction_closing hh.closing hk hupd h hunowned hopen si finalAction

theorem notify (hk : Keeps cfg.env (fun _ => True) P E) (hupd : Updates (fun _ => True) P R E upd)
    (h : Sound (fun _ => True) P s) {c : CellId} {o : Outcome V}
    (halive : (s.it.cells c).alive = true) (hempty : (s.it.cells c).hasValueOrError = false)
    (hset : P (s.assign c o))
    : wp (evaluateAllDerivedCells upd c)
        (fun _ s' => Sound (fun _ => True) (R s.stack) s' ∧ Grows s s' ∧ True) E (s.assign c o) := by
  have hsound : Sound (fun _ => True) P (s.assign c o) :=
    ⟨h.wellFormed.assign o (h.wellFormed.lt_of_alive halive), Fenced.all, hset⟩
  have hstack : (s.assign c o).stack = s.stack := by
    cases o <;> rfl
  have hupdatables : ((s.assign c o).it.cells c).updatables = (s.it.cells c).updatables := by
    cases o <;> simp [St.assign, St.record, St.setCell]
  have htell := Runs.evaluateAllDerivedCells hk hupd (c := c) trivial hsound
  rw [hstack, hupdatables] at htell
  apply wp_mono htell
  . rintro _ s' ⟨htells, hstack'⟩
    exact ⟨htells.sound, Grows.of_tells hempty htells hstack', trivial⟩
  . intro e s' he
    exact he

theorem resolve (hk : Keeps cfg.env (fun _ => True) P E) (hupd : Updates (fun _ => True) P R E upd)
    (h : Sound (fun _ => True) P s) {c : CellId} {o : Outcome V}
    (hempty : (s.it.cells c).hasValueOrError = false) (hset : P (s.assign c o))
    : Handles (R s.stack) E s
        (do let _ ← cellAt c; MsgRpc.alter (St.assign · c o); evaluateAllDerivedCells upd c)
        (fun _ _ => True) := by
  unfold Handles
  simp only [wp_bind, wp_alter, wp_cellAt]
  refine ⟨?_, ?_⟩
  . intro halive
    exact notify hk hupd h halive hempty hset
  . intro _
    exact hk.fault s s _ h rfl (Breaks.refl _)

/--
What a response says about the cell of type `type` it is for.
-/
def answer (env : Env V) (type : Ty) (rspHeader : RspMsgHeader) (msg : Bytes) : Outcome V :=
  if rspHeader.rpcResult ≠ .succeeded then
    .error rspHeader.rpcResult
  else
    match ThriftDecoder.decode (env.codec type) msg with
    | some rsp => .value rsp
    | none => .error .failed

theorem wp_setRpcRsp {Q : Unit → St V → Prop} {c : CellId} {rspHeader : RspMsgHeader} {msg : Bytes}
    (halive : (s.it.cells c).alive = true)
    (hpayload : rspHeader.rpcResult = .succeeded → msg = [] → E (.assertion .payload) s)
    (hset : wp (evaluateAllDerivedCells upd c) Q E
      (s.assign c (answer env (s.it.cells c).type rspHeader msg)))
    : wp (setRpcRsp env upd c rspHeader msg) Q E s := by
  unfold setRpcRsp setFailedReason setValue
  unfold answer at hset
  simp only [wp_bind, wp_cellAt]
  refine ⟨?_, ?_⟩
  . intro _
    split
    . next hfailed =>
      rw [if_pos hfailed] at hset
      simp only [wp_bind, wp_cellAt, wp_alter]
      refine ⟨fun _ => hset, ?_⟩
      simp [halive]
    . next hsucceeded =>
      rw [if_neg hsucceeded] at hset
      simp only [wp_bind, wp_assert, decide_eq_true_eq, decide_eq_false_iff_not, Nat.not_lt,
        Nat.le_zero, List.length_eq_zero_iff]
      refine ⟨?_, ?_⟩
      . intro _
        split
        . next v hv =>
          rw [hv] at hset
          simp only [wp_bind, wp_cellAt, wp_alter]
          refine ⟨fun _ => hset, ?_⟩
          simp [halive]
        . next hnone =>
          rw [hnone] at hset
          simp only [wp_bind, wp_cellAt, wp_alter]
          refine ⟨fun _ => hset, ?_⟩
          simp [halive]
      . intro hempty
        exact hpayload (by simpa using hsucceeded) hempty
  . simp [halive]

theorem setNewValue (hh : KeepsHandlers cfg P E) (h : Sound (fun _ => True) P s) {c : CellId}
    (hlt : c < s.it.cellCount)
    (hcell : s.it.cells c = { type := (s.it.cells c).type, kind := .cell }) (v : V)
    : Handles P E s (setValue upd c v) (fun _ s' => s' = s.assign c (.value v)) := by
  have halive : (s.it.cells c).alive = true := by
    rw [hcell]
  have halive' : ((s.assign c (.value v)).it.cells c).alive = true := by
    simp [St.assign, St.record, St.setCell, halive]
  have hnobody : ((s.assign c (.value v)).it.cells c).updatables = [] := by
    have hold : (s.it.cells c).updatables = [] := by
      rw [hcell]
    simp [St.assign, St.record, St.setCell, hold]
  have heffect : HandlerEffect cfg s _ := .setNewCell c v hlt hcell
  have hset := sound hh h heffect
  have hgrows : Grows s (s.assign c (.value v)) :=
    ⟨rfl, rfl, Nat.le_refl _, List.prefix_append _ _, fun _ _ => rfl,
      SamePending.handlerEffect h.wellFormed heffect⟩
  unfold Handles setValue evaluateAllDerivedCells
  simp only [wp_bind, wp_cellAt, wp_alter, hnobody]
  refine ⟨fun _ => ⟨fun _ => ⟨hset, hgrows, rfl⟩, ?_⟩, ?_⟩
  . simp [halive']
  . simp [halive]

theorem callImpl (hh : KeepsHandlers cfg P E) (hk : Keeps cfg.env (fun _ => True) P E)
    (hupd : Updates (fun _ => True) P R E upd) (h : Sound (fun _ => True) P s)
    (hunowned : s.Unowned) {hist : List (Ev V)} (hopen : s.Unclosed hist) (type : Ty)
    (code : ImplCode V)
    : Handles P E s (callImpl cfg.env upd type code)
        (fun rspCell s' =>
          (∀ c, rspCell = some c → c < s'.it.cellCount ∧ (s'.it.cells c).type = type)
            ∧ s'.Unclosed hist) := by
  have hnew : ∀ status, Handles P E s (newCell type .cell status)
      (fun c s' => c = s.it.cellCount ∧ s' = s.addCell { type, kind := .cell, status }) := by
    intro status
    have heffect : HandlerEffect cfg s _ := .newCell type status
    refine ⟨sound hh h heffect, ?_, rfl, rfl⟩
    exact ⟨rfl, rfl, Nat.le_succ _, List.prefix_refl _, fun _ _ => rfl,
      SamePending.handlerEffect h.wellFormed heffect⟩
  have hcell : ∀ o : Cell V, (s.addCell o).it.cells s.it.cellCount = o := by
    simp [St.addCell]
  have hlt : ∀ o, s.it.cellCount < (s.addCell o).it.cellCount := fun _ => Nat.lt_succ_self _
  have hadd : ∀ o, (s.addCell o).Unclosed hist :=
    fun _ => ⟨hopen.isFinalAction, hopen.history, hopen.unclosed, hopen.unanswered⟩
  unfold MsgRpc.callImpl
  split
  . apply pure h
    simp [hopen]
  . next reason =>
    apply bind (hnew reason)
    rintro c s1 h1 _ ⟨hc, hs1⟩
    subst hc hs1
    apply pure h1
    simp [hlt, hadd, hcell]
  . next v =>
    apply bind (hnew .succeeded)
    rintro c s1 h1 _ ⟨hc, hs1⟩
    subst hc hs1
    apply bind (setNewValue hh h1 (hlt _) (by rw [hcell]) v)
    intro _ s2 h2 hgrows2 hs2
    apply pure h2
    refine ⟨?_, ?_⟩
    . intro c hc
      simp only [Option.some.injEq] at hc
      rw [← hc]
      refine ⟨Nat.lt_of_lt_of_le (hlt _) hgrows2.cellCount, ?_⟩
      simp [hs2, St.assign, St.record, St.setCell, hcell]
    . rw [hs2]
      refine ⟨hopen.isFinalAction, ?_, hopen.unclosed, hopen.unanswered⟩
      have hhistory := hopen.history
      simp only [Interaction.history] at hhistory ⊢
      simp [St.assign, St.record, St.setCell, St.addCell, hhistory, Ev.isHandler]
  . apply bind (hnew .succeeded)
    rintro c s1 h1 _ ⟨hc, hs1⟩
    subst hc hs1
    apply pure h1
    simp [hlt, hadd, hcell]
  . next si =>
    apply bind (runSi hh.closing hk hupd h hunowned si)
    rintro c s1 h1 _ ⟨hc, hopen1⟩
    apply bind (of_runs (Runs.cellAt hk h1 c))
    rintro o s2 _ _ ⟨_, hs2, ho, _⟩
    subst hs2 ho
    split
    . next htype =>
      apply pure h1
      simp [hc, hopen1 hist hopen, htype]
    . exact hk.fault _ _ _ h1 rfl (Breaks.refl _)

/--
What the result of a method says about the answer to the request.
-/
def Answers (cfg : Config V) (senderId : ServiceId) (reqHeader : ReqMsgHeader) (msg : Bytes)
    (ret : RpcResult) (s : St V) : Prop :=
  ret = .succeeded ∧ Settled s ∧ Served s
    ∨ ret = .failed ∧ ∃ hist, s.Unclosed hist ∧ Fails cfg senderId reqHeader msg .failed hist

theorem sendValue (hh : KeepsHandlers cfg P E) (hk : Keeps cfg.env (fun _ => True) P E)
    (hdouble : ∀ s s' e, Sound (fun _ => True) P s → DoubleFree s e s' → E e s')
    (h : Sound (fun _ => True) P s) {reqHeader : ReqMsgHeader} {msg : Bytes}
    {senderId : ServiceId} {method : MethodImpl V} {req : V} {c : CellId}
    (hmethod : cfg.Serves reqHeader method)
    (hreq : ThriftDecoder.decode (cfg.env.codec method.reqType) msg = some req)
    (hopen : s.Unclosed
      [.received senderId reqHeader msg, .invoked method.methodIndex req,
        .called reqHeader req (some ⟨c, s.it.cells c⟩)])
    (hvalue : (s.it.cells c).hasValue = true)
    : Handles P E s
        (do
          let ret ← sendRspCellValue cfg.env senderId (responseHeader reqHeader .succeeded) c
          deleteCell c
          return ret)
        (Answers cfg senderId reqHeader msg) := by
  have hsent : Handles P E s
      (sendRspCellValue cfg.env senderId (responseHeader reqHeader .succeeded) c)
      (fun ret s' => Answers cfg senderId reqHeader msg ret s'
        ∧ ∀ a, (s'.it.actions a).isFinalAction = false) := by
    have hsettled := Settled.of_unclosed hopen
    obtain ⟨v, hv⟩ := Option.isSome_iff_exists.mp hvalue
    unfold Handles
    apply wp_sendRspCellValue
    . intro _
      exact hk.fault s s _ h rfl (Breaks.refl s)
    . intro hnone
      refine ⟨h, Grows.refl s, ?_, hopen.isFinalAction⟩
      exact Or.inr ⟨rfl, _, hopen, 
        .unencodable method req c (s.it.cells c) v hmethod hreq hv (hnone v hv)⟩
    . intro v buf _ hv hbuf
      have heffect := HandlerEffect.response senderId reqHeader msg method.methodIndex req c
        (s.it.cells c) v buf hopen hv hbuf
      have hserved : Served (s.output (.response senderId
          ((responseHeader reqHeader .succeeded).toBytes ++ buf) s.own)) := by
        left
        simp [St.output, Shared.responses, Out.responseOf]
      exact ⟨sound hh h heffect, Grows.response _ _ _, Or.inl ⟨rfl, hsettled, hserved⟩,
        hopen.isFinalAction⟩
  apply bind hsent
  rintro ret s1 h1 _ ⟨hret, hfinal⟩
  unfold Handles
  rw [wp_bind]
  apply wp_mono (wp_deleteCell_frees h1.wellFormed c)
  . rintro _ s2 ⟨hfrees, _⟩
    rw [wp_pure]
    have hext := Extends.frees hfrees
    refine ⟨sound hh h1 (.delete s2 hfinal hfrees), Grows.extends hext hfrees.stack
      (SamePending.frees hfrees), ?_⟩
    cases hret with
    | inl hsucceeded =>
      obtain ⟨hret, hsettled, hserved⟩ := hsucceeded
      refine Or.inl ⟨hret, ?_, ?_⟩
      . intro a c' hclosed
        rw [← Interaction.mem_history rfl, hext.history, Interaction.mem_history rfl] at hclosed
        have := hsettled a c' hclosed
        rw [hfrees.cell c']
        exact this
      . unfold Served Shared.responses
        rw [hext.own, hfrees.shared]
        cases hserved with
        | inl hsent => exact Or.inl hsent
        | inr hclosed =>
          obtain ⟨a, c', isEmpty, hmem⟩ := hclosed
          exact Or.inr ⟨a, c', isEmpty, hext.log.subset hmem⟩
    | inr hfailed =>
      obtain ⟨hret, hist, hopen1, hfails⟩ := hfailed
      exact Or.inr ⟨hret, hist, hext.unclosed hopen1, hfails⟩
  . intro e s2 he
    exact hdouble s1 s2 e h1 he

-- `P` holds from the point on where the implementation is known
theorem invokeTemplatedMethod (hh : KeepsHandlers cfg P E)
    (hk : Keeps cfg.env (fun _ => True) P E) (hupd : Updates (fun _ => True) P R E upd)
    (hdouble : ∀ s s' e, Sound (fun _ => True) P s → DoubleFree s e s' → E e s')
    (hunowned : s.Unowned) {method : MethodImpl V} {reqHeader : ReqMsgHeader} {msg : Bytes}
    {senderId : ServiceId} (hopen : s.Unclosed [.received senderId reqHeader msg])
    (hmethod : cfg.Serves reqHeader method)
    (hreject : ThriftDecoder.decode (cfg.env.codec method.reqType) msg = none
      → Sound (fun _ => True) P s)
    (hinvoke : ∀ req, ThriftDecoder.decode (cfg.env.codec method.reqType) msg = some req
      → Sound (fun _ => True) P (s.record (.invoked method.methodIndex req)))
    : Handles P E s
        (invokeTemplatedMethod cfg.env upd method reqHeader msg senderId
          (responseHeader reqHeader .succeeded))
        (Answers cfg senderId reqHeader msg) := by
  unfold MsgRpc.invokeTemplatedMethod
  split
  . next hreq =>
    exact pure (hreject hreq) (Or.inr ⟨rfl, _, hopen, .undecodable method hmethod hreq⟩)
  . next req hreq =>
    apply bind (enter (hinvoke req hreq)
      (Grows.record _ fun _ => rfl))
    intro _ s0 h0 _ hs0
    have hopen0 : s0.Unclosed [.received senderId reqHeader msg, .invoked method.methodIndex req] := by
      rw [hs0]
      exact hopen.record rfl (by simp)
    have hunowned0 : s0.Unowned := by
      rw [hs0]
      exact hunowned
    apply bind (callImpl hh hk hupd h0 hunowned0 hopen0 method.rspType (method.impl req))
    rintro rspCell s1 h1 _ ⟨hcell, hopen1⟩
    have hcalled := HandlerEffect.called senderId reqHeader msg req method rspCell hopen1 hmethod
      hreq hcell
    apply bind (alter hh h1 hcalled (Grows.record _ fun _ => rfl))
    intro _ s2 h2 _ hs2
    have hopen2 : s2.Unclosed [.received senderId reqHeader msg, .invoked method.methodIndex req,
        .called reqHeader req (rspCell.map fun c => ⟨c, s2.it.cells c⟩)] := by
      rw [hs2]
      exact hopen1.record rfl (by simp)
    split
    . exact pure h2 (Or.inr ⟨rfl, _, hopen2, .nullptr method req hmethod hreq⟩)
    . next c =>
      apply bind (of_runs (Runs.cellAt hk h2 c))
      rintro r s3 _ _ ⟨_, hs3, hr, _⟩
      subst hs3 hr
      split
      . next hvalue => exact sendValue hh hk hdouble h2 hmethod hreq hopen2 hvalue
      . next hvalue =>
        have hnone : (s3.it.cells c).value = none := by
          simpa [Cell.hasValue, CellView.hasValue, Cell.view] using hvalue
        apply bind (deriveFinalAction hh.closing hk hupd h2 hopen2
          (.reply senderId reqHeader msg method.methodIndex req (s3.it.cells c) rfl hnone rfl))
        rintro _ s4 h4 _ ⟨hsettled, a, isEmpty, hhistory⟩
        have hclosed : .closed a c isEmpty ∈ s4.it.log := by
          rw [← Interaction.mem_history rfl, hhistory]
          simp
        exact pure h4 (Or.inl ⟨rfl, hsettled, Or.inr ⟨a, c, isEmpty, hclosed⟩⟩)

theorem onRpcReq_from {n : Nat} (hh : KeepsHandlers cfg P E)
    (hk : Keeps cfg.env (fun _ => True) P E)
    (hupd : Updates (fun _ => True) P R E (update cfg.env n))
    (hdouble : ∀ s s' e, Sound (fun _ => True) P s → DoubleFree s e s' → E e s')
    (hunowned : s.Unowned) (hopen : s.Unclosed []) (reqHeader : ReqMsgHeader) (msg : Bytes)
    (senderId : ServiceId)
    (hreject : (∀ method req, cfg.Serves reqHeader method
        → ThriftDecoder.decode (cfg.env.codec method.reqType) msg ≠ some req)
      → Sound (fun _ => True) P (s.record (.received senderId reqHeader msg)))
    (hinvoke : ∀ method req, cfg.Serves reqHeader method
      → ThriftDecoder.decode (cfg.env.codec method.reqType) msg = some req
      → Sound (fun _ => True) P ((s.record (.received senderId reqHeader msg)).record
          (.invoked method.methodIndex req)))
    : Handles P E s (onRpcReq cfg n reqHeader msg senderId)
        (fun _ s' => Settled s' ∧ Served s' ∧ .received senderId reqHeader msg ∈ s'.it.log) := by
  have hfail : ∀ s1 rpcResult hist, Sound (fun _ => True) P s1 → s1.Unclosed hist
      → Fails cfg senderId reqHeader msg rpcResult hist
      → .received senderId reqHeader msg ∈ s1.it.log
      → Handles P E s1
          (sendMsgWithHeader senderId (responseHeader reqHeader rpcResult) [])
          (fun _ s' => Settled s' ∧ Served s' ∧ .received senderId reqHeader msg ∈ s'.it.log) := by
    intro s1 rpcResult hist h1 hopen1 hfails hreceived1
    have heffect := HandlerEffect.failure senderId reqHeader msg rpcResult hist hopen1 hfails
    have hsettled : Settled s1 := Settled.of_unclosed hopen1
    have hserved : Served (s1.output (.response senderId
        (responseHeader reqHeader rpcResult).toBytes s1.own)) := by
      left
      simp [St.output, Shared.responses, Out.responseOf]
    exact ⟨sound hh h1 heffect, Grows.response _ _ _, hsettled, hserved, hreceived1⟩
  have hgrows : Grows s (s.record (.received senderId reqHeader msg)) :=
    Grows.record s fun _ => rfl
  have hreceived : .received senderId reqHeader msg
      ∈ (s.record (.received senderId reqHeader msg)).it.log := by
    simp [St.record]
  have hopen1 : (s.record (.received senderId reqHeader msg)).Unclosed
      [.received senderId reqHeader msg] :=
    hopen.record rfl (by simp)
  unfold MsgRpc.onRpcReq
  apply then_alter hgrows
  split
  . next hiface =>
    apply hfail _ .ifaceNotFound _ _ hopen1 (.ifaceNotFound hiface) hreceived
    apply hreject
    rintro method req ⟨methods, hmethods, _⟩
    simp [hiface] at hmethods
  . next methods hmethods =>
    have hrun : Handles P E (s.record (.received senderId reqHeader msg))
        (onRpcInvoke cfg.env (update cfg.env n) methods reqHeader msg
          (responseHeader reqHeader .succeeded) senderId)
        (fun r s' => r.1 = .succeeded ∧ Settled s' ∧ Served s'
          ∨ (r.1 = .failed ∨ r.1 = .methodNotFound) ∧ r.2 = responseHeader reqHeader r.1
            ∧ ∃ hist, s'.Unclosed hist ∧ Fails cfg senderId reqHeader msg r.1 hist) := by
      unfold onRpcInvoke
      split
      . next method hmethod =>
        have hserves : cfg.Serves reqHeader method := ⟨methods, hmethods, hmethod⟩
        have honly : ∀ method', cfg.Serves reqHeader method' → method' = method := by
          rintro method' ⟨methods', hmethods', hmethod'⟩
          simp only [hmethods, Option.some.injEq] at hmethods'
          rw [← hmethods', hmethod] at hmethod'
          simpa using hmethod'.symm
        have hreject' : ThriftDecoder.decode (cfg.env.codec method.reqType) msg = none
            → Sound (fun _ => True) P (s.record (.received senderId reqHeader msg)) := by
          intro hnone
          apply hreject
          intro method' req hserves'
          rw [honly method' hserves', hnone]
          simp
        have hmethodRun := invokeTemplatedMethod hh hk hupd hdouble
          (s := s.record (.received senderId reqHeader msg)) hunowned hopen1 hserves hreject'
          (fun req hreq => hinvoke method req hserves hreq)
        apply bind hmethodRun
        intro ret s2 h2 _ hret
        cases hret with
        | inl hsucceeded =>
          rw [if_neg (by rw [hsucceeded.1]; decide)]
          exact pure h2 (Or.inl hsucceeded)
        | inr hfailed =>
          rw [if_pos hfailed.1, hfailed.1]
          exact pure h2 (Or.inr ⟨Or.inl rfl, rfl, hfailed.2⟩)
      . next hnone =>
        apply pure _ (Or.inr ⟨Or.inr rfl, rfl, _, hopen1, .methodNotFound methods hmethods hnone⟩)
        apply hreject
        rintro method req ⟨methods', hmethods', hmethod'⟩
        simp only [hmethods, Option.some.injEq] at hmethods'
        simp [← hmethods', hnone] at hmethod'
    apply bind hrun
    rintro ⟨ret, rspHeader⟩ s2 h2 hgrows2 hret
    have hreceived2 := hgrows2.log.subset hreceived
    dsimp only at hret ⊢
    cases hret with
    | inl hsucceeded =>
      rw [if_neg (by rw [hsucceeded.1]; decide)]
      exact pure h2 ⟨hsucceeded.2.1, hsucceeded.2.2, hreceived2⟩
    | inr hfailed =>
      obtain ⟨hret, hheader, hist, hopen2, hfails⟩ := hfailed
      rw [if_pos hret, hheader]
      exact hfail s2 ret hist h2 hopen2 hfails hreceived2

theorem onRpcReq {n : Nat} (hh : KeepsHandlers cfg P E) (hk : Keeps cfg.env (fun _ => True) P E)
    (hupd : Updates (fun _ => True) P R E (update cfg.env n))
    (hdouble : ∀ s s' e, Sound (fun _ => True) P s → DoubleFree s e s' → E e s')
    (h : Sound (fun _ => True) P s) (hunowned : s.Unowned) (hopen : s.Unclosed [])
    (reqHeader : ReqMsgHeader) (msg : Bytes) (senderId : ServiceId)
    : Handles P E s (MsgRpc.onRpcReq cfg n reqHeader msg senderId)
        (fun _ s' => Settled s' ∧ Served s' ∧ .received senderId reqHeader msg ∈ s'.it.log) := by
  have h1 := sound hh h (.received senderId reqHeader msg hopen)
  have hopen1 : (s.record (.received senderId reqHeader msg)).Unclosed
      [.received senderId reqHeader msg] :=
    hopen.record rfl (by simp)
  apply onRpcReq_from hh hk hupd hdouble hunowned hopen reqHeader msg senderId
  . intro _
    exact h1
  . intro method req hmethod hreq
    exact sound hh h1 (.invoked senderId reqHeader msg req method hopen1 hmethod hreq)

end Handles
end MsgRpc
