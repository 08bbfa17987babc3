import MsgRpc.Msg.CodeStep

/-!
This module contains the proof that a call of a stub that fails leaves nothing behind but the failed
cell it returns.
-/

namespace MsgRpc

open StateProg Relation

/--
What is tracked, or about to be, has been allocated.
-/
structure Allocated (s : St V) : Prop where
  tracked : ∀ c, .cell c ∈ s.it.releaseList → c < s.it.cellCount
  constructed : ∀ c, .construct (.cell c) ∈ s.stack → c < s.it.cellCount

namespace Allocated

variable {cfg : Config V} {s s' : St V}

theorem congr (h : Allocated s) (hlist : s'.it.releaseList ⊆ s.it.releaseList)
    (hstack : s'.stack ⊆ s.stack) (hcount : s.it.cellCount ≤ s'.it.cellCount)
    : Allocated s' where
  tracked c hc := Nat.lt_of_lt_of_le (h.tracked c (hlist hc)) hcount
  constructed c hc := Nat.lt_of_lt_of_le (h.constructed c (hstack hc)) hcount

theorem track (h : Allocated s) {u : Updatable} (hu : ∀ c, u = .cell c → c < s.it.cellCount)
    : Allocated (s.track u) where
  tracked c hc := by
    simp only [St.track, List.mem_append, List.mem_singleton] at hc
    cases hc with
    | inl hmem => exact h.tracked c hmem
    | inr heq => exact hu c heq.symm
  constructed := h.constructed

theorem pushFrame (h : Allocated s) {f : Frame}
    (hf : ∀ c, f = .construct (.cell c) → c < s.it.cellCount)
    : Allocated (s.pushFrame f) where
  tracked := h.tracked
  constructed c hc := by
    simp only [St.pushFrame, List.mem_cons] at hc
    cases hc with
    | inl heq => exact hf c heq.symm
    | inr hmem => exact h.constructed c hmem

theorem addCell (h : Allocated s) (o : Cell V) : Allocated (s.addCell o) :=
  h.congr (List.Subset.refl _) (List.Subset.refl _) (Nat.le_succ _)

theorem same (h : Allocated s) (hlist : s'.it.releaseList = s.it.releaseList)
    (hstack : s'.stack = s.stack) (hcount : s'.it.cellCount = s.it.cellCount)
    : Allocated s' := by
  apply h.congr
  . simp [hlist]
  . simp [hstack]
  . simp [hcount]

theorem effect (h : Allocated s) {env : Env V} (heffect : Effect env (fun _ => True) s s')
    : Allocated s' := by
  cases heffect with
  | push f hf =>
    apply h.pushFrame
    intro c heq
    simp [heq, Frame.isConstruct] at hf
  | pop f stack hf hs => exact h.congr (List.Subset.refl _) (List.tail_subset _) (Nat.le_refl _)
  | newCell type kind _ _ =>
    apply (h.addCell _).pushFrame
    simp [St.addCell]
  | newAction bind _ _ =>
    have hadd : Allocated (s.addAction { bind }) := h.same rfl rfl rfl
    apply hadd.pushFrame
    simp
  | track u stack hs _ =>
    have hpop : Allocated s.popFrame :=
      h.congr (List.Subset.refl _) (List.tail_subset _) (Nat.le_refl _)
    apply hpop.track
    intro c hu
    apply h.constructed c
    simp [hs, hu]
  | drop c stack hs _ _ _ _ _ =>
    have hpop : Allocated s.popFrame :=
      h.congr (List.Subset.refl _) (List.tail_subset _) (Nat.le_refl _)
    apply hpop.same <;> unfold St.removeRspHandlerOf <;> split <;> rfl
  | failedCell type reason _ =>
    apply (h.addCell _).track
    simp [St.addCell]
  | newHook t data _ _ _ =>
    exact (h.addCell { type := env.boolType, kind := .timeoutHook }).same rfl rfl rfl
  | _ => exact h.same rfl rfl rfl

theorem handlerEffect (h : Allocated s) (heffect : HandlerEffect cfg s s') : Allocated s' := by
  cases heffect with
  | setResult c _ _ =>
    exact h.congr (List.filter_subset_self _) (List.Subset.refl _) (Nat.le_refl _)
  | close bind c _ _ _ _ _ _ _ =>
    have htrack : Allocated (s.track (.action s.it.actionCount)) := by
      apply h.track
      simp
    exact htrack.same rfl rfl rfl
  | closeLate bind c _ _ _ _ _ =>
    have hadd : Allocated (s.addFinalAction bind c false) := h.same rfl rfl rfl
    apply hadd.pushFrame
    simp
  | popFrame _ => exact h.congr (List.Subset.refl _) (List.tail_subset _) (Nat.le_refl _)
  | track a _ =>
    apply h.track
    simp
  | newCell type status => exact h.addCell _
  | delete _ _ hfrees => exact h.same hfrees.releaseList hfrees.stack hfrees.cellCount
  | _ => exact h.same rfl rfl rfl

theorem codeStep (h : Allocated s) (hstep : CodeStep cfg s s') : Allocated s' := by
  cases hstep with
  | effect _ heffect => exact h.effect heffect
  | handler _ heffect => exact h.handlerEffect heffect
  | assign c o _ => cases o <;> exact h.same rfl rfl rfl
  | release _ _ _ hfrees => exact h.same hfrees.releaseList hfrees.stack hfrees.cellCount
  | _ => exact h.same rfl rfl rfl

end Allocated

/--
Between `sh` and `sh'` ids have been drawn, no other ids have come into the response table.
-/
def Draws (sh sh' : Shared V) : Prop :=
  ∃ new, sh'.issued = new ++ sh.issued
    ∧ ∀ k ∉ new, sh.idFuncMap k = none → sh'.idFuncMap k = none

namespace Draws

theorem refl (sh : Shared V) : Draws sh sh :=
  ⟨[], rfl, fun _ _ h => h⟩

theorem trans {sh1 sh2 sh3 : Shared V} (h : Draws sh1 sh2) (h' : Draws sh2 sh3)
    : Draws sh1 sh3 := by
  obtain ⟨new, hissued, hnone⟩ := h
  obtain ⟨new', hissued', hnone'⟩ := h'
  refine ⟨new' ++ new, ?_, ?_⟩
  . rw [hissued', hissued, List.append_assoc]
  . intro k hk
    rw [List.mem_append, not_or] at hk
    intro hk0
    exact hnone' k hk.1 (hnone k hk.2 hk0)

-- ids go out of use
theorem removes {sh sh' : Shared V} (hissued : sh'.issued = sh.issued)
    (hremoves : ∀ k, sh'.idFuncMap k = sh.idFuncMap k ∨ sh'.idFuncMap k = none)
    : Draws sh sh' := by
  refine ⟨[], hissued, ?_⟩
  intro k _ hk
  cases hremoves k with
  | inl hsame => rw [hsame, hk]
  | inr hnone => exact hnone

theorem setRspHandler (s : St V) (k : RpcSequenceIdT)
    : Draws s.sh (s.setRspHandler k none).sh := by
  apply removes
  . rfl
  . intro k'
    by_cases heq : k' = k <;> simp [St.setRspHandler, heq]

theorem frees {s s' : St V} (hfrees : Frees s s') : Draws s.sh s'.sh := by
  apply removes
  . rw [hfrees.shared]
  . intro k
    cases hfrees.removed k with
    | inl hsame => exact Or.inl hsame
    | inr hnone => exact Or.inr hnone.1

theorem effect {env : Env V} {A : Updatable → Prop} {s s' : St V} (heffect : Effect env A s s')
    : Draws s.sh s'.sh := by
  cases heffect with
  | drop c _ _ _ _ _ _ _ =>
    change Draws s.sh (s.popFrame.removeRspHandlerOf c).sh
    unfold St.removeRspHandlerOf
    split
    . exact setRspHandler s.popFrame _
    . exact refl s.sh
  | register c _ _ _ _ _ _ =>
    refine ⟨[s.nextSeqId], rfl, ?_⟩
    intro k hk hnone
    rw [List.mem_singleton] at hk
    simp [St.register, St.setSeqId, St.setCell, St.setRspHandler, St.next, hk, hnone]
  | _ => exact refl s.sh

theorem codeStep {cfg : Config V} {s s' : St V} (hstep : CodeStep cfg s s') : Draws s.sh s'.sh := by
  cases hstep with
  | effect _ heffect => exact effect heffect
  | handler _ heffect =>
    cases heffect with
    | delete _ _ hfrees => exact frees hfrees
    | _ => exact refl s.sh
  | assign c o _ => cases o <;> exact refl s.sh
  | release s' _ _ hfrees =>
    change Draws s.sh s'.sh
    exact frees hfrees
  | unregister c k _ => exact setRspHandler _ k
  | _ => exact refl s.sh

theorem codeSteps {cfg : Config V} {s s' : St V} (hsteps : CodeSteps cfg s s')
    : Draws s.sh s'.sh := by
  induction hsteps with
  | refl => exact refl s.sh
  | tail _ hlast ih => exact ih.trans (codeStep hlast)

theorem nodeSteps {cfg : Config V} {nd nd' : Node V} (hsteps : NodeSteps cfg nd nd')
    : Draws nd.sh nd'.sh := by
  induction hsteps with
  | refl => exact refl nd.sh
  | tail _ hlast ih =>
    apply ih.trans
    cases hlast with
    | code m it s _ hcode => exact codeSteps hcode
    | _ => exact refl _

end Draws

/--
The ways a call of a stub fails.
-/
inductive SendFails (env : Env V) (s : St V) (call : StubCall V) : Prop where
  | encode (h : ThriftEncoder.encode (env.codec call.reqType) call.req = none)
  | malloc (h : (s.sh.net s.sh.sends).mallocOk = false)
  | resolve (h : (s.sh.net s.sh.sends).serviceId = none)
  | refuse (h : (s.sh.net s.sh.sends).sendOk = false)

/--
All that is left of a call in `s'` is the failed cell `c`.
-/
structure NoTrace (call : StubCall V) (s s' : St V) (c : CellId) : Prop where
  failed : s'.it.cells c = { type := call.rspType, kind := .cell, status := .failed }
  new : s.it.cellCount ≤ c
  releaseList : s'.it.releaseList = s.it.releaseList ++ [.cell c]
  trackedOnce : s'.it.releaseList.count (.cell c) = 1
  idFuncMap : s'.sh.idFuncMap = s.sh.idFuncMap
  others : ∀ c' < s.it.cellCount, s'.it.cells c' = s.it.cells c'
  temporary : ∀ c', s.it.cellCount ≤ c' → c' ≠ c
    → (s'.it.cells c').alive = false ∧ .cell c' ∉ s'.it.releaseList
  actions : s'.it.actions = s.it.actions
  out : s'.sh.out = s.sh.out

section FailedSend

variable {env : Env V} {s : St V} {call : StubCall V}

theorem Allocated.not_tracked (h : Allocated s) {c : CellId} (hc : s.it.cellCount ≤ c)
    : .cell c ∉ s.it.releaseList := by
  intro hmem
  have := h.tracked c hmem
  lia

theorem NoTrace.of_failedCell (hwf : WellFormed s) (halloc : Allocated s) {s1 : St V}
    (hcount : s.it.cellCount ≤ s1.it.cellCount)
    (hothers : ∀ c < s.it.cellCount, s1.it.cells c = s.it.cells c)
    (hdead : ∀ c, s.it.cellCount ≤ c → (s1.it.cells c).alive = false)
    (hlist : s1.it.releaseList = s.it.releaseList) (hactions : s1.it.actions = s.it.actions)
    (htable : s1.sh.idFuncMap = s.sh.idFuncMap) (hout : s1.sh.out = s.sh.out)
    : NoTrace call s
        ((s1.addCell { type := call.rspType, kind := .cell, status := .failed }).track
          (.cell s1.it.cellCount))
        s1.it.cellCount := by
  have hnot : .cell s1.it.cellCount ∉ s.it.releaseList := halloc.not_tracked hcount
  constructor
  case failed => simp [St.track, St.addCell]
  case new => exact hcount
  case releaseList => simp [St.track, St.addCell, hlist]
  case trackedOnce => simp [St.track, St.addCell, hlist, List.count_eq_zero_of_not_mem hnot]
  case idFuncMap => exact htable
  case others =>
    intro c hc
    have hne : c ≠ s1.it.cellCount := by lia
    simp [St.track, St.addCell, hne, hothers c hc]
  case temporary =>
    intro c hc hne
    simp [St.track, St.addCell, hne, hdead c hc, hlist, halloc.not_tracked hc]
  case actions => exact hactions
  case out => exact hout

-- what is reported of the failure has been done halfway: the temporary cell may be registered
theorem wp_sendRpcRequestBuf_fails {c : CellId} (halive : (s.it.cells c).alive = true)
    (hfails : (s.sh.net s.sh.sends).mallocOk = false ∨ (s.sh.net s.sh.sends).serviceId = none
      ∨ (s.sh.net s.sh.sends).sendOk = false)
    (pbuf : Bytes)
    : wp (sendRpcRequestBuf call pbuf c)
        (fun sent s' => sent = false
          ∧ (s' = s.useNet ∨ s.sh.idFuncMap s.nextSeqId = none ∧ s' = s.useNet.register c))
        (fun e _ => e = .assertion .uniqueSeqId ∧ s.sh.idFuncMap s.nextSeqId ≠ none
          ∨ e = .useAfterFree ∧ s.it.ctxtAlive = false) s := by
  unfold sendRpcRequestBuf
  simp only [wp_bind, wp_nextSendOutcome]
  split
  . next hmalloc =>
    have hrest : (s.sh.net s.sh.sends).serviceId = none ∨ (s.sh.net s.sh.sends).sendOk = false := by
      simpa [hmalloc] using hfails
    unfold RspMsgHandler.registerRspHandler
    simp only [wp_bind, wp_next, wp_get, wp_assert, wp_alter, wp_cellAt, wp_serviceResolver]
    have hid : s.useNet.next.sh.idFuncMap s.useNet.nextSeqId = s.sh.idFuncMap s.nextSeqId := rfl
    rw [hid]
    refine ⟨?_, ?_⟩
    . intro hunique
      rw [Option.isNone_iff_eq_none] at hunique
      refine ⟨fun _ => ⟨fun _ => ?_, fun hctxt => Or.inr ⟨trivial, hctxt⟩⟩, ?_⟩
      . split
        . next serviceId hserviceId =>
          have hrefused : (s.sh.net s.sh.sends).sendOk = false := by
            simpa [hserviceId] using hrest
          simp only [hrefused, Bool.false_eq_true, ↓reduceIte, wp_pure]
          exact ⟨trivial, Or.inr ⟨hunique, rfl⟩⟩
        . exact ⟨rfl, Or.inr ⟨hunique, rfl⟩⟩
      . intro hdead
        simp [St.setRspHandler, St.next, St.useNet, halive] at hdead
    . intro hmapped
      left
      refine ⟨trivial, ?_⟩
      intro hnone
      simp [hnone] at hmapped
  . exact ⟨rfl, Or.inl rfl⟩

-- the end of a failing call: the temporary cell is deleted, a failed cell takes its place
theorem wp_discard (hwf : WellFormed s) (halloc : Allocated s) {s1 : St V} {o : Cell V}
    (ho : o.kind = .cell ∧ o.hasContext = false ∧ o.alive = true)
    (hcells : s1.it.cells = Function.update s.it.cells s.it.cellCount o)
    (hcount : s1.it.cellCount = s.it.cellCount + 1)
    (hlist : s1.it.releaseList = s.it.releaseList) (hactions : s1.it.actions = s.it.actions)
    (htable : (s1.removeRspHandlerOf s.it.cellCount).sh.idFuncMap = s.sh.idFuncMap)
    (hout : s1.sh.out = s.sh.out)
    : wp (do deleteCell s.it.cellCount; failedCellWithReason call.rspType .failed)
        (fun c s' => NoTrace call s s' c ∧ s'.sh.issued = s1.sh.issued)
        (fun e _ => e = .useAfterFree ∧ s1.it.ctxtAlive = false) s1 := by
  obtain ⟨hkind, hctxt, halive⟩ := ho
  have hself : s1.it.cells s.it.cellCount = o := by
    rw [hcells, Function.update_self]
  have hit := it_removeRspHandlerOf s1 s.it.cellCount
  rw [wp_bind, wp_deleteCell (by rw [hself, hkind]) (by rw [hself, hctxt])]
  refine ⟨?_, ?_⟩
  . intro _
    unfold failedCellWithReason
    simp only [wp_bind, wp_newCell, wp_track, wp_pure]
    refine ⟨?_, ?_⟩
    . intro _
      refine ⟨?_, ?_⟩
      . apply NoTrace.of_failedCell hwf halloc
        . change s.it.cellCount ≤ (s1.removeRspHandlerOf s.it.cellCount).it.cellCount
          rw [hit, hcount]
          exact Nat.le_succ _
        . intro c hc
          have hne : c ≠ s.it.cellCount := by lia
          simp [St.freeCell, St.record, St.setCell, hit, hcells, hne]
        . intro c hc
          by_cases heq : c = s.it.cellCount
          . simp [St.freeCell, St.record, St.setCell, heq]
          . simp [St.freeCell, St.record, St.setCell, hit, hcells, heq, hwf.cellFresh c hc,
              Cell.unallocated]
        . change (s1.removeRspHandlerOf s.it.cellCount).it.releaseList = _
          rw [hit, hlist]
        . change (s1.removeRspHandlerOf s.it.cellCount).it.actions = _
          rw [hit, hactions]
        . exact htable
        . change (s1.removeRspHandlerOf s.it.cellCount).sh.out = _
          rw [(Halts.removeRspHandlerOf s1 _).out, hout]
      . change (s1.removeRspHandlerOf s.it.cellCount).sh.issued = _
        unfold St.removeRspHandlerOf
        split <;> rfl
    . intro hdead
      refine ⟨trivial, ?_⟩
      rw [← hdead]
      change _ = (s1.removeRspHandlerOf s.it.cellCount).it.ctxtAlive
      rw [hit]
  . simp [hself, halive]

theorem wp_encodeRequestAndSend_fails (hwf : WellFormed s) (halloc : Allocated s)
    (hfails : SendFails env s call)
    : wp (encodeRequestAndSend env call)
        (fun c s' => NoTrace call s s' c
          ∧ (s'.sh.issued = s.sh.issued
            ∨ s.sh.idFuncMap s.nextSeqId = none ∧ s'.sh.issued = s.nextSeqId :: s.sh.issued))
        (fun e _ => e = .assertion .uniqueSeqId ∧ s.sh.idFuncMap s.nextSeqId ≠ none
          ∨ e = .useAfterFree ∧ s.it.ctxtAlive = false) s := by
  have hfresh : ∀ c, s.it.cellCount ≤ c → (s.it.cells c).alive = false := by
    intro c hc
    rw [hwf.cellFresh c hc]
    rfl
  unfold encodeRequestAndSend
  split
  . next pbuf hpbuf =>
    have hfails' : (s.sh.net s.sh.sends).mallocOk = false
        ∨ (s.sh.net s.sh.sends).serviceId = none ∨ (s.sh.net s.sh.sends).sendOk = false := by
      cases hfails with
      | encode h => simp [hpbuf] at h
      | malloc h => exact Or.inl h
      | resolve h => exact Or.inr (Or.inl h)
      | refuse h => exact Or.inr (Or.inr h)
    unfold withFrame
    simp only [wp_bind, wp_newCell, wp_alter, wp_pure]
    apply wp_mono (wp_sendRpcRequestBuf_fails ?alive ?fails pbuf)
    case alive => simp [St.pushFrame, St.addCell]
    case fails => exact hfails'
    . rintro sent s1 ⟨hsent, hs1⟩
      subst hsent
      simp only [Bool.false_eq_true, ↓reduceIte]
      -- the destructor of the temporary cell takes it out of the table
      cases hs1 with
      | inl hunregistered =>
        subst hunregistered
        apply wp_mono (wp_discard (o := { type := call.rspType, kind := .cell }) hwf halloc
          ⟨rfl, rfl, rfl⟩ ?cells ?count ?list ?actions ?table ?out)
        case table => simp [St.removeRspHandlerOf, St.popFrame, St.useNet, St.pushFrame, St.addCell]
        case cells | count | list | actions | out => rfl
        . rintro c s' ⟨htrace, hissued⟩
          exact ⟨htrace, Or.inl hissued⟩
        . rintro e _ he
          exact Or.inr he
      | inr hregistered =>
        obtain ⟨hunique, hs1⟩ := hregistered
        subst hs1
        apply wp_mono (wp_discard
          (o := { type := call.rspType, kind := .cell, hasSeqId := true, seqId := s.nextSeqId })
          hwf halloc ⟨rfl, rfl, rfl⟩ ?cells ?count ?list ?actions ?table ?out)
        case cells =>
          simp only [St.register, St.setSeqId, St.setCell, St.setRspHandler, St.next, St.popFrame,
            St.useNet, St.pushFrame, St.addCell, Function.update_idem, Function.update_self]
          rfl
        case table =>
          have hid : s.sh.idFuncMap s.nextSeqId = none := hunique
          simp only [St.removeRspHandlerOf, St.register, St.setSeqId, St.setCell, St.setRspHandler,
            St.next, St.popFrame, St.useNet, St.pushFrame, St.addCell, Function.update_self,
            ↓reduceIte, Function.update_idem]
          exact Function.update_eq_self_iff.mpr hid.symm
        case count | list | actions | out => rfl
        . rintro c s' ⟨htrace, hissued⟩
          exact ⟨htrace, Or.inr ⟨hunique, hissued⟩⟩
        . rintro e _ he
          exact Or.inr he
    . intro e _ he
      exact he
  . unfold MsgRpc.failedCellWithReason
    simp only [wp_bind, wp_newCell, wp_track, wp_pure]
    refine ⟨?_, ?_⟩
    . intro _
      refine ⟨?_, Or.inl rfl⟩
      exact NoTrace.of_failedCell hwf halloc (Nat.le_refl _) (fun _ _ => rfl) hfresh rfl rfl rfl rfl
    . intro hctxt
      exact Or.inr ⟨trivial, hctxt⟩

end FailedSend

/--
Neither a response nor a timeout with id `k` changes anything.
-/
def Deaf (cfg : Config V) (k : RpcSequenceIdT) (nd : Node V) : Prop :=
  (∀ n msg rspHeader payload, RspMsgHeader.ofBytes msg = some ⟨rspHeader, payload⟩
    → rspHeader.sequenceId = k → RspMsgHandler.handleRpcRsp cfg n msg nd = .ok () nd)
    ∧ ∀ n, RspMsgHandler.onRspHandlerTimeout cfg n k nd = .ok () nd

theorem Deaf.of_unmapped {cfg : Config V} {k : RpcSequenceIdT} {nd : Node V}
    (h : nd.sh.idFuncMap k = none)
    : Deaf cfg k nd := by
  refine ⟨?_, ?_⟩
  . intro n msg rspHeader payload hheader hk
    unfold RspMsgHandler.handleRpcRsp
    rw [hheader]
    simp only [bind, EStateM.bind, get, getThe, MonadStateOf.get, EStateM.get, hk, h]
    rfl
  . intro n
    unfold RspMsgHandler.onRspHandlerTimeout
    simp only [bind, EStateM.bind, get, getThe, MonadStateOf.get, EStateM.get, h]
    rfl

/--
The code of any interaction of a process may call a stub anywhere. If the call fails, and is not
aborted because the drawn id is in use or there is no context, it leaves no trace. Whatever happens
later on, nobody listens to the id it has used up until the id is drawn again.
-/
theorem IfaceStubBase.failedSend_leavesNoTrace (cfg : Config V) (start : UInt32)
    (net : Nat → SendOutcome) {nd : Node V} {m : Nat} {it : Interaction V} {s : St V}
    {call : StubCall V} (hnd : NodeSteps cfg (Node.init start net) nd)
    (hit : nd.its[m]? = some it) (hs : CodeSteps cfg (nd.st m it) s)
    (hfails : SendFails cfg.env s call)
    : wp (encodeRequestAndSend cfg.env call)
        (fun c s' => NoTrace call s s' c
          ∧ ∀ k s1 nd1 new, s'.sh.issued = k :: s.sh.issued → CodeSteps cfg s' s1
            → NodeSteps cfg (nd.withSt s1) nd1 → nd1.sh.issued = new ++ s'.sh.issued → k ∉ new
            → Deaf cfg k nd1)
        (fun e _ => e = .assertion .uniqueSeqId ∧ s.sh.idFuncMap s.nextSeqId ≠ none
          ∨ e = .useAfterFree ∧ s.it.ctxtAlive = false) s := by
  have hits : ∀ m it, nd.its[m]? = some it
      → WellFormed (nd.st m it) ∧ ∀ c, .cell c ∈ it.releaseList → c < it.cellCount := by
    apply hnd.invariant (I := Allocated)
    . simp [Node.init]
    . simp
    . intro nd m it hit
      exact ⟨hit, by simp [Node.st]⟩
    . intro s hs
      exact hs.tracked
    . intro s s' _ hs hstep
      exact hs.codeStep hstep
  obtain ⟨hwf0, htracked⟩ := hits m it hit
  have halloc0 : Allocated (nd.st m it) := ⟨htracked, by simp [Node.st]⟩
  obtain ⟨hwf, halloc⟩ := hs.invariant hwf0 halloc0 fun s s' _ hs hstep => hs.codeStep hstep
  apply wp_mono (wp_encodeRequestAndSend_fails hwf halloc hfails)
  . rintro c s' ⟨htrace, hissued⟩
    refine ⟨htrace, ?_⟩
    intro k s1 nd1 new hk hcode hnodes hnew hdrawn
    have hunmapped : s'.sh.idFuncMap k = none := by
      rw [hk] at hissued
      cases hissued with
      | inl hsame => simp at hsame
      | inr hone =>
        obtain ⟨hunique, heq⟩ := hone
        simp only [List.cons.injEq, and_true] at heq
        rw [htrace.idFuncMap, heq, hunique]
    have hdraws : Draws s'.sh nd1.sh :=
      (Draws.codeSteps hcode).trans (Draws.nodeSteps hnodes)
    obtain ⟨new', hissued', hnone⟩ := hdraws
    rw [hissued', List.append_cancel_right_eq] at hnew
    subst hnew
    exact Deaf.of_unmapped (hnone k hdrawn hunmapped)
  . intro e s' he
    exact he

/--
The channel refuses the first request of a process.
-/
theorem IfaceStubBase.failedSend_leavesNoTrace_refused
    : ∃ c s',
        encodeRequestAndSend (Config.bytes fun _ => none).env ⟨"service", 1, 1, 0, 0, 7⟩
          ((Node.init 0 fun _ => ⟨true, some 5, false⟩).startNew.st 0 {}) = .ok c s'
        ∧ NoTrace ⟨"service", 1, 1, 0, 0, 7⟩
          ((Node.init 0 fun _ => ⟨true, some 5, false⟩).startNew.st 0 {}) s' c
        ∧ Deaf (Config.bytes fun _ => none) 1
          ((Node.init 0 fun _ => ⟨true, some 5, false⟩).startNew.withSt s') := by
  have htest : returns (encodeRequestAndSend (Config.bytes fun _ => none).env
      ⟨"service", 1, 1, 0, 0, 7⟩ ((Node.init 0 fun _ => ⟨true, some 5, false⟩).startNew.st 0 {}))
      (fun _ s' => s'.sh.issued = [1]) = true := by
    decide +kernel
  obtain ⟨c, s', hcall, hissued⟩ := exists_of_returns htest
  have hfails : SendFails (Config.bytes fun _ => none).env
      ((Node.init 0 fun _ => ⟨true, some 5, false⟩).startNew.st 0 {})
      ⟨"service", 1, 1, 0, 0, 7⟩ := .refuse rfl
  have hends := IfaceStubBase.failedSend_leavesNoTrace _ 0 _ (.single .startNew) (m := 0) rfl .refl
    hfails
  obtain ⟨htrace, hlater⟩ := wp_of_ok hends hcall
  refine ⟨c, s', hcall, htrace, ?_⟩
  exact hlater 1 s' _ [] (of_decide_eq_true hissued) .refl .refl rfl List.not_mem_nil

end MsgRpc
