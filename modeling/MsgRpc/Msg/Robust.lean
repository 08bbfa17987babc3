import MsgRpc.Cell.Footprint
import MsgRpc.Msg.Teardown

/-!
This module contains what a message can do at most: fail an assertion if it is malformed, and
resolve the one cell its sequence id is registered for.
-/

namespace MsgRpc

open StateProg

/--
What hears of cell `c` being set, directly or through others.
-/
inductive Depends (it : Interaction V) (c : CellId) : Updatable → Prop where
  | self : Depends it c (.cell c)
  | listener (x : CellId) (u : Updatable) (hx : Depends it c (.cell x))
      (hu : u ∈ (it.cells x).updatables)
    : Depends it c u
  | target (a : ActionId) (t : CellId) (ha : Depends it c (.action a))
      (ht : (it.actions a).bind.target = some t)
    : Depends it c (.cell t)
  | hook (x h : CellId) (hx : Depends it c (.cell x)) (hh : (it.cells x).kind.hook = some h)
    : Depends it c (.cell h)

def Interaction.has (it : Interaction V) (u : Updatable) : Prop :=
  match u with
  | .cell c => c < it.cellCount
  | .action a => a < it.actionCount

-- what setting `c` may reach, new objects included
def Reach (it : Interaction V) (c : CellId) (u : Updatable) : Prop :=
  Depends it c u ∨ ¬it.has u

theorem Fenced.reach {s : St V} (h : WellFormed s) (c : CellId) : Fenced (Reach s.it c) s := by
  constructor
  . intro c' hc'
    right
    simp [Interaction.has, hc']
  . intro a ha
    right
    simp [Interaction.has, ha]
  . intro x hx u hu
    cases hx with
    | inl hdep => exact Or.inl (.listener x u hdep hu)
    | inr hnew =>
      simp only [Interaction.has, Nat.not_lt] at hnew
      rw [h.cellFresh x hnew] at hu
      simp [Cell.unallocated] at hu
  . intro a t ha ht
    cases ha with
    | inl hdep => exact Or.inl (.target a t hdep ht)
    | inr hnew =>
      simp only [Interaction.has, Nat.not_lt] at hnew
      rw [h.actionFresh a hnew] at ht
      simp [Action.unallocated, Bind.target] at ht
  . intro x t hx ht
    cases hx with
    | inl hdep => exact Or.inl (.hook x t hdep ht)
    | inr hnew =>
      simp only [Interaction.has, Nat.not_lt] at hnew
      rw [h.cellFresh x hnew] at ht
      simp [Cell.unallocated, CellKind.hook] at ht

/--
Between `nd` and `nd'` cell `c` of interaction `m` has been resolved, and no cell that does not
depend on it has changed. Only if the interaction has been released, the cell may have been freed.
-/
structure ResolvesOnly (m : Nat) (c : CellId) (nd nd' : Node V) : Prop where
  others : ∀ m', m' ≠ m → nd'.its[m']? = nd.its[m']?
  resolved : ∃ it', nd'.its[m]? = some it' ∧ (it'.cells c).hasValueOrError = true
  same : ∀ it it', nd.its[m]? = some it → nd'.its[m]? = some it' → ∀ x < it.cellCount,
    ¬Depends it c (.cell x)
      → (it.cells x).Same (it'.cells x)
        ∧ (nd'.released = false → (it'.cells x).alive = (it.cells x).alive)

/--
Nothing happens, or the cell `o` stands for is resolved.
-/
def ResolvesAtMost (o : Option (Nat × CellId)) (nd nd' : Node V) : Prop :=
  match o with
  | some ⟨m, c⟩ => ResolvesOnly m c nd nd'
  | none => nd' = nd

def carriedId (cfg : Config V) (msgId : MsgIdT) (msg : Bytes) : Option RpcSequenceIdT :=
  if msgId = cfg.requestMsgId then
    none
  else if msgId = cfg.responseMsgId then
    (RspMsgHeader.ofBytes msg).map fun r => r.1.sequenceId
  else if msgId = cfg.timeoutMsgId then
    some (TimerInfo.seqId cfg msg)
  else
    none

/--
A message is ignored or resolves the cell registered under the id it carries.
-/
def Confined (cfg : Config V) (msgId : MsgIdT) (msg : Bytes) (nd nd' : Node V) : Prop :=
  msgId = cfg.requestMsgId
    ∨ ResolvesAtMost ((carriedId cfg msgId msg).bind nd.sh.idFuncMap) { nd with released := false }
        nd'

section Confined

variable {cfg : Config V} {n : Nat} {nd : Node V} {start : UInt32} {m : Nat} {it : Interaction V}

-- the state after the resolution of `c`, and what has not changed
structure Resolved (s0 : St V) (c : CellId) (s : St V) : Prop where
  own : s.own = s0.own
  footprint : Footprint (Reach s0.it c) s0 s
  dead : ∀ x < s0.it.cellCount, (s0.it.cells x).alive = false → (s.it.cells x).alive = false
  isSet : (s.it.cells c).hasValueOrError = true

theorem Resolved.resolvesOnly {nd1 : Node V} {it1 : Interaction V} {c : CellId} {s : St V}
    (hothers : ∀ m', m' ≠ m → nd1.its[m']? = nd.its[m']?) (hit : nd.its[m]? = some it)
    (hit1 : nd1.its[m]? = some it1) (h : Resolved (nd.st m it) c s)
    : ResolvesOnly m c nd (nd1.withSt s) where
  others := by
    intro m' hne
    rw [Node.getElem?_withSt hit1 h.own, if_neg hne]
    exact hothers m' hne
  resolved := by
    exists s.it
    rw [Node.getElem?_withSt hit1 h.own, if_pos rfl]
    exact ⟨rfl, h.isSet⟩
  same := by
    intro it2 it3 hit2 hit3 x hx hdep
    rw [hit] at hit2
    rw [Node.getElem?_withSt hit1 h.own, if_pos rfl] at hit3
    simp only [Option.some.injEq] at hit2 hit3
    subst hit2 hit3
    have hnot : ¬Reach (nd.st m it).it c (.cell x) := by
      unfold Reach Node.st
      simp [hdep, Interaction.has, hx]
    refine ⟨h.footprint.same x hx hnot, ?_⟩
    intro hrel
    exact h.footprint.alive hrel x hx hnot

theorem Resolved.reset {s0 s s' : St V} {c x : CellId} (h : Resolved s0 c s)
    (hx : Reach s0.it c (.cell x)) (hown : s'.own = s.own) (hreleased : s'.released = s.released)
    (hcount : s'.it.cellCount = s.it.cellCount)
    (hcells : s'.it.cells = Function.update s.it.cells x { s.it.cells x with hasSeqId := false })
    : Resolved s0 c s' where
  own := by rw [hown, h.own]
  footprint := by
    have hset : Footprint (Reach s0.it c) s0
        (s.setCell x { s.it.cells x with hasSeqId := false }) :=
      h.footprint.setCell fun hno => absurd hx hno
    apply hset.of_cells
    . exact hcount
    . exact hreleased
    . exact hcells
  dead := by
    intro y hy hdead
    have := h.dead y hy hdead
    rw [hcells]
    by_cases heq : y = x
    . subst heq
      simpa using this
    . simpa [heq] using this
  isSet := by
    have := h.isSet
    rw [hcells]
    by_cases heq : c = x
    . subst heq
      simpa [Cell.hasValueOrError, Cell.view] using this
    . simpa [heq] using this

theorem wp_notify_resolved {s0 s : St V} {c : CellId} {o : Outcome V} (hwf : WellFormed s)
    (hfenced : Fenced (Reach s0.it c) s)
    (hown : s.own = s0.own) (hfoot : Footprint (Reach s0.it c) s0 s)
    (hdead : ∀ x < s0.it.cellCount, (s0.it.cells x).alive = false → (s.it.cells x).alive = false)
    (hlt : c < s.it.cellCount) (hrole : (s.it.cells c).role = .cell)
    (ho : o ≠ .error .succeeded)
    : wp (evaluateAllDerivedCells (update cfg.env n) c) (fun _ s' => Resolved s0 c s')
        (fun _ _ => True) (s.assign c o) := by
  have hA : Reach s0.it c (.cell c) := Or.inl .self
  have hsound : Sound (Reach s0.it c) (Footprint (Reach s0.it c) s0) (s.assign c o) :=
    ⟨hwf.assign o hlt, hfenced.assign c o, hfoot.assign o hA⟩
  have hcell : ∀ x, ((s.assign c o).it.cells x).alive = (s.it.cells x).alive := by
    intro x
    by_cases heq : x = c
    . subst heq
      cases o <;> simp [St.assign, St.record, St.setCell]
    . cases o <;> simp [St.assign, St.record, St.setCell, heq]
  have hset : ((s.assign c o).it.cells c).hasValueOrError = true := by
    cases o with
    | value v => simp [St.assign, St.record, St.setCell, Cell.hasValueOrError, Cell.view,
        CellView.hasValueOrError, CellView.hasValue]
    | error reason =>
      have hne : reason ≠ .succeeded := by
        intro heq
        rw [heq] at ho
        exact ho rfl
      simp [St.assign, St.record, St.setCell, Cell.hasValueOrError, Cell.view,
        CellView.hasValueOrError, CellView.hasError, hne]
  have hrole' : ((s.assign c o).it.cells c).role = .cell := by
    rw [← hrole]
    cases o <;> simp [St.assign, St.record, St.setCell, Cell.role]
  have hlt' : c < (s.assign c o).it.cellCount := by
    cases o <;> exact hlt
  apply wp_mono (Runs.evaluateAllDerivedCells (Footprint.keeps cfg.env _ _)
    (Footprint.updates cfg.env _ _ n) hA hsound)
  . rintro _ s' ⟨hafter, _⟩
    constructor
    . rw [hafter.ext.own, ← hown]
      cases o <;> rfl
    . exact hafter.sound.inv
    . intro x hx hd
      apply hafter.ext.deadCell x
      . have := hfoot.cellCount
        cases o <;> exact Nat.lt_of_lt_of_le hx this
      . rw [hcell]
        exact hdead x hx hd
    . have hview := hafter.ext.source c hlt' hrole'
      unfold Cell.hasValueOrError at hset ⊢
      rw [hview]
      exact hset
  . intros
    trivial

-- what is left of the id of a resolved cell is removed, from a cell that has heard of it
theorem deleteRspHandlerIfExist_resolved {nd1 : Node V} {c : CellId} {k : RpcSequenceIdT} {s : St V}
    (h0 : NodeInv none start nd) (hit : nd.its[m]? = some it)
    (hk : nd.sh.idFuncMap k = some ⟨m, c⟩) (h1 : NodeInv (some k) start nd1)
    (hnd1 : nd1 = nd.withSt s) (hs : Resolved (nd.st m it) c s)
    : wp (RspMsgHandler.deleteRspHandlerIfExist k) (fun _ nd' => ResolvesOnly m c nd nd')
        (fun _ _ => True) nd1 := by
  have hothers : ∀ m', m' ≠ m → nd1.its[m']? = nd.its[m']? := by
    intro m' hne
    rw [hnd1, Node.getElem?_withSt hit hs.own, if_neg hne]
  have hit1 : nd1.its[m]? = some s.it := by
    rw [hnd1, Node.getElem?_withSt hit hs.own, if_pos rfl]
  unfold RspMsgHandler.deleteRspHandlerIfExist
  simp only [wp_bind, wp_get]
  split
  . next m' x hmapped =>
    obtain ⟨it', hit', hkey⟩ := h1.mapped hmapped
    have hback : ∀ y, nd.its[m']? = some y → (y.cells x).key = some k → m' = m ∧ x = c := by
      intro y hy hykey
      have hagree := (h0.table.agrees k ⟨m', x⟩).mpr (by simpa [Node.cells, hy] using hykey)
      rw [hk] at hagree
      simp only [Option.some.injEq, Prod.mk.injEq] at hagree
      exact ⟨hagree.1.symm, hagree.2.symm⟩
    have hm : m' = m := by
      by_contra hne
      rw [hothers m' hne] at hit'
      exact hne (hback it' hit' hkey).1
    subst hm
    rw [hit1] at hit'
    simp only [Option.some.injEq] at hit'
    subst hit'
    have hreach : Reach (nd.st m' it).it c (.cell x) := by
      by_contra hno
      have hx : x < it.cellCount := by
        by_contra hnew
        exact hno (Or.inr hnew)
      have hsame := hs.footprint.same x hx hno
      obtain ⟨halive, hid, hseq⟩ := Cell.key_eq_some.mp hkey
      have halive0 : (it.cells x).alive = true := by
        by_contra hdead
        have hdead0 : (it.cells x).alive = false := by simpa using hdead
        have := hs.dead x hx hdead0
        simp [halive] at this
      have hkey0 : (it.cells x).key = some k := by
        rw [Cell.key_eq_some]
        refine ⟨halive0, ?_, ?_⟩
        . rw [← hid]
          exact hsame.hasSeqId.symm
        . rw [← hseq]
          exact hsame.seqId.symm
      have := (hback it hit hkey0).2
      rw [this] at hno
      exact hno (Or.inl .self)
    apply wp_onInteraction hit1
    unfold resetSequentialId RspMsgHandler.removeRspHandler
    simp only [wp_bind, wp_cellAt, wp_alter]
    refine ⟨?_, fun _ => trivial⟩
    intro _
    apply Resolved.resolvesOnly hothers hit hit1
    apply hs.reset hreach
    . exact hs.own.symm
    . rw [hnd1]
      rfl
    . rfl
    . rfl
  . next hnone =>
    rw [wp_pure, hnd1]
    exact Resolved.resolvesOnly (fun _ _ => rfl) hit hit hs

theorem handleRpcRsp_confined (h : NodeInv none start nd) (msg : Bytes)
    : wp (RspMsgHandler.handleRpcRsp cfg n msg)
        (fun _ nd' => ResolvesAtMost
          (((RspMsgHeader.ofBytes msg).map fun r => r.1.sequenceId).bind nd.sh.idFuncMap) nd nd')
        (fun _ _ => True) nd := by
  unfold RspMsgHandler.handleRpcRsp ResolvesAtMost
  split
  . next hshort => simp [hshort]
  . next rspHeader payload hheader =>
    simp only [hheader, Option.map_some, Option.bind_some, wp_bind, wp_get]
    cases hmapped : nd.sh.idFuncMap rspHeader.sequenceId with
    | some sink =>
      obtain ⟨m, c⟩ := sink
      have hopen := h.open rspHeader.sequenceId
      obtain ⟨it, hit, hkey⟩ := h.mapped hmapped
      have hsound := hopen.sound hit
      have halive := (Cell.key_eq_some.mp hkey).1
      rw [wp_bind]
      apply wp_onInteraction hit
      by_cases hmsg : rspHeader.rpcResult ≠ .succeeded ∨ 0 < payload.length
      . have hcell := hsound.inv.role ⟨m, c⟩ rspHeader.sequenceId
        rw [world_st hit] at hcell
        simp only [Node.cells, hit] at hcell
        have hdone : wp (setRpcRsp cfg.env (update cfg.env n) c rspHeader payload)
            (fun _ s => Resolved (nd.st m it) c s) (fun _ _ => True) (nd.st m it) := by
          apply Handles.wp_setRpcRsp halive
          . intros
            trivial
          . apply wp_notify_resolved hsound.wellFormed (Fenced.reach hsound.wellFormed c) rfl
              (Footprint.refl _) (fun _ _ hd => hd) (hsound.wellFormed.lt_of_alive halive)
              (hcell hkey)
            unfold Handles.answer
            split
            . next hfailed => simp [hfailed]
            . split
              . simp
              . simp [RpcResult.failed, RpcResult.succeeded]
        apply wp_mono (wp_and (setRpcRsp_table hsound hkey (h.isEmpty hit hkey) hmsg) hdone)
        . rintro _ s ⟨⟨hs, hgrows, _⟩, hres⟩
          exact deleteRspHandlerIfExist_resolved h hit hmapped
            (hopen.withSt hit hgrows hs.wellFormed hs.inv) rfl hres
        . intros
          trivial
      . simp only [ne_eq, not_or, not_not, Nat.not_lt, Nat.le_zero, List.length_eq_zero_iff] at hmsg
        rw [hmsg.2]
        exact wp_setRpcRsp_payload hmsg.1 trivial trivial
    | none => simp

theorem onRspHandlerTimeout_confined (h : NodeInv none start nd) (k : RpcSequenceIdT)
    : wp (RspMsgHandler.onRspHandlerTimeout cfg n k)
        (fun _ nd' => ResolvesAtMost (nd.sh.idFuncMap k) nd nd') (fun _ _ => True) nd := by
  unfold RspMsgHandler.onRspHandlerTimeout ResolvesAtMost
  simp only [wp_bind, wp_get]
  cases hmapped : nd.sh.idFuncMap k with
  | some sink =>
    obtain ⟨m, c⟩ := sink
    obtain ⟨it, hit, hkey⟩ := h.mapped hmapped
    have hsound := h.sound hit
    have halive := (Cell.key_eq_some.mp hkey).1
    have hlt := hsound.wellFormed.lt_of_alive halive
    have hrole : (it.cells c).role = .cell := by
      have hcell := hsound.inv.role ⟨m, c⟩ k
      rw [world_st hit] at hcell
      simp only [Node.cells, hit] at hcell
      exact hcell hkey
    have hfoot : Footprint (Reach it c) (nd.st m it)
        ((nd.st m it).setCell c { it.cells c with hasSeqId := false }) :=
      (Footprint.refl _).setCell fun hno => absurd (Or.inl .self) hno
    have hset : WellFormed ((nd.st m it).setCell c { it.cells c with hasSeqId := false }) := by
      apply hsound.wellFormed.setCell_same hlt <;> rfl
    have hfenced : Fenced (Reach it c)
        ((nd.st m it).setCell c { it.cells c with hasSeqId := false }) := by
      apply (Fenced.reach hsound.wellFormed c).setCell_same <;> rfl
    apply wp_onInteraction hit
    have hdone : wp (do resetSequentialId c; RspMsgHandler.removeRspHandler k
                        setTimeout (update cfg.env n) c)
        (fun _ s => Resolved (nd.st m it) c s) (fun _ _ => True) (nd.st m it) := by
      unfold resetSequentialId RspMsgHandler.removeRspHandler setTimeout setFailedReason
      simp only [wp_bind, wp_cellAt, wp_alter]
      refine ⟨?_, fun _ => trivial⟩
      intro _
      refine ⟨?_, fun _ => trivial⟩
      intro _
      apply wp_notify_resolved (hset.setRspHandler k none)
      . apply hfenced.congr <;> rfl
      . rfl
      . apply hfoot.of_cells <;> rfl
      . intro x _ hd
        by_cases heq : x = c
        . subst heq
          simpa [St.setCell, St.setRspHandler, Node.st] using hd
        . simpa [St.setCell, St.setRspHandler, Node.st, heq] using hd
      . exact hlt
      . simpa [St.setCell, St.setRspHandler, Cell.role] using hrole
      . simp [RpcResult.timeout, RpcResult.succeeded]
    apply wp_mono hdone
    . intro _ s hres
      exact Resolved.resolvesOnly (fun _ _ => rfl) hit hit hres
    . intros
      trivial
  | none => simp

theorem handleEvent_confined (h : NodeInv none start nd) (msgId : MsgIdT) (msg : Bytes)
    (senderId : ServiceId)
    : wp (handleEvent cfg n (.msg msgId msg senderId))
        (fun _ nd' => Confined cfg msgId msg nd nd') (fun _ _ => True) nd := by
  have hbegin := h.begin false
  unfold handleEvent handleMsg Confined carriedId
  simp only [wp_bind, wp_modify]
  split
  . next hreq =>
    rw [wp_bind]
    have htable : wp (onRpcReqMsg cfg n msg senderId) (fun _ nd' => NodeInv none start nd')
        (EndsSane True) { nd with released := false } := onRpcReqMsg_table hbegin msg senderId
    apply wp_mono htable
    . intros
      exact Or.inl hreq
    . intros
      trivial
  . next hreq =>
    simp only [hreq, false_or]
    split
    . rw [wp_bind]
      exact handleRpcRsp_confined hbegin msg
    . split
      . rw [wp_bind]
        unfold onTimeout
        split
        . exact onRspHandlerTimeout_confined hbegin (TimerInfo.seqId cfg msg)
        . exact trivial
      . split <;> exact rfl

end Confined

/--
The handling of a message fails no assertion on what the message holds, nor the one on unique ids
while there are ids left, does not go on to touch what it has released, and does no more than the
message asks for.
-/
structure Robust (cfg : Config V) (n : Nat) (nd : Node V) (msgId : MsgIdT) (msg : Bytes)
    (senderId : ServiceId) : Prop where
  assertion : ∀ a nd', handleEvent cfg n (.msg msgId msg senderId) nd = .error (.assertion a) nd'
    → a ≠ .payload ∧ a ≠ .timerInfo ∧ (a = .uniqueSeqId → 4294967295 ≤ nd'.sh.issued.length)
  untouched : ∀ nd', handleEvent cfg n (.msg msgId msg senderId) nd = .error .useAfterFree nd'
    → nd'.released = false
  confined : ∀ nd', handleEvent cfg n (.msg msgId msg senderId) nd = .ok () nd'
    → Confined cfg msgId msg nd nd'

theorem Malformed.fails {cfg : Config V} {n : Nat} {nd : Node V} {start : UInt32} {msgId : MsgIdT}
    {msg : Bytes} {senderId : ServiceId} (h : NodeInv none start nd)
    (hbad : Malformed cfg nd (.msg msgId msg senderId))
    : wp (handleEvent cfg n (.msg msgId msg senderId)) (fun _ _ => False)
        (fun e _ => e = .assertion .payload ∨ e = .assertion .timerInfo) nd := by
  obtain ⟨hreq, hbad⟩ := hbad
  by_cases hrsp : msgId = cfg.responseMsgId
  . rw [if_pos hrsp] at hbad
    obtain ⟨rspHeader, hheader, hresult, hmapped⟩ := hbad
    unfold handleEvent handleMsg RspMsgHandler.handleRpcRsp
    simp only [wp_bind, wp_modify, if_neg hreq, if_pos hrsp, hheader, wp_get]
    split
    . next m c hsome =>
      obtain ⟨it, hit, hkey⟩ := (h.begin false).mapped hsome
      have halive := (Cell.key_eq_some.mp hkey).1
      rw [wp_bind]
      apply wp_onInteraction hit
      unfold setRpcRsp
      simp [Node.st, halive, hresult]
    . next hnone => exact absurd hnone hmapped
  . rw [if_neg hrsp] at hbad
    apply wp_mono (handleEvent_timerInfo hreq hrsp hbad.1 hbad.2 senderId)
    . intro _ _ hfalse
      exact hfalse
    . intro e _ he
      exact Or.inr he

/--
In every state between two messages a message is handled as it should unless it is one of the two
the code takes for granted not to come in, if all calls in progress have been about to return
whenever an interaction has been released.
-/
theorem robust_iff_not_malformed {cfg : Config V} {n : Nat} {start : UInt32}
    {net : Nat → SendOutcome} {es : List (Event V)} {nd : Node V}
    (hrun : runEvents cfg n es (Node.init start net) = .ok () nd) (msgId : MsgIdT) (msg : Bytes)
    (senderId : ServiceId)
    (htimely : ∀ nd', Ends (handleEvent cfg n (.msg msgId msg senderId)) nd nd'
      → nd'.isUninterrupted = true)
    : Robust cfg n nd msgId msg senderId ↔ ¬Malformed cfg nd (.msg msgId msg senderId) := by
  have hinv := NodeInv.of_runEvents hrun
  constructor
  . intro hrobust hbad
    have hfails := hbad.fails (n := n) hinv
    unfold wp at hfails
    split at hfails
    . exact hfails
    . next e nd' herror =>
      cases hfails with
      | inl heq =>
        rw [heq] at herror
        exact (hrobust.assertion _ _ herror).1 rfl
      | inr heq =>
        rw [heq] at herror
        exact (hrobust.assertion _ _ herror).2.1 rfl
  . intro hgood
    constructor
    . intro a nd' herror
      have hsane := wp_of_error (handleEvent_table hinv (.msg msgId msg senderId)) herror
      refine ⟨?_, ?_, ?_⟩
      . intro heq
        exact hgood (hsane.1 (by simp [heq]))
      . intro heq
        exact hgood (hsane.1 (by simp [heq]))
      . intro heq
        exact hsane.2 (by rw [heq])
    . intro nd' herror
      have huntouched := wp_of_error (handleEvent_untouched hinv (.msg msgId msg senderId)) herror
      by_contra hrel
      have hlate := huntouched rfl (by simpa using hrel)
      rw [htimely nd' (Or.inr ⟨.useAfterFree, herror⟩)] at hlate
      simp at hlate
    . intro nd' hok
      have hconfined := wp_of_ok (handleEvent_confined hinv msgId msg senderId) hok
      exact hconfined

-- the value 9 comes in for the rpc, the cell derived from it is set and the interaction released
theorem robust_iff_not_malformed_response
    : ∃ nd nd', runEvents (Config.bytes fun _ => none) 9 [derivedInteraction]
          (Node.init 0 fun _ => ⟨true, some 5, true⟩) = .ok () nd
        ∧ handleEvent (Config.bytes fun _ => none) 9
            (.msg 102 [0, 1, 1, 0, 1, 0, 0, 0, 0, 0, 0, 0, 9] 5) nd = .ok () nd'
        ∧ nd'.released = true
        ∧ Robust (Config.bytes fun _ => none) 9 nd 102 [0, 1, 1, 0, 1, 0, 0, 0, 0, 0, 0, 0, 9]
          5 := by
  have htest : returns (runEvents (Config.bytes fun _ => none) 9 [derivedInteraction]
      (Node.init 0 fun _ => ⟨true, some 5, true⟩))
      (fun _ nd => returns (handleEvent (Config.bytes fun _ => none) 9
          (.msg 102 [0, 1, 1, 0, 1, 0, 0, 0, 0, 0, 0, 0, 9] 5) nd)
        (fun _ nd' => nd'.released && nd'.isUninterrupted)) = true := by
    decide +kernel
  obtain ⟨_, nd, hrun, hnext⟩ := exists_of_returns htest
  obtain ⟨_, nd', hok, hend⟩ := exists_of_returns hnext
  rw [Bool.and_eq_true] at hend
  refine ⟨nd, nd', hrun, hok, hend.1, ?_⟩
  rw [robust_iff_not_malformed hrun]
  . simp [Malformed, Config.bytes, RspMsgHeader.ofBytes, MsgHeader.ofBytes]
  . intro nd'' hends
    have hlast : wp (handleEvent (Config.bytes fun _ => none) 9
        (.msg 102 [0, 1, 1, 0, 1, 0, 0, 0, 0, 0, 0, 0, 9] 5))
        (fun _ nd' => nd'.isUninterrupted = true) (fun _ nd' => nd'.isUninterrupted = true) nd := by
      simpa only [wp, hok] using hend.2
    exact wp_of_ends (P := fun nd' => nd'.isUninterrupted = true) hlast hends

/--
The server's answer that the rpc succeeded, without a payload.
-/
theorem not_robust_header_only
    : ∃ nd, runEvents (Config.bytes fun _ => none) 3
          [.interaction (.stub ⟨"service", 1, 1, 0, 0, 7⟩ fun c => .ret (some c)) none]
          (Node.init 0 fun _ => ⟨true, some 5, true⟩)
          = .ok () nd
        ∧ ¬Robust (Config.bytes fun _ => none) 3 nd 102 [0, 1, 1, 0, 1, 0, 0, 0, 0, 0, 0, 0] 5 := by
  refine ⟨_, rfl, ?_⟩
  intro hrobust
  exact (hrobust.assertion .payload _ rfl).1 rfl

end MsgRpc
