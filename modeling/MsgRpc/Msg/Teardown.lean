import MsgRpc.Cell.Teardown
import MsgRpc.Msg.Lemmas.ResponseTable

/-!
This module contains the proof that no call that is in progress when an interaction is released
touches it afterwards, if all of them have done what they had to do.
-/

namespace MsgRpc

open StateProg

namespace Quiet

theorem keepsHandlers (cfg : Config V) (m : Nat) : KeepsHandlers cfg (Quiet m) (Untouched m) where
  effect s s' h heffect := h.inv.stops heffect.stops
  fault s s' a h _ _ he := by
    simp at he

end Quiet

/--
At each release so far all calls in progress were about to return.
-/
def Node.isUninterrupted (nd : Node V) : Bool :=
  nd.its.all fun it => it.log.all Ev.isTimely

-- how the handling of a message may end early
def NodeUntouched (e : Fault) (nd : Node V) : Prop :=
  e = .useAfterFree → nd.released = true → nd.isUninterrupted = false

section Handlers

variable {cfg : Config V} {n : Nat} {nd : Node V} {start : UInt32} {m : Nat} {it : Interaction V}

theorem Untouched.node {s : St V} {e : Fault} (hit : nd.its[m]? = some it) (h : Untouched m e s)
    : NodeUntouched e (nd.withSt s) := by
  intro he hrel
  have hquiet := h he
  obtain ⟨e, hmem, hlate⟩ := hquiet.interrupted hrel
  have hit' : (nd.withSt s).its[m]? = some s.it := by
    rw [Node.getElem?_withSt hit hquiet.own, if_pos rfl]
  unfold Node.isUninterrupted
  rw [List.all_eq_false]
  refine ⟨s.it, List.mem_of_getElem? hit', ?_⟩
  rw [Bool.not_eq_true, List.all_eq_false]
  exact ⟨e, hmem, by simp [hlate]⟩

theorem NodeInv.quiet {hole : Option RpcSequenceIdT} (h : NodeInv hole start nd)
    (hit : nd.its[m]? = some it) (hbegin : nd.released = false)
    : Sound (fun _ => True) (Quiet m) (nd.st m it) where
  wellFormed := h.wellFormed m it hit
  fenced := Fenced.all
  inv := by
    refine ⟨rfl, ?_⟩
    intro hrel
    simp [Node.st, hbegin] at hrel

theorem onInteraction_untouched {P : St V → Prop} {x : M V α} {Q : α → St V → Prop}
    (hit : nd.its[m]? = some it) (hx : Handles P (Untouched m) (nd.st m it) x Q)
    : wp (onInteraction m x) (fun _ _ => True) NodeUntouched nd := by
  apply wp_onInteraction hit
  apply wp_mono hx
  . intros
    trivial
  . intro e s he
    exact he.node hit

theorem onNewInteraction_untouched (h : NodeInv none start nd) (hbegin : nd.released = false)
    {x : M V α}
    {Q : α → St V → Prop}
    (hx : ∀ m s, Sound (fun _ => True) (Quiet m) s → s.Unowned → s.Unclosed []
      → Handles (Quiet m) (Untouched m) s x Q)
    : wp (do let m ← newInteraction; onInteraction m x) (fun _ _ => True) NodeUntouched nd := by
  have hnew := h.newInteraction
  have hit : ({ nd with its := nd.its ++ [{}] } : Node V).its[nd.its.length]? = some {} := by
    simp
  rw [wp_bind]
  exact onInteraction_untouched hit
    (hx _ _ (hnew.quiet hit hbegin) (unowned_new _ _)
      (unclosed_new (h.responses _ (Nat.le_refl _))))

-- an entry of the table stands for a cell that is alive, also after a release
theorem deleteRspHandlerIfExist_untouched {k : RpcSequenceIdT} (h : NodeInv (some k) start nd)
    : wp (RspMsgHandler.deleteRspHandlerIfExist k) (fun _ _ => True) NodeUntouched nd := by
  unfold RspMsgHandler.deleteRspHandlerIfExist
  simp only [wp_bind, wp_get]
  split
  . next m c hmapped =>
    obtain ⟨it, hit, hkey⟩ := h.mapped hmapped
    have halive := (Cell.key_eq_some.mp hkey).1
    apply wp_onInteraction hit
    unfold resetSequentialId RspMsgHandler.removeRspHandler
    simp [Node.st, halive]
  . trivial

theorem handleRpcRsp_untouched (h : NodeInv none start nd) (hbegin : nd.released = false)
    (msg : Bytes)
    : wp (RspMsgHandler.handleRpcRsp cfg n msg) (fun _ _ => True) NodeUntouched nd := by
  unfold RspMsgHandler.handleRpcRsp
  split
  . trivial
  . next rspHeader payload _ =>
    simp only [wp_bind, wp_get]
    split
    . next m c hmapped =>
      have hopen := h.open rspHeader.sequenceId
      obtain ⟨it, hit, hkey⟩ := h.mapped hmapped
      have halive := (Cell.key_eq_some.mp hkey).1
      have hquiet := h.quiet hit hbegin
      rw [wp_bind]
      by_cases hmsg : rspHeader.rpcResult ≠ .succeeded ∨ 0 < payload.length
      . have htable : wp (onInteraction m (setRpcRsp cfg.env (update cfg.env n) c rspHeader payload))
            (fun _ nd' => NodeInv (some rspHeader.sequenceId) start nd') (EndsSane True) nd :=
          hopen.onInteraction hit (setRpcRsp_table (hopen.sound hit) hkey (h.isEmpty hit hkey) hmsg)
        have hcalm : wp (onInteraction m (setRpcRsp cfg.env (update cfg.env n) c rspHeader payload))
            (fun _ _ => True) NodeUntouched nd := by
          apply onInteraction_untouched hit
          apply Handles.wp_setRpcRsp halive
          . intro hsucceeded hempty
            simp [hsucceeded, hempty] at hmsg
          . exact Handles.notify (Quiet.keeps cfg.env _ m) (Quiet.updates cfg.env _ m n) hquiet
              halive (h.isEmpty hit hkey) (hquiet.inv.assign c _)
        apply wp_mono (wp_and htable hcalm)
        . rintro _ nd' ⟨hnd', _⟩
          exact deleteRspHandlerIfExist_untouched hnd'
        . rintro e nd' ⟨_, he⟩
          exact he
      . simp only [ne_eq, not_or, not_not, Nat.not_lt, Nat.le_zero, List.length_eq_zero_iff] at hmsg
        rw [hmsg.2]
        apply wp_onInteraction hit
        apply wp_setRpcRsp_payload hmsg.1
        . intro _ hrel
          simp [Node.withSt, Node.st, hbegin] at hrel
        . intro he
          simp at he
    . trivial

theorem onRspHandlerTimeout_untouched (h : NodeInv none start nd) (hbegin : nd.released = false)
    (k : RpcSequenceIdT)
    : wp (RspMsgHandler.onRspHandlerTimeout cfg n k) (fun _ _ => True) NodeUntouched nd := by
  unfold RspMsgHandler.onRspHandlerTimeout
  simp only [wp_bind, wp_get]
  split
  . next m c hmapped =>
    obtain ⟨it, hit, hkey⟩ := h.mapped hmapped
    have hlt := (h.wellFormed m it hit).lt_of_alive (Cell.key_eq_some.mp hkey).1
    have hquiet := h.quiet hit hbegin
    have hreset : Sound (fun _ => True) (Quiet m)
        (((nd.st m it).setCell c { it.cells c with hasSeqId := false }).setRspHandler k none) := by
      refine ⟨?_, Fenced.all, hquiet.inv.stops ⟨rfl, rfl, List.prefix_refl _⟩⟩
      apply WellFormed.setRspHandler
      apply hquiet.wellFormed.setCell_same hlt <;> rfl
    have hempty : ((((nd.st m it).setCell c { it.cells c with hasSeqId := false }).setRspHandler k
        none).it.cells c).hasValueOrError = false := by
      have hold := h.isEmpty hit hkey
      simpa [St.setRspHandler, St.setCell, Cell.hasValueOrError, Cell.view] using hold
    have hset := Handles.resolve (Quiet.keeps cfg.env _ m) (Quiet.updates cfg.env _ m n) hreset
      hempty (hreset.inv.assign c (.error .timeout))
    apply wp_onInteraction hit
    unfold resetSequentialId RspMsgHandler.removeRspHandler
    simp only [wp_bind, wp_cellAt, wp_alter]
    refine ⟨?_, ?_⟩
    . intro _
      apply wp_mono hset
      . intros
        trivial
      . intro e s he
        exact he.node hit
    . intro _ _ hrel
      simp [Node.withSt, Node.st, hbegin] at hrel
  . trivial

theorem handleEvent_untouched (h : NodeInv none start nd) (e : Event V)
    : wp (handleEvent cfg n e) (fun _ _ => True) NodeUntouched nd := by
  have hbegin := h.begin false
  unfold handleEvent
  rw [wp_bind, wp_modify]
  cases e with
  | interaction si finalAction =>
    apply onNewInteraction_untouched hbegin rfl
    intro m s hs hunowned hunclosed
    exact Handles.startInteraction (Quiet.keepsHandlers cfg m) (Quiet.keeps _ _ m)
      (Quiet.updates _ _ m n) hs hunowned hunclosed si finalAction
  | msg msgId msg senderId =>
    simp only [wp_bind]
    unfold handleMsg
    split
    . rw [wp_bind]
      unfold onRpcReqMsg
      split
      . trivial
      . next reqHeader payload _ =>
        apply onNewInteraction_untouched hbegin rfl
        intro m s hs hunowned hunclosed
        apply Handles.onRpcReq (Quiet.keepsHandlers cfg m) (Quiet.keeps _ _ m)
          (Quiet.updates _ _ m n) _ hs hunowned hunclosed
        intro s1 s2 e hs1 hdouble _
        exact hs1.inv.stops hdouble.halts.toStops
    . split
      . rw [wp_bind]
        exact handleRpcRsp_untouched hbegin rfl msg
      . split
        . rw [wp_bind]
          unfold onTimeout
          split
          . exact onRspHandlerTimeout_untouched hbegin rfl _
          . intro he
            simp at he
        . split <;> trivial

end Handlers

theorem runEvents_untouched {cfg : Config V} {n : Nat} {start : UInt32} {nd : Node V}
    (h : NodeInv none start nd) (es : List (Event V))
    : wp (runEvents cfg n es) (fun _ _ => True) NodeUntouched nd := by
  induction es generalizing nd with
  | nil => trivial
  | cons e es ih =>
    unfold runEvents
    rw [wp_bind]
    apply wp_mono (wp_and (handleEvent_table h e) (handleEvent_untouched h e))
    . rintro _ nd' ⟨hnd', _⟩
      exact ih hnd'
    . rintro f nd' ⟨_, hf⟩
      exact hf

/--
In no run in which all calls in progress are about to return whenever an interaction is released,
a cascade goes on to touch what has been freed.
-/
theorem untouched_of_uninterrupted {cfg : Config V} {n : Nat} {start : UInt32}
    {net : Nat → SendOutcome} {es : List (Event V)} {nd : Node V}
    (hrun : Ends (runEvents cfg n es) (Node.init start net) nd) (h : nd.isUninterrupted = true)
    : ¬(runEvents cfg n es (Node.init start net) = .error .useAfterFree nd
        ∧ nd.released = true) := by
  rintro ⟨herror, hrel⟩
  have huntouched := wp_of_error (runEvents_untouched (NodeInv.init start net) es) herror
  rw [huntouched rfl hrel] at h
  simp at h

-- a stub call, a cell derived from its cell that takes over the value, and a final action
def derivedInteraction : Event UInt8 :=
  .interaction
    (.stub ⟨"service", 1, 1, 0, 0, 7⟩ fun c =>
      .deriveCell 0 (fun _ => .read c fun o => .setResult (.value (o.value.getD 0)) (.ret none)) [c]
        fun d => .ret (some d))
    (some fun _ => .ret none)

-- the response sets the derived cell, and this releases the interaction
theorem untouched_of_uninterrupted_response
    : ∃ nd, runEvents (Config.bytes fun _ => none) 9
          [derivedInteraction, .msg 102 [0, 1, 1, 0, 1, 0, 0, 0, 0, 0, 0, 0, 9] 5]
          (Node.init 0 fun _ => ⟨true, some 5, true⟩) = .ok () nd
        ∧ nd.released = true
        ∧ ¬(runEvents (Config.bytes fun _ => none) 9
              [derivedInteraction, .msg 102 [0, 1, 1, 0, 1, 0, 0, 0, 0, 0, 0, 0, 9] 5]
              (Node.init 0 fun _ => ⟨true, some 5, true⟩) = .error .useAfterFree nd
            ∧ nd.released = true) := by
  have htest : returns (runEvents (Config.bytes fun _ => none) 9
      [derivedInteraction, .msg 102 [0, 1, 1, 0, 1, 0, 0, 0, 0, 0, 0, 0, 9] 5]
      (Node.init 0 fun _ => ⟨true, some 5, true⟩))
      (fun _ nd => nd.released && nd.isUninterrupted) = true := by
    decide +kernel
  obtain ⟨_, nd, hrun, hend⟩ := exists_of_returns htest
  rw [Bool.and_eq_true] at hend
  exact ⟨nd, hrun, hend.1, untouched_of_uninterrupted (Or.inl ⟨(), hrun⟩) hend.2⟩

/--
The last retry of an rpc times out. `retry_rpc_if_need` reads `timeout_cell_` of the cell that its
`set_failed_reason` has released.
-/
theorem not_untouched_retry
    : ∃ nd, runEvents (Config.bytes fun _ => none) 5
          [.interaction (.deriveRpcCell 0 10 0
              (.stub ⟨"service", 1, 1, 0, 0, 7⟩ fun c => .ret (some c)) [] fun t => .ret (some t))
            (some fun _ => .ret none),
            .msg 103 (List.replicate 16 0 ++ [1, 0, 0, 0, 0, 0, 0, 0]) 5]
          (Node.init 0 fun _ => ⟨true, some 5, true⟩) = .error .useAfterFree nd
        ∧ nd.released = true := by
  have htest : throws (runEvents (Config.bytes fun _ => none) 5
      [.interaction (.deriveRpcCell 0 10 0
          (.stub ⟨"service", 1, 1, 0, 0, 7⟩ fun c => .ret (some c)) [] fun t => .ret (some t))
        (some fun _ => .ret none),
        .msg 103 (List.replicate 16 0 ++ [1, 0, 0, 0, 0, 0, 0, 0]) 5]
      (Node.init 0 fun _ => ⟨true, some 5, true⟩))
      (fun e nd => e = .useAfterFree && nd.released) = true := by
    decide +kernel
  obtain ⟨e, nd, hrun, hend⟩ := exists_of_throws htest
  simp only [Bool.and_eq_true, decide_eq_true_eq] at hend
  rw [hend.1] at hrun
  exact ⟨nd, hrun, hend.2⟩

end MsgRpc
