import MsgRpc.Msg.Linked

/-!
This module contains the message loop of the example adapters, which holds back the timeout messages
of timers that have been canceled, and the proof that they would not have done anything.
-/

namespace MsgRpc

open StateProg

structure TestLoop (V : Type) where
  cfg : Config V
  setTimerMsgId : MsgIdT
  shouldDrop : Bytes → Bool
  request_ne : cfg.timeoutMsgId ≠ cfg.requestMsgId
  response_ne : cfg.timeoutMsgId ≠ cfg.responseMsgId
  setTimer_ne : cfg.timeoutMsgId ≠ setTimerMsgId

def Out.canceledTimerId : Out V → Option RpcSequenceIdT
  | .cancelTimer id => some id
  | _ => none

namespace TimerMgr

-- `cancel_timer` has been called for each of them, and the list only grows
def canceledTimerIds (sh : Shared V) : List RpcSequenceIdT := sh.out.filterMap Out.canceledTimerId

def shouldIgnore (cfg : Config V) (msg : Bytes) : NodeM V Bool := do
  if msg.length = TimerInfo.size cfg then
    let nd ← get
    return (canceledTimerIds nd.sh).contains (TimerInfo.seqId cfg msg)
  else
    throw (.assertion .timerInfo)

end TimerMgr

namespace TestLoop

variable (loop : TestLoop V) (n : Nat)

/--
`ignores` decides about timeout messages. The messages that ask for a timer are left to the thread
`SetTimerHandler` starts. A message that reads `init` starts the application: these are the
`.interaction` events, the `.msg` events are all others.
-/
def onMsg (ignores : Bytes → NodeM V Bool) (e : Event V) : NodeM V Unit := do
  modify ({ · with released := false })
  match e with
  | .interaction _ _ => handleEvent loop.cfg n e
  | .msg msgId msg _ =>
    if msgId = loop.cfg.requestMsgId ∧ loop.shouldDrop msg = true then
      pure ()
    else if msgId = loop.cfg.timeoutMsgId then
      let ignored ← ignores msg
      if ignored then
        pure ()
      else if msgId = loop.setTimerMsgId then
        pure ()
      else
        handleEvent loop.cfg n e
    else if msgId = loop.setTimerMsgId then
      pure ()
    else
      handleEvent loop.cfg n e

def run (ignores : Bytes → NodeM V Bool) (es : List (Event V)) : NodeM V Unit :=
  match es with
  | [] => pure ()
  | e :: es => do
    loop.onMsg n ignores e
    run ignores es

def canceling (es : List (Event V)) : NodeM V Unit :=
  loop.run n (TimerMgr.shouldIgnore loop.cfg) es

-- every timeout message gets through
def delivering (es : List (Event V)) : NodeM V Unit :=
  loop.run n (fun _ => pure false) es

def FewIds (es : List (Event V)) (nd : Node V) : Prop :=
  ∀ es1 es2 nd1, es = es1 ++ es2 → loop.delivering n es1 nd = .ok () nd1
    → nd1.sh.issued.length < 4294967295

end TestLoop

section Canceled

variable {cfg : Config V} {n : Nat} {start : UInt32} {got : List (RspMsgHeader × Bytes)}
variable {nd : Node V}

-- a timer is canceled when its rpc has been answered, the id is not in the table any more then
theorem Links.not_registered (hl : Links cfg.env got start nd.cells nd.sh)
    (h : NodeInv none start nd) (hids : nd.sh.issued.length < 4294967295) {k : RpcSequenceIdT}
    (hk : k ∈ TimerMgr.canceledTimerIds nd.sh)
    : nd.sh.idFuncMap k = none := by
  obtain ⟨o, hmem, ho⟩ := List.mem_filterMap.mp hk
  have hmem : .cancelTimer k ∈ nd.sh.out := by
    cases o <;> simp [Out.canceledTimerId] at ho
    rw [← ho]
    exact hmem
  obtain ⟨x, hseqId, hvalid, hset⟩ := hl.canceled _ hmem
  cases hmapped : nd.sh.idFuncMap k with
  | none => rfl
  | some y =>
    have hkey := (h.table.agrees k y).mp hmapped
    have hempty := h.table.isEmpty y k hkey (by simp)
    have hsame : x = y := by
      apply hl.unique hids
      . rw [hseqId]
        exact hvalid
      . rw [hseqId, (Cell.key_eq_some.mp hkey).2.2]
    rw [hsame, hempty] at hset
    simp at hset

theorem onRspHandlerTimeout_unregistered {k : RpcSequenceIdT} (hk : nd.sh.idFuncMap k = none)
    : RspMsgHandler.onRspHandlerTimeout cfg n k nd = .ok () nd := by
  simp [RspMsgHandler.onRspHandlerTimeout, bind, EStateM.bind, get, getThe, MonadStateOf.get,
    EStateM.get, hk, pure, EStateM.pure]

theorem TimerMgr.shouldIgnore_eq {msg : Bytes} (hsize : msg.length = TimerInfo.size cfg)
    : shouldIgnore cfg msg nd
        =
      .ok ((canceledTimerIds nd.sh).contains (TimerInfo.seqId cfg msg)) nd := by
  unfold shouldIgnore
  rw [if_pos hsize]
  rfl

end Canceled

namespace TestLoop

variable {loop : TestLoop V} {n : Nat} {start : UInt32} {got : List (RspMsgHeader × Bytes)}
variable {nd : Node V}

theorem handleEvent_timeout (nd : Node V) {msg : Bytes} {senderId : ServiceId}
    : handleEvent loop.cfg n (.msg loop.cfg.timeoutMsgId msg senderId) nd
        =
      onTimeout loop.cfg n msg nd.start := by
  have hmsg : handleMsg loop.cfg n loop.cfg.timeoutMsgId msg senderId
      = (do onTimeout loop.cfg n msg; return true) := by
    simp [handleMsg, loop.request_ne, loop.response_ne]
  change (do let _ ← handleMsg loop.cfg n loop.cfg.timeoutMsgId msg senderId; pure ()) nd.start = _
  rw [hmsg]
  simp only [bind, EStateM.bind, pure, EStateM.pure]
  cases onTimeout loop.cfg n msg nd.start <;> rfl

theorem onMsg_timeout {ignores : Bytes → NodeM V Bool} {msg : Bytes} {senderId : ServiceId}
    : loop.onMsg n ignores (.msg loop.cfg.timeoutMsgId msg senderId) nd
        =
      (do
        let ignored ← ignores msg
        if ignored then
          pure ()
        else
          handleEvent loop.cfg n (.msg loop.cfg.timeoutMsgId msg senderId)) nd.start := by
  have hmsg : loop.onMsg n ignores (.msg loop.cfg.timeoutMsgId msg senderId)
      = (do
        modify ({ · with released := false })
        let ignored ← ignores msg
        if ignored then
          pure ()
        else
          handleEvent loop.cfg n (.msg loop.cfg.timeoutMsgId msg senderId)) := by
    simp [onMsg, loop.request_ne, loop.setTimer_ne]
  rw [hmsg]
  rfl

theorem onMsg_eq (hl : Links loop.cfg.env got start nd.cells nd.sh) (h : NodeInv none start nd)
    (hids : nd.sh.issued.length < 4294967295) (e : Event V)
    : loop.onMsg n (TimerMgr.shouldIgnore loop.cfg) e nd
        =
      loop.onMsg n (fun _ => pure false) e nd := by
  cases e with
  | interaction _ _ => rfl
  | msg msgId msg senderId =>
    by_cases htimeout : msgId = loop.cfg.timeoutMsgId
    . subst htimeout
      have hdeliver : loop.onMsg n (fun _ => pure false)
          (.msg loop.cfg.timeoutMsgId msg senderId) nd = onTimeout loop.cfg n msg nd.start := by
        rw [onMsg_timeout]
        exact handleEvent_timeout nd.start
      rw [hdeliver, onMsg_timeout]
      by_cases hsize : msg.length = TimerInfo.size loop.cfg
      . by_cases hcanceled : TimerInfo.seqId loop.cfg msg ∈ TimerMgr.canceledTimerIds nd.sh
        . have hnone := hl.not_registered h hids hcanceled
          have hignored : TimerMgr.shouldIgnore loop.cfg msg nd.start = .ok true nd.start := by
            rw [TimerMgr.shouldIgnore_eq hsize]
            exact congrArg₂ _ (List.contains_iff_mem.mpr hcanceled) rfl
          have hnothing : onTimeout loop.cfg n msg nd.start = .ok () nd.start := by
            unfold onTimeout
            rw [if_pos hsize]
            exact onRspHandlerTimeout_unregistered hnone
          rw [hnothing]
          simp only [bind, EStateM.bind, hignored]
          rfl
        . have hnot : (TimerMgr.canceledTimerIds nd.start.sh).contains
              (TimerInfo.seqId loop.cfg msg) = false := by
            rw [← Bool.not_eq_true, List.contains_iff_mem]
            exact hcanceled
          have hpass : TimerMgr.shouldIgnore loop.cfg msg nd.start = .ok false nd.start := by
            rw [TimerMgr.shouldIgnore_eq hsize, hnot]
          simp only [bind, EStateM.bind, hpass]
          exact handleEvent_timeout nd.start
      . have hthrow : TimerMgr.shouldIgnore loop.cfg msg nd.start
            = .error (.assertion .timerInfo) nd.start := by
          unfold TimerMgr.shouldIgnore
          rw [if_neg hsize]
          rfl
        have hthrow' : onTimeout loop.cfg n msg nd.start
            = .error (.assertion .timerInfo) nd.start := by
          unfold onTimeout
          rw [if_neg hsize]
          rfl
        rw [hthrow']
        simp only [bind, EStateM.bind, hthrow]
    . simp [onMsg, htimeout]

theorem onMsg_inv (hl : Links loop.cfg.env got start nd.cells nd.sh) (h : NodeInv none start nd)
    (e : Event V) (he : ∀ r, e.response loop.cfg = some r → r ∈ got)
    : wp (loop.onMsg n (fun _ => pure false) e)
        (fun _ nd' => NodeInv none start nd' ∧ Links loop.cfg.env got start nd'.cells nd'.sh)
        (fun _ _ => True) nd := by
  have hbegin := h.begin false
  have hevent : wp (handleEvent loop.cfg n e)
      (fun _ nd' => NodeInv none start nd' ∧ Links loop.cfg.env got start nd'.cells nd'.sh)
      (fun _ _ => True) nd.start := by
    have hlinks : Links loop.cfg.env got start nd.start.cells nd.start.sh := hl
    apply wp_mono (wp_and (handleEvent_table hbegin e)
      ((hlinks.dispatch hbegin e he).handleEvent hbegin))
    . exact fun _ _ hnd => hnd
    . intros
      trivial
  unfold onMsg
  rw [wp_bind, wp_modify]
  cases e with
  | interaction _ _ => exact hevent
  | msg msgId msg senderId =>
    dsimp only
    split
    . exact ⟨hbegin, hl⟩
    . split
      . rw [wp_bind, wp_pure]
        simp only [Bool.false_eq_true, ↓reduceIte]
        split
        . exact ⟨hbegin, hl⟩
        . exact hevent
      . split
        . exact ⟨hbegin, hl⟩
        . exact hevent

theorem canceling_eq (hl : Links loop.cfg.env got start nd.cells nd.sh) (h : NodeInv none start nd)
    {es : List (Event V)} (hes : ∀ e ∈ es, ∀ r, e.response loop.cfg = some r → r ∈ got)
    (hids : loop.FewIds n es nd)
    : loop.canceling n es nd = loop.delivering n es nd := by
  induction es generalizing nd with
  | nil => rfl
  | cons e es ih =>
    have hfirst := onMsg_eq (n := n) hl h (hids [] (e :: es) nd rfl rfl) e
    have hinv := onMsg_inv (n := n) hl h e (hes e List.mem_cons_self)
    unfold canceling delivering run
    simp only [bind, EStateM.bind]
    rw [hfirst]
    cases hmsg : loop.onMsg n (fun _ => pure false) e nd with
    | error f nd' => rfl
    | ok _ nd' =>
      have hnd' := wp_of_ok hinv hmsg
      apply ih hnd'.2 hnd'.1
      . exact fun e' he' => hes e' (List.mem_cons_of_mem _ he')
      . intro es1 es2 nd1 heq hrun
        apply hids (e :: es1) es2 nd1
        . rw [heq, List.cons_append]
        . unfold delivering run
          simp only [bind, EStateM.bind, hmsg]
          exact hrun

theorem canceling_eq_delivering (loop : TestLoop V) (n : Nat) (start : UInt32)
    (net : Nat → SendOutcome) (es : List (Event V)) (hids : loop.FewIds n es (Node.init start net))
    : loop.canceling n es (Node.init start net) = loop.delivering n es (Node.init start net) :=
  canceling_eq (Links.init loop.cfg.env (es.filterMap (Event.response loop.cfg)) start net)
    (NodeInv.init start net) (fun e he _ hr => List.mem_filterMap.mpr ⟨e, he, hr⟩) hids

section Example

-- the bound on the ids, to be evaluated
def leavesIds (r : EStateM.Result Fault (Node V) Unit) : Bool :=
  match r with
  | .ok _ nd => nd.sh.issued.length < 4294967295
  | .error _ _ => true

theorem fewIds_of_inits {es : List (Event V)}
    (h : es.inits.all (fun es1 => leavesIds (loop.delivering n es1 nd)) = true)
    : loop.FewIds n es nd := by
  intro es1 es2 nd1 heq hrun
  have hmem : es1 ∈ es.inits := by
    rw [List.mem_inits, heq]
    exact List.prefix_append _ _
  have hfew := List.all_eq_true.mp h es1 hmem
  rw [hrun] at hfew
  simpa [leavesIds] using hfew

def bytes : TestLoop UInt8 where
  cfg := Config.bytes fun _ => none
  setTimerMsgId := 105
  shouldDrop _ := false
  request_ne := by decide
  response_ne := by decide
  setTimer_ne := by decide

-- a guarded rpc is answered before its timer runs out
def answeredInTime : List (Event UInt8) :=
  [ .interaction
      (.deriveRpcCell 0 100 1 (.stub ⟨"service", 1, 1, 0, 0, 7⟩ fun c => .ret (some c)) []
        fun t => .ret (some t)) none,
    .msg 102 [0, 1, 1, 0, 1, 0, 0, 0, 0, 0, 0, 0, 8] 5,
    .msg 103 [0, 0, 0, 0, 0, 0, 0, 0, 0, 0, 0, 0, 0, 0, 0, 0, 1, 0, 0, 0, 0, 0, 0, 0] 9 ]

theorem canceling_eq_delivering_answeredInTime
    : bytes.canceling 4 answeredInTime (Node.init 0 fun _ => ⟨true, some 5, true⟩)
        =
      bytes.delivering 4 answeredInTime (Node.init 0 fun _ => ⟨true, some 5, true⟩) := by
  apply canceling_eq_delivering
  apply fewIds_of_inits
  decide +kernel

end Example
end TestLoop
end MsgRpc
