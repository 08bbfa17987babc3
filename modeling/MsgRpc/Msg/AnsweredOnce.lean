import MsgRpc.Msg.Completion

/-!
This module contains the proof that a server answers a request once, unless the implementation ends
with an error or with a value that arrives late and cannot be encoded.
-/

namespace MsgRpc

open StateProg

/--
The cell `c` an implementation returned as `o`, as it is when it is to be sent.
-/
def Interaction.resultCell (it : Interaction V) (c : CellId) (o : Cell V) : Cell V :=
  if o.hasValue then o else it.cells c

def Ev.isAnswerable (cfg : Config V) (it : Interaction V) : Ev V → Bool
  | .called _ _ (some ⟨c, o⟩) =>
    o.hasValue || o.isEmpty
      && ((it.cells c).value.bind (ThriftEncoder.encode (cfg.env.codec (it.cells c).type))).isSome
  | _ => true

/--
The implementation returned no cell, a cell with a value or a cell that has got a value to send
since.
-/
def Answerable (cfg : Config V) (it : Interaction V) : Prop :=
  ∀ e ∈ it.log, e.isAnswerable cfg it = true

def Encodes (cfg : Config V) (it : Interaction V) (payload : Bytes) : Prop :=
  ∃ reqHeader req c o v, .called reqHeader req (some ⟨c, o⟩) ∈ it.log
    ∧ (it.resultCell c o).value = some v
    ∧ ThriftEncoder.encode (cfg.env.codec (it.resultCell c o).type) v = some payload

/--
What has been handed to the channel for a request is one response to its sender.
-/
def AnsweredOnce (cfg : Config V) (senderId : ServiceId) (reqHeader : ReqMsgHeader)
    (it : Interaction V) (responses : List (ServiceId × Bytes)) : Prop :=
  (∃ payload, Encodes cfg it payload
      ∧ responses = [⟨senderId, (responseHeader reqHeader .succeeded).toBytes ++ payload⟩])
    ∨ (¬∃ payload, Encodes cfg it payload)
      ∧ ∃ rpcResult, rpcResult ≠ .succeeded
        ∧ responses = [⟨senderId, (responseHeader reqHeader rpcResult).toBytes⟩]

section AnsweredOnce

variable {cfg : Config V} {s : St V} {senderId : ServiceId} {reqHeader : ReqMsgHeader}
variable {msg : Bytes}

theorem Fruitless.not_encodes {senderId' : ServiceId} {reqHeader' : ReqMsgHeader} {msg' : Bytes}
    (h : Fruitless cfg.env senderId' reqHeader' msg' s.it.history)
    : ¬∃ payload, Encodes cfg s.it payload := by
  rintro ⟨payload, reqHeader1, req1, c1, o1, v1, hcalled, hvalue, hbuf⟩
  rw [← Interaction.mem_history rfl] at hcalled
  generalize s.it.history = h at h hcalled
  cases h with
  | rejected => simp at hcalled
  | nullptr i req => simp at hcalled
  | unencodable i req c o v hv hnone =>
    simp only [List.mem_cons, reduceCtorEq, Ev.called.injEq, Option.some.injEq, Prod.mk.injEq,
      List.not_mem_nil, or_false, false_or] at hcalled
    obtain ⟨_, _, _, ho⟩ := hcalled
    subst ho
    simp only [Interaction.resultCell, Cell.hasValue, CellView.hasValue, Cell.view, hv,
      Option.isSome_some, ↓reduceIte] at hvalue hbuf
    simp only [Option.some.injEq] at hvalue
    rw [← hvalue, hnone] at hbuf
    simp at hbuf

theorem Answered.once (h : Answered cfg.env s)
    (hreceived : .received senderId reqHeader msg ∈ s.it.log)
    : AnsweredOnce cfg senderId reqHeader s.it (s.sh.responses s.own) := by
  rw [← Interaction.mem_history rfl] at hreceived
  obtain ⟨senderId', reqHeader', msg', hanswer⟩ := h.answer
  cases hanswer with
  | inl hfailed =>
    obtain ⟨rpcResult, hresult, hfruitless, hresponses⟩ := hfailed
    refine Or.inr ⟨hfruitless.not_encodes, rpcResult, hresult, ?_⟩
    generalize s.it.history = h at hfruitless hreceived
    cases hfruitless <;> simp at hreceived <;> rw [hresponses, hreceived.1, hreceived.2.1]
  | inr hvalue =>
    obtain ⟨i, req, c, o, v, buf, hhistory, hv, hbuf, hresponses⟩ := hvalue
    have hcalled : .called reqHeader' req (some ⟨c, o⟩) ∈ s.it.log := by
      rw [← Interaction.mem_history rfl, hhistory]
      simp
    simp only [hhistory, List.mem_cons, Ev.received.injEq, reduceCtorEq, List.not_mem_nil,
      or_false] at hreceived
    refine Or.inl ⟨buf, ⟨reqHeader', req, c, o, v, hcalled, ?_, ?_⟩, ?_⟩
    . simp [Interaction.resultCell, Cell.hasValue, CellView.hasValue, Cell.view, hv]
    . simpa [Interaction.resultCell, Cell.hasValue, CellView.hasValue, Cell.view, hv] using hbuf
    . rw [hresponses, hreceived.1, hreceived.2.1]

theorem Owes.of_received {bind : Bind V} {c : CellId} {isEmpty : Bool} {h : List (Ev V)}
    {a : ActionId} (howes : Owes bind c isEmpty h)
    (hhistory : s.it.history = h ++ [.closed a c isEmpty])
    (hreceived : .received senderId reqHeader msg ∈ s.it.log)
    : ∃ req o, bind = .reply senderId (responseHeader reqHeader .succeeded) c
      ∧ .called reqHeader req (some ⟨c, o⟩) ∈ s.it.log ∧ o.value = none ∧ o.isEmpty = isEmpty := by
  rw [← Interaction.mem_history rfl, hhistory] at hreceived
  cases howes with
  | user f _ => simp at hreceived
  | reply senderId' reqHeader' msg' i req o hbind hvalue hempty =>
    have hcalled : .called reqHeader' req (some ⟨c, o⟩) ∈ s.it.log := by
      rw [← Interaction.mem_history rfl, hhistory]
      simp
    simp at hreceived
    obtain ⟨hsender, hheader, _⟩ := hreceived
    subst hsender hheader
    exact ⟨req, o, hbind, hcalled, hvalue, hempty⟩

-- the value such a final action waits for
theorem Answerable.later {it : Interaction V} (h : Answerable cfg it) {req : V} {c : CellId}
    {o : Cell V} (hcalled : .called reqHeader req (some ⟨c, o⟩) ∈ it.log) (hvalue : o.value = none)
    : ∃ v buf, (it.cells c).value = some v
      ∧ ThriftEncoder.encode (cfg.env.codec (it.cells c).type) v = some buf := by
  have hlater := h _ hcalled
  simp only [Ev.isAnswerable, Cell.hasValue, CellView.hasValue, Cell.view, hvalue,
    Option.isSome_none, Bool.false_or, Bool.and_eq_true] at hlater
  obtain ⟨buf, hbuf⟩ := Option.isSome_iff_exists.mp hlater.2
  obtain ⟨v, hv, hbuf⟩ := Option.bind_eq_some_iff.mp hbuf
  exact ⟨v, buf, hv, hbuf⟩

theorem Idle.answeredOnce (h : Idle cfg.env s)
    (hreceived : .received senderId reqHeader msg ∈ s.it.log) (hanswerable : Answerable cfg s.it)
    : AnsweredOnce cfg senderId reqHeader s.it (s.sh.responses s.own) := by
  cases h.kept with
  | inl hlate =>
    obtain ⟨a, c, bind, hist, hhist, howes⟩ := hlate
    obtain ⟨req, o, _, hcalled, hvalue, hempty⟩ := howes.of_received hhist hreceived
    have := hanswerable _ hcalled
    simp [Ev.isAnswerable, Cell.hasValue, CellView.hasValue, Cell.view, hvalue, hempty] at this
  | inr hkept =>
    cases hkept.2 with
    | unclosed hist hopen _ =>
      cases h.served senderId reqHeader msg hreceived with
      | inl hresponses => exact absurd hopen.unanswered hresponses
      | inr hclosed =>
        obtain ⟨a, c, isEmpty, hmem⟩ := hclosed
        exact absurd hmem (hopen.not_mem a c isEmpty)
    | answered hanswered => exact hanswered.once hreceived
    | waiting a c hwaiting =>
      obtain ⟨hist, hhist, howes⟩ := hwaiting.closes.history
      obtain ⟨req, o, _, hcalled, hvalue, _⟩ := howes.of_received hhist hreceived
      have hclosed : .closed a c true ∈ s.it.log := by
        rw [← Interaction.mem_history rfl, hhist]
        simp
      obtain ⟨v, _, hv, _⟩ := hanswerable.later hcalled hvalue
      have hset : (s.it.cells c).hasValueOrError = true := by
        simp [Cell.hasValueOrError, CellView.hasValueOrError, CellView.hasValue, Cell.view, hv]
      have hpos : 0 < s.it.log.countP (Ev.runs a) :=
        List.countP_pos_iff.mpr ⟨_, h.heard a c hclosed hset, by simp [Ev.runs]⟩
      have hnone := hwaiting.ran
      omega
    | completed a c hcompleted =>
      obtain ⟨hist, hhist, howes⟩ := hcompleted.closes.history
      obtain ⟨req, o, hbind, hcalled, hvalue, _⟩ := howes.of_received hhist hreceived
      obtain ⟨v, buf, hv, hbuf⟩ := hanswerable.later hcalled hvalue
      refine Or.inl ⟨buf, ⟨reqHeader, req, c, o, v, hcalled, ?_, ?_⟩, ?_⟩
      . simpa [Interaction.resultCell, Cell.hasValue, CellView.hasValue, Cell.view, hvalue] using hv
      . simpa [Interaction.resultCell, Cell.hasValue, CellView.hasValue, Cell.view, hvalue]
          using hbuf
      . rw [hcompleted.responses, hbind]
        simp [replyOf, hv, hbuf]

end AnsweredOnce

/--
In every state between two messages, a request whose implementation has returned no cell or has a
value to send by now has been answered once.
-/
theorem answeredOnce_of_answerable {cfg : Config V} {n : Nat} {start : UInt32}
    {net : Nat → SendOutcome} {es es' : List (Event V)} {nd nd' : Node V} {bytes msg : Bytes}
    {senderId : ServiceId} {reqHeader : ReqMsgHeader}
    (hreach : runEvents cfg n es (Node.init start net) = .ok () nd)
    (hbytes : ReqMsgHeader.ofBytes bytes = some ⟨reqHeader, msg⟩)
    (hrun : runEvents cfg n (.msg cfg.requestMsgId bytes senderId :: es') nd = .ok () nd')
    : ∃ it, nd'.its[nd.its.length]? = some it ∧ .received senderId reqHeader msg ∈ it.log
      ∧ (Answerable cfg it
        → AnsweredOnce cfg senderId reqHeader it (nd'.sh.responses nd.its.length)) := by
  have hstart := NodeInv.init start net (V := V)
  obtain ⟨hinv, hidle⟩ := wp_of_ok
    (NodeIdle.runEvents hstart (NodeIdle.init cfg.env start net) es) hreach
  obtain ⟨_, hidle'⟩ := wp_of_ok (NodeIdle.runEvents hinv hidle _) hrun
  have hreceived : NodeLogged nd.its.length (.received senderId reqHeader msg) nd' :=
    logged_request hinv hbytes (fun _ hmem _ => hmem) (fun _ _ _ hmem _ _ _ => hmem)
      (Or.inl ⟨(), hrun⟩)
  obtain ⟨it, hit, hmem⟩ := hreceived
  refine ⟨it, hit, hmem, ?_⟩
  intro hanswerable
  exact (hidle' _ it hit).answeredOnce hmem hanswerable

-- a service interaction that asks another service, whose answer below is 9
def forwarding (v : UInt8) : Prog UInt8 :=
  .stub ⟨"service", 1, 1, 0, 0, v⟩ fun c => .ret (some c)

theorem answeredOnce_of_answerable_later
    : ∃ nd it, runEvents (Config.bytes fun _ => some [⟨1, 0, 0, fun v => .runSi (forwarding v)⟩]) 3
          [.msg 101 [0, 1, 1, 0, 1, 0, 0, 0, 7] 5,
            .msg 102 [0, 1, 1, 0, 1, 0, 0, 0, 0, 0, 0, 0, 9] 6]
          (Node.init 0 fun _ => ⟨true, some 6, true⟩) = .ok () nd
        ∧ nd.its[0]? = some it
        ∧ AnsweredOnce (Config.bytes fun _ => some [⟨1, 0, 0, fun v => .runSi (forwarding v)⟩])
          5 ⟨⟨0, 1, 1, 1⟩⟩ it (nd.sh.responses 0) := by
  have htest : returns (runEvents
      (Config.bytes fun _ => some [⟨1, 0, 0, fun v => .runSi (forwarding v)⟩]) 3
      [.msg 101 [0, 1, 1, 0, 1, 0, 0, 0, 7] 5,
        .msg 102 [0, 1, 1, 0, 1, 0, 0, 0, 0, 0, 0, 0, 9] 6]
      (Node.init 0 fun _ => ⟨true, some 6, true⟩))
      (fun _ nd => nd.its[0]?.all fun it => it.log.all (Ev.isAnswerable
        (Config.bytes fun _ => some [⟨1, 0, 0, fun v => .runSi (forwarding v)⟩]) it))
      = true := by
    decide +kernel
  obtain ⟨_, nd, hrun, hend⟩ := exists_of_returns htest
  have hbytes : ReqMsgHeader.ofBytes [0, 1, 1, 0, 1, 0, 0, 0, 7] = some ⟨⟨⟨0, 1, 1, 1⟩⟩, [7]⟩ := by
    decide
  have hreach : runEvents (Config.bytes fun _ => some [⟨1, 0, 0, fun v => .runSi (forwarding v)⟩]) 3
      [] (Node.init 0 fun _ => ⟨true, some 6, true⟩) = .ok () _ := rfl
  obtain ⟨it, hit, _, honce⟩ := answeredOnce_of_answerable hreach hbytes hrun
  rw [Node.init, List.length_nil] at hit honce
  rw [hit, Option.all_some, List.all_eq_true] at hend
  exact ⟨nd, it, hrun, hit, honce hend⟩

-- a service interaction that fails at once
def failing : Prog UInt8 := .failedCell 0 .failed fun c => .ret (some c)

/--
The final action on the failed cell runs at once and has nothing to send.
-/
theorem not_answeredOnce_failed
    : ∃ nd it, runEvents
          (Config.bytes fun _ => some [⟨1, 0, 0, fun _ => .runSi failing⟩]) 3
          [.msg 101 [0, 1, 1, 0, 1, 0, 0, 0, 7] 5] (Node.init 0 fun _ => ⟨true, some 6, true⟩)
          = .ok () nd
        ∧ nd.its[0]? = some it ∧ (it.cells 0).hasError = true
        ∧ ¬AnsweredOnce
            (Config.bytes fun _ => some [⟨1, 0, 0, fun _ => .runSi failing⟩])
            5 ⟨⟨0, 1, 1, 1⟩⟩ it (nd.sh.responses 0) := by
  have htest : returns (runEvents
      (Config.bytes fun _ => some [⟨1, 0, 0, fun _ => .runSi failing⟩]) 3
      [.msg 101 [0, 1, 1, 0, 1, 0, 0, 0, 7] 5] (Node.init 0 fun _ => ⟨true, some 6, true⟩))
      (fun _ nd => nd.sh.responses 0 = [] && nd.its[0]?.any fun it => (it.cells 0).hasError)
      = true := by
    decide +kernel
  obtain ⟨_, nd, hrun, hend⟩ := exists_of_returns htest
  simp only [Bool.and_eq_true, decide_eq_true_eq] at hend
  obtain ⟨hresponses, hany⟩ := hend
  obtain ⟨it, hit, herror⟩ := (Option.any_eq_true _ _).mp hany
  refine ⟨nd, it, hrun, hit, herror, ?_⟩
  rw [hresponses]
  rintro (⟨payload, _, hsent⟩ | ⟨_, rpcResult, _, hsent⟩)
  . simp at hsent
  . simp at hsent

end MsgRpc
