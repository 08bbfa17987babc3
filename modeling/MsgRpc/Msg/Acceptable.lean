import MsgRpc.Msg.Account
import MsgRpc.Msg.Lemmas.Logged

/-!
This module contains the proof that a client accepts every response of a server.
-/

namespace MsgRpc

open StateProg

/--
The implementation has been called with `req` and has put `v` into the cell it has returned, before
or after it returned.
-/
def Produced (log : List (Ev V)) (reqHeader : ReqMsgHeader) (req v : V) : Prop :=
  ∃ c o, .called reqHeader req (some ⟨c, o⟩) ∈ log ∧ .assigned c (.value v) ∈ log
    ∧ (o.value = none ∨ o.value = some v)

/--
There is nothing to send: the request does not decode, or the implementation has returned no cell or
a cell with a value that does not encode.
-/
def Unsendable (cfg : Config V) (log : List (Ev V)) (reqHeader : ReqMsgHeader) (msg : Bytes)
    (method : MethodImpl V) : Prop :=
  match ThriftDecoder.decode (cfg.env.codec method.reqType) msg with
  | none => True
  | some req => .called reqHeader req none ∈ log
    ∨ ∃ c o v, .called reqHeader req (some ⟨c, o⟩) ∈ log ∧ o.value = some v
      ∧ ThriftEncoder.encode (cfg.env.codec o.type) v = none

/--
A response to a request, `log` is what has happened on the server.
-/
structure Acceptable (cfg : Config V) (log : List (Ev V)) (reqHeader : ReqMsgHeader) (msg : Bytes)
    (rspHeader : RspMsgHeader) (payload : Bytes) : Prop where
  echoes : rspHeader.toMsgHeader = reqHeader.toMsgHeader
  header : payload = [] ↔ rspHeader.rpcResult ≠ .succeeded
  value : rspHeader.rpcResult = .succeeded → ∃ method req v, cfg.Serves reqHeader method
    ∧ ThriftDecoder.decode (cfg.env.codec method.reqType) msg = some req
    ∧ Produced log reqHeader req v
    ∧ ThriftDecoder.decode (cfg.env.codec method.rspType) payload = some v
  ifaceNotFound : rspHeader.rpcResult = .ifaceNotFound
    ↔ cfg.ifaceImpl reqHeader.ifaceIndexInService = none
  methodNotFound : rspHeader.rpcResult = .methodNotFound
    ↔ ∃ methods, cfg.ifaceImpl reqHeader.ifaceIndexInService = some methods
      ∧ ∀ method ∈ methods, (reqHeader.methodIndexInInterface.toNat : Int) ≠ method.methodIndex
  failed : rspHeader.rpcResult = .failed
    ↔ ∃ method, cfg.Serves reqHeader method ∧ Unsendable cfg log reqHeader msg method

theorem History.received_unique {cfg : Config V} {senderId : ServiceId}
    {reqHeader : ReqMsgHeader} {msg : Bytes} {calls : List (Ev V)} (h : History cfg calls)
    {senderId' : ServiceId} {reqHeader' : ReqMsgHeader} {msg' : Bytes}
    (hmem : .received senderId reqHeader msg ∈ calls)
    (hmem' : .received senderId' reqHeader' msg' ∈ calls)
    : senderId' = senderId ∧ reqHeader' = reqHeader ∧ msg' = msg := by
  cases h <;> simp at hmem hmem' <;> simp [hmem, hmem']

theorem History.called_unique {cfg : Config V} {calls : List (Ev V)} (h : History cfg calls)
    {reqHeader reqHeader' : ReqMsgHeader} {req req' : V} {rspCell rspCell' : Option (CellId × Cell V)}
    (hmem : .called reqHeader req rspCell ∈ calls)
    (hmem' : .called reqHeader' req' rspCell' ∈ calls)
    : rspCell' = rspCell := by
  cases h <;> simp at hmem hmem' <;> simp [hmem, hmem']

theorem History.of_invoked {cfg : Config V} {calls : List (Ev V)} (h : History cfg calls) {i : Int}
    {req : V} (hmem : .invoked i req ∈ calls)
    : ∃ senderId reqHeader msg method, .received senderId reqHeader msg ∈ calls
        ∧ cfg.Serves reqHeader method
        ∧ ThriftDecoder.decode (cfg.env.codec method.reqType) msg = some req
        ∧ i = method.methodIndex := by
  cases h with
  | idle => simp at hmem
  | received _ _ _ => simp at hmem
  | invoked senderId reqHeader msg method req' hmethod hreq =>
    simp only [List.mem_cons, reduceCtorEq, Ev.invoked.injEq, List.not_mem_nil, or_false,
      false_or] at hmem
    obtain ⟨hi, heq⟩ := hmem
    subst heq
    exact ⟨senderId, reqHeader, msg, method, by simp, hmethod, hreq, hi⟩
  | called senderId reqHeader msg method req' rspCell hmethod hreq _ =>
    simp only [List.mem_cons, reduceCtorEq, Ev.invoked.injEq, List.not_mem_nil, or_false,
      false_or] at hmem
    obtain ⟨hi, heq⟩ := hmem
    subst heq
    exact ⟨senderId, reqHeader, msg, method, by simp, hmethod, hreq, hi⟩

namespace Acceptable

variable {cfg : Config V} {log : List (Ev V)} {senderId : ServiceId} {reqHeader : ReqMsgHeader}
variable {msg rsp : Bytes}

theorem serves_unique {method method' : MethodImpl V} (h : cfg.Serves reqHeader method)
    (h' : cfg.Serves reqHeader method')
    : method' = method := by
  obtain ⟨methods, hmethods, hfind⟩ := h
  obtain ⟨methods', hmethods', hfind'⟩ := h'
  rw [hmethods] at hmethods'
  simp only [Option.some.injEq] at hmethods'
  rw [← hmethods', hfind] at hfind'
  simpa using hfind'.symm

-- a method is found or the request names none
theorem not_serves_of_all {methods : List (MethodImpl V)}
    (hiface : cfg.ifaceImpl reqHeader.ifaceIndexInService = some methods)
    : (∀ method ∈ methods, (reqHeader.methodIndexInInterface.toNat : Int) ≠ method.methodIndex)
      ↔ methods.find? (fun m => (reqHeader.methodIndexInInterface.toNat : Int) = m.methodIndex)
        = none := by
  simp [List.find?_eq_none]

theorem codes {rpcResult : RpcResult}
    (h : (rpcResult = .ifaceNotFound ∧ cfg.ifaceImpl reqHeader.ifaceIndexInService = none)
      ∨ (rpcResult = .methodNotFound ∧ ∃ methods,
          cfg.ifaceImpl reqHeader.ifaceIndexInService = some methods ∧ methods.find?
            (fun m => (reqHeader.methodIndexInInterface.toNat : Int) = m.methodIndex) = none)
      ∨ (rpcResult = .failed ∨ rpcResult = .succeeded) ∧ ∃ method, cfg.Serves reqHeader method
          ∧ (rpcResult = .failed ↔ Unsendable cfg log reqHeader msg method))
    : (rpcResult = .ifaceNotFound ↔ cfg.ifaceImpl reqHeader.ifaceIndexInService = none)
      ∧ (rpcResult = .methodNotFound
        ↔ ∃ methods, cfg.ifaceImpl reqHeader.ifaceIndexInService = some methods
          ∧ ∀ method ∈ methods,
            (reqHeader.methodIndexInInterface.toNat : Int) ≠ method.methodIndex)
      ∧ (rpcResult = .failed
        ↔ ∃ method, cfg.Serves reqHeader method ∧ Unsendable cfg log reqHeader msg method) := by
  rcases h with ⟨hcode, hiface⟩ | ⟨hcode, methods, hiface, hfind⟩ | ⟨hcode, method, hserves, hiff⟩
  . have hno : ∀ method, ¬cfg.Serves reqHeader method := by
      rintro method ⟨methods, hmethods, _⟩
      simp [hiface] at hmethods
    rw [hcode]
    refine ⟨by simp [hiface], by simp [hiface]; decide, by simp [hno]; decide⟩
  . have hno : ∀ method, ¬cfg.Serves reqHeader method := by
      rintro method ⟨methods', hmethods, hfind'⟩
      simp only [hiface, Option.some.injEq] at hmethods
      simp [← hmethods, hfind] at hfind'
    rw [hcode]
    refine ⟨by simp [hiface]; decide, ?_, by simp [hno]; decide⟩
    simp only [true_iff]
    exact ⟨methods, hiface, (not_serves_of_all hiface).mpr hfind⟩
  . obtain ⟨methods, hiface, hfind⟩ := hserves
    have hfound : ¬∀ method ∈ methods,
        (reqHeader.methodIndexInInterface.toNat : Int) ≠ method.methodIndex := by
      rw [not_serves_of_all hiface, hfind]
      simp
    refine ⟨?_, ?_, ?_⟩
    . cases hcode with
      | inl hcode => simp [hcode, hiface]; decide
      | inr hcode => simp [hcode, hiface]; decide
    . have hno : ¬∃ methods, cfg.ifaceImpl reqHeader.ifaceIndexInService = some methods
          ∧ ∀ method ∈ methods,
            (reqHeader.methodIndexInInterface.toNat : Int) ≠ method.methodIndex := by
        rintro ⟨methods', hmethods, hall⟩
        simp only [hiface, Option.some.injEq] at hmethods
        rw [← hmethods] at hall
        exact hfound hall
      rw [iff_false_right hno]
      cases hcode with
      | inl hcode => rw [hcode]; decide
      | inr hcode => rw [hcode]; decide
    . constructor
      . intro hfailed
        exact ⟨method, ⟨methods, hiface, hfind⟩, hiff.mp hfailed⟩
      . rintro ⟨method', hserves', hunsendable⟩
        rw [serves_unique ⟨methods, hiface, hfind⟩ hserves'] at hunsendable
        exact hiff.mpr hunsendable

theorem of_failure {rpcResult : RpcResult} {h : List (Ev V)}
    (hfails : Fails cfg senderId reqHeader msg rpcResult h) (hlog : ∀ e ∈ h, e ∈ log)
    : Acceptable cfg log reqHeader msg (responseHeader reqHeader rpcResult) [] := by
  have hcodes : (rpcResult = .ifaceNotFound ∧ cfg.ifaceImpl reqHeader.ifaceIndexInService = none)
      ∨ (rpcResult = .methodNotFound ∧ ∃ methods,
          cfg.ifaceImpl reqHeader.ifaceIndexInService = some methods ∧ methods.find?
            (fun m => (reqHeader.methodIndexInInterface.toNat : Int) = m.methodIndex) = none)
      ∨ (rpcResult = .failed ∨ rpcResult = .succeeded) ∧ ∃ method, cfg.Serves reqHeader method
          ∧ (rpcResult = .failed ↔ Unsendable cfg log reqHeader msg method) := by
    cases hfails with
    | ifaceNotFound hiface => exact Or.inl ⟨rfl, hiface⟩
    | methodNotFound methods hiface hfind => exact Or.inr (Or.inl ⟨rfl, methods, hiface, hfind⟩)
    | undecodable method hmethod hreq =>
      refine Or.inr (Or.inr ⟨Or.inl rfl, method, hmethod, ?_⟩)
      simp [Unsendable, hreq]
    | nullptr method req hmethod hreq =>
      refine Or.inr (Or.inr ⟨Or.inl rfl, method, hmethod, ?_⟩)
      have hcalled := hlog (.called reqHeader req none) (by simp)
      simp [Unsendable, hreq, hcalled]
    | unencodable method req c o v hmethod hreq hv hbuf =>
      refine Or.inr (Or.inr ⟨Or.inl rfl, method, hmethod, ?_⟩)
      have hcalled := hlog (.called reqHeader req (some ⟨c, o⟩)) (by simp)
      simp only [Unsendable, hreq, true_iff]
      exact Or.inr ⟨c, o, v, hcalled, hv, hbuf⟩
  obtain ⟨hiface, hmethod, hfailed⟩ := codes hcodes
  refine ⟨rfl, ?_, ?_, hiface, hmethod, hfailed⟩
  . simp only [true_iff]
    exact hfails.ne_succeeded
  . intro hsucceeded
    exact absurd hsucceeded hfails.ne_succeeded

theorem of_value {method : MethodImpl V} {req : V} {c : CellId} {o : Cell V} {v : V} {buf : Bytes}
    {it : Interaction V} (hcodec : (cfg.env.codec method.rspType).Lawful)
    (hhistory : History cfg it.calls) (hmethod : cfg.Serves reqHeader method)
    (hreq : ThriftDecoder.decode (cfg.env.codec method.reqType) msg = some req)
    (hcalled : .called reqHeader req (some ⟨c, o⟩) ∈ it.log)
    (hv : o.value = none ∨ o.value = some v) (hassigned : .assigned c (.value v) ∈ it.log)
    (htype : o.type = method.rspType)
    (hbuf : ThriftEncoder.encode (cfg.env.codec method.rspType) v = some buf)
    : Acceptable cfg it.log reqHeader msg (responseHeader reqHeader .succeeded) buf := by
  have hsendable : ¬Unsendable cfg it.log reqHeader msg method := by
    rw [← Interaction.mem_calls rfl] at hcalled
    simp only [Unsendable, hreq]
    rintro (hnone | ⟨c', o', v', hcalled', hv', hbuf'⟩)
    . rw [← Interaction.mem_calls rfl] at hnone
      have := hhistory.called_unique hcalled hnone
      simp at this
    . rw [← Interaction.mem_calls rfl] at hcalled'
      have hsame := hhistory.called_unique hcalled hcalled'
      simp only [Option.some.injEq, Prod.mk.injEq] at hsame
      obtain ⟨_, ho⟩ := hsame
      subst ho
      simp only [hv', reduceCtorEq, Option.some.injEq, false_or] at hv
      rw [htype, hv, hbuf] at hbuf'
      simp at hbuf'
  have hcodes : RpcResult.succeeded = .failed ↔ Unsendable cfg it.log reqHeader msg method :=
    iff_of_false (by decide) hsendable
  obtain ⟨hiface, hmethodNotFound, hfailed⟩ :=
    codes (Or.inr (Or.inr ⟨Or.inr rfl, method, hmethod, hcodes⟩))
  refine ⟨rfl, ?_, ?_, hiface, hmethodNotFound, hfailed⟩
  . have hlen := ThriftEncoder.length_pos_of_encode hbuf
    simp only [responseHeader, ne_eq, not_true_eq_false, iff_false]
    intro hnil
    simp [hnil] at hlen
  . intro _
    exact ⟨method, req, v, hmethod, hreq, ⟨c, o, hcalled, hassigned, hv⟩,
      ThriftDecoder.decode_encode hcodec hbuf⟩

theorem of_answer (hcodec : ∀ type, (cfg.env.codec type).Lawful) {it : Interaction V}
    (hhistory : History cfg it.calls) (hanswer : Answer cfg it.log senderId reqHeader msg rsp)
    : ∃ rspHeader payload, RspMsgHeader.ofBytes rsp = some ⟨rspHeader, payload⟩
        ∧ Acceptable cfg it.log reqHeader msg rspHeader payload := by
  cases hanswer with
  | failure rpcResult h hfails hlog =>
    refine ⟨responseHeader reqHeader rpcResult, [], ?_, of_failure hfails hlog⟩
    have := RspMsgHeader.ofBytes_toBytes_append (responseHeader reqHeader rpcResult) []
    simpa using this
  | value method req c o v buf hmethod hreq hcalled hv hassigned htype hbuf =>
    refine ⟨responseHeader reqHeader .succeeded, buf, by simp, ?_⟩
    exact of_value (hcodec _) hhistory hmethod hreq hcalled hv hassigned htype hbuf

end Acceptable
/--
In all runs, also those that end early, each response to a request is acceptable, and no client
fails the assertion on the payload when it comes in.
-/
theorem acceptable_responses {cfg : Config V} (hcodec : ∀ type, (cfg.env.codec type).Lawful)
    {n : Nat} {start : UInt32} {net : Nat → SendOutcome} {es es' : List (Event V)}
    {nd nd' : Node V} {bytes msg : Bytes} {senderId : ServiceId} {reqHeader : ReqMsgHeader}
    (hreach : runEvents cfg n es (Node.init start net) = .ok () nd)
    (hbytes : ReqMsgHeader.ofBytes bytes = some ⟨reqHeader, msg⟩)
    (hrun : Ends (runEvents cfg n (.msg cfg.requestMsgId bytes senderId :: es')) nd nd')
    {serviceId : ServiceId} {rsp : Bytes}
    (hrsp : ⟨serviceId, rsp⟩ ∈ nd'.sh.responses nd.its.length)
    : serviceId = senderId
      ∧ (∃ it rspHeader payload, nd'.its[nd.its.length]? = some it
        ∧ RspMsgHeader.ofBytes rsp = some ⟨rspHeader, payload⟩
        ∧ Acceptable cfg it.log reqHeader msg rspHeader payload)
      ∧ ∀ (W : Type) (client : Config W) (k : Nat) (first : UInt32) (channel : Nat → SendOutcome)
          (before : List (Event W)) (cl cl' : Node W),
        runEvents client k before (Node.init first channel) = .ok () cl
          → handleEvent client k (.msg client.responseMsgId rsp serviceId) cl
            ≠ .error (.assertion .payload) cl' := by
  have hinv := NodeInv.of_runEvents hreach
  have hstart := NodeInv.init start net (V := V)
  have haccount := wp_of_ok ((NodeAccount.init cfg start net).runEvents hstart es) hreach
  have hend := haccount.2.of_ends hinv hrun
  have hreceived : NodeLogged nd.its.length (.received senderId reqHeader msg) nd' :=
    logged_request hinv hbytes (fun _ hmem _ => hmem) (fun _ _ _ hmem _ _ _ => hmem) hrun
  obtain ⟨it, hit, hmem⟩ := hreceived
  have haccounted := hend.interaction nd.its.length it hit
  obtain ⟨reqHeader', msg', hmem', hanswer⟩ := haccounted.responses serviceId rsp hrsp
  obtain ⟨hsender, hheader, hmsg⟩ := haccounted.history.received_unique
    ((Interaction.mem_calls rfl).mpr hmem) ((Interaction.mem_calls rfl).mpr hmem')
  subst hsender hheader hmsg
  obtain ⟨rspHeader, payload, hparse, hacceptable⟩ :=
    Acceptable.of_answer hcodec haccounted.history hanswer
  refine ⟨rfl, ⟨it, rspHeader, payload, hit, hparse, hacceptable⟩, ?_⟩
  intro W client k first channel before cl cl' hclient hfails
  have hsane := wp_of_error
    (handleEvent_table (NodeInv.of_runEvents hclient) (.msg client.responseMsgId rsp serviceId)) hfails
  obtain ⟨_, hbad⟩ := hsane.1 (Or.inl rfl)
  rw [if_pos rfl] at hbad
  obtain ⟨rspHeader', hparse', hsucceeded, _⟩ := hbad
  rw [hparse] at hparse'
  simp only [Option.some.injEq, Prod.mk.injEq] at hparse'
  rw [← hparse'.1] at hsucceeded
  exact hacceptable.header.mp hparse'.2 hsucceeded

-- a method that adds one to its argument
theorem acceptable_responses_value
    : ∃ nd, runEvents
          (Config.bytes fun _ => some [⟨1, 0, 0, fun v => .newCell (some (.value (v + 1)))⟩]) 2
          [.msg 101 [0, 1, 1, 0, 1, 0, 0, 0, 7] 5] (Node.init 0 fun _ => ⟨true, some 5, true⟩)
          = .ok () nd
        ∧ ∃ it rspHeader payload, nd.its[0]? = some it
          ∧ RspMsgHeader.ofBytes [0, 1, 1, 0, 1, 0, 0, 0, 0, 0, 0, 0, 8]
            = some ⟨rspHeader, payload⟩
          ∧ Acceptable
            (Config.bytes fun _ => some [⟨1, 0, 0, fun v => .newCell (some (.value (v + 1)))⟩]) it.log
            ⟨⟨0, 1, 1, 1⟩⟩ [7] rspHeader payload := by
  have htest : returns (runEvents
      (Config.bytes fun _ => some [⟨1, 0, 0, fun v => .newCell (some (.value (v + 1)))⟩]) 2
      [.msg 101 [0, 1, 1, 0, 1, 0, 0, 0, 7] 5] (Node.init 0 fun _ => ⟨true, some 5, true⟩))
      (fun _ nd => nd.sh.responses 0 = [⟨5, [0, 1, 1, 0, 1, 0, 0, 0, 0, 0, 0, 0, 8]⟩])
      = true := by
    decide +kernel
  obtain ⟨_, nd, hrun, hend⟩ := exists_of_returns htest
  simp only [decide_eq_true_eq] at hend
  have hreach : runEvents
      (Config.bytes fun _ => some [⟨1, 0, 0, fun v => .newCell (some (.value (v + 1)))⟩]) 2 []
      (Node.init 0 fun _ => ⟨true, some 5, true⟩)
      = .ok () (Node.init 0 fun _ => ⟨true, some 5, true⟩) := rfl
  have hbytes : ReqMsgHeader.ofBytes [0, 1, 1, 0, 1, 0, 0, 0, 7] = some ⟨⟨⟨0, 1, 1, 1⟩⟩, [7]⟩ := by
    decide
  have hacceptable := acceptable_responses (fun _ => Codec.lawful_byte) hreach hbytes
    (Or.inl ⟨(), hrun⟩) (by rw [Node.init, List.length_nil, hend]; exact List.mem_singleton_self _)
  exact ⟨nd, hrun, hacceptable.2.1⟩

end MsgRpc
