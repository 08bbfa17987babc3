import MsgRpc.Msg.Acceptable

/-!
This module contains the proof that the stub and the dispatcher generated from one table of methods
agree on what an index stands for.
-/

namespace MsgRpc

open StateProg

-- `___expand_define_interface_stub_method`, the index of the table is converted to
-- `method_index_t`
def MethodImpl.stub (method : MethodImpl V) (kName : String) (ifaceId : IfaceIndexT) (req : V)
    : StubCall V where
  toServiceName := kName
  ifaceIndex := ifaceId
  methodIndex := UInt8.ofInt method.methodIndex
  reqType := method.reqType
  rspType := method.rspType
  req

def Ev.invocation : Ev V → Option (Int × V)
  | .invoked methodIndex req => some ⟨methodIndex, req⟩
  | _ => none

def Interaction.invocations (it : Interaction V) : List (Int × V) := it.log.filterMap Ev.invocation

theorem Interaction.invocations_eq (it : Interaction V)
    : it.invocations = it.calls.filterMap Ev.invocation := by
  unfold invocations calls
  rw [List.filterMap_filter]
  congr
  funext e
  cases e <;> rfl

theorem History.invocations {cfg : Config V} {calls : List (Ev V)} (h : History cfg calls) {i : Int}
    {req : V} (hmem : .invoked i req ∈ calls)
    : calls.filterMap Ev.invocation = [⟨i, req⟩] := by
  cases h <;> simp at hmem <;> rw [hmem.1, hmem.2] <;> rfl

theorem toNat_ofInt {i : Int} (hnonneg : 0 ≤ i) (hlt : i < 256)
    : ((UInt8.ofInt i).toNat : Int) = i := by
  obtain ⟨k, rfl⟩ := Int.eq_ofNat_of_zero_le hnonneg
  have hk : k < 256 := by omega
  simp only [UInt8.ofInt, Int.natCast_pow, Int.cast_ofNat_Int, UInt8.toNat_ofNat']
  omega

theorem find?_of_distinct {methods : List (MethodImpl V)}
    (hdistinct : methods.Pairwise (fun m m' => m.methodIndex ≠ m'.methodIndex))
    {method : MethodImpl V} (hmem : method ∈ methods)
    : methods.find? (fun m => method.methodIndex = m.methodIndex) = some method := by
  induction methods with
  | nil => simp at hmem
  | cons m methods ih =>
    obtain ⟨hhead, htail⟩ := List.pairwise_cons.mp hdistinct
    rw [List.mem_cons] at hmem
    cases hmem with
    | inl heq => simp [heq]
    | inr hmem =>
      have hne := (hhead method hmem).symm
      simp [hne, ih htail hmem]

def Out.request? : Out V → Option (ServiceId × Bytes × Nat × CellId × StubCall V)
  | .request serviceId msg own c call => some ⟨serviceId, msg, own, c, call⟩
  | _ => none

theorem Out.mem_requests {out : List (Out V)} {serviceId : ServiceId} {msg : Bytes} {own : Nat}
    {c : CellId} {call : StubCall V}
    : ⟨serviceId, msg, own, c, call⟩ ∈ out.filterMap Out.request?
      ↔ .request serviceId msg own c call ∈ out := by
  rw [List.mem_filterMap]
  constructor
  . rintro ⟨o, hmem, ho⟩
    cases o <;> simp [Out.request?] at ho
    obtain ⟨hserviceId, hmsg, hown, hc, hcall⟩ := ho
    subst hserviceId hmsg hown hc hcall
    exact hmem
  . intro hmem
    exact ⟨_, hmem, rfl⟩

section Server

variable {cfg : Config V} {n : Nat} {start : UInt32} {net : Nat → SendOutcome}
variable {es es' : List (Event V)} {nd nd' : Node V} {bytes msg : Bytes} {senderId : ServiceId}
variable {reqHeader : ReqMsgHeader} {methods : List (MethodImpl V)} {method : MethodImpl V}

theorem invocations_of_serves (hreach : runEvents cfg n es (Node.init start net) = .ok () nd)
    (hbytes : ReqMsgHeader.ofBytes bytes = some ⟨reqHeader, msg⟩)
    (hmethod : cfg.Serves reqHeader method) {req : V}
    (hreq : ThriftDecoder.decode (cfg.env.codec method.reqType) msg = some req)
    (hrun : Ends (runEvents cfg n (.msg cfg.requestMsgId bytes senderId :: es')) nd nd')
    : ∃ it, nd'.its[nd.its.length]? = some it ∧ it.invocations = [⟨method.methodIndex, req⟩] := by
  have hinv := NodeInv.of_runEvents hreach
  have haccount := wp_of_ok
    ((NodeAccount.init cfg start net).runEvents (NodeInv.init start net) es) hreach
  have hend := haccount.2.of_ends hinv hrun
  have hinvoked : NodeLogged nd.its.length (.invoked method.methodIndex req) nd' := by
    apply logged_request hinv hbytes _ _ hrun
    . intro s _ hreject
      exact absurd hreq (hreject method req hmethod)
    . intro s method' req' _ hmem hmethod' hreq'
      rw [Acceptable.serves_unique hmethod hmethod'] at hmem hreq'
      rw [hreq] at hreq'
      simp only [Option.some.injEq] at hreq'
      rw [hreq']
      exact hmem
  obtain ⟨it, hit, hmem⟩ := hinvoked
  refine ⟨it, hit, ?_⟩
  rw [Interaction.invocations_eq]
  apply (hend.interaction nd.its.length it hit).history.invocations
  rw [Interaction.mem_calls rfl]
  exact hmem

theorem onRpcInvoke_of_missing {env : Env V} {upd : Updatable → M V Unit}
    (hmissing : ∀ m ∈ methods, (reqHeader.methodIndexInInterface.toNat : Int) ≠ m.methodIndex)
    (rspHeader : RspMsgHeader) (s : St V)
    : onRpcInvoke env upd methods reqHeader msg rspHeader senderId s
        = .ok ⟨.methodNotFound, { rspHeader with rpcResult := .methodNotFound }⟩ s := by
  have hfind : methods.find?
      (fun m => (reqHeader.methodIndexInInterface.toNat : Int) = m.methodIndex) = none := by
    simpa [List.find?_eq_none] using hmissing
  unfold onRpcInvoke
  rw [hfind]
  rfl

end Server

/--
For every method whose index is a `method_index_t`, the request its stub sends leads to its
implementation, once, and to no other. An index that is not in the table leads to none.
-/
theorem stub_agrees {cfg : Config V} {n : Nat} {start : UInt32} {net : Nat → SendOutcome}
    {es : List (Event V)} {nd : Node V} {methods : List (MethodImpl V)} {ifaceId : IfaceIndexT}
    (hreach : runEvents cfg n es (Node.init start net) = .ok () nd)
    (hiface : cfg.ifaceImpl ifaceId = some methods)
    (hdistinct : methods.Pairwise (fun m m' => m.methodIndex ≠ m'.methodIndex))
    (hnonneg : ∀ m ∈ methods, 0 ≤ m.methodIndex)
    : (∀ method ∈ methods, method.methodIndex < 256 → (cfg.env.codec method.reqType).Lawful
        → ∀ (client : Config V) (k : Nat) (first : UInt32) (channel : Nat → SendOutcome)
            (before : List (Event V)) (cl : Node V) (kName : String) (req : V)
            (serviceId senderId : ServiceId) (bytes : Bytes) (own : Nat) (c : CellId)
            (after : List (Event V)) (nd' : Node V),
          client.env.codec method.reqType = cfg.env.codec method.reqType
          → Ends (runEvents client k before) (Node.init first channel) cl
          → .request serviceId bytes own c (method.stub kName ifaceId req) ∈ cl.sh.out
          → Ends (runEvents cfg n (.msg cfg.requestMsgId bytes senderId :: after)) nd nd'
          → ∃ it, nd'.its[nd.its.length]? = some it
            ∧ it.invocations = [⟨method.methodIndex, req⟩])
      ∧ ∀ (reqHeader : ReqMsgHeader),
          (∀ m ∈ methods, (reqHeader.methodIndexInInterface.toNat : Int) ≠ m.methodIndex)
          → ∀ (upd : Updatable → M V Unit) (msg : Bytes) (rspHeader : RspMsgHeader)
              (senderId : ServiceId) (s : St V),
            onRpcInvoke cfg.env upd methods reqHeader msg rspHeader senderId s
              = .ok ⟨.methodNotFound, { rspHeader with rpcResult := .methodNotFound }⟩ s := by
  constructor
  . intro method hmem hlt hcodec client k first channel before cl kName req serviceId senderId bytes
      own c after nd' henv hclient hsent hrun
    have haccount := (NodeAccount.init client first channel).of_ends (NodeInv.init first channel)
      hclient
    obtain ⟨seqId, pbuf, hbytes, hpbuf⟩ := haccount.requests _ _ _ _ _ hsent
    have hparse : ReqMsgHeader.ofBytes bytes
        = some ⟨reqHeader (method.stub kName ifaceId req) seqId, pbuf⟩ := by
      rw [hbytes, ReqMsgHeader.ofBytes_toBytes_append]
    have hindex : ((reqHeader (method.stub kName ifaceId req) seqId).methodIndexInInterface.toNat
        : Int) = method.methodIndex :=
      toNat_ofInt (hnonneg method hmem) hlt
    have hmethod : cfg.Serves (reqHeader (method.stub kName ifaceId req) seqId) method := by
      refine ⟨methods, hiface, ?_⟩
      rw [hindex]
      exact find?_of_distinct hdistinct hmem
    have hpbuf' : ThriftEncoder.encode (cfg.env.codec method.reqType) req = some pbuf := by
      rw [← henv]
      exact hpbuf
    exact invocations_of_serves hreach hparse hmethod (ThriftDecoder.decode_encode hcodec hpbuf')
      hrun
  . intro reqHeader hmissing upd msg rspHeader senderId s
    exact onRpcInvoke_of_missing hmissing rspHeader s

-- the method the examples implement
def increment (methodIndex : Int) : MethodImpl UInt8 where
  methodIndex
  reqType := 0
  rspType := 0
  impl v := .newCell (some (.value (v + 1)))

theorem stub_agrees_increment
    : ∃ nd, runEvents (Config.bytes fun _ => some [increment 200]) 2
          [.msg 101 [0, 200, 1, 0, 1, 0, 0, 0, 7] 9] (Node.init 0 fun _ => ⟨true, some 5, true⟩)
          = .ok () nd
        ∧ ∃ it, nd.its[0]? = some it ∧ it.invocations = [⟨200, 7⟩] := by
  have hclient : returns (runEvents (Config.bytes fun _ => none) 2
      [.interaction (.stub ((increment 200).stub "service" 1 7) fun c => .ret (some c)) none]
      (Node.init 0 fun _ => ⟨true, some 5, true⟩))
      (fun _ cl => cl.sh.out.filterMap Out.request?
        = [⟨5, [0, 200, 1, 0, 1, 0, 0, 0, 7], 0, 0, (increment 200).stub "service" 1 7⟩]) = true := by
    decide +kernel
  obtain ⟨_, cl, hcl, hsent⟩ := exists_of_returns hclient
  simp only [decide_eq_true_eq] at hsent
  have hmem : .request 5 [0, 200, 1, 0, 1, 0, 0, 0, 7] 0 0 ((increment 200).stub "service" 1 7)
      ∈ cl.sh.out := by
    rw [← Out.mem_requests, hsent]
    exact List.mem_singleton_self _
  have hserver : returns (runEvents (Config.bytes fun _ => some [increment 200]) 2
      [.msg 101 [0, 200, 1, 0, 1, 0, 0, 0, 7] 9] (Node.init 0 fun _ => ⟨true, some 5, true⟩))
      (fun _ _ => true) = true := by
    decide +kernel
  obtain ⟨_, nd, hnd, _⟩ := exists_of_returns hserver
  have hreach : runEvents (Config.bytes fun _ => some [increment 200]) 2 []
      (Node.init 0 fun _ => ⟨true, some 5, true⟩)
      = .ok () (Node.init 0 fun _ => ⟨true, some 5, true⟩) := rfl
  have hiface : (Config.bytes fun _ => some [increment 200]).ifaceImpl 1 = some [increment 200] := rfl
  have hagrees := (stub_agrees hreach hiface (by simp) (by simp [increment])).1
    (increment 200) (by simp) (by decide) Codec.lawful_byte (Config.bytes fun _ => none) 2 0
    (fun _ => ⟨true, some 5, true⟩) _ cl "service" 7 5 9 _ 0 0 [] nd rfl (Or.inl ⟨(), hcl⟩) hmem
    (Or.inl ⟨(), hnd⟩)
  exact ⟨nd, hnd, hagrees⟩

/--
The indices 0 and 256 are distinct, but only one of them fits into the header: the request that
the stub of the second method sends leads to the first.
-/
theorem not_stub_agrees_wide
    : ∃ cl nd, runEvents (Config.bytes fun _ => none) 2
          [.interaction (.stub ((increment 256).stub "service" 1 7) fun c => .ret (some c)) none]
          (Node.init 0 fun _ => ⟨true, some 5, true⟩) = .ok () cl
        ∧ .request 5 [0, 0, 1, 0, 1, 0, 0, 0, 7] 0 0 ((increment 256).stub "service" 1 7) ∈ cl.sh.out
        ∧ runEvents (Config.bytes fun _ => some [increment 0, increment 256]) 2
          [.msg 101 [0, 0, 1, 0, 1, 0, 0, 0, 7] 9] (Node.init 0 fun _ => ⟨true, some 5, true⟩)
          = .ok () nd
        ∧ ∃ it, nd.its[0]? = some it ∧ it.invocations = [⟨0, 7⟩] := by
  have hclient : returns (runEvents (Config.bytes fun _ => none) 2
      [.interaction (.stub ((increment 256).stub "service" 1 7) fun c => .ret (some c)) none]
      (Node.init 0 fun _ => ⟨true, some 5, true⟩))
      (fun _ cl => cl.sh.out.filterMap Out.request?
        = [⟨5, [0, 0, 1, 0, 1, 0, 0, 0, 7], 0, 0, (increment 256).stub "service" 1 7⟩]) = true := by
    decide +kernel
  obtain ⟨_, cl, hcl, hsent⟩ := exists_of_returns hclient
  simp only [decide_eq_true_eq] at hsent
  have hserver : returns (runEvents (Config.bytes fun _ => some [increment 0, increment 256]) 2
      [.msg 101 [0, 0, 1, 0, 1, 0, 0, 0, 7] 9] (Node.init 0 fun _ => ⟨true, some 5, true⟩))
      (fun _ nd => nd.its.map Interaction.invocations = [[⟨0, 7⟩]]) = true := by
    decide +kernel
  obtain ⟨_, nd, hnd, hits⟩ := exists_of_returns hserver
  simp only [decide_eq_true_eq, List.map_eq_singleton_iff] at hits
  obtain ⟨it, hits, hinvocations⟩ := hits
  refine ⟨cl, nd, hcl, ?_, hnd, it, by simp [hits], hinvocations⟩
  rw [← Out.mem_requests, hsent]
  exact List.mem_singleton_self _

end MsgRpc
