import MsgRpc.Lib.Network
import MsgRpc.Msg.Acceptable
import MsgRpc.Msg.Linked
import MsgRpc.Msg.Origin
import MsgRpc.Msg.Resolved

/-!
This module contains processes that send each other requests and responses, and the proof that what
an rpc ends with has been made for its very request by the process it has been addressed to.
-/

namespace MsgRpc

open StateProg

theorem runEvents_snoc {cfg : Config V} {n : Nat} {es : List (Event V)} {nd nd1 : Node V}
    (hrun : runEvents cfg n es nd = .ok () nd1) (e : Event V)
    : runEvents cfg n (es ++ [e]) nd = handleEvent cfg n e nd1 := by
  induction es generalizing nd with
  | nil =>
    simp only [runEvents, pure, EStateM.pure, EStateM.Result.ok.injEq, true_and] at hrun
    subst hrun
    simp only [List.nil_append, runEvents, bind, EStateM.bind]
    cases handleEvent cfg n e nd <;> rfl
  | cons e' es ih =>
    simp only [runEvents, bind, EStateM.bind] at hrun
    simp only [List.cons_append, runEvents, bind, EStateM.bind]
    cases hfirst : handleEvent cfg n e' nd with
    | ok _ nd' =>
      simp only [hfirst] at hrun ⊢
      exact ih hrun
    | error f nd' => simp [hfirst] at hrun

structure Process (V : Type) where
  node : Node V
  fault : Option Fault := none

namespace Process

inductive Step (cfg : Config V) (n : Nat) (e : Event V) (x : Process V) : Process V → Prop where
  | handled (nd : Node V) (hup : x.fault = none) (hok : handleEvent cfg n e x.node = .ok () nd)
    : Step cfg n e x ⟨nd, none⟩
  | failed (f : Fault) (nd : Node V) (hup : x.fault = none)
      (herror : handleEvent cfg n e x.node = .error f nd)
    : Step cfg n e x ⟨nd, some f⟩

def Ran (cfg : Config V) (n : Nat) (es : List (Event V)) (nd : Node V) (x : Process V) : Prop :=
  match x.fault with
  | none => runEvents cfg n es nd = .ok () x.node
  | some f => runEvents cfg n es nd = .error f x.node

theorem Ran.ok {cfg : Config V} {n : Nat} {es : List (Event V)} {nd : Node V} {x : Process V}
    (h : Ran cfg n es nd x) (hup : x.fault = none)
    : runEvents cfg n es nd = .ok () x.node := by
  unfold Ran at h
  rw [hup] at h
  exact h

theorem Ran.ends {cfg : Config V} {n : Nat} {es : List (Event V)} {nd : Node V} {x : Process V}
    (h : Ran cfg n es nd x)
    : Ends (runEvents cfg n es) nd x.node := by
  unfold Ran at h
  cases hfault : x.fault with
  | none =>
    rw [hfault] at h
    exact Or.inl ⟨(), h⟩
  | some f =>
    rw [hfault] at h
    exact Or.inr ⟨f, h⟩

theorem Ran.of_run {cfg : Config V} {n : Nat} {es : List (Event V)} {nd : Node V} {x : Process V}
    (hrun : Network.Run (Step cfg n) ⟨nd, none⟩ es x)
    : Ran cfg n es nd x := by
  induction hrun with
  | nil => rfl
  | snoc es e y z _ hstep ih =>
    cases hstep with
    | handled nd' hup hok =>
      unfold Ran
      dsimp only
      rw [runEvents_snoc (ih.ok hup), hok]
    | failed f nd' hup herror =>
      unfold Ran
      dsimp only
      rw [runEvents_snoc (ih.ok hup), herror]

end Process

inductive Packet where
  | request (msg : Bytes)
  | response (msg : Bytes)

/--
Processes that use the same message ids and the same types, each listens at its own service id and
implements interfaces of its own.
-/
structure Deployment (V : Type) where
  base : Config V
  ifaceImpl : ServiceId → IfaceIndexT → Option (List (MethodImpl V))
  stackDepth : ServiceId → Nat
  first : ServiceId → UInt32
  net : ServiceId → Nat → SendOutcome
  distinct : base.requestMsgId ≠ base.responseMsgId
  lawful : ∀ type, (base.env.codec type).Lawful

theorem Process.failed_of_run {cfg : Config V} {n : Nat} {es : List (Event V)} {nd : Node V}
    {x : Process V} {f : Fault} (hrun : Network.Run (Step cfg n) ⟨nd, none⟩ es x)
    (hfault : x.fault = some f)
    : ∃ es' e nd', es = es' ++ [e] ∧ runEvents cfg n es' nd = .ok () nd'
        ∧ handleEvent cfg n e nd' = .error f x.node := by
  cases hrun with
  | nil => simp at hfault
  | snoc es' e y z hbefore hstep =>
    cases hstep with
    | handled _ _ _ => simp at hfault
    | failed f' nd' hup herror =>
      simp only [Option.some.injEq] at hfault
      rw [← hfault]
      exact ⟨es', e, y.node, rfl, (Ran.of_run hbefore).ok hup, herror⟩

namespace Deployment

def config (D : Deployment V) (p : ServiceId) : Config V :=
  { D.base with ifaceImpl := D.ifaceImpl p }

theorem lawful_config (D : Deployment V) (p : ServiceId) (type : Ty)
    : ((D.config p).env.codec type).Lawful :=
  D.lawful type

def init (D : Deployment V) (p : ServiceId) : Node V := Node.init (D.first p) (D.net p)

def carries (D : Deployment V) (e : Event V) : Option (ServiceId × Packet) :=
  match e with
  | .interaction _ _ => none
  | .msg msgId msg senderId =>
    if msgId = D.base.requestMsgId then
      some ⟨senderId, .request msg⟩
    else if msgId = D.base.responseMsgId then
      some ⟨senderId, .response msg⟩
    else
      none

end Deployment

def Node.Sent (nd : Node V) (p : ServiceId) (packet : Packet) : Prop :=
  match packet with
  | .request msg => ∃ m c call, .request p msg m c call ∈ nd.sh.out
  | .response msg => ∃ m, .response p msg m ∈ nd.sh.out

theorem Node.Sent.mono {nd nd' : Node V} {p : ServiceId} {packet : Packet}
    (h : nd.Sent p packet) (hout : nd.sh.out <+: nd'.sh.out)
    : nd'.Sent p packet := by
  cases packet with
  | request msg =>
    obtain ⟨m, c, call, hmem⟩ := h
    exact ⟨m, c, call, hout.subset hmem⟩
  | response msg =>
    obtain ⟨m, hmem⟩ := h
    exact ⟨m, hout.subset hmem⟩

theorem Process.Step.out {cfg : Config V} {n : Nat} {start : UInt32} {e : Event V}
    {x y : Process V} (h : NodeInv none start x.node) (hstep : Process.Step cfg n e x y)
    : x.node.sh.out <+: y.node.sh.out := by
  have htraced : NodeTraced (fun _ => True) x.node.sh.out x.node :=
    ⟨fun _ _ _ _ _ => trivial, List.prefix_refl _⟩
  have hrun : wp (handleEvent cfg n e)
      (fun _ nd => NodeTraced (fun _ => True) x.node.sh.out nd)
      (fun _ nd => NodeTraced (fun _ => True) x.node.sh.out nd) x.node :=
    (htraced.dispatch h e fun _ _ => trivial).handleEvent h
  cases hstep with
  | handled nd _ hok => exact (wp_of_ok hrun hok).out
  | failed f nd _ herror => exact (wp_of_error hrun herror).out

namespace Deployment

/--
Each process takes in what its application does, its timeouts and what has been sent to it.
-/
def network (D : Deployment V) : Network.Protocol ServiceId (Event V) Packet (Process V) where
  init p := ⟨D.init p, none⟩
  step p := Process.Step (D.config p) (D.stackDepth p)
  carries _ := D.carries
  sent x := x.node.Sent
  sent_step := by
    intro p es x e y q packet hrun hstep hsent
    have hup : x.fault = none := by
      cases hstep <;> assumption
    have hok := (Process.Ran.of_run hrun).ok hup
    exact hsent.mono (hstep.out (NodeInv.of_runEvents hok))

theorem exchange (D : Deployment V) {p q : ServiceId} (hne : p ≠ q) {e : Event V}
    {nd1 nd2 nd3 : Node V} {msg rsp : Bytes} {m m' : Nat} {c : CellId} {call : StubCall V}
    (he : D.carries e = none)
    (hcall : handleEvent (D.config p) (D.stackDepth p) e (D.init p) = .ok () nd1)
    (hrequest : .request q msg m c call ∈ nd1.sh.out)
    (hserve : handleEvent (D.config q) (D.stackDepth q) (.msg D.base.requestMsgId msg p) (D.init q)
      = .ok () nd2)
    (hresponse : .response p rsp m' ∈ nd2.sh.out)
    (hanswer : handleEvent (D.config p) (D.stackDepth p) (.msg D.base.responseMsgId rsp q) nd1
      = .ok () nd3)
    : ∃ s, D.network.Reachable s ∧ s.party p = ⟨nd3, none⟩ ∧ s.party q = ⟨nd2, none⟩
        ∧ s.inputs p = [e, .msg D.base.responseMsgId rsp q] := by
  have hstart : D.network.Reachable D.network.start := .refl
  obtain ⟨s1, hreach1, _, hclient1, hinputs1, hother1⟩ := hstart.input p e ⟨nd1, none⟩
    (by simp [network, he]) (.handled nd1 rfl hcall)
  have hserver1 : s1.party q = ⟨D.init q, none⟩ := (hother1 q hne.symm).1
  obtain ⟨s2, hreach2, _, hserver2, _, hother2⟩ := hreach1.input q (.msg D.base.requestMsgId msg p)
    ⟨nd2, none⟩
    (by
      intro p' packet hcarries
      simp only [network, carries, ↓reduceIte, Option.some.injEq, Prod.mk.injEq] at hcarries
      rw [← hcarries.1, ← hcarries.2, hclient1]
      exact ⟨m, c, call, hrequest⟩)
    (by
      rw [hserver1]
      exact .handled nd2 rfl hserve)
  have hclient2 : s2.party p = ⟨nd1, none⟩ := (hother2 p hne).1.trans hclient1
  obtain ⟨s3, hreach3, _, hclient3, hinputs3, hother3⟩ := hreach2.input p
    (.msg D.base.responseMsgId rsp q)
    ⟨nd3, none⟩
    (by
      intro p' packet hcarries
      simp only [network, carries, Ne.symm D.distinct, ↓reduceIte, Option.some.injEq,
        Prod.mk.injEq] at hcarries
      rw [← hcarries.1, ← hcarries.2, hserver2]
      exact ⟨m', hresponse⟩)
    (by
      rw [hclient2]
      exact .handled nd3 rfl hanswer)
  refine ⟨s3, hreach3, hclient3, (hother3 q hne.symm).1.trans hserver2, ?_⟩
  rw [hinputs3, (hother2 p hne).2, hinputs1]
  rfl

section Example

-- process 5 adds one to what it is asked for, the others can do nothing but ask
def adder : Deployment UInt8 where
  base := Config.bytes fun _ => none
  ifaceImpl p _ :=
    if p = 5 then some [⟨1, 0, 0, fun v => .newCell (some (.value (v + 1)))⟩] else none
  stackDepth _ := 2
  first _ := 0
  net _ _ := ⟨true, some 5, true⟩
  distinct := by decide
  lawful _ := Codec.lawful_byte

def ask (call : StubCall UInt8) : Event UInt8 :=
  .interaction (.stub call fun c => .ret (some c)) none

def add : StubCall UInt8 := ⟨"adder", 1, 1, 0, 0, 7⟩

-- there is no such method
def subtract : StubCall UInt8 := ⟨"adder", 1, 2, 0, 0, 7⟩

def addRsp : Bytes := [0, 1, 1, 0, 1, 0, 0, 0, 0, 0, 0, 0, 8]

-- the timer of the answered rpc
def addTimeout : Bytes := List.replicate 16 0 ++ [1, 0, 0, 0, 0, 0, 0, 0]

theorem adder_handles
    : ∃ nd1 nd2 nd3 nd4 nd5,
      handleEvent (adder.config 6) 2 (ask add) (adder.init 6) = .ok () nd1
      ∧ .request 5 [0, 1, 1, 0, 1, 0, 0, 0, 7] 0 0 add ∈ nd1.sh.out
      ∧ handleEvent (adder.config 5) 2 (.msg 101 [0, 1, 1, 0, 1, 0, 0, 0, 7] 6) (adder.init 5)
        = .ok () nd2
      ∧ .response 6 addRsp 0 ∈ nd2.sh.out
      ∧ (∃ it, nd2.its[0]? = some it ∧ .invoked 1 7 ∈ it.log)
      ∧ handleEvent (adder.config 6) 2 (.msg 102 addRsp 5) nd1 = .ok () nd3
      ∧ nd3.sh.out = nd1.sh.out ∧ nd3.sh.issued.length < 4294967295
      ∧ (nd3.cells ⟨0, 0⟩).view = ⟨some 8, .succeeded⟩
      ∧ handleEvent (adder.config 6) 2 (.msg 102 addRsp 5) nd3 = .ok () nd4
      ∧ handleEvent (adder.config 6) 2 (.msg 103 addTimeout 6) nd4 = .ok () nd5 := by
  refine ⟨_, _, _, _, _, rfl, ?_, rfl, ?_, ⟨_, rfl, ?_⟩, rfl, rfl, ?_, rfl, rfl, rfl⟩
  . exact List.mem_cons_self
  . exact List.mem_cons_self
  . exact List.mem_cons_of_mem _ List.mem_cons_self
  . decide

theorem adder_add
    : ∃ s, adder.network.Reachable s ∧ (s.party 6).fault = none
        ∧ (s.party 6).node.sh.issued.length < 4294967295
        ∧ .request 5 [0, 1, 1, 0, 1, 0, 0, 0, 7] 0 0 add ∈ (s.party 6).node.sh.out
        ∧ ((s.party 6).node.cells ⟨0, 0⟩).view = ⟨some 8, .succeeded⟩
        ∧ ∃ it, (s.party 5).node.its[0]? = some it ∧ .invoked 1 7 ∈ it.log := by
  obtain ⟨nd1, nd2, nd3, nd4, nd5, hcall, hrequest, hserve, hresponse, hlog, hanswer, hout, hids,
    hview, _⟩ := adder_handles
  obtain ⟨s, hreach, hclient, hserver, _⟩ :=
    adder.exchange (by decide) rfl hcall hrequest hserve hresponse hanswer
  refine ⟨s, hreach, ?_⟩
  rw [hclient, hserver]
  exact ⟨rfl, hids, by rw [hout]; exact hrequest, hview, hlog⟩

theorem adder_late
    : ∃ s s', adder.network.Reachable s ∧ adder.network.Steps s s' ∧ (s'.party 6).fault = none
        ∧ .request 5 [0, 1, 1, 0, 1, 0, 0, 0, 7] 0 0 add ∈ (s.party 6).node.sh.out
        ∧ ((s.party 6).node.cells ⟨0, 0⟩).view = ⟨some 8, .succeeded⟩
        ∧ s'.inputs 6 = [ask add, .msg 102 addRsp 5, .msg 102 addRsp 5, .msg 103 addTimeout 6] := by
  obtain ⟨nd1, nd2, nd3, nd4, nd5, hcall, hrequest, hserve, hresponse, _, hanswer, hout, _, hview,
    hrepeated, hstale⟩ := adder_handles
  obtain ⟨s, hreach, hclient, hserver, hinputs⟩ :=
    adder.exchange (by decide) rfl hcall hrequest hserve hresponse hanswer
  obtain ⟨s1, hreach1, hsteps1, hclient1, hinputs1, hother1⟩ := hreach.input 6 (.msg 102 addRsp 5)
    ⟨nd4, none⟩
    (by
      intro p packet hcarries
      have hrsp : adder.network.carries 6 (.msg 102 addRsp 5) = some ⟨5, .response addRsp⟩ := rfl
      rw [hrsp, Option.some.injEq, Prod.mk.injEq] at hcarries
      rw [← hcarries.1, ← hcarries.2, hserver]
      exact ⟨0, hresponse⟩)
    (by
      rw [hclient]
      exact .handled nd4 rfl hrepeated)
  obtain ⟨s2, hreach2, hsteps2, hclient2, hinputs2, _⟩ := hreach1.input 6 (.msg 103 addTimeout 6)
    ⟨nd5, none⟩
    (by simp [network, carries, adder, Config.bytes])
    (by
      rw [hclient1]
      exact .handled nd5 rfl hstale)
  refine ⟨s, s2, hreach, hsteps1.trans hsteps2, ?_, ?_, ?_, ?_⟩
  . rw [hclient2]
  . rw [hclient, hout]
    exact hrequest
  . rw [hclient]
    exact hview
  . rw [hinputs2, hinputs1, hinputs]
    rfl

theorem adder_subtract
    : ∃ s, adder.network.Reachable s ∧ (s.party 6).fault = none
        ∧ (s.party 6).node.sh.issued.length < 4294967295
        ∧ .request 5 [0, 2, 1, 0, 1, 0, 0, 0, 7] 0 0 subtract ∈ (s.party 6).node.sh.out
        ∧ ((s.party 6).node.cells ⟨0, 0⟩).view = ⟨none, .methodNotFound⟩ := by
  have hrun : ∃ nd1 nd2 nd3,
      handleEvent (adder.config 6) 2 (ask subtract) (adder.init 6) = .ok () nd1
      ∧ .request 5 [0, 2, 1, 0, 1, 0, 0, 0, 7] 0 0 subtract ∈ nd1.sh.out
      ∧ handleEvent (adder.config 5) 2 (.msg 101 [0, 2, 1, 0, 1, 0, 0, 0, 7] 6) (adder.init 5)
        = .ok () nd2
      ∧ .response 6 [0, 2, 1, 0, 1, 0, 0, 0, 4, 0, 0, 0] 0 ∈ nd2.sh.out
      ∧ handleEvent (adder.config 6) 2 (.msg 102 [0, 2, 1, 0, 1, 0, 0, 0, 4, 0, 0, 0] 5) nd1
        = .ok () nd3
      ∧ nd3.sh.out = nd1.sh.out ∧ nd3.sh.issued.length < 4294967295
      ∧ (nd3.cells ⟨0, 0⟩).view = ⟨none, .methodNotFound⟩ := by
    refine ⟨_, _, _, rfl, ?_, rfl, ?_, rfl, rfl, ?_, rfl⟩
    . exact List.mem_cons_self
    . exact List.mem_cons_self
    . decide
  obtain ⟨nd1, nd2, nd3, hcall, hrequest, hserve, hresponse, hanswer, hout, hids, hview⟩ := hrun
  obtain ⟨s, hreach, hclient, _⟩ :=
    adder.exchange (by decide) rfl hcall hrequest hserve hresponse hanswer
  refine ⟨s, hreach, ?_⟩
  rw [hclient]
  exact ⟨rfl, hids, by rw [hout]; exact hrequest, hview⟩

end Example

section Reachable

variable {D : Deployment V} {s s' : Network.State ServiceId (Event V) (Process V)}

theorem ran (hreach : D.network.Reachable s) (p : ServiceId)
    : Process.Ran (D.config p) (D.stackDepth p) (s.inputs p) (D.init p) (s.party p) :=
  Process.Ran.of_run (Network.Protocol.Reachable.run hreach p)

theorem inv (hreach : D.network.Reachable s) {p : ServiceId} (hup : (s.party p).fault = none)
    : NodeInv none (D.first p) (s.party p).node :=
  NodeInv.of_runEvents ((ran hreach p).ok hup)

theorem account (hreach : D.network.Reachable s) (p : ServiceId)
    : NodeAccount (D.config p) (Accounted (D.config p)) (s.party p).node :=
  (NodeAccount.init (D.config p) (D.first p) (D.net p)).of_ends (NodeInv.init _ _)
    (ran hreach p).ends

def got (D : Deployment V) (s : Network.State ServiceId (Event V) (Process V)) (p : ServiceId)
    : List (RspMsgHeader × Bytes) :=
  (s.inputs p).filterMap (Event.response (D.config p))

theorem links (hreach : D.network.Reachable s) {p : ServiceId} (hup : (s.party p).fault = none)
    : Links D.base.env (D.got s p) (D.first p) (s.party p).node.cells (s.party p).node.sh := by
  have hrun : wp (runEvents (D.config p) (D.stackDepth p) (s.inputs p))
      (fun _ nd => NodeInv none (D.first p) nd
        ∧ Links D.base.env (D.got s p) (D.first p) nd.cells nd.sh)
      (fun _ _ => True) (D.init p) := by
    apply Links.runEvents (NodeInv.init _ _) (Links.init _ _ _ _)
    intro e he r hr
    exact List.mem_filterMap.mpr ⟨e, he, hr⟩
  exact (wp_of_ok hrun ((ran hreach p).ok hup)).2

theorem sent_of_received (hreach : D.network.Reachable s) {p q : ServiceId} {m : Nat}
    {it : Interaction V} (hit : (s.party q).node.its[m]? = some it) {reqHeader : ReqMsgHeader}
    {msg : Bytes} (hreceived : .received p reqHeader msg ∈ it.log)
    : ∃ bytes m' c call, .request q bytes m' c call ∈ (s.party p).node.sh.out
        ∧ ReqMsgHeader.ofBytes bytes = some ⟨reqHeader, msg⟩ := by
  have htraced := (NodeTraced.init
    (fun r => ∃ e ∈ s.inputs q, e.request (D.config q) = some r) (D.first q) (D.net q)).of_ends
    (NodeInv.init _ _) (fun e he r hr => ⟨e, he, hr⟩) (ran hreach q).ends
  obtain ⟨e, he, hrequest⟩ := htraced.requests m it hit ⟨p, reqHeader, msg⟩
    (Interaction.mem_requests.mpr hreceived)
  obtain ⟨bytes, he', hbytes⟩ := Event.request_eq_some hrequest
  have hcarries : D.carries e = some ⟨p, .request bytes⟩ := by
    simp [he', carries, config]
  obtain ⟨m', c, call, hmem⟩ := Network.Protocol.Reachable.carried hreach he hcarries
  exact ⟨bytes, m', c, call, hmem, hbytes⟩

-- process `q` has handled the request of `p` and has sent the response for it
def Answered (D : Deployment V) (s : Network.State ServiceId (Event V) (Process V))
    (p q : ServiceId) (reqHeader : ReqMsgHeader) (msg : Bytes) (rspHeader : RspMsgHeader)
    (payload : Bytes) : Prop :=
  ∃ m it rsp, (s.party q).node.its[m]? = some it ∧ .received p reqHeader msg ∈ it.log
    ∧ ⟨p, rsp⟩ ∈ (s.party q).node.sh.responses m
    ∧ RspMsgHeader.ofBytes rsp = some ⟨rspHeader, payload⟩
    ∧ Acceptable (D.config q) it.log reqHeader msg rspHeader payload

-- a response that comes in answers a request its sender has handled
theorem answered_of_got (hreach : D.network.Reachable s) {p : ServiceId} {rspHeader : RspMsgHeader}
    {payload : Bytes} (hgot : ⟨rspHeader, payload⟩ ∈ D.got s p)
    : ∃ q reqHeader msg, D.Answered s p q reqHeader msg rspHeader payload := by
  obtain ⟨e, he, hrsp⟩ := List.mem_filterMap.mp hgot
  obtain ⟨bytes, q, he', hbytes⟩ := Event.response_eq_some hrsp
  have hcarries : D.carries e = some ⟨q, .response bytes⟩ := by
    simp [he', carries, config, Ne.symm D.distinct]
  obtain ⟨m, hmem⟩ := Network.Protocol.Reachable.carried hreach he hcarries
  have hresponse : ⟨p, bytes⟩ ∈ (s.party q).node.sh.responses m :=
    List.mem_filterMap.mpr ⟨_, hmem, by simp [Out.responseOf]⟩
  have haccount := account hreach q
  have hlt : m < (s.party q).node.its.length := by
    by_contra hge
    rw [haccount.fresh m (by omega)] at hresponse
    simp at hresponse
  obtain ⟨it, hit⟩ : ∃ it, (s.party q).node.its[m]? = some it :=
    ⟨_, List.getElem?_eq_getElem hlt⟩
  have haccounted := haccount.interaction m it hit
  obtain ⟨reqHeader, msg, hreceived, hanswer⟩ := haccounted.responses p bytes hresponse
  obtain ⟨rspHeader', payload', hbytes', hacceptable⟩ :=
    Acceptable.of_answer (D.lawful_config q) haccounted.history hanswer
  rw [hbytes] at hbytes'
  simp only [Option.some.injEq, Prod.mk.injEq] at hbytes'
  rw [← hbytes'.1, ← hbytes'.2] at hacceptable
  exact ⟨q, reqHeader, msg, m, it, bytes, hit, hreceived, hresponse, hbytes, hacceptable⟩

/--
What has become of the rpc that `p` has started for its cell `o` by calling `q`.
-/
inductive RpcStatus (D : Deployment V) (s : Network.State ServiceId (Event V) (Process V))
    (p q : ServiceId) (call : StubCall V) (o : Cell V) : Prop where
  | pending (hempty : o.hasValueOrError = false) : RpcStatus D s p q call o
  | timeout (hview : o.view = ⟨none, .timeout⟩) : RpcStatus D s p q call o
  | answered (pbuf : Bytes) (rspHeader : RspMsgHeader) (payload : Bytes)
      (hpbuf : ThriftEncoder.encode (D.base.env.codec call.reqType) call.req = some pbuf)
      (hanswered : D.Answered s p q (reqHeader call o.seqId) pbuf rspHeader payload)
      (hview : o.view = (Handles.answer D.base.env call.rspType rspHeader payload).view)
    : RpcStatus D s p q call o

/--
Whatever the network does to the messages, an rpc is pending, has timed out, or holds the answer the
addressed process has given to its very request.
-/
theorem correlated (hreach : D.network.Reachable s) {p q : ServiceId}
    (hup : (s.party p).fault = none) (hids : (s.party p).node.sh.issued.length < 4294967295)
    {msg : Bytes} {m : Nat} {c : CellId} {call : StubCall V}
    (hsent : .request q msg m c call ∈ (s.party p).node.sh.out)
    : D.RpcStatus s p q call ((s.party p).node.cells ⟨m, c⟩) := by
  have hlinks := links hreach hup
  have horigin := hlinks.requests q msg m c call hsent
  cases hlinks.resolution ⟨m, c⟩ horigin.valid with
  | empty hempty => exact .pending hempty
  | timeout hview => exact .timeout hview
  | answered rspHeader payload hgot hid hview =>
    obtain ⟨q', reqHeader', msg', hanswered⟩ := answered_of_got hreach hgot
    have hanswered' := hanswered
    obtain ⟨m1, it, _, hit, hreceived, _, _, hacceptable⟩ := hanswered'
    obtain ⟨bytes, m2, c2, call2, hsent2, hbytes⟩ := sent_of_received hreach hit hreceived
    have horigin2 := hlinks.requests q' bytes m2 c2 call2 hsent2
    obtain ⟨pbuf, hpbuf, hmsg⟩ := horigin2.bytes
    rw [hmsg, ReqMsgHeader.ofBytes_toBytes_append] at hbytes
    simp only [Option.some.injEq, Prod.mk.injEq] at hbytes
    -- the header of the response says for which cell it is
    have hsame : (⟨m, c⟩ : Nat × CellId) = ⟨m2, c2⟩ := by
      apply hlinks.unique hids _ _ horigin.valid
      rw [← hid, hacceptable.echoes, ← hbytes.1]
      rfl
    simp only [Prod.mk.injEq] at hsame
    rw [← hsame.1, ← hsame.2] at hsent2
    obtain ⟨hq, _, hcall⟩ := hlinks.once m c _ _ _ _ _ _ hsent hsent2
    rw [← hsame.1, ← hsame.2, hcall] at hbytes
    rw [hcall] at hpbuf
    rw [hq, ← hbytes.1, ← hbytes.2] at hanswered
    rw [horigin.type] at hview
    exact .answered pbuf rspHeader payload hpbuf hanswered hview

theorem correlated_add
    : ∃ s, adder.network.Reachable s
        ∧ adder.RpcStatus s 6 5 add ((s.party 6).node.cells ⟨0, 0⟩) := by
  obtain ⟨s, hreach, hup, hids, hsent, _⟩ := adder_add
  exact ⟨s, hreach, correlated hreach hup hids hsent⟩

/--
The types of the stub call are those of the methods it may reach on `q`.
-/
def SameTypes (D : Deployment V) (q : ServiceId) (call : StubCall V) : Prop :=
  ∀ seqId method, (D.config q).Serves (reqHeader call seqId) method
    → method.reqType = call.reqType ∧ method.rspType = call.rspType

theorem answer_eq {cfg : Config V} {log : List (Ev V)} {reqHeader : ReqMsgHeader}
    {msg : Bytes} {rspHeader : RspMsgHeader} {payload : Bytes} {type : Ty}
    (h : Acceptable cfg log reqHeader msg rspHeader payload)
    (htype : ∀ method, cfg.Serves reqHeader method → method.rspType = type)
    : (∃ method req v, cfg.Serves reqHeader method
        ∧ ThriftDecoder.decode (cfg.env.codec method.reqType) msg = some req
        ∧ Produced log reqHeader req v
        ∧ Handles.answer cfg.env type rspHeader payload = .value v)
      ∨ rspHeader.rpcResult ≠ .succeeded
        ∧ Handles.answer cfg.env type rspHeader payload = .error rspHeader.rpcResult := by
  by_cases hsucceeded : rspHeader.rpcResult = .succeeded
  . obtain ⟨method, req, v, hserves, hreq, hproduced, hv⟩ := h.value hsucceeded
    left
    refine ⟨method, req, v, hserves, hreq, hproduced, ?_⟩
    rw [htype method hserves] at hv
    simp [Handles.answer, hsucceeded, hv]
  . exact Or.inr ⟨hsucceeded, by simp [Handles.answer, hsucceeded]⟩

/--
The value of an rpc is what the implementation on the addressed process has produced from the
argument of the call.
-/
theorem value_produced (hreach : D.network.Reachable s) {p q : ServiceId}
    (hup : (s.party p).fault = none) (hids : (s.party p).node.sh.issued.length < 4294967295)
    {msg : Bytes} {m : Nat} {c : CellId} {call : StubCall V} {v : V}
    (hsent : .request q msg m c call ∈ (s.party p).node.sh.out) (htypes : D.SameTypes q call)
    (hv : ((s.party p).node.cells ⟨m, c⟩).value = some v)
    : ∃ (m' : Nat) (it : Interaction V) (method : MethodImpl V),
        (s.party q).node.its[m']? = some it
          ∧ (D.config q).Serves (reqHeader call ((s.party p).node.cells ⟨m, c⟩).seqId) method
          ∧ Produced it.log (reqHeader call ((s.party p).node.cells ⟨m, c⟩).seqId) call.req v := by
  have hview : ((s.party p).node.cells ⟨m, c⟩).view.value = some v := hv
  cases correlated hreach hup hids hsent with
  | pending hempty =>
    rw [((s.party p).node.cells ⟨m, c⟩).hasValueOrError_eq_false.mp hempty |>.1] at hv
    simp at hv
  | timeout htimeout =>
    rw [htimeout] at hview
    simp at hview
  | answered pbuf rspHeader payload hpbuf hanswered hanswer =>
    obtain ⟨m', it, _, hit, _, _, _, hacceptable⟩ := hanswered
    have hanswer' : ((s.party p).node.cells ⟨m, c⟩).view
        = (Handles.answer (D.config q).env call.rspType rspHeader payload).view := hanswer
    rw [hanswer'] at hview
    cases answer_eq hacceptable (fun method hserves => (htypes _ method hserves).2) with
    | inl hok =>
      obtain ⟨method, req, v', hserves, hreq, hproduced, heq⟩ := hok
      have hdecode : ThriftDecoder.decode ((D.config q).env.codec call.reqType) pbuf
          = some call.req :=
        ThriftDecoder.decode_encode (D.lawful_config q _) hpbuf
      rw [(htypes _ method hserves).1, hdecode] at hreq
      simp only [Option.some.injEq] at hreq
      rw [heq] at hview
      simp only [Outcome.view, Option.some.injEq] at hview
      rw [← hreq, hview] at hproduced
      exact ⟨m', it, method, hit, hserves, hproduced⟩
    | inr herror =>
      rw [herror.2] at hview
      simp [Outcome.view] at hview

theorem adder_sameTypes {call : StubCall UInt8} (hreq : call.reqType = 0) (hrsp : call.rspType = 0)
    : adder.SameTypes 5 call := by
  rintro seqId method ⟨methods, hmethods, hfind⟩
  simp only [config, adder, ↓reduceIte, Option.some.injEq] at hmethods
  subst hmethods
  have hmem := List.mem_of_find?_eq_some hfind
  rw [List.mem_singleton] at hmem
  rw [hmem, hreq, hrsp]
  exact ⟨rfl, rfl⟩

theorem value_produced_add
    : ∃ (s : Network.State ServiceId (Event UInt8) (Process UInt8)) (m : Nat)
          (it : Interaction UInt8) (method : MethodImpl UInt8),
        (s.party 5).node.its[m]? = some it
          ∧ (adder.config 5).Serves (reqHeader add ((s.party 6).node.cells ⟨0, 0⟩).seqId) method
          ∧ Produced it.log (reqHeader add ((s.party 6).node.cells ⟨0, 0⟩).seqId) 7 8 := by
  obtain ⟨s, hreach, hup, hids, hsent, hview, _⟩ := adder_add
  have hv := congrArg CellView.value hview
  exact ⟨s, value_produced hreach hup hids hsent (adder_sameTypes rfl rfl) hv⟩

/--
The error of an rpc tells the truth about the process it has been addressed to.
-/
theorem error_truthful (hreach : D.network.Reachable s) {p q : ServiceId}
    (hup : (s.party p).fault = none) (hids : (s.party p).node.sh.issued.length < 4294967295)
    {msg : Bytes} {m : Nat} {c : CellId} {call : StubCall V} {rpcResult : RpcResult}
    (hsent : .request q msg m c call ∈ (s.party p).node.sh.out) (htypes : D.SameTypes q call)
    (hstatus : ((s.party p).node.cells ⟨m, c⟩).status = rpcResult)
    (herror : rpcResult ≠ .succeeded) (htimeout : rpcResult ≠ .timeout)
    : ∃ (m' : Nat) (it : Interaction V) (pbuf : Bytes), (s.party q).node.its[m']? = some it
        ∧ .received p (reqHeader call ((s.party p).node.cells ⟨m, c⟩).seqId) pbuf ∈ it.log
        ∧ (rpcResult = .ifaceNotFound ↔ D.ifaceImpl q call.ifaceIndex = none)
        ∧ (rpcResult = .methodNotFound ↔ ∃ methods, D.ifaceImpl q call.ifaceIndex = some methods
          ∧ ∀ method ∈ methods, (call.methodIndex.toNat : Int) ≠ method.methodIndex)
        ∧ (rpcResult = .failed ↔ ∃ method,
          (D.config q).Serves (reqHeader call ((s.party p).node.cells ⟨m, c⟩).seqId) method
            ∧ Unsendable (D.config q) it.log
              (reqHeader call ((s.party p).node.cells ⟨m, c⟩).seqId) pbuf method) := by
  have hview : ((s.party p).node.cells ⟨m, c⟩).view.failedReason = rpcResult := hstatus
  cases correlated hreach hup hids hsent with
  | pending hempty =>
    rw [((s.party p).node.cells ⟨m, c⟩).hasValueOrError_eq_false.mp hempty |>.2] at hstatus
    exact absurd hstatus.symm herror
  | timeout hout =>
    rw [hout] at hview
    exact absurd hview.symm htimeout
  | answered pbuf rspHeader payload hpbuf hanswered hanswer =>
    obtain ⟨m', it, _, hit, hreceived, _, _, hacceptable⟩ := hanswered
    have hanswer' : ((s.party p).node.cells ⟨m, c⟩).view
        = (Handles.answer (D.config q).env call.rspType rspHeader payload).view := hanswer
    rw [hanswer'] at hview
    cases answer_eq hacceptable (fun method hserves => (htypes _ method hserves).2) with
    | inl hok =>
      obtain ⟨_, _, _, _, _, _, heq⟩ := hok
      rw [heq] at hview
      exact absurd hview.symm herror
    | inr hfailed =>
      rw [hfailed.2] at hview
      simp only [Outcome.view] at hview
      rw [← hview]
      exact ⟨m', it, pbuf, hit, hreceived, hacceptable.ifaceNotFound, hacceptable.methodNotFound,
        hacceptable.failed⟩

theorem error_truthful_subtract
    : adder.ifaceImpl 5 1 ≠ none
      ∧ ∃ methods, adder.ifaceImpl 5 1 = some methods
        ∧ ∀ method ∈ methods, ((2 : MethodIndexT).toNat : Int) ≠ method.methodIndex := by
  obtain ⟨s, hreach, hup, hids, hsent, hview⟩ := adder_subtract
  have hstatus := congrArg CellView.failedReason hview
  obtain ⟨_, _, _, _, _, hiface, hmethod, _⟩ := error_truthful hreach hup hids hsent
    (adder_sameTypes rfl rfl) hstatus (by decide) (by decide)
  refine ⟨?_, hmethod.mp rfl⟩
  intro hnone
  exact absurd (hiface.mpr hnone) (by decide)

/--
A method is called only with what a stub has been called with.
-/
theorem invoked_of_call (hreach : D.network.Reachable s) {q : ServiceId} {m : Nat}
    {it : Interaction V} (hit : (s.party q).node.its[m]? = some it) {i : Int} {req : V}
    (hinvoked : .invoked i req ∈ it.log)
    : ∃ p bytes m' c call, .request q bytes m' c call ∈ (s.party p).node.sh.out
        ∧ i = call.methodIndex.toNat ∧ (D.SameTypes q call → req = call.req) := by
  have haccounted := (account hreach q).interaction m it hit
  obtain ⟨p, reqHeader', msg, method, hreceived, hserves, hreq, hi⟩ :=
    haccounted.history.of_invoked ((Interaction.mem_calls rfl).mpr hinvoked)
  obtain ⟨bytes, m', c, call, hmem, hbytes⟩ :=
    sent_of_received hreach hit ((Interaction.mem_calls rfl).mp hreceived)
  obtain ⟨seqId, pbuf, hmsg, hpbuf⟩ := (account hreach p).requests q bytes m' c call hmem
  rw [hmsg, ReqMsgHeader.ofBytes_toBytes_append] at hbytes
  simp only [Option.some.injEq, Prod.mk.injEq] at hbytes
  rw [← hbytes.1] at hserves
  rw [← hbytes.2] at hreq
  refine ⟨p, bytes, m', c, call, hmem, ?_, ?_⟩
  . obtain ⟨methods, _, hfind⟩ := hserves
    have hindex := List.find?_some hfind
    rw [hi]
    exact (of_decide_eq_true hindex).symm
  . intro htypes
    rw [(htypes seqId method hserves).1] at hreq
    have hdecode : ThriftDecoder.decode ((D.config q).env.codec call.reqType) pbuf
        = some call.req :=
      ThriftDecoder.decode_encode (D.lawful_config q _) hpbuf
    rw [hdecode] at hreq
    simpa using hreq.symm

theorem invoked_of_call_add
    : ∃ s p bytes m c call, adder.network.Reachable s
        ∧ .request 5 bytes m c call ∈ (s.party p).node.sh.out
        ∧ 1 = (call.methodIndex.toNat : Int) ∧ (adder.SameTypes 5 call → 7 = call.req) := by
  obtain ⟨s, hreach, _, _, _, _, it, hit, hinvoked⟩ := adder_add
  obtain ⟨p, bytes, m, c, call, hcall⟩ := invoked_of_call hreach hit hinvoked
  exact ⟨s, p, bytes, m, c, call, hreach, hcall⟩

-- of the two assertions on what messages hold only the one on the length of a timeout message can
-- fail, the responses of the system have a payload if they report success
theorem timerInfo_of_fault (hreach : D.network.Reachable s) {p : ServiceId} {a : Assertion}
    (hfault : (s.party p).fault = some (.assertion a)) (ha : a = .payload ∨ a = .timerInfo)
    : a = .timerInfo ∧ ∃ msg senderId, .msg D.base.timeoutMsgId msg senderId ∈ s.inputs p
        ∧ msg.length ≠ TimerInfo.size D.base := by
  have hrun := Network.Protocol.Reachable.run hreach p
  obtain ⟨es, e, nd, hinputs, hok, herror⟩ := Process.failed_of_run hrun hfault
  have hmem : e ∈ s.inputs p := by simp [hinputs]
  have hends := wp_of_error (handleEvent_table (NodeInv.of_runEvents hok) e) herror
  have hbad := hends.1 (by simpa using ha)
  cases e with
  | interaction _ _ => exact absurd hbad id
  | msg msgId msg senderId =>
    obtain ⟨hreq, hbad⟩ := hbad
    by_cases hrsp : msgId = (D.config p).responseMsgId
    . rw [if_pos hrsp] at hbad
      obtain ⟨rspHeader, hbytes, hsucceeded, _⟩ := hbad
      have hgot : ⟨rspHeader, []⟩ ∈ D.got s p :=
        List.mem_filterMap.mpr ⟨_, hmem, by simp [Event.response, hrsp, hbytes]⟩
      obtain ⟨_, _, _, _, _, _, _, _, _, _, hacceptable⟩ := answered_of_got hreach hgot
      exact absurd hsucceeded (hacceptable.header.mp rfl)
    . rw [if_neg hrsp] at hbad
      obtain ⟨htimeout, hlength⟩ := hbad
      have htimer := wp_of_error (handleEvent_timerInfo hreq hrsp htimeout hlength senderId) herror
      simp only [Fault.assertion.injEq] at htimer
      subst htimeout
      exact ⟨htimer, msg, senderId, hmem, hlength⟩

/--
No process fails an assertion on what it has been sent, nor the one on unique ids while there are
ids left. How long timeout messages are is up to its timer.
-/
theorem fault_sane (hreach : D.network.Reachable s) (p : ServiceId)
    : (s.party p).fault ≠ some (.assertion .payload)
      ∧ ((∀ msg senderId, .msg D.base.timeoutMsgId msg senderId ∈ s.inputs p
          → msg.length = TimerInfo.size D.base)
        → (s.party p).fault ≠ some (.assertion .timerInfo))
      ∧ ((s.party p).fault = some (.assertion .uniqueSeqId)
        → 4294967295 ≤ (s.party p).node.sh.issued.length) := by
  refine ⟨?_, ?_, ?_⟩
  . intro hfault
    have hnot := (timerInfo_of_fault hreach hfault (Or.inl rfl)).1
    simp at hnot
  . intro hsize hfault
    obtain ⟨_, msg, senderId, hmem, hlength⟩ := timerInfo_of_fault hreach hfault (Or.inr rfl)
    exact hlength (hsize msg senderId hmem)
  . intro hfault
    have hrun := Network.Protocol.Reachable.run hreach p
    obtain ⟨es, e, nd, _, hok, herror⟩ := Process.failed_of_run hrun hfault
    exact (wp_of_error (handleEvent_table (NodeInv.of_runEvents hok) e) herror).2 rfl

-- process 6 has asked, and has got the response twice and a timeout message
theorem fault_sane_add
    : ∃ s, adder.network.Reachable s
        ∧ s.inputs 6 = [ask add, .msg 102 addRsp 5, .msg 102 addRsp 5, .msg 103 addTimeout 6]
        ∧ (s.party 6).fault ≠ some (.assertion .payload)
        ∧ (s.party 6).fault ≠ some (.assertion .timerInfo)
        ∧ ((s.party 6).fault = some (.assertion .uniqueSeqId)
          → 4294967295 ≤ (s.party 6).node.sh.issued.length) := by
  obtain ⟨s, s', hreach, hsteps, _, _, _, hinputs⟩ := adder_late
  have hsane := fault_sane (hreach.steps hsteps) 6
  refine ⟨s', hreach.steps hsteps, hinputs, hsane.1, ?_, hsane.2.2⟩
  apply hsane.2.1
  intro msg senderId hmem
  rw [hinputs] at hmem
  simp [ask, adder, Config.bytes] at hmem
  rw [hmem.1]
  rfl

theorem up_of_steps {p : ServiceId} (hsteps : D.network.Steps s s')
    (hup : (s'.party p).fault = none)
    : (s.party p).fault = none := by
  obtain ⟨es, _, hrun⟩ := Network.Protocol.Steps.run hsteps p
  have hback := hrun.invariant (Q := fun x => x.fault = none → (s.party p).fault = none) id
  apply hback _ hup
  intro e y z hy hstep _
  cases hstep with
  | handled _ hyup _ => exact hy hyup
  | failed _ _ hyup _ => exact hy hyup

/--
Once there, the result of an rpc stays as it is.
-/
theorem settled (hreach : D.network.Reachable s) (hsteps : D.network.Steps s s') {p q : ServiceId}
    (hup : (s'.party p).fault = none) {msg : Bytes} {m : Nat} {c : CellId} {call : StubCall V}
    (hsent : .request q msg m c call ∈ (s.party p).node.sh.out)
    (hresolved : ((s.party p).node.cells ⟨m, c⟩).hasValueOrError = true)
    : ((s'.party p).node.cells ⟨m, c⟩).view = ((s.party p).node.cells ⟨m, c⟩).view := by
  have hup' := up_of_steps hsteps hup
  have hlinks := links hreach hup'
  have hvalid := (hlinks.requests q msg m c call hsent).valid
  have hw : ((s.party p).node.cells ⟨m, c⟩).view ≠ ⟨none, .succeeded⟩ := by
    intro hview
    have hnone := congrArg CellView.value hview
    have hsucceeded := congrArg CellView.failedReason hview
    have hempty := ((s.party p).node.cells ⟨m, c⟩).hasValueOrError_eq_false.mpr ⟨hnone, hsucceeded⟩
    rw [hempty] at hresolved
    simp at hresolved
  have hstart : NodeResolved m c ((s.party p).node.cells ⟨m, c⟩).view (s.party p).node :=
    NodeResolved.of_seqId (inv hreach hup') hvalid (hlinks.role _ hvalid)
  obtain ⟨es, _, hrun⟩ := Network.Protocol.Steps.run hsteps p
  have hend := hrun.invariant
    (Q := fun x => x.fault = none → NodeInv none (D.first p) x.node
      ∧ NodeResolved m c ((s.party p).node.cells ⟨m, c⟩).view x.node)
    (fun _ => ⟨inv hreach hup', hstart⟩)
  refine (hend ?_ hup).2.view
  intro e y z hy hstep hz
  cases hstep with
  | handled nd hyup hok =>
    obtain ⟨hinv, hresolved'⟩ := hy hyup
    have hinv' := wp_of_ok (handleEvent_table hinv e) hok
    have hafter := wp_of_ok ((hresolved'.dispatch hw hinv e).handleEvent hinv) hok
    exact ⟨hinv', hafter⟩
  | failed _ _ _ _ => simp at hz

-- the response comes in once more, and then the timeout message
theorem settled_add
    : ∃ s s', adder.network.Reachable s ∧ adder.network.Steps s s'
        ∧ s'.inputs 6 = [ask add, .msg 102 addRsp 5, .msg 102 addRsp 5, .msg 103 addTimeout 6]
        ∧ ((s'.party 6).node.cells ⟨0, 0⟩).view = ((s.party 6).node.cells ⟨0, 0⟩).view := by
  obtain ⟨s, s', hreach, hsteps, hup, hsent, hview, hinputs⟩ := adder_late
  have hresolved : ((s.party 6).node.cells ⟨0, 0⟩).hasValueOrError = true := by
    unfold Cell.hasValueOrError
    rw [hview]
    rfl
  exact ⟨s, s', hreach, hsteps, hinputs, settled hreach hsteps hup hsent hresolved⟩

end Reachable
end Deployment
end MsgRpc
