import MsgRpc.Msg.Dispatch
import MsgRpc.Msg.Stage

/-!
This module contains the account a process can give of the messages it has handed to the channel:
which stub call a request comes from, and which request a response answers with what.
-/

namespace MsgRpc

open StateProg

/--
What the handler of a request has noted down so far.
-/
inductive History (cfg : Config V) : List (Ev V) → Prop where
  | idle : History cfg []
  | received (senderId : ServiceId) (reqHeader : ReqMsgHeader) (msg : Bytes)
    : History cfg [.received senderId reqHeader msg]
  | invoked (senderId : ServiceId) (reqHeader : ReqMsgHeader) (msg : Bytes) (method : MethodImpl V)
      (req : V) (hmethod : cfg.Serves reqHeader method)
      (hreq : ThriftDecoder.decode (cfg.env.codec method.reqType) msg = some req)
    : History cfg [.received senderId reqHeader msg, .invoked method.methodIndex req]
  | called (senderId : ServiceId) (reqHeader : ReqMsgHeader) (msg : Bytes) (method : MethodImpl V)
      (req : V) (rspCell : Option (CellId × Cell V)) (hmethod : cfg.Serves reqHeader method)
      (hreq : ThriftDecoder.decode (cfg.env.codec method.reqType) msg = some req)
      (htype : ∀ c o, rspCell = some ⟨c, o⟩ → o.type = method.rspType)
    : History cfg [.received senderId reqHeader msg, .invoked method.methodIndex req,
        .called reqHeader req rspCell]

/--
The bytes that answer a request: a header that says why it has failed, or the value `v` that the
implementation has put into its cell, which it did before or after it returned the cell.
-/
inductive Answer (cfg : Config V) (log : List (Ev V)) (senderId : ServiceId)
    (reqHeader : ReqMsgHeader) (msg : Bytes) : Bytes → Prop where
  | failure (rpcResult : RpcResult) (h : List (Ev V))
      (hfails : Fails cfg senderId reqHeader msg rpcResult h) (hlog : ∀ e ∈ h, e ∈ log)
    : Answer cfg log senderId reqHeader msg (responseHeader reqHeader rpcResult).toBytes
  | value (method : MethodImpl V) (req : V) (c : CellId) (o : Cell V) (v : V) (buf : Bytes)
      (hmethod : cfg.Serves reqHeader method)
      (hreq : ThriftDecoder.decode (cfg.env.codec method.reqType) msg = some req)
      (hcalled : .called reqHeader req (some ⟨c, o⟩) ∈ log)
      (hv : o.value = none ∨ o.value = some v) (hassigned : .assigned c (.value v) ∈ log)
      (htype : o.type = method.rspType)
      (hbuf : ThriftEncoder.encode (cfg.env.codec method.rspType) v = some buf)
    : Answer cfg log senderId reqHeader msg
        ((responseHeader reqHeader .succeeded).toBytes ++ buf)

-- the message is what the stub call makes of its argument
def Sent (env : Env V) (call : StubCall V) (msg : Bytes) : Prop :=
  ∃ seqId pbuf, msg = (reqHeader call seqId).toBytes ++ pbuf
    ∧ ThriftEncoder.encode (env.codec call.reqType) call.req = some pbuf

/--
The account of the messages sent so far, `others` are the responses of all other interactions.
-/
structure Accounted (cfg : Config V) (m : Nat) (others : Nat → List (ServiceId × Bytes))
    (s : St V) : Prop where
  own : s.own = m
  others : ∀ m', m' ≠ m → s.sh.responses m' = others m'
  history : History cfg s.it.calls
  responses : ∀ senderId rsp, ⟨senderId, rsp⟩ ∈ s.sh.responses s.own
    → ∃ reqHeader msg, .received senderId reqHeader msg ∈ s.it.log
      ∧ Answer cfg s.it.log senderId reqHeader msg rsp
  requests : ∀ serviceId msg own c call, .request serviceId msg own c call ∈ s.sh.out
    → Sent cfg.env call msg

/--
The action on `c` that sends the response under `rspHeader` knows the request.
-/
def Replies (cfg : Config V) (s : St V) (senderId : ServiceId) (rspHeader : RspMsgHeader)
    (c : CellId) : Prop :=
  ∃ reqHeader msg method req o, rspHeader = responseHeader reqHeader .succeeded
    ∧ .received senderId reqHeader msg ∈ s.it.log ∧ cfg.Serves reqHeader method
    ∧ ThriftDecoder.decode (cfg.env.codec method.reqType) msg = some req
    ∧ .called reqHeader req (some ⟨c, o⟩) ∈ s.it.log ∧ o.value = none
    ∧ o.type = method.rspType ∧ c < s.it.cellCount ∧ (s.it.cells c).type = method.rspType

/--
The invariant behind it.
-/
structure Accounts (cfg : Config V) (m : Nat) (others : Nat → List (ServiceId × Bytes))
    (s : St V) : Prop extends Accounted cfg m others s where
  values : ∀ c v, (s.it.cells c).value = some v → .assigned c (.value v) ∈ s.it.log
  called : ∀ reqHeader req c o, .called reqHeader req (some ⟨c, o⟩) ∈ s.it.log
    → c < s.it.cellCount ∧ (s.it.cells c).type = o.type
      ∧ ∀ v, o.value = some v → .assigned c (.value v) ∈ s.it.log
  replies : ∀ a senderId rspHeader c, (s.it.actions a).bind = .reply senderId rspHeader c
    → Replies cfg s senderId rspHeader c

theorem Answer.mono {cfg : Config V} {log log' : List (Ev V)} {senderId : ServiceId}
    {reqHeader : ReqMsgHeader} {msg rsp : Bytes}
    (h : Answer cfg log senderId reqHeader msg rsp) (hlog : log <+: log')
    : Answer cfg log' senderId reqHeader msg rsp := by
  cases h with
  | failure rpcResult hist hfails hmem =>
    exact .failure rpcResult hist hfails fun e he => hlog.subset (hmem e he)
  | value method req c o v buf hmethod hreq hcalled hv hassigned htype hbuf =>
    exact .value method req c o v buf hmethod hreq (hlog.subset hcalled) hv
      (hlog.subset hassigned) htype hbuf

namespace Accounted

variable {cfg : Config V} {m : Nat} {others : Nat → List (ServiceId × Bytes)} {s s' : St V}

theorem silent (h : Accounted cfg m others s) (hown : s'.own = s.own)
    (hresponses : ∀ m', s'.sh.responses m' = s.sh.responses m') (hcalls : s'.it.calls = s.it.calls)
    (hlog : s.it.log <+: s'.it.log)
    (hrequests : ∀ serviceId msg own c call, .request serviceId msg own c call ∈ s'.sh.out
      → .request serviceId msg own c call ∈ s.sh.out ∨ Sent cfg.env call msg)
    : Accounted cfg m others s' where
  own := by rw [hown, h.own]
  others m' hm' := by rw [hresponses, h.others m' hm']
  history := by
    rw [hcalls]
    exact h.history
  responses := by
    intro senderId rsp hmem
    rw [hown, hresponses] at hmem
    obtain ⟨reqHeader, msg, hreceived, hanswer⟩ := h.responses senderId rsp hmem
    exact ⟨reqHeader, msg, hlog.subset hreceived, hanswer.mono hlog⟩
  requests := by
    intro serviceId msg own c call hmem
    cases hrequests serviceId msg own c call hmem with
    | inl hold => exact h.requests serviceId msg own c call hold
    | inr hsent => exact hsent

theorem halts (h : Accounted cfg m others s) (hhalts : Halts s s') : Accounted cfg m others s' := by
  apply h.silent hhalts.own _ hhalts.calls hhalts.log
  . intro serviceId msg own c call hmem
    rw [hhalts.out] at hmem
    exact Or.inl hmem
  . intro m'
    unfold Shared.responses
    rw [hhalts.out]

end Accounted

theorem Effect.sends {env : Env V} {A : Updatable → Prop} {s s' : St V}
    (heffect : Effect env A s s')
    : (∀ m, s'.sh.responses m = s.sh.responses m)
      ∧ ∀ serviceId msg own c call, .request serviceId msg own c call ∈ s'.sh.out
        → .request serviceId msg own c call ∈ s.sh.out ∨ Sent env call msg := by
  have hsame : s'.sh.out = s.sh.out → (∀ m, s'.sh.responses m = s.sh.responses m)
      ∧ ∀ serviceId msg own c call, .request serviceId msg own c call ∈ s'.sh.out
        → .request serviceId msg own c call ∈ s.sh.out ∨ Sent env call msg := by
    intro hout
    unfold Shared.responses
    rw [hout]
    exact ⟨fun _ => rfl, fun _ _ _ _ _ hmem => Or.inl hmem⟩
  cases heffect with
  | drop c _ _ _ _ _ _ _ => exact hsame (Halts.removeRspHandlerOf s.popFrame c).out
  | request c serviceId call pbuf _ _ _ _ hpbuf =>
    refine ⟨fun m => by simp [St.output, Shared.responses, Out.responseOf], ?_⟩
    intro serviceId' msg own c' call' hmem
    simp only [St.output, List.mem_append, List.mem_singleton, Out.request.injEq] at hmem
    cases hmem with
    | inl hold => exact Or.inl hold
    | inr hnew =>
      obtain ⟨_, hmsg, _, _, hcall⟩ := hnew
      rw [hmsg, hcall]
      exact Or.inr ⟨_, pbuf, rfl, hpbuf⟩
  | timer o ho =>
    cases o with
    | setTimer _ _ =>
      exact ⟨by simp [St.output, Shared.responses, Out.responseOf],
        fun _ _ _ _ _ hmem => Or.inl (by simpa [St.output] using hmem)⟩
    | cancelTimer _ =>
      exact ⟨by simp [St.output, Shared.responses, Out.responseOf],
        fun _ _ _ _ _ hmem => Or.inl (by simpa [St.output] using hmem)⟩
    | request _ _ _ _ _ => simp [Out.isTimer] at ho
    | response _ _ _ => simp [Out.isTimer] at ho
  | _ => exact hsame rfl

theorem Interaction.mem_calls {it : Interaction V} {e : Ev V} (he : e.isCall = true)
    : e ∈ it.calls ↔ e ∈ it.log := by
  simp [calls, he]

theorem Replies.mono {cfg : Config V} {s s' : St V} {senderId : ServiceId}
    {rspHeader : RspMsgHeader} {c : CellId} (h : Replies cfg s senderId rspHeader c)
    (hlog : s.it.log <+: s'.it.log) (hcount : s.it.cellCount ≤ s'.it.cellCount)
    (htype : ∀ c < s.it.cellCount, (s'.it.cells c).type = (s.it.cells c).type)
    : Replies cfg s' senderId rspHeader c := by
  obtain ⟨reqHeader, msg, method, req, o, hheader, hreceived, hmethod, hreq, hcalled, hnone, ho,
    hlt, hcell⟩ := h
  exact ⟨reqHeader, msg, method, req, o, hheader, hlog.subset hreceived, hmethod, hreq,
    hlog.subset hcalled, hnone, ho, Nat.lt_of_lt_of_le hlt hcount, by rw [htype c hlt, hcell]⟩

namespace Accounts

variable {cfg : Config V} {m : Nat} {others : Nat → List (ServiceId × Bytes)} {s s' : St V}

theorem step (h : Accounts cfg m others s) (hown : s'.own = s.own)
    (hresponses : ∀ m', s'.sh.responses m' = s.sh.responses m') (hcalls : s'.it.calls = s.it.calls)
    (hlog : s.it.log <+: s'.it.log)
    (hrequests : ∀ serviceId msg own c call, .request serviceId msg own c call ∈ s'.sh.out
      → .request serviceId msg own c call ∈ s.sh.out ∨ Sent cfg.env call msg)
    (hcount : s.it.cellCount ≤ s'.it.cellCount)
    (htype : ∀ c < s.it.cellCount, (s'.it.cells c).type = (s.it.cells c).type)
    (hvalues : ∀ c v, (s'.it.cells c).value = some v
      → (s.it.cells c).value = some v ∨ .assigned c (.value v) ∈ s'.it.log)
    (hreplies : ∀ a, (s'.it.actions a).bind.isReply = true
      → (s.it.actions a).bind = (s'.it.actions a).bind)
    : Accounts cfg m others s' := by
  constructor
  . exact h.silent hown hresponses hcalls hlog hrequests
  . intro c v hv
    cases hvalues c v hv with
    | inl hold => exact hlog.subset (h.values c v hold)
    | inr hnew => exact hnew
  . intro reqHeader req c o hcalled
    rw [← Interaction.mem_calls rfl, hcalls, Interaction.mem_calls rfl] at hcalled
    obtain ⟨hlt, hsame, hassigned⟩ := h.called reqHeader req c o hcalled
    exact ⟨Nat.lt_of_lt_of_le hlt hcount, by rw [htype c hlt, hsame],
      fun v hv => hlog.subset (hassigned v hv)⟩
  . intro a senderId rspHeader c hbind
    have hold := hreplies a (by rw [hbind]; rfl)
    rw [hbind] at hold
    exact (h.replies a senderId rspHeader c hold).mono hlog hcount htype

theorem grow (h : Accounts cfg m others s) (hwf : WellFormed s) (hwf' : WellFormed s')
    (hext : Extends s s') (hresponses : ∀ m', s'.sh.responses m' = s.sh.responses m')
    (hrequests : ∀ serviceId msg own c call, .request serviceId msg own c call ∈ s'.sh.out
      → .request serviceId msg own c call ∈ s.sh.out ∨ Sent cfg.env call msg)
    (hvalues : ∀ c v, (s'.it.cells c).value = some v
      → (s.it.cells c).value = some v ∨ .assigned c (.value v) ∈ s'.it.log)
    : Accounts cfg m others s' := by
  have hcalls : s'.it.calls = s.it.calls := by
    rw [Interaction.calls_eq, Interaction.calls_eq, hext.history]
  apply h.step hext.own hresponses hcalls hext.log hrequests hext.cellCount hext.type hvalues
  intro a hreply
  have hfinal := hext.newFinal a (hwf'.reply a hreply)
  exact (hext.bind a (hwf.lt_of_final hfinal)).symm

theorem effect {A : Updatable → Prop} (h : Accounts cfg m others s) (hwf : WellFormed s)
    (heffect : Effect cfg.env A s s')
    : Accounts cfg m others s' := by
  apply h.grow hwf (hwf.effect heffect) (Extends.effect hwf heffect) heffect.sends.1
    heffect.sends.2
  intro c v hv
  rw [heffect.value hwf c] at hv
  exact Or.inl hv

theorem frees (h : Accounts cfg m others s) (hwf : WellFormed s) (hfrees : Frees s s')
    : Accounts cfg m others s' := by
  have hhalts := hfrees.halts
  apply h.grow hwf (hwf.frees hfrees) (Extends.frees hfrees)
  . intro m'
    unfold Shared.responses
    rw [hhalts.out]
  . intro serviceId msg own c call hmem
    rw [hhalts.out] at hmem
    exact Or.inl hmem
  . intro c v hv
    rw [hfrees.cell c] at hv
    exact Or.inl hv

theorem record (h : Accounts cfg m others s) {e : Ev V} (he : e.isCall = false)
    : Accounts cfg m others (s.record e) := by
  apply h.step
  . rfl
  . exact fun _ => rfl
  . simp [Interaction.calls, St.record, he]
  . exact List.prefix_append _ _
  . exact fun _ _ _ _ _ hmem => Or.inl hmem
  . exact Nat.le_refl _
  . exact fun _ _ => rfl
  . exact fun _ _ hv => Or.inl hv
  . exact fun _ _ => rfl

theorem assign (h : Accounts cfg m others s) (c : CellId) (o : Outcome V)
    : Accounts cfg m others (s.assign c o) := by
  apply h.step
  . cases o <;> rfl
  . cases o <;> exact fun _ => rfl
  . cases o <;> simp [Interaction.calls, St.assign, St.record, St.setCell, Ev.isCall]
  . cases o <;> exact List.prefix_append _ _
  . cases o <;> exact fun _ _ _ _ _ hmem => Or.inl hmem
  . cases o <;> exact Nat.le_refl _
  . intro c' _
    by_cases heq : c' = c
    . cases o <;> simp [St.assign, St.record, St.setCell, heq]
    . cases o <;> simp [St.assign, St.record, St.setCell, heq]
  . intro c' v hv
    by_cases heq : c' = c
    . subst heq
      cases o with
      | value v' =>
        right
        have heq : v' = v := by
          simpa [St.assign, St.record, St.setCell] using hv
        simp [St.assign, St.record, heq]
      | error reason =>
        left
        simpa [St.assign, St.record, St.setCell] using hv
    . left
      cases o <;> simpa [St.assign, St.record, St.setCell, heq] using hv
  . cases o <;> exact fun _ _ => rfl

theorem keeps (cfg : Config V) (A : Updatable → Prop) (m : Nat)
    (others : Nat → List (ServiceId × Bytes))
    : Keeps cfg.env A (Accounts cfg m others) (fun _ s => Accounted cfg m others s) where
  effect _ _ h hact := h.inv.effect h.wellFormed hact.effect
  assign _ c o h _ _ _ := h.inv.assign c o
  notify _ _ _ h _ _ _ := h.inv.record rfl
  fault _ _ _ h _ hbreaks := h.inv.halts hbreaks.halts
  unique _ h _ := h.inv.halts ⟨⟨rfl, rfl, List.prefix_refl _⟩, rfl, rfl⟩

theorem respond (h : Accounts cfg m others s) {senderId : ServiceId} {reqHeader : ReqMsgHeader}
    {msg rsp : Bytes} (hreceived : .received senderId reqHeader msg ∈ s.it.log)
    (hanswer : Answer cfg s.it.log senderId reqHeader msg rsp)
    : Accounts cfg m others (s.output (.response senderId rsp s.own)) where
  own := h.own
  others := by
    intro m' hm'
    rw [← h.others m' hm']
    have hne : s.own ≠ m' := by
      rw [h.own]
      exact hm'.symm
    simp [St.output, Shared.responses, Out.responseOf, hne]
  history := h.history
  responses := by
    intro senderId' rsp' hmem
    simp only [St.output, Shared.responses, List.filterMap_append, List.mem_append] at hmem
    cases hmem with
    | inl hold => exact h.responses senderId' rsp' hold
    | inr hnew =>
      simp only [Out.responseOf, List.filterMap_cons, ↓reduceIte, List.filterMap_nil,
        List.mem_singleton, Prod.mk.injEq] at hnew
      obtain ⟨hsender, hrsp⟩ := hnew
      subst hsender hrsp
      exact ⟨reqHeader, msg, hreceived, hanswer⟩
  requests := by
    intro serviceId msg' own c call hmem
    simp only [St.output, List.mem_append, List.mem_singleton, reduceCtorEq, or_false] at hmem
    exact h.requests serviceId msg' own c call hmem
  values := h.values
  called := h.called
  replies := h.replies

theorem reply (h : Accounts cfg m others s) {a : ActionId} {senderId : ServiceId}
    {rspHeader : RspMsgHeader} {c : CellId} {v : V} {buf : Bytes}
    (hbind : (s.it.actions a).bind = .reply senderId rspHeader c)
    (hv : (s.it.cells c).value = some v)
    (hbuf : ThriftEncoder.encode (cfg.env.codec (s.it.cells c).type) v = some buf)
    : Accounts cfg m others (s.output (.response senderId (rspHeader.toBytes ++ buf) s.own)) := by
  obtain ⟨reqHeader, msg, method, req, o, hheader, hreceived, hmethod, hreq, hcalled, hnone, ho,
    hlt, hcell⟩ := h.replies a senderId rspHeader c hbind
  rw [hheader]
  apply h.respond hreceived
  rw [hcell] at hbuf
  exact .value method req c o v buf hmethod hreq hcalled (Or.inl hnone) (h.values c v hv) ho hbuf

theorem release (h : Accounts cfg m others s) : Accounts cfg m others s.release := by
  have hrecord := h.record (e := .released s.stack) rfl
  exact ⟨⟨hrecord.own, hrecord.others, hrecord.history, hrecord.responses, hrecord.requests⟩,
    hrecord.values, hrecord.called, hrecord.replies⟩

theorem updates (cfg : Config V) (A : Updatable → Prop) (m : Nat)
    (others : Nat → List (ServiceId × Bytes)) (n : Nat)
    : Updates A (Accounts cfg m others) (fun _ => Accounts cfg m others)
        (fun _ s => Accounted cfg m others s) (update cfg.env n) := by
  have hk := keeps cfg A m others
  have hr : KeepsRelease cfg.env A (Accounts cfg m others) (fun _ => Accounts cfg m others) :=
    { ranAction := fun s a h _ _ => h.inv.record rfl
      finished := fun s a h _ _ => h.inv.record rfl
      response := fun s a senderId rspHeader c v buf h _ hbind hv hbuf => h.inv.reply hbind hv hbuf
      release := fun s s' a h _ _ hfrees => (h.inv.frees h.wellFormed hfrees).release }
  apply hk.update hk.returns
  apply hr.keepsFinal hk
  intro s s' e h hdouble
  exact h.inv.halts hdouble.halts

-- steps that leave log and channel alone
theorem quiet (h : Accounts cfg m others s) (hown : s'.own = s.own) (hout : s'.sh.out = s.sh.out)
    (hlog : s'.it.log = s.it.log) (hcount : s.it.cellCount ≤ s'.it.cellCount)
    (htype : ∀ c < s.it.cellCount, (s'.it.cells c).type = (s.it.cells c).type)
    (hvalues : ∀ c, (s'.it.cells c).value = (s.it.cells c).value)
    (hbind : ∀ a, (s'.it.actions a).bind = (s.it.actions a).bind)
    : Accounts cfg m others s' := by
  apply h.step hown _ _ _ _ hcount htype
  . intro c v hv
    rw [hvalues] at hv
    exact Or.inl hv
  . intro a _
    exact (hbind a).symm
  . intro m'
    unfold Shared.responses
    rw [hout]
  . unfold Interaction.calls
    rw [hlog]
  . rw [hlog]
  . intro serviceId msg own c call hmem
    rw [hout] at hmem
    exact Or.inl hmem

theorem St.Unclosed.calls {hist : List (Ev V)} (hopen : s.Unclosed hist)
    (hcalls : ∀ e ∈ hist, e.isCall = true)
    : s.it.calls = hist := by
  rw [Interaction.calls_eq, hopen.history, List.filter_eq_self]
  exact hcalls

theorem call (h : Accounts cfg m others s) {hist : List (Ev V)} {e : Ev V}
    (hopen : s.Unclosed hist) (hcalls : ∀ e ∈ hist, e.isCall = true) (he : e.isCall = true)
    (hhistory : History cfg (hist ++ [e]))
    (hcalled : ∀ reqHeader req c o, e = .called reqHeader req (some ⟨c, o⟩)
      → c < s.it.cellCount ∧ s.it.cells c = o)
    : Accounts cfg m others (s.record e) := by
  have hlog : s.it.log <+: (s.record e).it.log := List.prefix_append _ _
  constructor
  . constructor
    . exact h.own
    . exact h.others
    . have heq : (s.record e).it.calls = hist ++ [e] := by
        have := St.Unclosed.calls hopen hcalls
        unfold Interaction.calls at this ⊢
        simp [St.record, this, he]
      rw [heq]
      exact hhistory
    . intro senderId rsp hmem
      obtain ⟨reqHeader, msg, hreceived, hanswer⟩ := h.responses senderId rsp hmem
      exact ⟨reqHeader, msg, hlog.subset hreceived, hanswer.mono hlog⟩
    . exact h.requests
  . intro c v hv
    exact hlog.subset (h.values c v hv)
  . intro reqHeader req c o hmem
    simp only [St.record, List.mem_append, List.mem_singleton] at hmem
    cases hmem with
    | inl hold =>
      obtain ⟨hlt, hsame, hassigned⟩ := h.called reqHeader req c o hold
      exact ⟨hlt, hsame, fun v hv => hlog.subset (hassigned v hv)⟩
    | inr heq =>
      obtain ⟨hlt, hcell⟩ := hcalled reqHeader req c o heq.symm
      rw [← hcell]
      exact ⟨hlt, rfl, fun v hv => hlog.subset (h.values c v hv)⟩
  . intro a senderId rspHeader c hbind
    exact (h.replies a senderId rspHeader c hbind).mono hlog (Nat.le_refl _) fun _ _ => rfl

section Handlers

attribute [local simp] St.addFinalAction St.addAction St.record St.setResult St.setCell
  St.setActionCell St.setAction St.addCell

theorem setResult (h : Accounts cfg m others s) (c : CellId)
    : Accounts cfg m others (s.setResult c) := by
  apply h.quiet
  . rfl
  . rfl
  . rfl
  . exact Nat.le_refl _
  . intro c' _
    by_cases heq : c' = c <;> simp [heq]
  . intro c'
    by_cases heq : c' = c <;> simp [heq]
  . exact fun _ => rfl

theorem setActionCell (h : Accounts cfg m others s) (a : ActionId) (c : CellId)
    : Accounts cfg m others (s.setActionCell a c) := by
  apply h.quiet
  . rfl
  . rfl
  . rfl
  . exact Nat.le_refl _
  . exact fun _ _ => rfl
  . exact fun _ => rfl
  . intro a'
    by_cases heq : a' = a <;> simp [heq]

theorem unregister (h : Accounts cfg m others s) (c : CellId) (k : RpcSequenceIdT)
    : Accounts cfg m others (s.unregister c k) := by
  apply h.quiet
  . rfl
  . rfl
  . rfl
  . exact Nat.le_refl _
  . intro c' _
    by_cases heq : c' = c <;> simp [St.unregister, St.setRspHandler, heq]
  . intro c'
    by_cases heq : c' = c <;> simp [St.unregister, St.setRspHandler, heq]
  . exact fun _ => rfl

theorem newCell (h : Accounts cfg m others s) (hwf : WellFormed s) (type : Ty)
    (status : RpcResult)
    : Accounts cfg m others (s.addCell { type, kind := .cell, status }) := by
  have hnone : (s.it.cells s.it.cellCount).value = none := by
    rw [hwf.cellFresh _ (Nat.le_refl _)]
    rfl
  apply h.quiet
  . rfl
  . rfl
  . rfl
  . exact Nat.le_succ _
  . intro c hc
    have hne : c ≠ s.it.cellCount := by lia
    simp [hne]
  . intro c
    by_cases heq : c = s.it.cellCount <;> simp [heq, hnone]
  . exact fun _ => rfl

theorem owe (h : Accounts cfg m others s) (hwf : WellFormed s) {bind : Bind V} {c : CellId}
    {isEmpty : Bool} {hist : List (Ev V)} (howes : Owes bind c isEmpty hist)
    (hopen : s.Unclosed hist) (hc : c < s.it.cellCount)
    : Accounts cfg m others (s.addFinalAction bind c isEmpty) := by
  have hmem : ∀ e ∈ hist, e ∈ s.it.log := by
    intro e he
    rw [← hopen.history] at he
    exact List.mem_of_mem_filter he
  have hlog : s.it.log <+: (s.addFinalAction bind c isEmpty).it.log := List.prefix_append _ _
  have hrecord := h.record (e := .closed s.it.actionCount c isEmpty) rfl
  constructor
  . exact ⟨hrecord.own, hrecord.others, hrecord.history, hrecord.responses, hrecord.requests⟩
  . exact hrecord.values
  . exact hrecord.called
  . intro a senderId rspHeader c' hbind
    by_cases heq : a = s.it.actionCount
    . simp only [heq, St.addFinalAction, St.record, St.addAction, Function.update_self] at hbind
      cases howes with
      | user f huser => simp [huser] at hbind
      | reply senderId' reqHeader msg i req o hreply hnone _ =>
        simp only [hreply, Bind.reply.injEq] at hbind
        obtain ⟨hsender, hheader, hcc⟩ := hbind
        subst hsender hheader hcc
        have hcalls := St.Unclosed.calls hopen (by simp [Ev.isCall])
        have hhistory := h.history
        rw [hcalls] at hhistory
        cases hhistory with
        | called _ _ _ method _ _ hmethod hreq htype =>
          have hcalled := hmem (.called reqHeader req (some ⟨c, o⟩)) (by simp)
          have ho := htype c o rfl
          obtain ⟨hlt, hsame, _⟩ := h.called reqHeader req c o hcalled
          exact ⟨reqHeader, msg, method, req, o, rfl, hlog.subset (hmem _ (by simp)), hmethod, hreq,
            hlog.subset hcalled, hnone, ho, hlt, hsame.trans ho⟩
    . simp only [St.addFinalAction, St.record, St.addAction, Function.update_of_ne heq] at hbind
      exact (h.replies a senderId rspHeader c' hbind).mono hlog (Nat.le_refl _) fun _ _ => rfl

theorem close {bind : Bind V} {c : CellId}
    (h : Accounts cfg m others (s.addFinalAction bind c true))
    : Accounts cfg m others (s.close bind c) := by
  have hregistered := h.record (e := .registered c (.action s.it.actionCount)) rfl
  apply hregistered.quiet
  . rfl
  . rfl
  . rfl
  . exact Nat.le_refl _
  . intro c' _
    by_cases heq : c' = c <;>
      simp [St.close, St.pushUpdatable, St.track, heq]
  . intro c'
    by_cases heq : c' = c <;>
      simp [St.close, St.pushUpdatable, St.track, heq]
  . intro a
    by_cases heq : a = s.it.actionCount <;>
      simp [St.close, St.pushUpdatable, St.track, heq]

theorem answer (h : Accounts cfg m others s) {senderId : ServiceId} {reqHeader : ReqMsgHeader}
    {msg : Bytes} {i : Int} {req : V} {c : CellId} {o : Cell V} {v : V} {buf : Bytes}
    (hopen : s.Unclosed
      [.received senderId reqHeader msg, .invoked i req, .called reqHeader req (some ⟨c, o⟩)])
    (hv : o.value = some v) (hbuf : ThriftEncoder.encode (cfg.env.codec o.type) v = some buf)
    : Accounts cfg m others
        (s.output (.response senderId ((responseHeader reqHeader .succeeded).toBytes ++ buf)
          s.own)) := by
  have hcalls := St.Unclosed.calls hopen (by simp [Ev.isCall])
  have hmem : ∀ e ∈ s.it.calls, e ∈ s.it.log := fun e he => List.mem_of_mem_filter he
  have hcalled : .called reqHeader req (some ⟨c, o⟩) ∈ s.it.log := hmem _ (by simp [hcalls])
  obtain ⟨_, _, hassigned⟩ := h.called reqHeader req c o hcalled
  have hhistory := h.history
  rw [hcalls] at hhistory
  cases hhistory with
  | called _ _ _ method _ _ hmethod hreq htype =>
    have ho := htype c o rfl
    have hreceived : .received senderId reqHeader msg ∈ s.it.log := hmem _ (by simp [hcalls])
    rw [ho] at hbuf
    apply h.respond hreceived
    exact .value method req c o v buf hmethod hreq hcalled (Or.inr hv) (hassigned v hv) ho hbuf

end Handlers

theorem keepsHandlers (cfg : Config V) (m : Nat) (others : Nat → List (ServiceId × Bytes))
    : KeepsHandlers cfg (Accounts cfg m others) (fun _ s => Accounted cfg m others s) where
  effect s s' h heffect := by
    cases heffect with
    | received senderId reqHeader msg hopen =>
      exact h.inv.call hopen (by simp) rfl (.received senderId reqHeader msg) (by simp)
    | invoked senderId reqHeader msg req method hopen hmethod hreq =>
      exact h.inv.call hopen (by simp [Ev.isCall]) rfl
        (.invoked senderId reqHeader msg method req hmethod hreq) (by simp)
    | called senderId reqHeader msg req method rspCell hopen hmethod hreq hcell =>
      apply h.inv.call hopen (by simp [Ev.isCall]) rfl
      . apply History.called senderId reqHeader msg method req _ hmethod hreq
        intro c o heq
        simp only [Option.map_eq_some_iff, Prod.mk.injEq] at heq
        obtain ⟨c', hc', _, ho⟩ := heq
        rw [← ho]
        exact (hcell c' hc').2
      . intro reqHeader' req' c o heq
        simp only [Ev.called.injEq, Option.map_eq_some_iff, Prod.mk.injEq] at heq
        obtain ⟨_, _, c', hc', hc, ho⟩ := heq
        subst hc ho
        exact ⟨(hcell c' hc').1, rfl⟩
    | setResult c _ _ => exact h.inv.setResult c
    | close bind c hist howes hopen halive _ _ _ =>
      exact (h.inv.owe h.wellFormed howes hopen (h.wellFormed.lt_of_alive halive)).close
    | closeLate bind c hist howes hopen halive _ =>
      have hadd : Accounts cfg m others (s.addFinalAction bind c false) :=
        h.inv.owe h.wellFormed howes hopen (h.wellFormed.lt_of_alive halive)
      apply hadd.quiet <;> first | rfl | exact fun _ _ => rfl | exact fun _ => rfl
    | popFrame _ => apply h.inv.quiet <;> first | rfl | exact fun _ _ => rfl | exact fun _ => rfl
    | track _ _ => apply h.inv.quiet <;> first | rfl | exact fun _ _ => rfl | exact fun _ => rfl
    | setActionCell a c _ _ => exact h.inv.setActionCell a c
    | newCell type status => exact h.inv.newCell h.wellFormed type status
    | setNewCell c v _ _ => exact h.inv.assign c _
    | delete _ _ hfrees => exact h.inv.frees h.wellFormed hfrees
    | failure senderId reqHeader msg rpcResult hist hopen hfails =>
      have hlog : ∀ e ∈ hist, e ∈ s.it.log := by
        intro e he
        rw [← hopen.history] at he
        exact List.mem_of_mem_filter he
      apply h.inv.respond (hlog _ hfails.received)
      exact .failure rpcResult hist hfails hlog
    | response senderId reqHeader msg i req c o v buf hopen hv hbuf =>
      exact h.inv.answer hopen hv hbuf
  fault s s' a h _ hbreaks := h.inv.halts hbreaks.halts

end Accounts

structure NodeAccount (cfg : Config V) (P : Nat → (Nat → List (ServiceId × Bytes)) → St V → Prop)
    (nd : Node V) : Prop where
  interaction : ∀ m it, nd.its[m]? = some it → P m nd.sh.responses (nd.st m it)
  requests : ∀ serviceId msg own c call, .request serviceId msg own c call ∈ nd.sh.out
    → Sent cfg.env call msg
  fresh : ∀ m, nd.its.length ≤ m → nd.sh.responses m = []

section Node

variable {cfg : Config V} {n : Nat} {start : UInt32} {nd : Node V} {m : Nat} {it : Interaction V}
variable {s : St V}

theorem NodeAccount.withSt {P Q : Nat → (Nat → List (ServiceId × Bytes)) → St V → Prop}
    (h : NodeAccount cfg P nd) (hit : nd.its[m]? = some it)
    (hs : Accounted cfg m nd.sh.responses s)
    (hself : Q m s.sh.responses ((nd.withSt s).st m s.it))
    (hother : ∀ m' it', m' ≠ m → P m' nd.sh.responses (nd.st m' it')
      → Q m' s.sh.responses ((nd.withSt s).st m' it'))
    : NodeAccount cfg Q (nd.withSt s) where
  interaction := by
    intro m' it' hit'
    rw [Node.getElem?_withSt hit hs.own] at hit'
    split at hit'
    . next heq =>
      simp only [Option.some.injEq] at hit'
      subst heq hit'
      exact hself
    . next hne => exact hother m' it' hne (h.interaction m' it' hit')
  requests := hs.requests
  fresh := by
    intro m' hm'
    have hlt := (List.getElem?_eq_some_iff.mp hit).1
    have hlen : nd.its.length ≤ m' := by
      simpa [Node.withSt] using hm'
    have hsame := hs.others m' (by omega)
    rw [h.fresh m' hlen] at hsame
    exact hsame

theorem Accounted.here {others : Nat → List (ServiceId × Bytes)} (h : Accounted cfg m others s)
    : Accounted cfg m s.sh.responses ((nd.withSt s).st m s.it) where
  own := rfl
  others := fun _ _ => rfl
  history := h.history
  responses := by
    intro senderId rsp hmem
    apply h.responses senderId rsp
    rw [h.own]
    exact hmem
  requests := h.requests

theorem Accounted.elsewhere {m' : Nat} {it' : Interaction V}
    (h : Accounted cfg m' nd.sh.responses (nd.st m' it')) (hs : Accounted cfg m nd.sh.responses s)
    (hne : m' ≠ m)
    : Accounted cfg m' s.sh.responses ((nd.withSt s).st m' it') where
  own := rfl
  others := fun _ _ => rfl
  history := h.history
  responses := by
    intro senderId rsp hmem
    apply h.responses senderId rsp
    change _ ∈ nd.sh.responses m'
    rw [← hs.others m' hne]
    exact hmem
  requests := hs.requests

theorem Accounts.here {others : Nat → List (ServiceId × Bytes)} (h : Accounts cfg m others s)
    : Accounts cfg m s.sh.responses ((nd.withSt s).st m s.it) :=
  ⟨h.toAccounted.here, h.values, h.called, h.replies⟩

theorem Accounts.elsewhere {m' : Nat} {it' : Interaction V}
    (h : Accounts cfg m' nd.sh.responses (nd.st m' it')) (hs : Accounted cfg m nd.sh.responses s)
    (hne : m' ≠ m)
    : Accounts cfg m' s.sh.responses ((nd.withSt s).st m' it') :=
  ⟨h.toAccounted.elsewhere hs hne, h.values, h.called, h.replies⟩

theorem NodeAccount.forget (h : NodeAccount cfg (Accounts cfg) nd)
    : NodeAccount cfg (Accounted cfg) nd :=
  ⟨fun m it hit => (h.interaction m it hit).toAccounted, h.requests, h.fresh⟩

theorem NodeAccount.run (h : NodeAccount cfg (Accounts cfg) nd) (hit : nd.its[m]? = some it)
    {x : M V α} {s0 : St V} {Q : α → St V → Prop}
    (hx : wp x (fun r s => Accounts cfg m nd.sh.responses s ∧ Q r s)
      (fun _ s => Accounted cfg m nd.sh.responses s) s0)
    : wp x (fun _ s => NodeAccount cfg (Accounts cfg) (nd.withSt s))
        (fun _ s => NodeAccount cfg (Accounted cfg) (nd.withSt s)) s0 := by
  apply wp_mono hx
  . rintro r s ⟨hs, _⟩
    apply h.withSt hit hs.toAccounted hs.here
    intro m' it' hne h'
    exact h'.elsewhere hs.toAccounted hne
  . intro f s hs
    apply h.withSt hit hs hs.here
    intro m' it' hne h'
    exact h'.toAccounted.elsewhere hs hne

theorem NodeAccount.begin (h : NodeAccount cfg (Accounts cfg) nd)
    : NodeAccount cfg (Accounts cfg) nd.start where
  interaction := by
    intro m it hit
    have h' := h.interaction m it hit
    exact ⟨⟨h'.own, h'.others, h'.history, h'.responses, h'.requests⟩, h'.values, h'.called,
      h'.replies⟩
  requests := h.requests
  fresh := h.fresh

theorem NodeAccount.beginNew (h : NodeAccount cfg (Accounts cfg) nd)
    : NodeAccount cfg (Accounts cfg) nd.startNew where
  interaction := by
    intro m it hit
    simp only [Node.startNew, List.getElem?_append] at hit
    split at hit
    . have h' := h.interaction m it hit
      exact ⟨⟨h'.own, h'.others, h'.history, h'.responses, h'.requests⟩, h'.values, h'.called,
        h'.replies⟩
    . next hge =>
      have heq : it = {} := by
        have := List.mem_of_getElem? hit
        simpa using this
      subst heq
      have hnone : nd.sh.responses m = [] := h.fresh m (by omega)
      refine ⟨⟨rfl, fun _ _ => rfl, .idle, ?_, h.requests⟩, ?_, ?_, ?_⟩
      . intro senderId rsp hmem
        change _ ∈ nd.sh.responses m at hmem
        simp [hnone] at hmem
      . simp [Node.st, Cell.unallocated]
      . simp [Node.st]
      . simp [Node.st, Action.unallocated]
  requests := h.requests
  fresh := by
    intro m hm
    simp only [Node.startNew, List.length_append] at hm
    exact h.fresh m (by omega)

theorem NodeAccount.sound {hole : Option RpcSequenceIdT} (ha : NodeAccount cfg (Accounts cfg) nd)
    (h : NodeInv hole start nd) (hit : nd.its[m]? = some it)
    : Sound (fun _ => True) (Accounts cfg m nd.sh.responses) (nd.st m it) :=
  ⟨h.wellFormed m it hit, Fenced.all, ha.interaction m it hit⟩

theorem NodeAccount.dispatch (h : NodeInv none start nd)
    (ha : NodeAccount cfg (Accounts cfg) nd) (e : Event V)
    : Dispatch cfg n nd e (NodeAccount cfg (Accounts cfg)) (NodeAccount cfg (Accounts cfg))
        (fun _ nd' => NodeAccount cfg (Accounted cfg) nd') where
  ignored := ha.begin
  rejected _ := ha.begin.forget
  interaction := by
    intro si finalAction _
    have hit : nd.startNew.its[nd.its.length]? = some {} := by simp [Node.startNew]
    apply ha.beginNew.run hit
    apply wp_mono (Handles.startInteraction (Accounts.keepsHandlers cfg _ _)
      (Accounts.keeps cfg _ _ _) (Accounts.updates cfg _ _ _ n) (ha.beginNew.sound h.beginNew hit)
      (unowned_new _ _) (unclosed_new (h.responses _ (Nat.le_refl _))) si finalAction)
    . rintro _ s ⟨hsound, _⟩
      exact ⟨hsound.inv, trivial⟩
    . intro f s hs
      exact hs
  request := by
    intro msg senderId reqHeader payload _ _
    have hit : nd.startNew.its[nd.its.length]? = some {} := by simp [Node.startNew]
    apply ha.beginNew.run hit
    apply wp_mono (Handles.onRpcReq (Accounts.keepsHandlers cfg _ _)
      (Accounts.keeps cfg _ _ _) (Accounts.updates cfg _ _ _ n)
      (fun s s' e hs hdouble => hs.inv.halts hdouble.halts) (ha.beginNew.sound h.beginNew hit)
      (unowned_new _ _) (unclosed_new (h.responses _ (Nat.le_refl _))) reqHeader payload senderId)
    . rintro _ s ⟨hsound, _⟩
      exact ⟨hsound.inv, trivial⟩
    . intro f s hs
      exact hs
  response := by
    intro msg senderId rspHeader payload m it c _ _ hit hkey
    have halive := (Cell.key_eq_some.mp hkey).1
    have hsound := ha.begin.sound (h.begin false) hit
    apply ha.begin.run hit
    apply wp_mono (Handles.notify (Accounts.keeps cfg _ _ _) (Accounts.updates cfg _ _ _ n) hsound
      halive ((h.begin false).isEmpty hit hkey) (hsound.inv.assign c _))
    . rintro _ s ⟨hs, _⟩
      exact ⟨hs.inv, trivial⟩
    . intro f s hs
      exact hs
  responded _ hnd := hnd
  unregistered := by
    intro _ nd1 k m it c h1 ha1 hit _
    have hs := (ha1.interaction m it hit).unregister c k
    apply ha1.withSt hit hs.toAccounted hs.here
    intro m' it' hne h'
    exact h'.elsewhere hs.toAccounted hne
  timeout := by
    intro msg senderId m it c _ hit hkey
    have halive := (Cell.key_eq_some.mp hkey).1
    have hsound := ha.begin.sound (h.begin false) hit
    have hs := hsound.inv.unregister c (TimerInfo.seqId cfg msg)
    have hunregistered : Sound (fun _ => True) (Accounts cfg m nd.start.sh.responses)
        ((nd.start.st m it).unregister c (TimerInfo.seqId cfg msg)) :=
      ⟨hsound.wellFormed.unregister halive _, Fenced.all, hs⟩
    apply ha.begin.run hit
    apply wp_mono (Handles.notify (Accounts.keeps cfg _ _ _) (Accounts.updates cfg _ _ _ n)
      hunregistered (alive_unregister (s := nd.start.st m it) halive _)
      (isEmpty_unregister (s := nd.start.st m it) ((h.begin false).isEmpty hit hkey) _)
      (hs.assign c (.error .timeout)))
    . rintro _ s ⟨hs, _⟩
      exact ⟨hs.inv, trivial⟩
    . intro f s hs
      exact hs

theorem NodeAccount.init (cfg : Config V) (start : UInt32) (net : Nat → SendOutcome)
    : NodeAccount cfg (Accounts cfg) (Node.init start net) := by
  constructor <;> simp [Node.init, Shared.responses]

theorem NodeAccount.runEvents (h : NodeInv none start nd)
    (ha : NodeAccount cfg (Accounts cfg) nd) (es : List (Event V))
    : wp (runEvents cfg n es)
        (fun _ nd' => NodeInv none start nd' ∧ NodeAccount cfg (Accounts cfg) nd')
        (fun _ nd' => NodeAccount cfg (Accounted cfg) nd') nd :=
  Dispatch.runEvents (fun _ e h ha => ha.dispatch h e) h ha es

theorem NodeAccount.of_ends (h : NodeInv none start nd) (ha : NodeAccount cfg (Accounts cfg) nd)
    {es : List (Event V)} {nd' : Node V} (hrun : Ends (MsgRpc.runEvents cfg n es) nd nd')
    : NodeAccount cfg (Accounted cfg) nd' := by
  apply wp_of_ends _ hrun
  apply wp_mono (ha.runEvents h es)
  . rintro _ nd' ⟨_, hnd'⟩
    exact hnd'.forget
  . intro f nd' hnd'
    exact hnd'

end Node
end MsgRpc
