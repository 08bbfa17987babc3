import MsgRpc.Msg.Dispatch

/-!
This module contains the link a process keeps between the requests it has sent, the cells it has
sent them for and the responses that have come in.
-/

namespace MsgRpc

open StateProg

def Outcome.view (o : Outcome V) : CellView V :=
  match o with
  | .value v => ⟨some v, .succeeded⟩
  | .error reason => ⟨none, reason⟩

/--
What has become of the rpc of cell `o`, `got` are the responses that have come in.
-/
inductive Resolution (env : Env V) (got : List (RspMsgHeader × Bytes)) (o : Cell V) : Prop where
  | empty (hempty : o.hasValueOrError = false) : Resolution env got o
  | timeout (hview : o.view = (Outcome.error RpcResult.timeout).view) : Resolution env got o
  | answered (rspHeader : RspMsgHeader) (payload : Bytes) (hgot : ⟨rspHeader, payload⟩ ∈ got)
      (hid : rspHeader.sequenceId = o.seqId)
      (hview : o.view = (Handles.answer env o.type rspHeader payload).view)
    : Resolution env got o

/--
`msg` is the request a stub call makes for cell `o`.
-/
structure Originates (env : Env V) (o : Cell V) (call : StubCall V) (msg : Bytes) : Prop where
  valid : o.seqId ≠ kInvalidRpcSequenceId
  type : o.type = call.rspType
  bytes : ∃ pbuf, ThriftEncoder.encode (env.codec call.reqType) call.req = some pbuf
    ∧ msg = (reqHeader call o.seqId).toBytes ++ pbuf

/--
The invariant of the cells that have been given an id, they keep it when they are resolved.
-/
structure Links (env : Env V) (got : List (RspMsgHeader × Bytes)) (start : UInt32)
    (cells : Nat × CellId → Cell V) (sh : Shared V) : Prop where
  ids : sh.issued.length < 4294967295 → RpcSequenceId.Issued start sh.sequenceId sh.issued
  valid : ∀ o, (cells o).hasSeqId = true → (cells o).seqId ≠ kInvalidRpcSequenceId
  role : ∀ o, (cells o).seqId ≠ kInvalidRpcSequenceId → (cells o).role = .cell
  issued : ∀ o, (cells o).seqId ≠ kInvalidRpcSequenceId → (cells o).seqId ∈ sh.issued
  unique : sh.issued.length < 4294967295 → ∀ o o',
    (cells o).seqId ≠ kInvalidRpcSequenceId → (cells o).seqId = (cells o').seqId → o = o'
  resolution : ∀ o, (cells o).seqId ≠ kInvalidRpcSequenceId → Resolution env got (cells o)
  requests : ∀ serviceId msg m c call, .request serviceId msg m c call ∈ sh.out
    → Originates env (cells ⟨m, c⟩) call msg
  once : ∀ m c serviceId msg call serviceId' msg' call', .request serviceId msg m c call ∈ sh.out
    → .request serviceId' msg' m c call' ∈ sh.out
    → serviceId' = serviceId ∧ msg' = msg ∧ call' = call
  canceled : ∀ k, .cancelTimer k ∈ sh.out → ∃ o, (cells o).seqId = k
    ∧ k ≠ kInvalidRpcSequenceId ∧ (cells o).hasValueOrError = true

-- what the link tells about a cell
structure SameRpc (o o' : Cell V) : Prop where
  seqId : o'.seqId = o.seqId
  role : o'.role = o.role
  type : o'.type = o.type
  view : o'.view = o.view

theorem SameRpc.refl (o : Cell V) : SameRpc o o := ⟨rfl, rfl, rfl, rfl⟩

-- no id is given to the cell, and one that has an id is kept
structure KeepsRpc (o o' : Cell V) : Prop where
  seqId : o'.seqId = o.seqId
  hasSeqId : o'.hasSeqId = true → o.hasSeqId = true
  same : o.seqId ≠ kInvalidRpcSequenceId → SameRpc o o'

theorem KeepsRpc.refl (o : Cell V) : KeepsRpc o o := ⟨rfl, id, fun _ => SameRpc.refl o⟩

-- what the link tells about
def Out.isLinked : Out V → Bool
  | .request _ _ _ _ _ | .cancelTimer _ => true
  | .response _ _ _ | .setTimer _ _ => false

theorem Resolution.congr {env : Env V} {got : List (RspMsgHeader × Bytes)} {o o' : Cell V}
    (h : Resolution env got o) (hsame : SameRpc o o')
    : Resolution env got o' := by
  cases h with
  | empty hempty =>
    apply Resolution.empty
    unfold Cell.hasValueOrError at hempty ⊢
    rw [hsame.view]
    exact hempty
  | timeout hview => exact .timeout (by rw [hsame.view, hview])
  | answered rspHeader payload hgot hid hview =>
    apply Resolution.answered rspHeader payload hgot
    . rw [hsame.seqId, hid]
    . rw [hsame.view, hsame.type, hview]

theorem Originates.congr {env : Env V} {o o' : Cell V} {call : StubCall V} {msg : Bytes}
    (h : Originates env o call msg) (hsame : SameRpc o o')
    : Originates env o' call msg where
  valid := by
    rw [hsame.seqId]
    exact h.valid
  type := by rw [hsame.type, h.type]
  bytes := by
    rw [hsame.seqId]
    exact h.bytes

namespace Links

variable {env : Env V} {got : List (RspMsgHeader × Bytes)} {start : UInt32}
variable {cells cells' : Nat × CellId → Cell V} {sh sh' : Shared V}

theorem congr (h : Links env got start cells sh)
    (hcells : ∀ o, KeepsRpc (cells o) (cells' o))
    (hissued : sh'.issued = sh.issued) (hseq : sh'.sequenceId = sh.sequenceId)
    (hout : ∀ o : Out V, o.isLinked = true → o ∈ sh'.out → o ∈ sh.out)
    : Links env got start cells' sh' := by
  have hid : ∀ o, (cells' o).seqId ≠ kInvalidRpcSequenceId
      → (cells o).seqId ≠ kInvalidRpcSequenceId := by
    intro o ho
    rw [(hcells o).seqId] at ho
    exact ho
  have hsame : ∀ o, (cells' o).seqId ≠ kInvalidRpcSequenceId → SameRpc (cells o) (cells' o) :=
    fun o ho => (hcells o).same (hid o ho)
  constructor
  . rw [hissued, hseq]
    exact h.ids
  . intro o ho
    rw [(hcells o).seqId]
    exact h.valid o ((hcells o).hasSeqId ho)
  . intro o ho
    rw [(hsame o ho).role]
    exact h.role o (hid o ho)
  . intro o ho
    rw [(hsame o ho).seqId, hissued]
    exact h.issued o (hid o ho)
  . intro hlen o o' ho heq
    rw [(hcells o).seqId, (hcells o').seqId] at heq
    rw [hissued] at hlen
    exact h.unique hlen o o' (hid o ho) heq
  . intro o ho
    exact (h.resolution o (hid o ho)).congr (hsame o ho)
  . intro serviceId msg m c call hmem
    have horigin := h.requests serviceId msg m c call (hout _ rfl hmem)
    exact horigin.congr ((hcells ⟨m, c⟩).same horigin.valid)
  . intro m c serviceId msg call serviceId' msg' call' hmem hmem'
    exact h.once m c _ _ _ _ _ _ (hout _ rfl hmem) (hout _ rfl hmem')
  . intro k hmem
    obtain ⟨o, hseqId, hvalid, hset⟩ := h.canceled k (hout _ rfl hmem)
    have hview := ((hcells o).same (by rw [hseqId]; exact hvalid)).view
    refine ⟨o, ?_, hvalid, ?_⟩
    . rw [(hcells o).seqId, hseqId]
    . unfold Cell.hasValueOrError at hset ⊢
      rw [hview]
      exact hset

end Links

-- the link while interaction `s.own` runs
def LinksIn (env : Env V) (got : List (RspMsgHeader × Bytes)) (others : Nat → CellId → Cell V)
    (start : UInt32) (s : St V) : Prop :=
  Links env got start (world others s) s.sh

namespace LinksIn

variable {env : Env V} {got : List (RspMsgHeader × Bytes)} {others : Nat → CellId → Cell V}
variable {start : UInt32} {s s' : St V}

theorem world_own (others : Nat → CellId → Cell V) (s : St V) (c : CellId)
    : world others s ⟨s.own, c⟩ = s.it.cells c := by
  simp [world]

theorem congr (h : LinksIn env got others start s) (hown : s'.own = s.own)
    (hcells : ∀ c, KeepsRpc (s.it.cells c) (s'.it.cells c))
    (hissued : s'.sh.issued = s.sh.issued) (hseq : s'.sh.sequenceId = s.sh.sequenceId)
    (hout : ∀ o : Out V, o.isLinked = true → o ∈ s'.sh.out → o ∈ s.sh.out)
    : LinksIn env got others start s' := by
  apply Links.congr h _ hissued hseq hout
  intro o
  unfold world
  rw [hown]
  split
  . exact hcells o.2
  . exact KeepsRpc.refl _

theorem of_it (h : LinksIn env got others start s) (hown : s'.own = s.own)
    (hcells : s'.it.cells = s.it.cells) (hissued : s'.sh.issued = s.sh.issued)
    (hseq : s'.sh.sequenceId = s.sh.sequenceId)
    (hout : ∀ o : Out V, o.isLinked = true → o ∈ s'.sh.out → o ∈ s.sh.out)
    : LinksIn env got others start s' := by
  apply h.congr hown _ hissued hseq hout
  intro c
  rw [hcells]
  exact KeepsRpc.refl _

-- one cell is exchanged
theorem setCell (h : LinksIn env got others start s) {c : CellId} {o : Cell V}
    (hkept : KeepsRpc (s.it.cells c) o)
    : LinksIn env got others start (s.setCell c o) := by
  apply h.congr
  . rfl
  . intro c'
    by_cases hcc : c' = c
    . subst hcc
      simp only [St.setCell, Function.update_self]
      exact hkept
    . simp only [St.setCell, ne_eq, hcc, not_false_eq_true, Function.update_of_ne]
      exact KeepsRpc.refl _
  . rfl
  . rfl
  . intros
    assumption

theorem addCell (h : LinksIn env got others start s) (hwf : WellFormed s) {o : Cell V}
    (hid : o.seqId = kInvalidRpcSequenceId) (hnone : o.hasSeqId = false)
    : LinksIn env got others start (s.addCell o) := by
  have hfresh := hwf.cellFresh s.it.cellCount (Nat.le_refl _)
  have hset : LinksIn env got others start (s.setCell s.it.cellCount o) := by
    apply h.setCell
    rw [hfresh]
    constructor
    . exact hid
    . simp [hnone]
    . intro hvalid
      exact absurd rfl hvalid
  apply hset.of_it <;> first | rfl | (intros; assumption)

theorem record (h : LinksIn env got others start s) (e : Ev V)
    : LinksIn env got others start (s.record e) := by
  apply h.of_it <;> first | rfl | (intros; assumption)

theorem assign (h : LinksIn env got others start s) {c : CellId} {o : Outcome V}
    (hc : (s.it.cells c).seqId ≠ kInvalidRpcSequenceId
      → (s.it.cells c).hasValueOrError = false
        ∧ Resolution env got
          { s.it.cells c with value := o.view.value, status := o.view.failedReason })
    : LinksIn env got others start (s.assign c o) := by
  by_cases hid : (s.it.cells c).seqId = kInvalidRpcSequenceId
  . have hset : ∀ o' : Cell V, o'.seqId = (s.it.cells c).seqId
        → o'.hasSeqId = (s.it.cells c).hasSeqId
        → LinksIn env got others start (s.setCell c o') := by
      intro o' hseqId hhas
      apply h.setCell
      constructor
      . exact hseqId
      . rw [hhas]
        exact id
      . intro hvalid
        exact absurd hid hvalid
    cases o with
    | value v => exact (hset { s.it.cells c with value := some v } rfl rfl).record _
    | error reason => exact (hset { s.it.cells c with status := reason } rfl rfl).record _
  . obtain ⟨hempty, hresolution⟩ := hc hid
    obtain ⟨hnone, hsucceeded⟩ := (s.it.cells c).hasValueOrError_eq_false.mp hempty
    have hassigned : (s.assign c o).it.cells c
        = { s.it.cells c with value := o.view.value, status := o.view.failedReason } := by
      cases o <;> simp [St.assign, St.record, St.setCell, Outcome.view, hnone, hsucceeded]
    have hother : ∀ c', c' ≠ c → (s.assign c o).it.cells c' = s.it.cells c' := by
      intro c' hne
      cases o <;> simp [St.assign, St.record, St.setCell, hne]
    have hown : (s.assign c o).own = s.own := by
      cases o <;> rfl
    have hsh : (s.assign c o).sh = s.sh := by
      cases o <;> rfl
    have hworld : ∀ x, world others (s.assign c o) x = world others s x
        ∨ x = ⟨s.own, c⟩ := by
      intro x
      unfold world
      rw [hown]
      by_cases hm : x.1 = s.own
      . by_cases hcc : x.2 = c
        . exact Or.inr (Prod.ext hm hcc)
        . simp [hm, hother x.2 hcc]
      . simp [hm]
    have hself : world others (s.assign c o) ⟨s.own, c⟩
        = { world others s ⟨s.own, c⟩ with
            value := o.view.value
            status := o.view.failedReason } := by
      have hnow := world_own others (s.assign c o) c
      rw [hown] at hnow
      rw [hnow, hassigned, world_own]
    have hkept : ∀ x, (world others (s.assign c o) x).seqId = (world others s x).seqId
        ∧ (world others (s.assign c o) x).role = (world others s x).role
        ∧ (world others (s.assign c o) x).type = (world others s x).type
        ∧ (world others (s.assign c o) x).hasSeqId = (world others s x).hasSeqId := by
      intro x
      cases hworld x with
      | inl hsame => simp [hsame]
      | inr heq =>
        rw [heq, hself]
        exact ⟨rfl, rfl, rfl, rfl⟩
    constructor
    . rw [hsh]
      exact h.ids
    . intro x hx
      rw [(hkept x).2.2.2] at hx
      rw [(hkept x).1]
      exact h.valid x hx
    . intro x hx
      rw [(hkept x).1] at hx
      rw [(hkept x).2.1]
      exact h.role x hx
    . intro x hx
      rw [(hkept x).1] at hx ⊢
      rw [hsh]
      exact h.issued x hx
    . intro hlen x x' hx heq
      rw [(hkept x).1] at hx heq
      rw [(hkept x').1] at heq
      rw [hsh] at hlen
      exact h.unique hlen x x' hx heq
    . intro x hx
      cases hworld x with
      | inl hsame =>
        rw [hsame] at hx ⊢
        exact h.resolution x hx
      | inr heq =>
        rw [heq, hself, world_own]
        exact hresolution
    . intro serviceId msg m c' call hmem
      rw [hsh] at hmem
      have horigin := h.requests serviceId msg m c' call hmem
      obtain ⟨hseqId, _, htype, _⟩ := hkept ⟨m, c'⟩
      refine ⟨?_, ?_, ?_⟩
      . rw [hseqId]
        exact horigin.valid
      . rw [htype]
        exact horigin.type
      . rw [hseqId]
        exact horigin.bytes
    . rw [hsh]
      exact h.once
    . intro k hmem
      rw [hsh] at hmem
      obtain ⟨x, hseqId, hvalid, hset⟩ := h.canceled k hmem
      refine ⟨x, ?_, hvalid, ?_⟩
      . rw [(hkept x).1, hseqId]
      . cases hworld x with
        | inl hsame =>
          rw [hsame]
          exact hset
        | inr heq =>
          rw [heq, world_own, hempty] at hset
          simp at hset

theorem register (h : LinksIn env got others start s) {c : CellId}
    (hnew : s.it.cells c = { type := (s.it.cells c).type, kind := .cell })
    : LinksIn env got others start (s.register c) := by
  have hvalid : s.nextSeqId ≠ kInvalidRpcSequenceId := RpcSequenceId.get_valid _
  have hself : world others (s.register c) ⟨s.own, c⟩
      = { s.it.cells c with hasSeqId := true, seqId := s.nextSeqId } := by
    have hown : (s.register c).own = s.own := rfl
    rw [← hown, world_own]
    simp [St.register, St.setSeqId, St.setCell, St.setRspHandler, St.next]
  have hother : ∀ x, x ≠ ⟨s.own, c⟩ → world others (s.register c) x = world others s x := by
    intro x hx
    unfold world
    by_cases hm : x.1 = s.own
    . have hcc : x.2 ≠ c := fun hcc => hx (Prod.ext hm hcc)
      have hown : (s.register c).own = s.own := rfl
      simp [hown, hm, St.register, St.setSeqId, St.setCell, St.setRspHandler, St.next, hcc]
    . have hown : (s.register c).own = s.own := rfl
      simp [hown, hm]
  have hinvalid : (world others s ⟨s.own, c⟩).seqId = kInvalidRpcSequenceId := by
    rw [world_own, hnew]
    rfl
  have hissued : (s.register c).sh.issued = s.nextSeqId :: s.sh.issued := rfl
  have hfresh : (s.register c).sh.issued.length < 4294967295 → s.nextSeqId ∉ s.sh.issued := by
    intro hlen
    rw [hissued, List.length_cons] at hlen
    exact (h.ids (by omega)).get_not_mem hlen
  constructor
  . intro hlen
    have hlen' := hlen
    rw [hissued, List.length_cons] at hlen'
    exact (h.ids (by omega)).get hlen'
  . intro x hx
    by_cases heq : x = ⟨s.own, c⟩
    . rw [heq, hself]
      exact hvalid
    . rw [hother x heq] at hx ⊢
      exact h.valid x hx
  . intro x hx
    by_cases heq : x = ⟨s.own, c⟩
    . rw [heq, hself, hnew]
      rfl
    . rw [hother x heq] at hx ⊢
      exact h.role x hx
  . intro x hx
    rw [hissued]
    by_cases heq : x = ⟨s.own, c⟩
    . rw [heq, hself]
      exact List.mem_cons_self
    . rw [hother x heq] at hx ⊢
      exact List.mem_cons_of_mem _ (h.issued x hx)
  . intro hlen x x' hx heq
    have hlen' := hlen
    rw [hissued, List.length_cons] at hlen'
    by_cases hxc : x = ⟨s.own, c⟩
    . by_cases hxc' : x' = ⟨s.own, c⟩
      . rw [hxc, hxc']
      . rw [hxc, hself, hother x' hxc'] at heq
        have hmem := h.issued x' (by rw [← heq]; exact hvalid)
        rw [← heq] at hmem
        exact absurd hmem (hfresh hlen)
    . by_cases hxc' : x' = ⟨s.own, c⟩
      . rw [hxc', hself, hother x hxc] at heq
        rw [hother x hxc] at hx
        have hmem := h.issued x hx
        rw [heq] at hmem
        exact absurd hmem (hfresh hlen)
      . rw [hother x hxc] at hx heq
        rw [hother x' hxc'] at heq
        exact h.unique (by omega) x x' hx heq
  . intro x hx
    by_cases heq : x = ⟨s.own, c⟩
    . rw [heq, hself, hnew]
      exact .empty rfl
    . rw [hother x heq] at hx ⊢
      exact h.resolution x hx
  . intro serviceId msg m c' call hmem
    have horigin := h.requests serviceId msg m c' call hmem
    have hne : (⟨m, c'⟩ : Nat × CellId) ≠ ⟨s.own, c⟩ := by
      intro heq
      have hid := horigin.valid
      rw [heq] at hid
      exact hid hinvalid
    rw [hother _ hne]
    exact horigin
  . exact h.once
  . intro k hmem
    obtain ⟨x, hseqId, hkvalid, hset⟩ := h.canceled k hmem
    have hne : x ≠ ⟨s.own, c⟩ := by
      intro heq
      rw [heq, hinvalid] at hseqId
      exact hkvalid hseqId.symm
    refine ⟨x, ?_, hkvalid, ?_⟩
    . rw [hother x hne, hseqId]
    . rw [hother x hne]
      exact hset

-- the request is the first one of its cell, which has had no id when the link held before
theorem request (h : LinksIn env got others start s) {c : CellId} {serviceId : ServiceId}
    {call : StubCall V} {pbuf : Bytes}
    (hcell : s.it.cells c
      = { type := call.rspType, kind := .cell, hasSeqId := true, seqId := (s.it.cells c).seqId })
    (hpbuf : ThriftEncoder.encode (env.codec call.reqType) call.req = some pbuf)
    (hvalid : (s.it.cells c).seqId ≠ kInvalidRpcSequenceId)
    (hfirst : ∀ serviceId msg call, .request serviceId msg s.own c call ∉ s.sh.out)
    : LinksIn env got others start (s.output (.request serviceId
        ((reqHeader call (s.it.cells c).seqId).toBytes ++ pbuf) s.own c call)) := by
  have hworld : world others (s.output (.request serviceId
      ((reqHeader call (s.it.cells c).seqId).toBytes ++ pbuf) s.own c call)) = world others s := rfl
  constructor
  . exact h.ids
  . exact h.valid
  . exact h.role
  . exact h.issued
  . exact h.unique
  . exact h.resolution
  . intro serviceId' msg m c' call' hmem
    rw [hworld]
    simp only [St.output, List.mem_append, List.mem_singleton, Out.request.injEq] at hmem
    cases hmem with
    | inl hbefore => exact h.requests serviceId' msg m c' call' hbefore
    | inr hnow =>
      obtain ⟨_, hmsg, hm, hc, hcall⟩ := hnow
      subst hm hc hcall hmsg
      rw [world_own]
      refine ⟨hvalid, ?_, pbuf, hpbuf, rfl⟩
      rw [hcell]
  . intro m c' serviceId1 msg1 call1 serviceId2 msg2 call2 hmem1 hmem2
    simp only [St.output, List.mem_append, List.mem_singleton, Out.request.injEq] at hmem1 hmem2
    cases hmem1 with
    | inl hbefore1 =>
      cases hmem2 with
      | inl hbefore2 => exact h.once m c' _ _ _ _ _ _ hbefore1 hbefore2
      | inr hnow2 =>
        rw [hnow2.2.2.1, hnow2.2.2.2.1] at hbefore1
        exact absurd hbefore1 (hfirst _ _ _)
    | inr hnow1 =>
      cases hmem2 with
      | inl hbefore2 =>
        rw [hnow1.2.2.1, hnow1.2.2.2.1] at hbefore2
        exact absurd hbefore2 (hfirst _ _ _)
      | inr hnow2 =>
        rw [hnow1.1, hnow1.2.1, hnow1.2.2.2.2, hnow2.1, hnow2.2.1, hnow2.2.2.2.2]
        exact ⟨rfl, rfl, rfl⟩
  . intro k hmem
    apply h.canceled k
    simpa [St.output] using hmem

theorem timer (h : LinksIn env got others start s) {o : Out V} (ho : o.isTimer = true)
    (hcell : ∀ k, o = .cancelTimer k → ∃ c, (s.it.cells c).seqId = k
      ∧ (s.it.cells c).hasSeqId = true ∧ (s.it.cells c).hasValueOrError = true)
    : LinksIn env got others start (s.output o) := by
  have hbefore : ∀ o', o' ≠ o → o' ∈ (s.output o).sh.out → o' ∈ s.sh.out := by
    intro o' hne hmem
    simp only [St.output, List.mem_append, List.mem_singleton, hne, or_false] at hmem
    exact hmem
  have hrequest : ∀ serviceId msg m c call, .request serviceId msg m c call ∈ (s.output o).sh.out
      → .request serviceId msg m c call ∈ s.sh.out := by
    intro serviceId msg m c call hmem
    apply hbefore _ _ hmem
    intro heq
    rw [← heq] at ho
    simp [Out.isTimer] at ho
  constructor
  . exact h.ids
  . exact h.valid
  . exact h.role
  . exact h.issued
  . exact h.unique
  . exact h.resolution
  . intro serviceId msg m c call hmem
    exact h.requests serviceId msg m c call (hrequest _ _ _ _ _ hmem)
  . intro m c serviceId msg call serviceId' msg' call' hmem hmem'
    exact h.once m c _ _ _ _ _ _ (hrequest _ _ _ _ _ hmem) (hrequest _ _ _ _ _ hmem')
  . intro k hmem
    by_cases heq : .cancelTimer k = o
    . obtain ⟨c, hseqId, hhas, hset⟩ := hcell k heq.symm
      have hworld : world others (s.output o) ⟨s.own, c⟩ = s.it.cells c := world_own others s c
      have hvalid := h.valid ⟨s.own, c⟩
      rw [world_own, hseqId] at hvalid
      refine ⟨⟨s.own, c⟩, ?_, hvalid hhas, ?_⟩
      . rw [hworld, hseqId]
      . rw [hworld]
        exact hset
    . exact h.canceled k (hbefore _ heq hmem)

theorem act {A : Updatable → Prop} (h : LinksIn env got others start s) (hwf : WellFormed s)
    (hact : Act env A (LinksIn env got others start) s s')
    : LinksIn env got others start s' := by
  have hknows := hact.knows
  cases hact.effect with
  | newCell type kind _ _ =>
    have hnew : LinksIn env got others start (s.addCell { type, kind }) := h.addCell hwf rfl rfl
    apply hnew.of_it <;> first | rfl | (intros; assumption)
  | failedCell type reason _ =>
    have hnew : LinksIn env got others start
        (s.addCell { type, kind := .cell, status := reason }) := h.addCell hwf rfl rfl
    apply hnew.of_it <;> first | rfl | (intros; assumption)
  | drop c _ _ _ _ _ _ _ =>
    have hpop : LinksIn env got others start (s.popFrame.removeRspHandlerOf c) := by
      unfold St.removeRspHandlerOf
      split <;> apply h.of_it <;> first | rfl | (intros; assumption)
    have hfree : LinksIn env got others start ((s.popFrame.removeRspHandlerOf c).setCell c
        { (s.popFrame.removeRspHandlerOf c).it.cells c with alive := false }) :=
      hpop.setCell ⟨rfl, id, fun _ => ⟨rfl, rfl, rfl, rfl⟩⟩
    exact hfree.record _
  | subscribe c u _ _ _ _ _ =>
    have hset : LinksIn env got others start (s.setCell c
        { s.it.cells c with updatables := (s.it.cells c).updatables ++ [u] }) :=
      h.setCell ⟨rfl, id, fun _ => ⟨rfl, rfl, rfl, rfl⟩⟩
    apply hset.of_it <;> first | rfl | (intros; assumption)
  | setData t data data' _ _ hkind _ =>
    apply h.setCell
    refine ⟨rfl, id, fun _ => ⟨rfl, ?_, rfl, rfl⟩⟩
    simp [Cell.role, hkind, CellKind.role]
  | newHook t data halive hkind _ =>
    have hlt := hwf.lt_of_alive halive
    have hne : t ≠ s.it.cellCount := by lia
    have hnew : LinksIn env got others start
        (s.addCell { type := env.boolType, kind := .timeoutHook }) := h.addCell hwf rfl rfl
    have hcell : (s.addCell { type := env.boolType, kind := .timeoutHook }).it.cells t
        = s.it.cells t := by
      simp [St.addCell, hne]
    apply hnew.setCell
    refine ⟨rfl, id, fun _ => ⟨rfl, ?_, rfl, rfl⟩⟩
    simp [Cell.role, hcell, hkind, CellKind.role]
  | register c _ _ _ hnew _ _ => exact h.register hnew
  | request c serviceId call pbuf _ _ hcell _ hpbuf =>
    cases hknows _ rfl with
    | request _ _ _ _ s0 h0 hown hout hnew hvalid =>
      apply h.request hcell hpbuf hvalid
      intro serviceId' msg call' hmem
      rw [← hown, ← hout] at hmem
      have horigin := (h0.requests serviceId' msg s0.own c call' hmem).valid
      rw [world_own, hnew] at horigin
      exact absurd rfl horigin
  | timer o ho =>
    apply h.timer ho
    intro k heq
    subst heq
    cases hknows _ rfl with
    | cancelTimer c hid hset => exact ⟨c, rfl, hid, hset⟩
  | _ => apply h.of_it <;> first | rfl | (intros; assumption)

theorem of_frees (h : LinksIn env got others start s) (hfrees : Frees s s')
    : LinksIn env got others start s' := by
  apply h.congr hfrees.own
  . intro c
    rw [hfrees.cell c]
    exact ⟨rfl, id, fun _ => ⟨rfl, rfl, rfl, rfl⟩⟩
  . rw [hfrees.shared]
  . rw [hfrees.shared]
  . intro o _ hmem
    rw [hfrees.shared] at hmem
    exact hmem

theorem unregister (h : LinksIn env got others start s) (c : CellId) (k : RpcSequenceIdT)
    : LinksIn env got others start (s.unregister c k) := by
  have hset : LinksIn env got others start
      (s.setCell c { s.it.cells c with hasSeqId := false }) := by
    apply h.setCell
    constructor
    . rfl
    . simp
    . exact fun _ => ⟨rfl, rfl, rfl, rfl⟩
  apply hset.of_it <;> first | rfl | (intros; assumption)

theorem respond (h : LinksIn env got others start s) (senderId : ServiceId) (msg : Bytes)
    : LinksIn env got others start (s.output (.response senderId msg s.own)) := by
  apply h.of_it <;> try rfl
  intro o ho hmem
  simp only [St.output, List.mem_append, List.mem_singleton] at hmem
  cases hmem with
  | inl hbefore => exact hbefore
  | inr hnow =>
    rw [hnow] at ho
    simp [Out.isLinked] at ho

theorem keeps (env : Env V) (A : Updatable → Prop) (got : List (RspMsgHeader × Bytes))
    (others : Nat → CellId → Cell V) (start : UInt32)
    : Keeps env A (LinksIn env got others start) (fun _ _ => True) where
  effect s s' h hact := h.inv.act h.wellFormed hact
  assign s c o h _ _ hrole := by
    apply h.inv.assign
    intro hid
    have hcell := h.inv.role ⟨s.own, c⟩
    rw [world_own] at hcell
    exact absurd (hcell hid) hrole
  notify s c u h _ _ _ := h.inv.record _
  fault _ _ _ _ _ _ := trivial
  unique _ _ _ := trivial

theorem keepsRelease (env : Env V) (A : Updatable → Prop) (got : List (RspMsgHeader × Bytes))
    (others : Nat → CellId → Cell V) (start : UInt32)
    : KeepsRelease env A (LinksIn env got others start) (fun _ => LinksIn env got others start)
    where
  ranAction s a h _ _ := h.inv.record _
  finished s a h _ _ := h.inv.record _
  response s a senderId rspHeader c v buf h _ _ _ _ := h.inv.respond senderId _
  release s s' a h _ _ hfrees := by
    apply (h.inv.of_frees hfrees).of_it <;> first | rfl | (intros; assumption)

theorem keepsHandlers (cfg : Config V) (got : List (RspMsgHeader × Bytes))
    (others : Nat → CellId → Cell V) (start : UInt32)
    : KeepsHandlers cfg (LinksIn cfg.env got others start) (fun _ _ => True) where
  effect s s' h heffect := by
    cases heffect with
    | setResult c _ _ =>
      have hset : LinksIn cfg.env got others start
          (s.setCell c { s.it.cells c with hasContext := true }) :=
        h.inv.setCell ⟨rfl, id, fun _ => ⟨rfl, rfl, rfl, rfl⟩⟩
      apply hset.of_it <;> first | rfl | (intros; assumption)
    | close bind c _ _ _ _ _ _ _ =>
      have hset : LinksIn cfg.env got others start (s.setCell c
          { s.it.cells c with
            updatables := (s.it.cells c).updatables ++ [.action s.it.actionCount] }) :=
        h.inv.setCell ⟨rfl, id, fun _ => ⟨rfl, rfl, rfl, rfl⟩⟩
      apply hset.of_it <;> first | rfl | (intros; assumption)
    | newCell type status => exact h.inv.addCell h.wellFormed rfl rfl
    | setNewCell c v _ hcell =>
      apply h.inv.assign
      intro hid
      rw [hcell] at hid
      exact absurd rfl hid
    | delete _ _ hfrees => exact h.inv.of_frees hfrees
    | failure senderId _ _ _ _ _ _ => exact h.inv.respond senderId _
    | response senderId _ _ _ _ _ _ _ _ _ _ _ => exact h.inv.respond senderId _
    | _ => apply h.inv.of_it <;> first | rfl | (intros; assumption)
  fault _ _ _ _ _ _ := trivial

end LinksIn

def Event.response (cfg : Config V) : Event V → Option (RspMsgHeader × Bytes)
  | .interaction _ _ => none
  | .msg msgId bytes _ => if msgId = cfg.responseMsgId then RspMsgHeader.ofBytes bytes else none

theorem Event.response_eq_some {cfg : Config V} {e : Event V} {r : RspMsgHeader × Bytes}
    (h : e.response cfg = some r)
    : ∃ bytes senderId, e = .msg cfg.responseMsgId bytes senderId
        ∧ RspMsgHeader.ofBytes bytes = some r := by
  cases e with
  | interaction _ _ => simp [response] at h
  | msg msgId bytes senderId =>
    by_cases hmsgId : msgId = cfg.responseMsgId
    . simp only [response, hmsgId, ↓reduceIte] at h
      subst hmsgId
      exact ⟨bytes, senderId, rfl, h⟩
    . simp [response, hmsgId] at h

section Node

variable {cfg : Config V} {n : Nat} {start : UInt32} {got : List (RspMsgHeader × Bytes)}
variable {nd : Node V} {m : Nat} {it : Interaction V}

theorem Links.linksIn (hl : Links cfg.env got start nd.cells nd.sh) (hit : nd.its[m]? = some it)
    : LinksIn cfg.env got nd.others start (nd.st m it) := by
  unfold LinksIn
  rw [world_st hit]
  exact hl

theorem LinksIn.withSt {s : St V} (hl : LinksIn cfg.env got nd.others start s)
    (hit : nd.its[m]? = some it) (hown : s.own = m)
    : Links cfg.env got start (nd.withSt s).cells (nd.withSt s).sh := by
  rw [Node.cells_withSt hit hown]
  exact hl

theorem Links.beginNew (hl : Links cfg.env got start nd.cells nd.sh)
    : Links cfg.env got start nd.startNew.cells nd.startNew.sh := by
  have hcells : nd.startNew.cells = nd.cells := nd.start.cells_newInteraction
  rw [hcells]
  exact hl

theorem Links.dispatch (h : NodeInv none start nd) (hl : Links cfg.env got start nd.cells nd.sh)
    (e : Event V) (he : ∀ r, e.response cfg = some r → r ∈ got)
    : Dispatch cfg n nd e (fun nd' => Links cfg.env got start nd'.cells nd'.sh)
        (fun nd' => Links cfg.env got start nd'.cells nd'.sh) (fun _ _ => True) := by
  apply Dispatch.of_keeps (I := fun nd1 _ => LinksIn cfg.env got nd1.others start)
    (fun _ _ => LinksIn.keeps cfg.env _ _ _ _) (fun _ _ => LinksIn.keepsRelease cfg.env _ _ _ _)
    (fun _ _ => LinksIn.keepsHandlers cfg _ _ _) h hl hl.beginNew
  . intro nd1 m it hl1 hit
    exact hl1.linksIn hit
  . intro nd1 m it s _ hit hown hs
    exact hs.withSt hit hown
  . intro nd1 m s c k hs _
    exact hs.unregister c k
  . intro msg senderId rspHeader payload m it c hmsg hheader hit hkey hempty hs
    apply hs.assign
    intro _
    refine ⟨hempty, .answered rspHeader payload ?_ ?_ rfl⟩
    . apply he
      simp [hmsg, Event.response, hheader]
    . exact (Cell.key_eq_some.mp hkey).2.2.symm
  . intro m s c hempty hs
    apply hs.assign
    intro _
    exact ⟨hempty, .timeout rfl⟩

theorem Links.init (env : Env V) (got : List (RspMsgHeader × Bytes)) (start : UInt32)
    (net : Nat → SendOutcome)
    : Links env got start (Node.init start net : Node V).cells (Node.init start net : Node V).sh := by
  have hcells : (Node.init start net : Node V).cells = fun _ => .unallocated := by
    funext o
    simp [Node.cells, Node.init]
  rw [hcells]
  constructor
  case ids => exact fun _ => RpcSequenceId.Issued.nil start
  all_goals simp [Node.init, Cell.unallocated, kInvalidRpcSequenceId]

theorem Links.runEvents (h : NodeInv none start nd) (hl : Links cfg.env got start nd.cells nd.sh)
    (es : List (Event V)) (hes : ∀ e ∈ es, ∀ r, e.response cfg = some r → r ∈ got)
    : wp (runEvents cfg n es)
        (fun _ nd' => NodeInv none start nd' ∧ Links cfg.env got start nd'.cells nd'.sh)
        (fun _ _ => True) nd :=
  Dispatch.runEvents_of (fun _ e he h hl => hl.dispatch h e (hes e he)) h hl

end Node
end MsgRpc
