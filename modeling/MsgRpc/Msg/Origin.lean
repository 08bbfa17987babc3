import MsgRpc.Msg.Dispatch

/-!
This module contains the proof that all a process handles has come in, and that it does not take back
what it has handed out, also when the handling of a message ends early.
-/

namespace MsgRpc

open StateProg

structure Request where
  senderId : ServiceId
  reqHeader : ReqMsgHeader
  msg : Bytes

def Ev.request : Ev V → Option Request
  | .received senderId reqHeader msg => some ⟨senderId, reqHeader, msg⟩
  | _ => none

def Interaction.requests (it : Interaction V) : List Request := it.log.filterMap Ev.request

theorem Interaction.requests_eq (it : Interaction V)
    : it.requests = it.calls.filterMap Ev.request := by
  unfold requests calls
  rw [List.filterMap_filter]
  apply List.filterMap_congr
  intro e _
  cases e <;> rfl

theorem Interaction.mem_requests {it : Interaction V} {r : Request}
    : r ∈ it.requests ↔ .received r.senderId r.reqHeader r.msg ∈ it.log := by
  unfold requests
  rw [List.mem_filterMap]
  constructor
  . rintro ⟨e, he, hr⟩
    cases e <;> simp [Ev.request] at hr
    rw [← hr]
    exact he
  . intro he
    exact ⟨_, he, rfl⟩

/--
Interaction `m` has been started for the requests `rs`, `out` has been handed out before.
-/
structure Traced (m : Nat) (rs : List Request) (out : List (Out V)) (s : St V) : Prop where
  own : s.own = m
  requests : s.it.requests = rs
  out : out <+: s.sh.out

namespace Traced

variable {m : Nat} {rs : List Request} {out : List (Out V)} {s s' : St V}

theorem later (h : Traced m rs out s) (hown : s'.own = s.own) (hcalls : s'.it.calls = s.it.calls)
    (hout : s.sh.out <+: s'.sh.out)
    : Traced m rs out s' where
  own := by rw [hown, h.own]
  requests := by rw [Interaction.requests_eq, hcalls, ← Interaction.requests_eq, h.requests]
  out := h.out.trans hout

theorem of_extends (h : Traced m rs out s) (hext : Extends s s') : Traced m rs out s' := by
  apply h.later hext.own _ hext.out
  rw [Interaction.calls_eq, Interaction.calls_eq, hext.history]

theorem halts (h : Traced m rs out s) (hhalts : Halts s s') : Traced m rs out s' := by
  apply h.later hhalts.own hhalts.calls
  rw [hhalts.out]

theorem record (h : Traced m rs out s) {e : Ev V} (he : e.isCall = false)
    : Traced m rs out (s.record e) := by
  have hcalls : (s.record e).it.calls = s.it.calls := by
    simp [Interaction.calls, St.record, he]
  exact h.later rfl hcalls (List.prefix_refl _)

theorem assign (h : Traced m rs out s) (c : CellId) (o : Outcome V)
    : Traced m rs out (s.assign c o) := by
  have hcalls : (s.assign c o).it.calls = s.it.calls := by
    cases o <;> simp [St.assign, St.record, St.setCell, Interaction.calls, Ev.isCall]
  apply h.later _ hcalls
  . cases o <;> exact List.prefix_refl _
  . cases o <;> rfl

theorem keeps (env : Env V) (A : Updatable → Prop) (m : Nat) (rs : List Request)
    (out : List (Out V))
    : Keeps env A (Traced m rs out) (fun _ s => Traced m rs out s) where
  effect s s' h hact := h.inv.of_extends (Extends.effect h.wellFormed hact.effect)
  assign s c o h _ _ _ := h.inv.assign c o
  notify s c u h _ _ _ := h.inv.record rfl
  fault s s' _ h _ hbreaks := h.inv.halts hbreaks.halts
  unique s h _ := h.inv.later rfl rfl (List.prefix_refl _)

theorem updates (env : Env V) (A : Updatable → Prop) (m : Nat) (rs : List Request)
    (out : List (Out V)) (n : Nat)
    : Updates A (Traced m rs out) (fun _ => Traced m rs out) (fun _ s => Traced m rs out s)
        (update env n) := by
  have hk := keeps env A m rs out
  have hr : KeepsRelease env A (Traced m rs out) (fun _ => Traced m rs out) :=
    { ranAction := fun _ _ h _ _ => h.inv.record rfl
      finished := fun _ _ h _ _ => h.inv.record rfl
      response := fun _ _ _ _ _ _ _ h _ _ _ _ => h.inv.later rfl rfl (List.prefix_append _ _)
      release := fun _ s' _ h _ _ hfrees =>
        (h.inv.of_extends (Extends.frees hfrees)).of_extends (Extends.release s') }
  apply hk.update hk.returns
  apply hr.keepsFinal hk
  intro s s' _ h hdouble
  exact h.inv.halts hdouble.halts

theorem handlerEffect {cfg : Config V} (h : Traced m rs out s) (heffect : HandlerEffect cfg s s')
    (hrequests : s'.it.requests = s.it.requests)
    : Traced m rs out s' where
  own := by rw [heffect.stops.own, h.own]
  requests := by rw [hrequests, h.requests]
  out := by
    apply h.out.trans
    cases heffect with
    | setNewCell c v _ _ => exact List.prefix_refl _
    | delete _ _ hfrees => exact (Extends.frees hfrees).out
    | failure _ _ _ _ _ _ _ => exact List.prefix_append _ _
    | response _ _ _ _ _ _ _ _ _ _ _ _ => exact List.prefix_append _ _
    | _ => exact List.prefix_refl _

theorem keepsClosing (cfg : Config V) (m : Nat) (rs : List Request) (out : List (Out V))
    : KeepsClosing cfg (Traced m rs out) (fun _ s => Traced m rs out s) where
  effect s s' h heffect hcalls := by
    apply h.inv.handlerEffect heffect
    rw [Interaction.requests_eq, hcalls, ← Interaction.requests_eq]
  fault s s' _ h _ hbreaks := h.inv.halts hbreaks.halts

theorem keepsHandlers (cfg : Config V) (m : Nat) (r : Request) (out : List (Out V))
    : KeepsHandlers cfg (Traced m [r] out) (fun _ s => Traced m [r] out s) where
  effect s s' h heffect := by
    apply h.inv.handlerEffect heffect
    cases heffect with
    | received senderId reqHeader msg hopen =>
      have hnone : s.it.requests = [] := by
        simp [Interaction.requests_eq, Interaction.calls_eq, hopen.history]
      simp [h.inv.requests] at hnone
    | invoked _ _ _ _ _ _ _ _ => simp [Interaction.requests, St.record, Ev.request]
    | called _ _ _ _ _ _ _ _ _ _ => simp [Interaction.requests, St.record, Ev.request]
    | setNewCell c v _ _ =>
      simp [Interaction.requests, St.assign, St.record, St.setCell, Ev.request]
    | close bind c _ _ _ _ _ _ _ =>
      have hlog : (s.close bind c).it.log = s.it.log
          ++ [.closed s.it.actionCount c true, .registered c (.action s.it.actionCount)] := by
        simp [St.close, St.setActionCell, St.setAction, St.track, St.pushUpdatable, St.setCell,
          St.record, St.addFinalAction, St.addAction]
      simp [Interaction.requests, hlog, Ev.request]
    | closeLate bind c _ _ _ _ _ =>
      simp [Interaction.requests, St.pushFrame, St.addFinalAction, St.record, St.addAction,
        Ev.request]
    | delete _ _ hfrees =>
      rw [Interaction.requests_eq, Interaction.calls_eq, (Extends.frees hfrees).history,
        ← Interaction.calls_eq, ← Interaction.requests_eq]
    | _ => rfl
  fault s s' _ h _ hbreaks := h.inv.halts hbreaks.halts

end Traced

def Event.request (cfg : Config V) : Event V → Option Request
  | .interaction _ _ => none
  | .msg msgId bytes senderId =>
    if msgId = cfg.requestMsgId then
      (ReqMsgHeader.ofBytes bytes).map fun x => ⟨senderId, x.1, x.2⟩
    else
      none

theorem Event.request_eq_some {cfg : Config V} {e : Event V} {r : Request}
    (h : e.request cfg = some r)
    : ∃ bytes, e = .msg cfg.requestMsgId bytes r.senderId
        ∧ ReqMsgHeader.ofBytes bytes = some ⟨r.reqHeader, r.msg⟩ := by
  cases e with
  | interaction _ _ => simp [request] at h
  | msg msgId bytes senderId =>
    by_cases hmsgId : msgId = cfg.requestMsgId
    . simp only [request, hmsgId, ↓reduceIte, Option.map_eq_some_iff] at h
      obtain ⟨x, hbytes, hr⟩ := h
      subst hmsgId hr
      exact ⟨bytes, rfl, hbytes⟩
    . simp [request, hmsgId] at h

/--
All requests taken in so far satisfy `R`, `out` has been handed out before.
-/
structure NodeTraced (R : Request → Prop) (out : List (Out V)) (nd : Node V) : Prop where
  requests : ∀ (m : Nat) it, nd.its[m]? = some it → ∀ r ∈ it.requests, R r
  out : out <+: nd.sh.out

section Node

variable {cfg : Config V} {n : Nat} {start : UInt32} {R : Request → Prop} {out : List (Out V)}
variable {nd : Node V} {m : Nat} {it : Interaction V}

theorem NodeTraced.beginNew (h : NodeTraced R out nd) : NodeTraced R out nd.startNew where
  requests := by
    intro m it hit
    simp only [Node.startNew, List.getElem?_append] at hit
    split at hit
    . exact h.requests m it hit
    . have heq : it = {} := by
        have := List.mem_of_getElem? hit
        simpa using this
      subst heq
      simp [Interaction.requests]
  out := h.out

theorem NodeTraced.traced (h : NodeTraced R out nd) (m : Nat) (it : Interaction V)
    : Traced m it.requests out (nd.st m it) :=
  ⟨rfl, rfl, h.out⟩

theorem NodeTraced.withSt (h : NodeTraced R out nd) (hit : nd.its[m]? = some it) {rs : List Request}
    (hrs : ∀ r ∈ rs, R r) {s : St V} (hs : Traced m rs out s)
    : NodeTraced R out (nd.withSt s) where
  requests := by
    intro m' it' hit'
    rw [Node.getElem?_withSt hit hs.own] at hit'
    split at hit'
    . simp only [Option.some.injEq] at hit'
      rw [← hit', hs.requests]
      exact hrs
    . exact h.requests m' it' hit'
  out := hs.out

theorem NodeTraced.run (h : NodeTraced R out nd) (hit : nd.its[m]? = some it) {rs : List Request}
    (hrs : ∀ r ∈ rs, R r) {s0 s1 : St V} {x : M V α} {Q : α → St V → Prop}
    (hx : wp x (fun r s => Sound (fun _ => True) (Traced m rs out) s ∧ Grows s0 s ∧ Q r s)
      (fun _ s => Traced m rs out s) s1)
    : wp x (fun _ s => NodeTraced R out (nd.withSt s)) (fun _ s => NodeTraced R out (nd.withSt s))
        s1 := by
  apply wp_mono hx
  . rintro _ s ⟨hsound, _⟩
    exact h.withSt hit hrs hsound.inv
  . intro f s hs
    exact h.withSt hit hrs hs

theorem NodeTraced.dispatch (h : NodeInv none start nd) (ht : NodeTraced R out nd) (e : Event V)
    (he : ∀ r, e.request cfg = some r → R r)
    : Dispatch cfg n nd e (NodeTraced R out) (NodeTraced R out)
        (fun _ nd' => NodeTraced R out nd') where
  ignored := ⟨ht.requests, ht.out⟩
  rejected _ := ⟨ht.requests, ht.out⟩
  interaction := by
    intro si finalAction _
    have hit : nd.startNew.its[nd.its.length]? = some {} := by simp [Node.startNew]
    have hs : Traced nd.its.length [] out (nd.startNew.st nd.its.length {}) :=
      ht.beginNew.traced nd.its.length {}
    apply ht.beginNew.run hit (fun _ hr => absurd hr List.not_mem_nil)
    exact Handles.startInteraction_closing (Traced.keepsClosing cfg _ _ _)
      (Traced.keeps cfg.env _ _ _ _) (Traced.updates cfg.env _ _ _ _ n)
      ⟨h.beginNew.wellFormed _ _ hit, Fenced.all, hs⟩ (unowned_new _ _)
      (unclosed_new (h.responses _ (Nat.le_refl _))) si finalAction
  request := by
    intro msg senderId reqHeader payload hmsg hheader
    have hit : nd.startNew.its[nd.its.length]? = some {} := by simp [Node.startNew]
    have hwf := h.beginNew.wellFormed _ _ hit
    have hR : ∀ r ∈ [(⟨senderId, reqHeader, payload⟩ : Request)], R r := by
      intro r hr
      rw [List.mem_singleton] at hr
      apply he
      simp [hmsg, Event.request, hheader, hr]
    have hs : Traced nd.its.length [] out (nd.startNew.st nd.its.length {}) :=
      ht.beginNew.traced nd.its.length {}
    have hfirst : Traced nd.its.length [⟨senderId, reqHeader, payload⟩] out
        ((nd.startNew.st nd.its.length {}).record (.received senderId reqHeader payload)) :=
      ⟨rfl, rfl, hs.out⟩
    have hrecord := hwf.record (.received senderId reqHeader payload)
    have hunowned : (nd.startNew.st nd.its.length {}).Unowned := unowned_new _ _
    have hunclosed : (nd.startNew.st nd.its.length {}).Unclosed [] :=
      unclosed_new (h.responses _ (Nat.le_refl _))
    apply ht.beginNew.run hit hR
    apply Handles.onRpcReq_from (Traced.keepsHandlers cfg _ _ _) (Traced.keeps cfg.env _ _ _ _)
      (Traced.updates cfg.env _ _ _ _ n) (fun s s' _ hs hdouble => hs.inv.halts hdouble.halts)
      hunowned hunclosed
    . intro _
      exact ⟨hrecord, Fenced.all, hfirst⟩
    . intro method req _ _
      exact ⟨hrecord.record _, Fenced.all, ⟨rfl, rfl, hs.out⟩⟩
  response := by
    intro msg senderId rspHeader payload m it c _ _ hit hkey
    have hbegin := h.begin false
    have ht' : NodeTraced R out nd.start := ⟨ht.requests, ht.out⟩
    have hs := ht'.traced m it
    have hsound : Sound (fun _ => True) (Traced m it.requests out) (nd.start.st m it) :=
      ⟨hbegin.wellFormed m it hit, Fenced.all, hs⟩
    apply ht'.run hit (ht.requests m it hit)
    exact Handles.notify (Traced.keeps cfg.env _ _ _ _) (Traced.updates cfg.env _ _ _ _ n) hsound
      (Cell.key_eq_some.mp hkey).1 (hbegin.isEmpty hit hkey) (hs.assign c _)
  responded _ hnd := hnd
  unregistered := by
    intro _ nd1 k m it c h1 ht1 hit _
    apply ht1.withSt hit (ht1.requests m it hit)
    exact (ht1.traced m it).later rfl rfl (List.prefix_refl _)
  timeout := by
    intro msg senderId m it c _ hit hkey
    have hbegin := h.begin false
    have ht' : NodeTraced R out nd.start := ⟨ht.requests, ht.out⟩
    have halive := (Cell.key_eq_some.mp hkey).1
    have hwf : WellFormed (nd.start.st m it) := hbegin.wellFormed m it hit
    have hs : Traced m it.requests out
        ((nd.start.st m it).unregister c (TimerInfo.seqId cfg msg)) :=
      (ht'.traced m it).later rfl rfl (List.prefix_refl _)
    apply ht'.run hit (ht.requests m it hit)
    exact Handles.notify (Traced.keeps cfg.env _ _ _ _) (Traced.updates cfg.env _ _ _ _ n)
      ⟨hwf.unregister halive _, Fenced.all, hs⟩
      (alive_unregister (s := nd.start.st m it) halive _)
      (isEmpty_unregister (s := nd.start.st m it) (hbegin.isEmpty hit hkey) _) (hs.assign c _)

theorem NodeTraced.of_ends (h : NodeInv none start nd) (ht : NodeTraced R out nd)
    {es : List (Event V)} (hes : ∀ e ∈ es, ∀ r, e.request cfg = some r → R r) {nd' : Node V}
    (hrun : Ends (runEvents cfg n es) nd nd')
    : NodeTraced R out nd' := by
  apply wp_of_ends _ hrun
  apply wp_mono (Dispatch.runEvents_of (fun _ e he h ht => ht.dispatch h e (hes e he)) h ht)
  . rintro _ nd' ⟨_, ht'⟩
    exact ht'
  . intro f nd' ht'
    exact ht'

theorem NodeTraced.init (R : Request → Prop) (start : UInt32) (net : Nat → SendOutcome)
    : NodeTraced R [] (Node.init start net : Node V) := by
  constructor <;> simp [Node.init]

end Node
end MsgRpc
