import MsgRpc.Msg.Lemmas.Logged

/-!
This module contains the steps the code of an interaction takes while a process handles an event,
and the proof that all it does is to take these steps.
-/

namespace MsgRpc

open StateProg Relation

inductive CodeStep (cfg : Config V) (s : St V) : St V → Prop where
  | effect (s' : St V) (heffect : Effect cfg.env (fun _ => True) s s') : CodeStep cfg s s'
  | handler (s' : St V) (heffect : HandlerEffect cfg s s') : CodeStep cfg s s'
  | assign (c : CellId) (o : Outcome V) (halive : (s.it.cells c).alive = true)
    : CodeStep cfg s (s.assign c o)
  | notify (c : CellId) (u : Updatable) (hmem : u ∈ (s.it.cells c).updatables)
    : CodeStep cfg s (s.record (.notified c u))
  | ranAction (a : ActionId) (hfinal : (s.it.actions a).isFinalAction = true)
    : CodeStep cfg s (s.record (.ranAction a))
  | finished (a : ActionId) (hfinal : (s.it.actions a).isFinalAction = true)
    : CodeStep cfg s (s.record (.finished a))
  | response (a : ActionId) (senderId : ServiceId) (rspHeader : RspMsgHeader) (c : CellId) (v : V)
      (buf : Bytes) (hbind : (s.it.actions a).bind = .reply senderId rspHeader c)
      (hv : (s.it.cells c).value = some v)
      (hbuf : ThriftEncoder.encode (cfg.env.codec (s.it.cells c).type) v = some buf)
    : CodeStep cfg s (s.output (.response senderId (rspHeader.toBytes ++ buf) s.own))
  | release (s' : St V) (a : ActionId) (hfinal : (s.it.actions a).isFinalAction = true)
      (hfrees : Frees s s')
    : CodeStep cfg s s'.release
  | unregister (c : CellId) (k : RpcSequenceIdT) (hkey : (s.it.cells c).key = some k)
    : CodeStep cfg s (s.unregister c k)

abbrev CodeSteps (cfg : Config V) : St V → St V → Prop := ReflTransGen (CodeStep cfg)

theorem CodeStep.wellFormed {cfg : Config V} {s s' : St V} (hwf : WellFormed s)
    (hstep : CodeStep cfg s s')
    : WellFormed s' := by
  cases hstep with
  | effect _ heffect => exact hwf.effect heffect
  | handler _ heffect => exact hwf.handlerEffect heffect
  | assign c o halive => exact hwf.assign o (hwf.lt_of_alive halive)
  | notify c u _ => exact hwf.record _
  | ranAction a _ => exact hwf.record _
  | finished a _ => exact hwf.record _
  | response _ _ _ _ _ _ _ _ _ => exact hwf.output _
  | release _ _ _ hfrees => exact (hwf.frees hfrees).release
  | unregister c k hkey => exact hwf.unregister (Cell.key_eq_some.mp hkey).1 k

namespace CodeSteps

variable {cfg : Config V} {s0 s s' : St V}

-- what the steps keep holds of every state the code gets into
theorem invariant {P : St V → Prop} (hsteps : CodeSteps cfg s0 s) (hwf : WellFormed s0)
    (h0 : P s0)
    (hstep : ∀ s s', WellFormed s → P s → CodeStep cfg s s' → P s')
    : WellFormed s ∧ P s := by
  induction hsteps with
  | refl => exact ⟨hwf, h0⟩
  | tail _ hlast ih =>
    exact ⟨hlast.wellFormed ih.1, hstep _ _ ih.1 ih.2 hlast⟩

theorem keeps (cfg : Config V) (s0 : St V)
    : Keeps cfg.env (fun _ => True) (CodeSteps cfg s0) (fun _ _ => True) where
  effect s s' h hact := h.inv.tail (.effect s' hact.effect)
  assign s c o h halive _ _ := h.inv.tail (.assign c o halive)
  notify s c u h _ hmem _ := h.inv.tail (.notify c u hmem)
  fault := by
    intros
    trivial
  unique := by
    intros
    trivial

theorem keepsHandlers (cfg : Config V) (s0 : St V)
    : KeepsHandlers cfg (CodeSteps cfg s0) (fun _ _ => True) where
  effect s s' h heffect := h.inv.tail (.handler s' heffect)
  fault := by
    intros
    trivial

theorem updates (cfg : Config V) (s0 : St V) (n : Nat)
    : Updates (fun _ => True) (CodeSteps cfg s0) (fun _ => CodeSteps cfg s0) (fun _ _ => True)
        (update cfg.env n) := by
  have hk := keeps cfg s0
  have hr : KeepsRelease cfg.env (fun _ => True) (CodeSteps cfg s0) (fun _ => CodeSteps cfg s0) :=
    { ranAction := fun s a h _ hfinal => h.inv.tail (.ranAction a hfinal)
      finished := fun s a h _ hfinal => h.inv.tail (.finished a hfinal)
      response := fun s a senderId rspHeader c v buf h _ hbind hv hbuf =>
        h.inv.tail (.response a senderId rspHeader c v buf hbind hv hbuf)
      release := fun s s' a h _ hfinal hfrees => h.inv.tail (.release s' a hfinal hfrees) }
  apply hk.update hk.returns
  apply hr.keepsFinal hk
  intros
  trivial

-- all a process does with an event is to take steps in its interactions
theorem dispatch {n : Nat} {start : UInt32} {nd : Node V} {N : Node V → Prop}
    (h : NodeInv none start nd) (hbegin : N nd.start) (hbeginNew : N nd.startNew)
    (hsteps : ∀ nd1 m it s, N nd1 → nd1.its[m]? = some it → CodeSteps cfg (nd1.st m it) s
      → N (nd1.withSt s))
    (e : Event V)
    : Dispatch cfg n nd e N N (fun _ _ => True) where
  ignored := hbegin
  rejected _ := trivial
  interaction := by
    intro si finalAction _
    have hit : nd.startNew.its[nd.its.length]? = some {} := by simp [Node.startNew]
    apply wp_mono (Handles.startInteraction (keepsHandlers cfg _) (keeps cfg _)
      (updates cfg _ n) ⟨h.beginNew.wellFormed _ _ hit, Fenced.all, .refl⟩ (unowned_new _ _)
      (unclosed_new (h.responses _ (Nat.le_refl _))) si finalAction)
    . rintro _ s ⟨hs', _⟩
      exact hsteps _ _ _ s hbeginNew hit hs'.inv
    . intros
      trivial
  request := by
    intro msg senderId reqHeader payload _ _
    have hit : nd.startNew.its[nd.its.length]? = some {} := by simp [Node.startNew]
    apply wp_mono (Handles.onRpcReq (keepsHandlers cfg _) (keeps cfg _) (updates cfg _ n)
      (fun _ _ _ _ _ => trivial) ⟨h.beginNew.wellFormed _ _ hit, Fenced.all, .refl⟩
      (unowned_new _ _) (unclosed_new (h.responses _ (Nat.le_refl _))) reqHeader payload senderId)
    . rintro _ s ⟨hs', _⟩
      exact hsteps _ _ _ s hbeginNew hit hs'.inv
    . intros
      trivial
  response := by
    intro msg senderId rspHeader payload m it c _ _ hit hkey
    have halive := (Cell.key_eq_some.mp hkey).1
    apply wp_mono (Handles.notify (keeps cfg (nd.start.st m it)) (updates cfg _ n)
      ⟨(h.begin false).wellFormed m it hit, Fenced.all, .refl⟩ halive
      ((h.begin false).isEmpty hit hkey) (.single (.assign c _ halive)))
    . rintro _ s ⟨hs', _⟩
      exact hsteps _ m it s hbegin hit hs'.inv
    . intros
      trivial
  responded _ hnd := hnd
  unregistered := by
    intro _ nd1 k m it c _ hN1 hit hkey
    exact hsteps nd1 m it _ hN1 hit (.single (.unregister c k hkey))
  timeout := by
    intro msg senderId m it c _ hit hkey
    have halive := (Cell.key_eq_some.mp hkey).1
    have hunregister : CodeSteps cfg (nd.start.st m it)
        ((nd.start.st m it).unregister c (TimerInfo.seqId cfg msg)) :=
      .single (.unregister c _ hkey)
    have halive1 := alive_unregister (s := nd.start.st m it) halive (TimerInfo.seqId cfg msg)
    have hwf := ((h.begin false).wellFormed m it hit).unregister halive (TimerInfo.seqId cfg msg)
    apply wp_mono (Handles.notify (keeps cfg (nd.start.st m it)) (updates cfg _ n)
      ⟨hwf, Fenced.all, hunregister⟩ halive1
      (isEmpty_unregister (s := nd.start.st m it) ((h.begin false).isEmpty hit hkey) _)
      (hunregister.tail (.assign c _ halive1)))
    . rintro _ s ⟨hs', _⟩
      exact hsteps _ m it s hbegin hit hs'.inv
    . intros
      trivial

end CodeSteps

/--
A step of a process: an event starts, the interaction it asks for is set up, or code of an
interaction runs.
-/
inductive NodeStep (cfg : Config V) (nd : Node V) : Node V → Prop where
  | start : NodeStep cfg nd nd.start
  | startNew : NodeStep cfg nd nd.startNew
  | code (m : Nat) (it : Interaction V) (s : St V) (hit : nd.its[m]? = some it)
      (hsteps : CodeSteps cfg (nd.st m it) s)
    : NodeStep cfg nd (nd.withSt s)

abbrev NodeSteps (cfg : Config V) : Node V → Node V → Prop := ReflTransGen (NodeStep cfg)

theorem NodeSteps.of_runEvents {cfg : Config V} {n : Nat} {start : UInt32} {nd : Node V}
    (h : NodeInv none start nd) (es : List (Event V))
    : wp (runEvents cfg n es) (fun _ nd' => NodeSteps cfg nd nd') (fun _ _ => True) nd := by
  have hrun : wp (runEvents cfg n es) (fun _ nd' => NodeInv none start nd' ∧ NodeSteps cfg nd nd')
      (fun _ _ => True) nd := by
    apply Dispatch.runEvents _ h .refl
    intro nd1 e h1 hsteps
    apply CodeSteps.dispatch h1 (hsteps.tail .start) (hsteps.tail .startNew)
    intro nd2 m it s hsteps2 hit hcode
    exact hsteps2.tail (.code m it s hit hcode)
  apply wp_mono hrun
  . intro _ nd' hend
    exact hend.2
  . intros
    trivial

theorem CodeStep.own {cfg : Config V} {s s' : St V} (hwf : WellFormed s)
    (hstep : CodeStep cfg s s')
    : s'.own = s.own := by
  cases hstep with
  | effect _ heffect => exact (Extends.effect hwf heffect).own
  | handler _ heffect => exact heffect.stops.own
  | assign c o _ => exact (Later.assign s c o).own
  | release _ _ _ hfrees => exact hfrees.own
  | _ => rfl

theorem WellFormed.of_it {s s' : St V} (h : WellFormed s) (hit : s'.it = s.it) : WellFormed s' := by
  apply h.congr <;> simp [hit]

/--
What the steps of the code keep holds of all interactions of the process, from their start on.
-/
theorem NodeSteps.invariant {cfg : Config V} {nd nd' : Node V} {I : St V → Prop}
    {P : Interaction V → Prop} (hsteps : NodeSteps cfg nd nd')
    (h : ∀ m it, nd.its[m]? = some it → WellFormed (nd.st m it) ∧ P it) (hnew : P {})
    (henter : ∀ (nd : Node V) m it, P it → I (nd.st m it)) (hleave : ∀ s, I s → P s.it)
    (hstep : ∀ s s', WellFormed s → I s → CodeStep cfg s s' → I s')
    : ∀ m it, nd'.its[m]? = some it → WellFormed (nd'.st m it) ∧ P it := by
  induction hsteps with
  | refl => exact h
  | @tail nd1 nd2 _ hlast ih =>
    intro m it hit
    cases hlast with
    | start => exact ⟨(ih m it hit).1.of_it rfl, (ih m it hit).2⟩
    | startNew =>
      simp only [Node.startNew, List.getElem?_append] at hit
      split at hit
      . exact ⟨(ih m it hit).1.of_it rfl, (ih m it hit).2⟩
      . have hfresh : it = {} := by
          cases hi : m - nd1.its.length <;> simp [hi] at hit
          exact hit.symm
        subst hfresh
        refine ⟨?_, hnew⟩
        constructor <;> simp [Node.st, Action.unallocated, Cell.unallocated, CellKind.hook,
          Bind.target, Bind.isReply]
    | code m' it' s hit' hcode =>
      obtain ⟨hwf', hP'⟩ := ih m' it' hit'
      have hend := hcode.invariant hwf' (P := fun s => s.own = m' ∧ I s)
        ⟨rfl, henter nd1 m' it' hP'⟩ (by
          rintro s s' hwf ⟨hown, hI⟩ hone
          exact ⟨(hone.own hwf).trans hown, hstep s s' hwf hI hone⟩)
      obtain ⟨hwf, hown, hI⟩ := hend
      rw [Node.getElem?_withSt hit' hown] at hit
      split at hit
      . simp only [Option.some.injEq] at hit
        subst hit
        exact ⟨hwf.of_it rfl, hleave s hI⟩
      . exact ⟨(ih m it hit).1.of_it rfl, (ih m it hit).2⟩

end MsgRpc
