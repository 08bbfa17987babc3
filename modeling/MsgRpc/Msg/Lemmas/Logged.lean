import MsgRpc.Msg.Dispatch

/-!
This module contains the proof that what has happened stays in the log, also when the handling of a
message ends early.
-/

namespace MsgRpc

open StateProg

/--
`s'` comes after `s` in the same interaction.
-/
structure Later (s s' : St V) : Prop where
  own : s'.own = s.own
  log : s.it.log <+: s'.it.log

theorem Stops.later {s s' : St V} (h : Stops s s') : Later s s' := ⟨h.own, h.log⟩

theorem Extends.later {s s' : St V} (h : Extends s s') : Later s s' := ⟨h.own, h.log⟩

theorem Later.assign (s : St V) (c : CellId) (o : Outcome V) : Later s (s.assign c o) := by
  cases o <;> exact ⟨rfl, List.prefix_append _ _⟩

-- once `I` holds it goes on to hold
def Persists (I : St V → Prop) : Prop := ∀ s s', Later s s' → I s → I s'

namespace Persists

variable {I : St V → Prop}

theorem keeps (hI : Persists I) (env : Env V) (A : Updatable → Prop)
    : Keeps env A I (fun _ s => I s) where
  effect s s' h hact := hI s s' (Extends.effect h.wellFormed hact.effect).later h.inv
  assign s c o h _ _ _ := hI s _ (Later.assign s c o) h.inv
  notify s c u h _ _ _ := hI s _ ⟨rfl, List.prefix_append _ _⟩ h.inv
  fault s s' _ h _ hbreaks := hI s s' hbreaks.halts.later h.inv
  unique s h _ := hI s _ ⟨rfl, List.prefix_refl _⟩ h.inv

theorem keepsHandlers (hI : Persists I) (cfg : Config V)
    : KeepsHandlers cfg I (fun _ s => I s) where
  effect s s' h heffect := hI s s' heffect.stops.later h.inv
  fault s s' _ h _ hbreaks := hI s s' hbreaks.halts.later h.inv

theorem updates (hI : Persists I) (env : Env V) (A : Updatable → Prop) (n : Nat)
    : Updates A I (fun _ => I) (fun _ s => I s) (update env n) := by
  have hk := hI.keeps env A
  have hr : KeepsRelease env A I (fun _ => I) :=
    { ranAction := fun s _ h _ _ => hI s _ ⟨rfl, List.prefix_append _ _⟩ h.inv
      finished := fun s _ h _ _ => hI s _ ⟨rfl, List.prefix_append _ _⟩ h.inv
      response := fun s _ _ _ _ _ _ h _ _ _ _ => hI s _ ⟨rfl, List.prefix_refl _⟩ h.inv
      release := fun s s' _ h _ _ hfrees =>
        hI s' _ (Extends.release s').later (hI s s' hfrees.stops.later h.inv) }
  apply hk.update hk.returns
  apply hr.keepsFinal hk
  intro s s' _ h hdouble
  exact hI s s' hdouble.halts.later h.inv

-- `N` holds of the process if `I m` holds of the code of interaction `m` that has run. The code is
-- that of a new interaction, or of one that has a cell in the response table.
theorem dispatch {cfg : Config V} {n : Nat} {start : UInt32} {nd : Node V} {N : Node V → Prop}
    {I : Nat → St V → Prop} (hI : ∀ m, Persists (I m)) (h : NodeInv none start nd) (hN : N nd)
    (hbegin : N nd.start) (hbeginNew : N nd.startNew)
    (hin : ∀ nd1 m it, N nd1 → nd1.its[m]? = some it
      → m = nd.its.length ∨ (∃ c k, (it.cells c).key = some k) → I m (nd1.st m it))
    (hout : ∀ nd1 m it s, N nd1 → nd1.its[m]? = some it → I m s → N (nd1.withSt s))
    (e : Event V)
    : Dispatch cfg n nd e N N (fun _ nd' => N nd') where
  ignored := hbegin
  rejected _ := hbegin
  interaction := by
    intro si finalAction _
    have hit : nd.startNew.its[nd.its.length]? = some {} := by simp [Node.startNew]
    have hs := hin nd.startNew _ _ hbeginNew hit (Or.inl rfl)
    apply wp_mono (Handles.startInteraction ((hI _).keepsHandlers cfg) ((hI _).keeps cfg.env _)
      ((hI _).updates cfg.env _ n) ⟨h.beginNew.wellFormed _ _ hit, Fenced.all, hs⟩ (unowned_new _ _)
      (unclosed_new (h.responses _ (Nat.le_refl _))) si finalAction)
    . rintro _ s ⟨hs', _⟩
      exact hout _ _ _ s hbeginNew hit hs'.inv
    . intro f s hs'
      exact hout _ _ _ s hbeginNew hit hs'
  request := by
    intro msg senderId reqHeader payload _ _
    have hit : nd.startNew.its[nd.its.length]? = some {} := by simp [Node.startNew]
    have hs := hin nd.startNew _ _ hbeginNew hit (Or.inl rfl)
    apply wp_mono (Handles.onRpcReq ((hI _).keepsHandlers cfg) ((hI _).keeps cfg.env _)
      ((hI _).updates cfg.env _ n) (fun s s' _ hs hdouble => hI _ s s' hdouble.halts.later hs.inv)
      ⟨h.beginNew.wellFormed _ _ hit, Fenced.all, hs⟩ (unowned_new _ _)
      (unclosed_new (h.responses _ (Nat.le_refl _))) reqHeader payload senderId)
    . rintro _ s ⟨hs', _⟩
      exact hout _ _ _ s hbeginNew hit hs'.inv
    . intro f s hs'
      exact hout _ _ _ s hbeginNew hit hs'
  response := by
    intro msg senderId rspHeader payload m it c _ _ hit hkey
    have hs := hin nd.start m it hbegin hit (Or.inr ⟨c, _, hkey⟩)
    apply wp_mono (Handles.notify ((hI m).keeps cfg.env _) ((hI m).updates cfg.env _ n)
      ⟨(h.begin false).wellFormed m it hit, Fenced.all, hs⟩ (Cell.key_eq_some.mp hkey).1
      ((h.begin false).isEmpty hit hkey) (hI m _ _ (Later.assign _ c _) hs))
    . rintro _ s ⟨hs', _⟩
      exact hout _ m it s hbegin hit hs'.inv
    . intro f s hs'
      exact hout _ m it s hbegin hit hs'
  responded _ hnd := hnd
  unregistered := by
    intro _ nd1 k m it c h1 hN1 hit hkey
    have hs := hin nd1 m it hN1 hit (Or.inr ⟨c, k, hkey⟩)
    exact hout nd1 m it _ hN1 hit (hI m (nd1.st m it) _ ⟨rfl, List.prefix_refl _⟩ hs)
  timeout := by
    intro msg senderId m it c _ hit hkey
    have halive := (Cell.key_eq_some.mp hkey).1
    have hs := hin nd.start m it hbegin hit (Or.inr ⟨c, _, hkey⟩)
    have hs1 : I m ((nd.start.st m it).unregister c (TimerInfo.seqId cfg msg)) :=
      hI m (nd.start.st m it) _ ⟨rfl, List.prefix_refl _⟩ hs
    have hwf := ((h.begin false).wellFormed m it hit).unregister halive (TimerInfo.seqId cfg msg)
    apply wp_mono (Handles.notify ((hI m).keeps cfg.env _) ((hI m).updates cfg.env _ n)
      ⟨hwf, Fenced.all, hs1⟩ (alive_unregister (s := nd.start.st m it) halive _)
      (isEmpty_unregister (s := nd.start.st m it) ((h.begin false).isEmpty hit hkey) _)
      (hI m _ _ (Later.assign _ c _) hs1))
    . rintro _ s ⟨hs', _⟩
      exact hout _ m it s hbegin hit hs'.inv
    . intro f s hs'
      exact hout _ m it s hbegin hit hs'

end Persists

/--
The code of interaction `m` runs, and if this is interaction `m'` then `e` has happened in it.
-/
def Logged (m' : Nat) (e : Ev V) (m : Nat) (s : St V) : Prop :=
  s.own = m ∧ (m = m' → e ∈ s.it.log)

theorem Logged.persists (m' : Nat) (e : Ev V) (m : Nat) : Persists (Logged m' e m) := by
  rintro s s' hlater ⟨hown, hmem⟩
  exact ⟨hlater.own.trans hown, fun heq => hlater.log.subset (hmem heq)⟩

-- `e` has happened in interaction `m`
def NodeLogged (m : Nat) (e : Ev V) (nd : Node V) : Prop :=
  ∃ it, nd.its[m]? = some it ∧ e ∈ it.log

section Node

variable {cfg : Config V} {n : Nat} {start : UInt32} {nd : Node V} {m' : Nat}
variable {e : Ev V}

theorem NodeLogged.dispatch (h : NodeInv none start nd) (hl : NodeLogged m' e nd) (ev : Event V)
    : Dispatch cfg n nd ev (NodeLogged m' e) (NodeLogged m' e)
        (fun _ nd' => NodeLogged m' e nd') := by
  apply Persists.dispatch (Logged.persists m' e) h hl hl
  . obtain ⟨it', hit', he⟩ := hl
    have hlt := (List.getElem?_eq_some_iff.mp hit').1
    refine ⟨it', ?_, he⟩
    simp only [Node.startNew, List.getElem?_append, if_pos hlt, hit']
  . rintro nd1 m it ⟨it', hit', he⟩ hit _
    refine ⟨rfl, ?_⟩
    intro heq
    rw [← heq, hit] at hit'
    simp only [Option.some.injEq] at hit'
    rw [hit']
    exact he
  . rintro nd1 m it s ⟨it', hit', he⟩ hit hs
    by_cases heq : m' = m
    . refine ⟨s.it, ?_, hs.2 heq.symm⟩
      rw [Node.getElem?_withSt hit hs.1, if_pos heq]
    . refine ⟨it', ?_, he⟩
      rw [Node.getElem?_withSt hit hs.1, if_neg heq, hit']

theorem runEvents_logged (h : NodeInv none start nd) (hl : NodeLogged m' e nd)
    (es : List (Event V))
    : wp (runEvents cfg n es) (fun _ nd' => NodeLogged m' e nd') (fun _ nd' => NodeLogged m' e nd')
        nd := by
  apply wp_mono (Dispatch.runEvents (fun _ ev h hl => hl.dispatch h ev) h hl es)
  . rintro _ nd' ⟨_, hl'⟩
    exact hl'
  . intro f nd' hl'
    exact hl'

theorem logged_request (h : NodeInv none start nd) {bytes msg : Bytes} {senderId : ServiceId}
    {reqHeader : ReqMsgHeader} (hbytes : ReqMsgHeader.ofBytes bytes = some ⟨reqHeader, msg⟩)
    (hfirst : ∀ s : St V, .received senderId reqHeader msg ∈ s.it.log
      → (∀ method req, cfg.Serves reqHeader method
        → ThriftDecoder.decode (cfg.env.codec method.reqType) msg ≠ some req) → e ∈ s.it.log)
    (hthen : ∀ (s : St V) method req, .received senderId reqHeader msg ∈ s.it.log
      → .invoked method.methodIndex req ∈ s.it.log → cfg.Serves reqHeader method
      → ThriftDecoder.decode (cfg.env.codec method.reqType) msg = some req → e ∈ s.it.log)
    {es : List (Event V)} {nd' : Node V}
    (hrun : Ends (runEvents cfg n (.msg cfg.requestMsgId bytes senderId :: es)) nd nd')
    : NodeLogged nd.its.length e nd' := by
  have hit : nd.startNew.its[nd.its.length]? = some {} := by simp [Node.startNew]
  have hunowned : (nd.startNew.st nd.its.length {}).Unowned := unowned_new _ _
  have hunclosed : (nd.startNew.st nd.its.length {}).Unclosed [] :=
    unclosed_new (h.responses _ (Nat.le_refl _))
  have hI := Logged.persists nd.its.length e nd.its.length
  have hend : ∀ s : St V, Logged nd.its.length e nd.its.length s
      → NodeLogged nd.its.length e (nd.startNew.withSt s) := by
    intro s hs
    refine ⟨s.it, ?_, hs.2 rfl⟩
    rw [Node.getElem?_withSt hit hs.1, if_pos rfl]
  have hevent : wp (handleEvent cfg n (.msg cfg.requestMsgId bytes senderId))
      (fun _ nd1 => NodeLogged nd.its.length e nd1) (fun _ nd1 => NodeLogged nd.its.length e nd1)
      nd := by
    have hwf := h.beginNew.wellFormed _ _ hit
    apply Dispatch.handleEvent_request hbytes
    apply wp_mono (Handles.onRpcReq_from (hI.keepsHandlers cfg) (hI.keeps cfg.env _)
      (hI.updates cfg.env _ n) (fun s s' _ hs hdouble => hI s s' hdouble.halts.later hs.inv) hunowned
      hunclosed reqHeader msg senderId _ _)
    . rintro _ s ⟨hs, _⟩
      exact hend s hs.inv
    . intro f s hs
      exact hend s hs
    . intro hreject
      refine ⟨hwf.record _, Fenced.all, rfl, fun _ => hfirst _ ?_ hreject⟩
      simp [St.record]
    . intro method req hmethod hreq
      refine ⟨(hwf.record _).record _, Fenced.all, rfl, fun _ => hthen _ method req ?_ ?_ hmethod hreq⟩
      . simp [St.record]
      . simp [St.record]
  apply wp_of_ends _ hrun
  unfold runEvents
  rw [wp_bind]
  apply wp_mono (wp_and (handleEvent_table h _) hevent)
  . rintro _ nd1 ⟨h1, hl1⟩
    exact runEvents_logged h1 hl1 es
  . rintro f nd1 ⟨_, hl1⟩
    exact hl1

end Node
end MsgRpc
