import MsgRpc.Msg.Lemmas.Logged
import MsgRpc.Msg.Lemmas.Stage

/-!
This module contains the proof that an interaction is completed: between two messages, no final
action still waits for a cell that has its value or error, and once an interaction has been released
no message reaches it any more.
-/

namespace MsgRpc

open StateProg

/--
A final action whose cell has been set has run.
-/
def Heard (it : Interaction V) : Prop :=
  ∀ a c, .closed a c true ∈ it.log → (it.cells c).hasValueOrError = true → .ranAction a ∈ it.log

/--
The invariant of an interaction between two messages.
-/
structure Idle (env : Env V) (s : St V) : Prop where
  kept : Kept env s
  heard : Heard s.it
  served : ∀ senderId reqHeader msg, .received senderId reqHeader msg ∈ s.it.log → Served s

section Interaction

variable {env : Env V} {s s' : St V}

theorem Kept.congr (h : Kept env s) (hwf : WellFormed s) (hit : s'.it = s.it)
    (hown : s'.own = s.own) (hstack : s'.stack = s.stack)
    (hresponses : s'.sh.responses s.own = s.sh.responses s.own)
    : Kept env s' := by
  have hspares : Spares s s' := Spares.congr hown hit hresponses
  cases h with
  | inl hlate => exact Or.inl (hlate.of_history hspares.history)
  | inr hkept =>
    obtain ⟨htidy, hstage⟩ := hkept
    refine Or.inr ⟨⟨htidy.ledger.congr hit, ?_, ?_⟩, hstage.spares hwf hspares⟩
    . rw [hit, hstack]
      exact htidy.owned.rpc
    . rw [hit]
      exact htidy.owned.holder

theorem Served.congr (h : Served s) (hit : s'.it = s.it) (hown : s'.own = s.own)
    (hresponses : s'.sh.responses s.own = s.sh.responses s.own)
    : Served s' := by
  unfold Served
  rw [hown, hresponses, hit]
  exact h

theorem Served.of_prefix (h : Served s) (hlog : s.it.log <+: s'.it.log) (hown : s'.own = s.own)
    (hout : s.sh.out <+: s'.sh.out)
    : Served s' := by
  cases h with
  | inl hresponses =>
    left
    intro hnone
    obtain ⟨later, hlater⟩ := hout
    unfold Shared.responses at hresponses hnone
    rw [hown, ← hlater, List.filterMap_append, List.append_eq_nil_iff] at hnone
    exact hresponses hnone.1
  | inr hclosed =>
    obtain ⟨a, c, isEmpty, hmem⟩ := hclosed
    exact Or.inr ⟨a, c, isEmpty, hlog.subset hmem⟩

theorem Idle.congr (h : Idle env s) (hwf : WellFormed s) (hit : s'.it = s.it)
    (hown : s'.own = s.own) (hstack : s'.stack = s.stack)
    (hresponses : s'.sh.responses s.own = s.sh.responses s.own)
    : Idle env s' where
  kept := h.kept.congr hwf hit hown hstack hresponses
  heard := by
    rw [hit]
    exact h.heard
  served := by
    rw [hit]
    intro senderId reqHeader msg hreceived
    exact (h.served senderId reqHeader msg hreceived).congr hit hown hresponses

theorem Completed.mem_ranAction {a : ActionId} {c : CellId} (h : Completed env a c s)
    : .ranAction a ∈ s.it.log := by
  have hpos : 0 < s.it.log.countP (Ev.runs a) := by
    rw [h.ran]
    exact Nat.one_pos
  obtain ⟨e, hmem, hruns⟩ := List.countP_pos_iff.mp hpos
  cases e <;> simp [Ev.runs] at hruns
  rw [← hruns]
  exact hmem

-- whether it waits for the cell that is set or for one that is set on the way, the final action
-- hears of it
theorem Idle.notify (h : Idle env s) (hwf : WellFormed s) {c : CellId}
    (halive : (s.it.cells c).alive = true) (hempty : (s.it.cells c).hasValueOrError = false)
    (o : Outcome V) (n : Nat)
    : wp (evaluateAllDerivedCells (update env n) c)
        (fun _ s' => WellFormed s' ∧ Idle env s' ∧ Grows s s') (fun _ s' => Cut s'.it)
        (s.assign c o) := by
  have hsound : Sound (fun _ => True) (Kept env) (s.assign c o) :=
    ⟨hwf.assign o (hwf.lt_of_alive halive), Fenced.all, h.kept.assign hwf halive o⟩
  have hhistory : (s.assign c o).it.history = s.it.history := (Spares.assign halive o).history
  have hout : (s.assign c o).sh = s.sh := by cases o <;> rfl
  have hlisteners : ∀ c', ((s.assign c o).it.cells c').updatables
      = (s.it.cells c').updatables := by
    intro c'
    by_cases heq : c' = c <;> cases o <;> simp [St.assign, St.record, St.setCell, heq]
  have hother : ∀ c', c' ≠ c → (s.assign c o).it.cells c' = s.it.cells c' := by
    intro c' hne
    cases o <;> simp [St.assign, St.record, St.setCell, hne]
  have hstack : (s.assign c o).stack = s.stack := by cases o <;> rfl
  have htell := Runs.evaluateAllDerivedCells (Kept.keeps env _) (Kept.updates env n) (c := c) trivial
    hsound
  rw [hstack, hlisteners c] at htell
  apply wp_mono htell
  . rintro _ s' ⟨htells, hstack'⟩
    have hgrows := Grows.of_tells hempty htells hstack'
    have hlog := hgrows.log
    have hold : ∀ e : Ev V, e.isHandler = true → e ∈ s'.it.log → e ∈ s.it.log := by
      intro e he hmem
      rw [← Interaction.mem_history he, htells.ext.history, hhistory] at hmem
      exact (Interaction.mem_history he).mp hmem
    refine ⟨htells.sound.wellFormed, ⟨htells.sound.inv, ?_, ?_⟩, hgrows⟩
    . intro a c' hclosed hset
      have hclosed' := hold _ rfl hclosed
      cases (h.kept.closed hclosed').2 with
      | inl hwaiting =>
        have hlistens := hwaiting.listens
        by_cases heq : c' = c
        . subst heq
          exact htells.told a hlistens
        . cases hbefore : (s.it.cells c').hasValueOrError with
          | true => exact hlog.subset (h.heard a c' hclosed' hbefore)
          | false =>
            rw [← hother c' heq] at hbefore hlistens
            exact htells.notifies c' a hbefore hset hlistens
      | inr hcompleted => exact hlog.subset hcompleted.mem_ranAction
    . intro senderId reqHeader msg hreceived
      have hserved := h.served senderId reqHeader msg (hold _ rfl hreceived)
      apply hserved.of_prefix hlog hgrows.own
      rw [← hout]
      exact htells.ext.out
  . intro f s' hs'
    exact hs'

theorem Idle.unregister (h : Idle env s) (hwf : WellFormed s) {c : CellId}
    (halive : (s.it.cells c).alive = true) (k : RpcSequenceIdT)
    : Idle env (s.unregister c k) := by
  have hspares : Spares s (s.unregister c k) := by
    have hset : Spares s (s.setCell c { s.it.cells c with hasSeqId := false }) :=
      Spares.setCell halive rfl (List.prefix_refl _) (Or.inl halive)
    apply hset.trans
    apply Spares.congr <;> rfl
  have hcell : ∀ c', ((s.unregister c k).it.cells c').view = (s.it.cells c').view := by
    intro c'
    by_cases heq : c' = c <;> simp [St.unregister, St.setRspHandler, St.setCell, heq, Cell.view]
  refine ⟨?_, ?_, h.served⟩
  . cases h.kept with
    | inl hlate => exact Or.inl (hlate.of_history rfl)
    | inr hkept =>
      obtain ⟨htidy, hstage⟩ := hkept
      have hledger : Ledger (s.setCell c { s.it.cells c with hasSeqId := false }) :=
        htidy.ledger.setCell rfl
      refine Or.inr ⟨⟨hledger.congr rfl, ?_, ?_⟩, hstage.spares hwf hspares⟩
      . intro c' halive' hid
        by_cases heq : c' = c
        . simp [St.unregister, St.setRspHandler, St.setCell, heq] at hid
        . simp only [St.unregister, St.setRspHandler, St.setCell,
            Function.update_of_ne heq] at halive' hid ⊢
          exact htidy.owned.rpc c' halive' hid
      . have hsame : ∀ c', ((s.unregister c k).it.cells c').hasContext
            = (s.it.cells c').hasContext := by
          intro c'
          by_cases heq : c' = c <;> simp [St.unregister, St.setRspHandler, St.setCell, heq]
        intro c1 c2
        rw [hsame, hsame]
        exact htidy.owned.holder c1 c2
  . intro a c' hclosed hset
    unfold Cell.hasValueOrError at hset
    rw [hcell] at hset
    exact h.heard a c' hclosed hset

-- nothing has happened in a new interaction
theorem Kept.new {nd : Node V} {m : Nat} (h : nd.sh.responses m = [])
    : Kept env (nd.st m {}) := by
  refine Or.inr ⟨⟨?_, ?_⟩, .unclosed [] (unclosed_new h) ?_⟩
  . constructor <;> simp [Node.st]
  . constructor <;> simp [Node.st, Cell.unallocated]
  . simp [Node.st]

theorem Idle.of_settled (h : Kept env s) (hsettled : Settled s)
    (hserved : ∀ senderId reqHeader msg, .received senderId reqHeader msg ∈ s.it.log → Served s)
    : Idle env s where
  kept := h
  heard := by
    intro a c hclosed hset
    simp [hsettled a c hclosed] at hset
  served := hserved

end Interaction

def NodeIdle (env : Env V) (nd : Node V) : Prop :=
  ∀ m it, nd.its[m]? = some it → Idle env (nd.st m it)

-- at the end of a run that ends early
def NodeCut (nd : Node V) : Prop :=
  ∀ it ∈ nd.its, Cut it

section Node

variable {cfg : Config V} {n : Nat} {start : UInt32} {nd : Node V} {m : Nat} {it : Interaction V}

theorem NodeIdle.cut (h : NodeIdle cfg.env nd) : NodeCut nd := by
  intro it hmem
  obtain ⟨m, hit⟩ := List.mem_iff_getElem?.mp hmem
  exact (h m it hit).kept.cut

theorem NodeCut.withSt (h : NodeCut nd) {s : St V} (hs : Cut s.it) : NodeCut (nd.withSt s) := by
  intro it hmem
  cases List.mem_or_eq_of_mem_set hmem with
  | inl hold => exact h it hold
  | inr heq =>
    rw [heq]
    exact hs

theorem NodeIdle.withSt {hole : Option RpcSequenceIdT} (hinv : NodeInv hole start nd)
    (h : NodeIdle cfg.env nd) (hit : nd.its[m]? = some it) {s : St V}
    (hgrows : Grows (nd.st m it) s) (hwf : WellFormed s) (hs : Idle cfg.env s)
    : NodeIdle cfg.env (nd.withSt s) := by
  intro m' it' hit'
  rw [Node.getElem?_withSt hit hgrows.own] at hit'
  split at hit'
  . next heq =>
    simp only [Option.some.injEq] at hit'
    subst heq hit'
    exact hs.congr hwf rfl hgrows.own.symm hgrows.stack.symm rfl
  . next hne =>
    exact (h m' it' hit').congr (hinv.wellFormed m' it' hit') rfl rfl rfl (hgrows.responses m' hne)

theorem NodeIdle.begin (hinv : NodeInv none start nd) (h : NodeIdle cfg.env nd)
    : NodeIdle cfg.env nd.start := by
  intro m it hit
  exact (h m it hit).congr (hinv.wellFormed m it hit) rfl rfl rfl rfl

theorem NodeIdle.beginNew (hinv : NodeInv none start nd) (h : NodeIdle cfg.env nd)
    : NodeIdle cfg.env nd.startNew := by
  intro m it hit
  simp only [Node.startNew, List.getElem?_append] at hit
  split at hit
  . exact (h m it hit).congr (hinv.wellFormed m it hit) rfl rfl rfl rfl
  . next hge =>
    have heq : it = {} := by
      have := List.mem_of_getElem? hit
      simpa using this
    subst heq
    have hnone : nd.startNew.sh.responses m = [] := hinv.responses m (by omega)
    apply Idle.of_settled (Kept.new hnone) (Settled.of_unclosed (unclosed_new hnone))
    simp [Node.st]

theorem NodeIdle.dispatch (hinv : NodeInv none start nd) (h : NodeIdle cfg.env nd) (e : Event V)
    : Dispatch cfg n nd e (NodeIdle cfg.env) (NodeIdle cfg.env) (fun _ nd' => NodeCut nd') where
  ignored := h.begin hinv
  rejected _ := (h.begin hinv).cut
  interaction := by
    intro si finalAction _
    have hit : nd.startNew.its[nd.its.length]? = some {} := by simp [Node.startNew]
    have hnew := h.beginNew hinv
    apply wp_mono (Handles.startInteraction (Kept.keepsHandlers cfg) (Kept.keeps cfg.env _)
      (Kept.updates cfg.env n) ⟨hinv.beginNew.wellFormed _ _ hit, Fenced.all, (hnew _ _ hit).kept⟩
      (unowned_new _ _) (unclosed_new (hinv.responses _ (Nat.le_refl _))) si finalAction)
    . rintro _ s ⟨hsound, hgrows, hsettled, hreceived⟩
      apply hnew.withSt hinv.beginNew hit hgrows hsound.wellFormed
      apply Idle.of_settled hsound.inv hsettled
      intro senderId reqHeader msg hmem
      rw [← Interaction.mem_history rfl] at hmem
      exact absurd hmem (hreceived senderId reqHeader msg)
    . intro f s hs
      exact hnew.cut.withSt hs
  request := by
    intro msg senderId reqHeader payload _ _
    have hit : nd.startNew.its[nd.its.length]? = some {} := by simp [Node.startNew]
    have hnew := h.beginNew hinv
    apply wp_mono (Handles.onRpcReq (Kept.keepsHandlers cfg) (Kept.keeps cfg.env _)
      (Kept.updates cfg.env n)
      (fun s s' _ hs hdouble => hs.inv.discards hs.wellFormed hdouble.discards)
      ⟨hinv.beginNew.wellFormed _ _ hit, Fenced.all, (hnew _ _ hit).kept⟩
      (unowned_new _ _) (unclosed_new (hinv.responses _ (Nat.le_refl _))) reqHeader payload senderId)
    . rintro _ s ⟨hsound, hgrows, hsettled, hserved, _⟩
      apply hnew.withSt hinv.beginNew hit hgrows hsound.wellFormed
      exact Idle.of_settled hsound.inv hsettled fun _ _ _ _ => hserved
    . intro f s hs
      exact hnew.cut.withSt hs
  response := by
    intro msg senderId rspHeader payload m it c _ _ hit hkey
    have halive := (Cell.key_eq_some.mp hkey).1
    have hbegin := h.begin hinv
    have hwf := (hinv.begin false).wellFormed m it hit
    apply wp_mono ((hbegin m it hit).notify hwf halive ((hinv.begin false).isEmpty hit hkey) _ n)
    . rintro _ s ⟨hwf', hs, hgrows⟩
      exact hbegin.withSt (hinv.begin false) hit hgrows hwf' hs
    . intro f s hs
      exact hbegin.cut.withSt hs
  responded _ hnd := hnd
  unregistered := by
    intro _ nd1 k m it c h1 hnd hit hkey
    have halive := (Cell.key_eq_some.mp hkey).1
    have hwf := h1.wellFormed m it hit
    exact hnd.withSt h1 hit (Grows.unregister _ c k) (hwf.unregister halive k)
      ((hnd m it hit).unregister hwf halive k)
  timeout := by
    intro msg senderId m it c _ hit hkey
    have halive := (Cell.key_eq_some.mp hkey).1
    have hbegin := h.begin hinv
    have hwf := (hinv.begin false).wellFormed m it hit
    have hidle := (hbegin m it hit).unregister hwf halive (TimerInfo.seqId cfg msg)
    apply wp_mono (hidle.notify (hwf.unregister halive _)
      (alive_unregister (s := nd.start.st m it) halive _)
      (isEmpty_unregister (s := nd.start.st m it) ((hinv.begin false).isEmpty hit hkey) _) _ n)
    . rintro _ s ⟨hwf', hs, hgrows⟩
      exact hbegin.withSt (hinv.begin false) hit ((Grows.unregister _ c _).trans hgrows) hwf' hs
    . intro f s hs
      exact hbegin.cut.withSt hs

theorem NodeIdle.init (env : Env V) (start : UInt32) (net : Nat → SendOutcome)
    : NodeIdle env (Node.init start net) := by
  intro m it hit
  simp [Node.init] at hit

theorem NodeIdle.runEvents (hinv : NodeInv none start nd) (h : NodeIdle cfg.env nd)
    (es : List (Event V))
    : wp (runEvents cfg n es) (fun _ nd' => NodeInv none start nd' ∧ NodeIdle cfg.env nd')
        (fun _ nd' => NodeCut nd') nd :=
  Dispatch.runEvents (fun _ e hinv h => h.dispatch hinv e) hinv h es

theorem Completed.key_eq_none {env : Env V} {s : St V} {a : ActionId} {c : CellId}
    (h : Completed env a c s) (htidy : Tidy s) (hstack : s.stack = []) (c' : CellId)
    : (s.it.cells c').key = none := by
  cases hkey : (s.it.cells c').key with
  | none => rfl
  | some k =>
    obtain ⟨halive, hid, _⟩ := Cell.key_eq_some.mp hkey
    rcases htidy.owned.rpc c' halive hid with hlist | hctxt | hconstruct
    . obtain ⟨pre, frees, stack, post, hlog, _, _, _, hfreed⟩ := h.released
      have hmem : .freedCell c' ∈ s.it.log := by
        rw [hlog]
        apply List.mem_append_right
        apply List.mem_cons_of_mem
        exact List.mem_append_left _ (hfreed _ hlist)
      have hpos : 0 < s.it.log.countP (Ev.freesCell c') :=
        List.countP_pos_iff.mpr ⟨_, hmem, by simp [Ev.freesCell]⟩
      rw [htidy.ledger.cell c'] at hpos
      simp [halive] at hpos
    . have heq := htidy.owned.holder c' c hctxt h.closes.hasContext
      rw [heq, h.cellDead] at halive
      simp at halive
    . simp [hstack] at hconstruct

theorem untouched_of_key (hinv : NodeInv none start nd) (hit : nd.its[m]? = some it)
    (hkey : ∀ c, (it.cells c).key = none) {es : List (Event V)} {nd' : Node V}
    (hrun : Ends (MsgRpc.runEvents cfg n es) nd nd')
    : nd'.its[m]? = some it := by
  have hI : ∀ m', Persists (fun s : St V => s.own = m' ∧ m' ≠ m) := by
    rintro m' s s' hlater ⟨hown, hne⟩
    exact ⟨hlater.own.trans hown, hne⟩
  have hstep : ∀ (nd : Node V) e, NodeInv none start nd → nd.its[m]? = some it
      → Dispatch cfg n nd e (fun nd' => nd'.its[m]? = some it) (fun nd' => nd'.its[m]? = some it)
          (fun _ nd' => nd'.its[m]? = some it) := by
    intro nd e hinv hit
    have hlt := (List.getElem?_eq_some_iff.mp hit).1
    apply Persists.dispatch hI hinv hit hit
    . simp only [Node.startNew, List.getElem?_append, if_pos hlt, hit]
    . intro nd1 m' it' hit1 hit' hm'
      refine ⟨rfl, ?_⟩
      intro heq
      cases hm' with
      | inl hnew => omega
      | inr hregistered =>
        obtain ⟨c, k, hk⟩ := hregistered
        rw [heq, hit1] at hit'
        simp only [Option.some.injEq] at hit'
        rw [← hit', hkey c] at hk
        simp at hk
    . rintro nd1 m' it' s hit1 hit' ⟨hown, hne⟩
      rw [Node.getElem?_withSt hit' hown, if_neg (Ne.symm hne), hit1]
  apply wp_of_ends _ hrun
  apply wp_mono (Dispatch.runEvents hstep hinv hit es)
  . rintro _ nd' ⟨_, hit'⟩
    exact hit'
  . intro f nd' hit'
    exact hit'

end Node

-- a test for the log
def Ev.closes (a : ActionId) (c : CellId) (isEmpty : Bool) : Ev V → Bool
  | .closed a' c' isEmpty' => a' = a && c' = c && isEmpty' == isEmpty
  | _ => false

theorem Ev.eq_of_closes {a : ActionId} {c : CellId} {isEmpty : Bool} {e : Ev V}
    (he : e.closes a c isEmpty = true)
    : e = .closed a c isEmpty := by
  cases e <;> simp [Ev.closes] at he
  obtain ⟨⟨ha, hc⟩, hisEmpty⟩ := he
  rw [ha, hc, hisEmpty]

/--
Final action `a` has completed interaction `m`, and no message that comes in later reaches it.
-/
structure Completes (cfg : Config V) (n : Nat) (nd : Node V) (m : Nat) (it : Interaction V)
    (a : ActionId) (c : CellId) : Prop where
  finalized : Finalized a c it
  unmapped : ∀ k c', nd.sh.idFuncMap k ≠ some ⟨m, c'⟩
  untouched : ∀ es nd', Ends (runEvents cfg n es) nd nd' → nd'.its[m]? = some it

/--
If the result cell is empty when the final action is derived, then the interaction is completed in
every state between two messages in which the cell has its value or error. Should the cascade that
runs the final action go wrong later on, the interaction has still been released just once.
-/
theorem completes_of_empty {cfg : Config V} {n : Nat} {start : UInt32} {net : Nat → SendOutcome}
    {es : List (Event V)} {nd : Node V} (hrun : Ends (runEvents cfg n es) (Node.init start net) nd)
    {m : Nat} {it : Interaction V} (hit : nd.its[m]? = some it) {a : ActionId} {c : CellId}
    (hclosed : .closed a c true ∈ it.log)
    : it.log.countP (Ev.runs a) ≤ 1
      ∧ (∀ stack, .released stack ∈ it.log → Finalized a c it)
      ∧ (runEvents cfg n es (Node.init start net) = .ok () nd
        → (it.cells c).hasValueOrError = true → Completes cfg n nd m it a c) := by
  have hruns := NodeIdle.runEvents (n := n) (NodeInv.init start net)
    (NodeIdle.init cfg.env start net) es
  have hcut : NodeCut nd := by
    apply wp_of_ends _ hrun
    apply wp_mono hruns
    . rintro _ nd' ⟨_, hidle⟩
      exact hidle.cut
    . intro f nd' hnd'
      exact hnd'
  obtain ⟨hran, hreleased⟩ := hcut it (List.mem_of_getElem? hit) a c hclosed
  refine ⟨hran, hreleased, ?_⟩
  intro hok hset
  obtain ⟨hinv, hidle⟩ := wp_of_ok hruns hok
  have hs := hidle m it hit
  obtain ⟨htidy, hstage⟩ := hs.kept.closed hclosed
  cases hstage with
  | inl hwaiting =>
    have hheard := hs.heard a c hclosed hset
    have hpos : 0 < it.log.countP (Ev.runs a) :=
      List.countP_pos_iff.mpr ⟨_, hheard, by simp [Ev.runs]⟩
    have hnone := hwaiting.ran
    simp only [Node.st] at hnone
    omega
  | inr hcompleted =>
    have hkey := hcompleted.key_eq_none htidy rfl
    refine ⟨Kept.finalized hcompleted htidy.ledger, ?_, ?_⟩
    . intro k c' hmapped
      obtain ⟨it', hit', hk⟩ := hinv.mapped hmapped
      rw [hit] at hit'
      simp only [Option.some.injEq] at hit'
      have hnone := hkey c'
      rw [← hit'] at hk
      simp only [Node.st] at hnone
      simp [hnone] at hk
    . intro es' nd' hrun'
      exact untouched_of_key hinv hit hkey hrun'

-- the response releases the interaction
theorem completes_of_empty_response
    : ∃ nd it, runEvents (Config.bytes fun _ => none) 3
          [.interaction (.stub ⟨"service", 1, 1, 0, 0, 7⟩ fun c => .ret (some c))
            (some fun _ => .ret none),
            .msg 102 [0, 1, 1, 0, 1, 0, 0, 0, 0, 0, 0, 0, 9] 5]
          (Node.init 0 fun _ => ⟨true, some 5, true⟩) = .ok () nd
        ∧ nd.its[0]? = some it ∧ Completes (Config.bytes fun _ => none) 3 nd 0 it 0 0 := by
  have htest : returns (runEvents (Config.bytes fun _ => none) 3
      [.interaction (.stub ⟨"service", 1, 1, 0, 0, 7⟩ fun c => .ret (some c))
        (some fun _ => .ret none),
        .msg 102 [0, 1, 1, 0, 1, 0, 0, 0, 0, 0, 0, 0, 9] 5]
      (Node.init 0 fun _ => ⟨true, some 5, true⟩))
      (fun _ nd => nd.its[0]?.any fun it =>
        it.log.any (Ev.closes 0 0 true) && (it.cells 0).hasValueOrError) = true := by
    decide +kernel
  obtain ⟨_, nd, hrun, hend⟩ := exists_of_returns htest
  obtain ⟨it, hit, hend⟩ := (Option.any_eq_true _ _).mp hend
  rw [Bool.and_eq_true, List.any_eq_true] at hend
  obtain ⟨⟨e, hmem, he⟩, hset⟩ := hend
  have hclosed := Ev.eq_of_closes he
  subst hclosed
  exact ⟨nd, it, hrun, hit, (completes_of_empty (Or.inl ⟨_, hrun⟩) hit hmem).2.2 hrun hset⟩

/--
A service interaction that fails at once. Its final action runs before it knows its cell, and frees
nothing.
-/
theorem not_completes_failed
    : ∃ nd it, runEvents (Config.bytes fun _ => none) 3
          [.interaction (.failedCell 0 .failed fun c => .ret (some c)) (some fun _ => .ret none)]
          (Node.init 0 fun _ => ⟨true, some 5, true⟩) = .ok () nd
        ∧ nd.its[0]? = some it ∧ .closed 0 0 false ∈ it.log
        ∧ (it.cells 0).hasValueOrError = true ∧ it.log.countP (Ev.runs 0) = 1
        ∧ ¬Completes (Config.bytes fun _ => none) 3 nd 0 it 0 0 := by
  have htest : returns (runEvents (Config.bytes fun _ => none) 3
      [.interaction (.failedCell 0 .failed fun c => .ret (some c)) (some fun _ => .ret none)]
      (Node.init 0 fun _ => ⟨true, some 5, true⟩))
      (fun _ nd => nd.its[0]?.any fun it =>
        it.log.any (Ev.closes 0 0 false) && (it.cells 0).hasValueOrError
          && it.log.countP (Ev.runs 0) == 1 && it.log.countP (Ev.freesCell 0) == 0) = true := by
    decide +kernel
  obtain ⟨_, nd, hrun, hend⟩ := exists_of_returns htest
  obtain ⟨it, hit, hend⟩ := (Option.any_eq_true _ _).mp hend
  simp only [Bool.and_eq_true, List.any_eq_true, beq_iff_eq] at hend
  obtain ⟨⟨⟨⟨e, hmem, he⟩, hset⟩, hran⟩, hfreed⟩ := hend
  have hclosed := Ev.eq_of_closes he
  subst hclosed
  refine ⟨nd, it, hrun, hit, hmem, hset, hran, ?_⟩
  intro hcompletes
  obtain ⟨pre, frees, stack, post, hlog, _, hcell, _⟩ := hcompletes.finalized.released
  rw [List.countP_eq_zero] at hfreed
  apply hfreed (.freedCell 0)
  . rw [hlog]
    apply List.mem_append_right
    apply List.mem_cons_of_mem
    exact List.mem_append_left _ hcell
  . simp [Ev.freesCell]

end MsgRpc
