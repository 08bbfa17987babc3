import MsgRpc.Msg.Lemmas.Logged

/-!
This module contains the proof that every registration of a listener causes one update, read off the
log of an interaction.
-/

namespace MsgRpc

open StateProg

section Log

def Ev.registeredOn (c : CellId) : Ev V → Option Updatable
  | .registered c' u => if c' = c then some u else none
  | _ => none

def Ev.notifiedBy (c : CellId) : Ev V → Option Updatable
  | .notified c' u => if c' = c then some u else none
  | _ => none

/--
The listeners that have been registered on `c` and those it has told, in this order.
-/
def registrations (c : CellId) (log : List (Ev V)) : List Updatable :=
  log.filterMap (Ev.registeredOn c)

def notifications (c : CellId) (log : List (Ev V)) : List Updatable :=
  log.filterMap (Ev.notifiedBy c)

/--
The listeners that have waited are told in turn. One that comes in between is told at once.
-/
inductive Told (c : CellId) : List Updatable → List (Ev V) → Prop where
  | nil : Told c [] []
  | other (us : List Updatable) (e : Ev V) (log : List (Ev V)) (he : e.concerns c = false)
      (h : Told c us log)
    : Told c us (e :: log)
  | next (us : List Updatable) (u : Updatable) (log : List (Ev V)) (h : Told c us log)
    : Told c (u :: us) (.notified c u :: log)
  | late (us : List Updatable) (u : Updatable) (log : List (Ev V)) (h : Told c us log)
    : Told c us (.registered c u :: .notified c u :: log)

/--
What has become of the registrations on cell `c` with the contents `o`. It is empty, or it has been
created with its error, or the assignment has told all the listeners it has found.
-/
inductive NotifiedOnce (c : CellId) (o : Cell V) (log : List (Ev V)) : Prop where
  | waiting (hempty : o.hasValueOrError = false) (hnone : notifications c log = [])
      (hupdatables : o.updatables = registrations c log)
  | failed (hset : o.hasValueOrError = true) (hupdatables : o.updatables = [])
      (htold : Told c [] log)
  | assigned (pre post : List (Ev V)) (out : Outcome V) (hset : o.hasValueOrError = true)
      (hlog : log = pre ++ .assigned c out :: post) (hnone : notifications c pre = [])
      (hupdatables : o.updatables = registrations c pre) (htold : Told c o.updatables post)

variable {c : CellId}

theorem registrations_append (log log' : List (Ev V))
    : registrations c (log ++ log') = registrations c log ++ registrations c log' :=
  List.filterMap_append

theorem notifications_append (log log' : List (Ev V))
    : notifications c (log ++ log') = notifications c log ++ notifications c log' :=
  List.filterMap_append

theorem registrations_cons (e : Ev V) (log : List (Ev V))
    : registrations c (e :: log) = (e.registeredOn c).toList ++ registrations c log := by
  unfold registrations
  cases h : e.registeredOn c <;> simp [h]

theorem notifications_cons (e : Ev V) (log : List (Ev V))
    : notifications c (e :: log) = (e.notifiedBy c).toList ++ notifications c log := by
  unfold notifications
  cases h : e.notifiedBy c <;> simp [h]

theorem registrations_nil : registrations c ([] : List (Ev V)) = [] := rfl

theorem notifications_nil : notifications c ([] : List (Ev V)) = [] := rfl

attribute [local simp] registrations_append notifications_append registrations_cons
  notifications_cons registrations_nil notifications_nil Ev.registeredOn Ev.notifiedBy

theorem Ev.quiet_of_not_concerns {e : Ev V} (he : e.concerns c = false)
    : e.registeredOn c = none ∧ e.notifiedBy c = none := by
  cases e <;> simp_all [Ev.concerns, Ev.registeredOn, Ev.notifiedBy]

namespace Told

variable {us : List Updatable} {log : List (Ev V)}

theorem snoc_other (h : Told c us log) {e : Ev V} (he : e.concerns c = false)
    : Told c us (log ++ [e]) := by
  induction h with
  | nil => exact .other [] e [] he .nil
  | other us e' log he' _ ih => exact .other us e' _ he' ih
  | next us u log _ ih => exact .next us u _ ih
  | late us u log _ ih => exact .late us u _ ih

theorem snoc_next (h : Told c us log) (u : Updatable)
    : Told c (us ++ [u]) (log ++ [.notified c u]) := by
  induction h with
  | nil => exact .next [] u [] .nil
  | other us e log he _ ih => exact .other _ e _ he ih
  | next us u' log _ ih => exact .next _ u' _ ih
  | late us u' log _ ih => exact .late _ u' _ ih

theorem snoc_late (h : Told c us log) (u : Updatable)
    : Told c us (log ++ [.registered c u] ++ [.notified c u]) := by
  induction h with
  | nil => exact .late [] u [] .nil
  | other us e log he _ ih => exact .other _ e _ he ih
  | next us u' log _ ih => exact .next _ u' _ ih
  | late us u' log _ ih => exact .late _ u' _ ih

theorem notifications_perm (h : Told c us log)
    : (notifications c log).Perm (us ++ registrations c log) := by
  induction h with
  | nil => exact .nil
  | other us e log he _ ih =>
    obtain ⟨hreg, hnot⟩ := Ev.quiet_of_not_concerns he
    simpa [-Ev.registeredOn, -Ev.notifiedBy, hreg, hnot] using ih
  | next us u log _ ih => simpa using ih.cons u
  | late us u log _ ih => simpa using (ih.cons u).trans List.perm_middle.symm

end Told

theorem NotifiedOnce.notifications_perm {o : Cell V} {log : List (Ev V)}
    (h : NotifiedOnce c o log) (hset : o.hasValueOrError = true)
    : (notifications c log).Perm (registrations c log) := by
  cases h with
  | waiting hempty _ _ => simp [hset] at hempty
  | failed _ _ htold => exact htold.notifications_perm
  | assigned pre post out _ hlog hnone hupdatables htold =>
    have hperm := htold.notifications_perm
    rw [hupdatables] at hperm
    rw [hlog]
    simpa [hnone] using hperm

namespace Delivers

variable {failed : Bool} {log : List (Ev V)} {us : List Updatable}

theorem collecting (h : Delivers c failed log (.collecting us))
    : failed = false ∧ notifications c log = [] ∧ us = registrations c log := by
  generalize hd : Delivery.collecting us = d at h
  induction h generalizing us with
  | empty hfailed =>
    rw [Delivery.collecting.injEq] at hd
    exact ⟨hfailed, rfl, hd⟩
  | failed _ => simp at hd
  | other log d e he _ ih =>
    obtain ⟨hfailed, hnone, hus⟩ := ih hd
    obtain ⟨hreg, hnot⟩ := Ev.quiet_of_not_concerns he
    exact ⟨hfailed, by simp [-Ev.notifiedBy, hnone, hnot], by simp [-Ev.registeredOn, hus, hreg]⟩
  | register log us' u _ ih =>
    rw [Delivery.collecting.injEq] at hd
    obtain ⟨hfailed, hnone, hus⟩ := ih rfl
    exact ⟨hfailed, by simp [hnone], by simp [hd, hus]⟩
  | assign log us' o _ _ => simp at hd
  | late log us' pending u _ _ => simp at hd
  | tell log us' pending u _ _ => simp at hd

theorem telling {pending : List Updatable} (h : Delivers c failed log (.telling us pending))
    : ∃ told, us = told ++ pending
      ∧ ((us = [] ∧ Told c told log)
        ∨ ∃ pre out post, log = pre ++ .assigned c out :: post ∧ notifications c pre = []
          ∧ us = registrations c pre ∧ Told c told post) := by
  generalize hd : Delivery.telling us pending = d at h
  induction h generalizing us pending with
  | empty _ => simp at hd
  | failed _ =>
    rw [Delivery.telling.injEq] at hd
    exact ⟨[], by rw [hd.1, hd.2, List.nil_append], Or.inl ⟨hd.1, .nil⟩⟩
  | other log d e he _ ih =>
    obtain ⟨told, hus, htold⟩ := ih hd
    refine ⟨told, hus, ?_⟩
    rcases htold with ⟨hnil, htold⟩ | ⟨pre, out, post, hlog, hnone, hreg, htold⟩
    . exact Or.inl ⟨hnil, htold.snoc_other he⟩
    . exact Or.inr ⟨pre, out, post ++ [e], by simp [hlog], hnone, hreg, htold.snoc_other he⟩
  | register log us' u _ _ => simp at hd
  | assign log us' o hcollects _ =>
    rw [Delivery.telling.injEq] at hd
    obtain ⟨_, hnone, hus⟩ := hcollects.collecting
    rw [hd.1, hd.2]
    exact ⟨[], rfl, Or.inr ⟨log, o, [], rfl, hnone, hus, .nil⟩⟩
  | late log us' pending' u _ ih =>
    obtain ⟨told, hus, htold⟩ := ih hd
    refine ⟨told, hus, ?_⟩
    rcases htold with ⟨hnil, htold⟩ | ⟨pre, out, post, hlog, hnone, hreg, htold⟩
    . exact Or.inl ⟨hnil, htold.snoc_late u⟩
    . exact Or.inr ⟨pre, out, post ++ [.registered c u] ++ [.notified c u], by simp [hlog], hnone,
        hreg, htold.snoc_late u⟩
  | tell log us' pending' u _ ih =>
    rw [Delivery.telling.injEq] at hd
    obtain ⟨told, hus, htold⟩ := ih rfl
    rw [hd.1, hd.2]
    refine ⟨told ++ [u], by simp [hus], ?_⟩
    rcases htold with ⟨hnil, htold⟩ | ⟨pre, out, post, hlog, hnone, hreg, htold⟩
    . simp [hnil] at hus
    . exact Or.inr ⟨pre, out, post ++ [.notified c u], by simp [hlog], hnone, hreg,
        htold.snoc_next u⟩

theorem of_waiting (hnone : notifications c log = []) (hassigned : ∀ o, .assigned c o ∉ log)
    : Delivers c false log (.collecting (registrations c log)) := by
  induction log using List.reverseRecOn with
  | nil => exact .empty rfl
  | append_singleton log e ih =>
    rw [notifications_append, List.append_eq_nil_iff] at hnone
    have hrest := ih hnone.1 fun o ho => hassigned o (List.mem_append_left _ ho)
    rw [registrations_append]
    cases he : e.concerns c with
    | false =>
      obtain ⟨hreg, _⟩ := Ev.quiet_of_not_concerns he
      simpa [-Ev.registeredOn, hreg] using Delivers.other log _ e he hrest
    | true =>
      cases e with
      | registered c' u =>
        have heq : c' = c := by simpa [Ev.concerns] using he
        subst heq
        simpa using Delivers.register log _ u hrest
      | notified c' u =>
        have heq : c' = c := by simpa [Ev.concerns] using he
        simp [heq] at hnone
      | assigned c' o =>
        have heq : c' = c := by simpa [Ev.concerns] using he
        subst heq
        exact absurd (by simp) (hassigned o)
      | _ => simp [Ev.concerns] at he

end Delivers

theorem Interaction.Pending.notifiedOnce {it : Interaction V} (h : it.Pending c [])
    : NotifiedOnce c (it.cells c) it.log := by
  obtain ⟨failed, _, hdelivers⟩ := h.delivers
  cases hset : (it.cells c).hasValueOrError with
  | true =>
    simp only [hset, ↓reduceIte] at hdelivers
    obtain ⟨told, hus, htold⟩ := hdelivers.telling
    rw [List.append_nil] at hus
    rcases htold with ⟨hnil, htold⟩ | ⟨pre, out, post, hlog, hnone, hreg, htold⟩
    . rw [← hus, hnil] at htold
      exact .failed hset hnil htold
    . rw [← hus] at htold
      exact .assigned pre post out hset hlog hnone hreg htold
  | false =>
    simp only [hset, Bool.false_eq_true, ↓reduceIte] at hdelivers
    obtain ⟨_, hnone, hus⟩ := hdelivers.collecting
    exact .waiting hset hnone hus

end Log

/--
Between two messages nobody is left out.
-/
def NodeNotified (nd : Node V) : Prop :=
  ∀ (m : Nat) (it : Interaction V), nd.its[m]? = some it
    → ∀ c, SingleAssignment c it.log → it.Pending c []

namespace NodeNotified

variable {cfg : Config V} {n : Nat} {start : UInt32} {nd : Node V}

theorem withSt (h : NodeNotified nd) {m : Nat} {it : Interaction V} (hit : nd.its[m]? = some it)
    {s : St V} (hgrows : Grows (nd.st m it) s)
    : NodeNotified (nd.withSt s) := by
  intro m' it' hit' c hsingle
  rw [Node.getElem?_withSt hit hgrows.own] at hit'
  split at hit'
  . rw [Option.some.injEq] at hit'
    subst hit'
    exact hgrows.pending c hsingle [] (h m it hit c (hsingle.of_le hgrows.log))
  . exact h m' it' hit' c hsingle

theorem startNew (h : NodeNotified nd) : NodeNotified nd.startNew := by
  intro m it hit c hsingle
  simp only [Node.startNew, List.getElem?_append] at hit
  split at hit
  . exact h m it hit c hsingle
  . have heq : it = {} := by
      have := List.mem_of_getElem? hit
      simpa using this
    rw [heq]
    exact ⟨⟨false, by simp, .empty rfl⟩, fun _ => rfl⟩

theorem init (start : UInt32) (net : Nat → SendOutcome)
    : NodeNotified (Node.init start net : Node V) := by
  intro m it hit
  simp [Node.init] at hit

-- no invariant of the state is needed
theorem persists : Persists (fun _ : St V => True) := fun _ _ _ _ => trivial

theorem dispatch (h : NodeInv none start nd) (hn : NodeNotified nd) (e : Event V)
    : Dispatch cfg n nd e NodeNotified NodeNotified (fun _ _ => True) where
  ignored := hn
  rejected _ := trivial
  interaction := by
    intro si finalAction _
    have hit : nd.startNew.its[nd.its.length]? = some {} := by simp [Node.startNew]
    apply wp_mono (Handles.startInteraction (persists.keepsHandlers cfg) (persists.keeps cfg.env _)
      (persists.updates cfg.env _ n) ⟨h.beginNew.wellFormed _ _ hit, Fenced.all, trivial⟩
      (unowned_new _ _) (unclosed_new (h.responses _ (Nat.le_refl _))) si finalAction)
    . rintro _ s ⟨_, hgrows, _⟩
      exact hn.startNew.withSt hit hgrows
    . intro _ _ _
      trivial
  request := by
    intro msg senderId reqHeader payload _ _
    have hit : nd.startNew.its[nd.its.length]? = some {} := by simp [Node.startNew]
    apply wp_mono (Handles.onRpcReq (persists.keepsHandlers cfg) (persists.keeps cfg.env _)
      (persists.updates cfg.env _ n) (fun _ _ _ _ _ => trivial)
      ⟨h.beginNew.wellFormed _ _ hit, Fenced.all, trivial⟩ (unowned_new _ _)
      (unclosed_new (h.responses _ (Nat.le_refl _))) reqHeader payload senderId)
    . rintro _ s ⟨_, hgrows, _⟩
      exact hn.startNew.withSt hit hgrows
    . intro _ _ _
      trivial
  response := by
    intro msg senderId rspHeader payload m it c _ _ hit hkey
    apply wp_mono (Handles.notify (persists.keeps cfg.env _) (persists.updates cfg.env _ n)
      ⟨(h.begin false).wellFormed m it hit, Fenced.all, trivial⟩ (Cell.key_eq_some.mp hkey).1
      ((h.begin false).isEmpty hit hkey) trivial)
    . rintro _ s ⟨_, hgrows, _⟩
      have hstart : NodeNotified nd.start := hn
      exact hstart.withSt hit hgrows
    . intro _ _ _
      trivial
  responded _ hnd := hnd
  unregistered := by
    intro _ nd1 k m it c _ hn1 hit _
    exact hn1.withSt hit (Grows.unregister _ c k)
  timeout := by
    intro msg senderId m it c _ hit hkey
    have halive := (Cell.key_eq_some.mp hkey).1
    have hwf := ((h.begin false).wellFormed m it hit).unregister halive (TimerInfo.seqId cfg msg)
    apply wp_mono (Handles.notify (persists.keeps cfg.env _) (persists.updates cfg.env _ n)
      ⟨hwf, Fenced.all, trivial⟩ (alive_unregister (s := nd.start.st m it) halive _)
      (isEmpty_unregister (s := nd.start.st m it) ((h.begin false).isEmpty hit hkey) _) trivial)
    . rintro _ s ⟨_, hgrows, _⟩
      have hstart : NodeNotified nd.start := hn
      exact hstart.withSt hit ((Grows.unregister _ c _).trans hgrows)
    . intro _ _ _
      trivial

end NodeNotified

/--
Cell `c` is empty and holds all listeners that have been registered on it.
-/
structure Waits (c : CellId) (s : St V) : Prop where
  wellFormed : WellFormed s
  alive : (s.it.cells c).alive = true
  isEmpty : (s.it.cells c).hasValueOrError = false
  notifications : notifications c s.it.log = []
  unassigned : ∀ o, .assigned c o ∉ s.it.log
  updatables : (s.it.cells c).updatables = registrations c s.it.log

theorem setOutcome_notifies (env : Env V) (n : Nat) {s : St V} {c : CellId} (h : Waits c s)
    (o : Outcome V)
    : wp (setOutcome (update env n) c o)
        (fun _ s' => SingleAssignment c s'.it.log → NotifiedOnce c (s'.it.cells c) s'.it.log)
        (fun _ _ => True) s := by
  have hpending : s.it.Pending c [] := by
    refine ⟨⟨false, by simp, ?_⟩, fun _ => rfl⟩
    simp only [h.isEmpty, Bool.false_eq_true, ↓reduceIte, h.updatables]
    exact .of_waiting h.notifications h.unassigned
  have hsound : Sound (fun _ => True) (fun _ => True) (s.assign c o) :=
    ⟨h.wellFormed.assign o (h.wellFormed.lt_of_alive h.alive), Fenced.all, trivial⟩
  have htell := Runs.evaluateAllDerivedCells (NodeNotified.persists.keeps env _)
    (NodeNotified.persists.updates env _ n) (c := c) trivial hsound
  have hset : ((s.assign c o).it.cells c).updatables = (s.it.cells c).updatables := by
    cases o <;> simp [St.assign, St.record, St.setCell]
  rw [hset] at htell
  have hwp : wp (evaluateAllDerivedCells (update env n) c)
      (fun _ s' => SingleAssignment c s'.it.log → NotifiedOnce c (s'.it.cells c) s'.it.log)
      (fun _ _ => True) (s.assign c o) := by
    apply wp_mono htell
    . rintro _ s' ⟨htells, _⟩ hsingle
      exact (SamePending.of_tells (Or.inr h.isEmpty) htells c hsingle [] hpending).notifiedOnce
    . intro _ _ _
      trivial
  unfold setOutcome setValue setFailedReason
  cases o <;> simp only [wp_bind, wp_cellAt, wp_alter] <;> exact ⟨fun _ => hwp, fun _ => trivial⟩

/--
Every registration on a cell that is set once causes one update: between two messages none is left
out, and the assignment does not return before those that have waited for it have been told.
-/
theorem notifiedOnce_of_singleAssignment {cfg : Config V} {n : Nat} {start : UInt32}
    {net : Nat → SendOutcome} {es : List (Event V)} {nd : Node V}
    (hrun : runEvents cfg n es (Node.init start net) = .ok () nd) {m : Nat} {it : Interaction V}
    (hit : nd.its[m]? = some it) {c : CellId} (hsingle : SingleAssignment c it.log)
    : NotifiedOnce c (it.cells c) it.log
      ∧ ((it.cells c).hasValueOrError = true
        → (notifications c it.log).Perm (registrations c it.log))
      ∧ ∀ s o, Waits c s
        → wp (setOutcome (update cfg.env n) c o)
          (fun _ s' => SingleAssignment c s'.it.log → NotifiedOnce c (s'.it.cells c) s'.it.log)
          (fun _ _ => True) s := by
  have hstart := NodeInv.init (V := V) start net
  obtain ⟨_, hnotified⟩ := wp_of_ok (Dispatch.runEvents (fun _ e h hn => hn.dispatch h e) hstart
    (NodeNotified.init start net) es) hrun
  have honce := (hnotified m it hit c hsingle).notifiedOnce
  exact ⟨honce, honce.notifications_perm, fun _ o h => setOutcome_notifies cfg.env n h o⟩

-- `c` is set to a status that is no error
def Ev.unsets (c : CellId) : Ev V → Bool
  | .assigned c' (.error reason) => c' = c ∧ reason = .succeeded
  | _ => false

-- two listeners that wait for the response, the first one registers another one on the cell when
-- it is told
def listening : Prog UInt8 :=
  .stub ⟨"service", 1, 1, 0, 0, 7⟩ fun c =>
    .deriveAction (.deriveAction (.ret none) [c] (.ret none)) [c]
      (.deriveAction (.ret none) [c] (.ret (some c)))

theorem notifiedOnce_of_singleAssignment_listening
    : ∃ nd it, runEvents (Config.bytes fun _ => none) 4
          [.interaction listening none, .msg 102 [0, 1, 1, 0, 1, 0, 0, 0, 0, 0, 0, 0, 9] 5]
          (Node.init 0 fun _ => ⟨true, some 5, true⟩) = .ok () nd
        ∧ nd.its[0]? = some it ∧ NotifiedOnce 0 (it.cells 0) it.log
        ∧ notifications 0 it.log = [.action 0, .action 2, .action 1] := by
  have htest : returns (runEvents (Config.bytes fun _ => none) 4
      [.interaction listening none, .msg 102 [0, 1, 1, 0, 1, 0, 0, 0, 0, 0, 0, 0, 9] 5]
      (Node.init 0 fun _ => ⟨true, some 5, true⟩))
      (fun _ nd => nd.its[0]?.any fun it =>
        it.log.countP (Ev.assigns 0) ≤ 1 && !it.log.any (Ev.unsets 0)
          && notifications 0 it.log = [.action 0, .action 2, .action 1]) = true := by
    decide +kernel
  obtain ⟨_, nd, hrun, hend⟩ := exists_of_returns htest
  obtain ⟨it, hit, hend⟩ := (Option.any_eq_true _ _).mp hend
  simp only [Bool.and_eq_true, decide_eq_true_eq, Bool.not_eq_true', List.any_eq_false] at hend
  obtain ⟨⟨honce, hset⟩, hnotifications⟩ := hend
  have hsingle : SingleAssignment 0 it.log := by
    refine ⟨honce, ?_⟩
    intro hmem
    exact hset _ hmem (by simp [Ev.unsets])
  exact ⟨nd, it, hrun, hit, (notifiedOnce_of_singleAssignment hrun hit hsingle).1, hnotifications⟩

end MsgRpc
