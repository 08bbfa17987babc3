import MsgRpc.Cell.Lemmas.Delete

/-!
This module contains the effects final actions have beyond those of other actions: the response to a
request and the release of the interaction.
-/

namespace MsgRpc

open StateProg

namespace St

-- the end of a final action, after the deletion of its cell
def release (s : St V) : St V :=
  { s.record (.released s.stack) with released := true }

end St

section Release

variable {s : St V}

theorem WellFormed.release (h : WellFormed s) : WellFormed s.release := by
  apply h.congr <;> simp [St.release, St.record]

theorem Fenced.release {A : Updatable → Prop} (h : Fenced A s) : Fenced A s.release := by
  apply h.congr <;> simp [St.release, St.record]

theorem Extends.release (s : St V) : Extends s s.release := by
  constructor <;> simp [St.release, St.record, Interaction.history, Ev.isHandler]

theorem wp_sendRspCellValue {env : Env V} {Q : RpcResult → St V → Prop} {E : Fault → St V → Prop}
    {senderId : ServiceId} {rspHeader : RspMsgHeader} {c : CellId}
    (hdead : (s.it.cells c).alive = false → E .useAfterFree s)
    (hfailed : (∀ v, (s.it.cells c).value = some v
      → ThriftEncoder.encode (env.codec (s.it.cells c).type) v = none) → Q .failed s)
    (hsent : ∀ v buf, (s.it.cells c).alive = true → (s.it.cells c).value = some v
      → ThriftEncoder.encode (env.codec (s.it.cells c).type) v = some buf
      → Q .succeeded (s.output (.response senderId (rspHeader.toBytes ++ buf) s.own)))
    : wp (sendRspCellValue env senderId rspHeader c) Q E s := by
  unfold sendRspCellValue
  simp only [wp_bind, wp_cellAt]
  refine ⟨?_, hdead⟩
  intro halive
  split
  . next hnone =>
    apply hfailed
    simp [hnone]
  . next v hv =>
    split
    . next hbuf =>
      apply hfailed
      intro v' hv'
      rw [hv] at hv'
      simp only [Option.some.injEq] at hv'
      rw [← hv', hbuf]
    . next buf hbuf =>
      have hlen := ThriftEncoder.length_pos_of_encode hbuf
      unfold sendMsgWithHeader
      simp only [wp_bind, wp_get, wp_pure]
      split
      . omega
      . exact hsent v buf halive hv hbuf

end Release

/--
The effects of final actions beyond those of other actions keep `P`.
-/
structure KeepsRelease (env : Env V) (A : Updatable → Prop) (P : St V → Prop)
    (R : List Frame → St V → Prop) : Prop where
  ranAction : ∀ s a, Sound A P s → A (.action a) → (s.it.actions a).isFinalAction = true
    → P (s.record (.ranAction a))
  finished : ∀ s a, Sound A P s → A (.action a) → (s.it.actions a).isFinalAction = true
    → P (s.record (.finished a))
  response : ∀ s a senderId rspHeader c v buf, Sound A P s → A (.action a)
    → (s.it.actions a).bind = .reply senderId rspHeader c → (s.it.cells c).value = some v
    → ThriftEncoder.encode (env.codec (s.it.cells c).type) v = some buf
    → P (s.output (.response senderId (rspHeader.toBytes ++ buf) s.own))
  release : ∀ s s' a, Sound A P s → A (.action a) → (s.it.actions a).isFinalAction = true
    → Frees s s' → R s.stack s'.release

section Final

variable {env : Env V} {A : Updatable → Prop} {P : St V → Prop} {E : Fault → St V → Prop}
variable {R : List Frame → St V → Prop}

-- a step that leaves all cells alone
theorem After.same {P' : St V → Prop} {s s' : St V} (h : Sound A P s) (hwf : WellFormed s')
    (hfenced : Fenced A s') (hext : Extends s s')
    (hview : ∀ c, (s'.it.cells c).view = (s.it.cells c).view)
    (hpending : ∀ c, SamePending c s.it s'.it) (hP : P' s')
    : After A P' s s' where
  sound := ⟨hwf, hfenced, hP⟩
  ext := hext
  notifies := by
    apply Notifies.of_view h.wellFormed
    intro c _
    exact hview c
  pending := hpending

theorem KeepsRelease.callBind {upd : Updatable → M V Unit} {s : St V} {a : ActionId}
    (hr : KeepsRelease env A P R) (hk : Keeps env A P E) (hupd : Updates A P R E upd)
    (h : Sound A P s) (ha : A (.action a)) (hfinal : (s.it.actions a).isFinalAction = true)
    : Runs A (R s.stack) E s (callBind env upd (s.it.actions a).bind) (fun _ _ => True) := by
  have hnone : ∀ t, (s.it.actions a).bind.target ≠ some t := by
    intro t ht
    have := h.wellFormed.final a t ht
    simp [hfinal] at this
  cases hb : (s.it.actions a).bind with
  | user f =>
    apply Runs.callBind hk hupd h rfl
    simp [Bind.target]
  | guard t rsp => simp [hb, Bind.target] at hnone
  | asyncResult d rsp => simp [hb, Bind.target] at hnone
  | reply senderId rspHeader c =>
    unfold MsgRpc.callBind
    apply Runs.bind h (Runs.cellAt hk h c)
    rintro r s1 _ _ ⟨hs1, hr1, halive⟩
    subst hs1 hr1
    apply Runs.last hupd.returns
    split
    . unfold Runs
      rw [wp_bind]
      apply wp_sendRspCellValue
      . intro hdead
        simp [halive] at hdead
      . intro _
        exact ⟨After.refl h, rfl, trivial⟩
      . intro v buf _ hv hbuf
        refine ⟨?_, rfl, trivial⟩
        have hown : ∀ m, m ≠ s1.own → Out.responseOf (V := V) m
            (.response senderId (rspHeader.toBytes ++ buf) s1.own) = none := by
          intro m hm
          simp [Out.responseOf, Ne.symm hm]
        apply After.same h (h.wellFormed.output _) (h.fenced.output _)
          (Extends.output _ (Or.inr ⟨hown, a, hfinal⟩))
        . intro _
          rfl
        . intro c'
          exact SamePending.refl c' s1.it
        . exact hr.response s1 a senderId rspHeader c v buf h ha hb hv hbuf
    . exact Runs.pure h trivial

theorem KeepsRelease.keepsFinal (hr : KeepsRelease env A P R) (hk : Keeps env A P E)
    (hdouble : ∀ s s' e, Sound A P s → DoubleFree s e s' → E e s')
    : KeepsFinal env A P R E := by
  intro n a s h ha hdue halive hfinal hupd
  have hlt := h.wellFormed.lt_of_actionAlive halive
  unfold updateAction
  apply Runs.bind h (Runs.actionAt hk h a)
  rintro act s1 _ _ ⟨hs1, hact, _⟩
  subst hs1 hact
  have hran := After.same h (h.wellFormed.record (.ranAction a)) (h.fenced.record _)
    (Extends.record _ rfl) (fun _ => rfl) (fun _ => SamePending.record rfl)
    (hr.ranAction s1 a h ha hfinal)
  have halter : Runs A P E s1 (alter (St.record · (.ranAction a)))
      (fun _ s' => s' = s1.record (.ranAction a)) := ⟨hran, rfl, rfl⟩
  apply Runs.bind h halter
  intro _ s2 hafter2 hstack2 hs2
  subst hs2
  rw [← hstack2]
  have h2 := hafter2.sound
  simp only [hfinal, ↓reduceIte]
  have hcall : Runs A P E (s1.record (.ranAction a))
      (withFrame (.finalAction a) (MsgRpc.callBind env (update env n) (s1.it.actions a).bind))
      (fun _ _ => True) := by
    apply Runs.withFrame_unfinished hk hupd.returns h2 rfl rfl
    . intro hpush
      exact hr.callBind hk hupd hpush ha hfinal
    . intros
      trivial
  apply Runs.bind h2 hcall
  intro _ s3 hafter3 hstack3 _
  rw [← hstack3]
  have h3 := hafter3.sound
  have hlog3 : .ranAction a ∈ s3.it.log := by
    apply hafter3.ext.log.subset
    simp [St.record]
  have hfinal3 : (s3.it.actions a).isFinalAction = true := by
    rw [hafter3.ext.isFinalAction a hlt]
    exact hfinal
  have hfinished := After.same h3 (h3.wellFormed.record (.finished a)) (h3.fenced.record _)
    (Extends.record _ rfl) (fun _ => rfl) (fun _ => SamePending.record rfl)
    (hr.finished s3 a h3 ha hfinal3)
  have halter3 : Runs A P E s3 (alter (St.record · (.finished a)))
      (fun _ s' => s' = s3.record (.finished a)) := ⟨hfinished, rfl, rfl⟩
  apply Runs.bind h3 halter3
  intro _ s4 hafter4 hstack4 hs4
  subst hs4
  rw [← hstack4]
  have h4 := hafter4.sound
  apply Runs.bind h4 (Runs.actionAt hk h4 a)
  rintro act s5 _ _ ⟨hs5, hact, _⟩
  subst hs5 hact
  have hlog4 : Ran (.action a) (s3.record (.finished a)) := by
    intro b hb
    simp only [Updatable.action.injEq] at hb
    subst hb
    simp [St.record, hlog3]
  split
  . next c hcell =>
    unfold Runs
    simp only [wp_bind]
    apply wp_mono (wp_deleteCell_frees h4.wellFormed c)
    . rintro _ s6 ⟨hfrees, _⟩
      rw [wp_alter]
      have hwf6 := h4.wellFormed.frees hfrees
      have hfenced6 := h4.fenced.frees hfrees
      have hafter6 : After A (R (s3.record (.finished a)).stack) (s3.record (.finished a))
          s6.release := by
        apply After.same h4 hwf6.release hfenced6.release
        . exact (Extends.frees hfrees).trans (Extends.release s6)
        . intro c'
          change (s6.it.cells c').view = _
          rw [hfrees.cell c']
          rfl
        . intro c'
          exact (SamePending.frees hfrees c').trans (SamePending.record rfl) (List.prefix_append _ _)
        . exact hr.release _ s6 a h4 ha hfinal3 hfrees
      refine ⟨hafter6, hfrees.stack, ?_⟩
      intro b hb
      apply hafter6.ext.log.subset
      exact hlog4 b hb
    . intro e s6 he
      exact hdouble _ _ _ h4 he
  . apply Runs.last hupd.returns
    exact Runs.pure h4 hlog4

end Final
end MsgRpc
