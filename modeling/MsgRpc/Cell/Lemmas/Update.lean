import MsgRpc.Cell.Lemmas.Basic

/-!
This module contains the proof that `update` keeps every invariant its effects keep.
-/

namespace MsgRpc
namespace Runs

open StateProg

variable {env : Env V} {A : Updatable → Prop} {P : St V → Prop} {E : Fault → St V → Prop}
variable {R : List Frame → St V → Prop} {upd : Updatable → M V Unit} {s : St V}

theorem weaken {x : M V α} {Q : α → St V → Prop} (h : Runs A P E s x Q)
    : Runs A P E s x (fun _ _ => True) := by
  apply mono h
  intros
  trivial

theorem discard {x : M V α} {Q : α → St V → Prop} (h : Runs A P E s x Q)
    : Runs A P E s (do let _ ← x; return ()) (fun _ _ => True) := by
  unfold Runs
  rw [wp_bind]
  apply wp_mono h
  . rintro _ s1 ⟨hafter, hstack, _⟩
    exact ⟨hafter, hstack, trivial⟩
  . intro e s1 he
    exact he

section Derive

theorem deriveCell (hk : Keeps env A P E) (hupd : Updates A P R E upd) (h : Sound A P s) (type : Ty)
    (logic : CellId → Prog V) (args : List CellId)
    : Runs A P E s (deriveCell upd type logic args) (fun _ _ => True) := by
  apply weaken
  apply newCell hk h rfl (by simp [CellKind.role])
  intro s1 hafter hstack _ _
  exact registerAsListener hk hupd (h.fenced.newCell _ (Nat.le_refl _)) args hafter.sound hstack

theorem deriveAsyncCell (hk : Keeps env A P E) (hupd : Updates A P R E upd) (h : Sound A P s)
    (type : Ty) (f : Prog V) (args : List CellId)
    : Runs A P E s (deriveAsyncCell upd type f args) (fun _ _ => True) := by
  apply weaken
  apply newCell hk h rfl (by simp [CellKind.role])
  intro s1 hafter hstack _ _
  exact registerAsListener hk hupd (h.fenced.newCell _ (Nat.le_refl _)) args hafter.sound hstack

theorem bindTimeoutCell (hk : Keeps env A P E) (hupd : Updates A P R E upd) (h : Sound A P s)
    {t : CellId} (ht : A (.cell t)) (hrole : (s.it.cells t).role = .timeoutCell)
    (hlt : t < s.it.cellCount) (cellToBind : CellId)
    : Runs A P E s (bindTimeoutCell upd t cellToBind) (fun _ _ => True) := by
  unfold MsgRpc.bindTimeoutCell
  apply bind h
  . apply deriveAction hk hupd rfl _ _ h
    intro t' ht'
    simp only [Bind.target, Option.some.injEq] at ht'
    subst ht'
    exact ⟨ht, hrole, hlt⟩
  . intro _ s1 hafter _ _
    exact pure hafter.sound trivial

theorem invokeRpcOnce (hk : Keeps env A P E) (hupd : Updates A P R E upd) (h : Sound A P s)
    {t : CellId} (ht : A (.cell t)) (timeoutMs : TimeoutLenT) {f : M V (Option CellId)}
    (hf : Runs A P E s f (fun _ _ => True))
    : Runs A (R s.stack) E s (invokeRpcOnce upd t timeoutMs f) (fun _ _ => True) := by
  unfold MsgRpc.invokeRpcOnce
  apply bind h hf
  intro rpcCell s1 hafter1 hstack1 _
  rw [← hstack1]
  have h1 := hafter1.sound
  split
  . exact last hupd.returns (pure h1 trivial) _
  . next rpcCell =>
    apply bind h1 (cellAt hk h1 t)
    rintro o s2 _ _ ⟨hs2, ho, halive⟩
    subst hs2 ho
    split
    . next data hkind =>
      have hlt := h1.wellFormed.lt_of_alive halive
      have hstarted : Effect env A s2
          (s2.setKind t (.timeoutCell { data with isRpcStarted := true })) :=
        .setData t data { data with isRpcStarted := true } ht halive hkind rfl
      apply bind h1 (alter hk h1 hstarted rfl rfl)
      intro _ s3 hafter3 _ hs3
      subst hs3
      apply bind hafter3.sound (alter hk hafter3.sound (.mark (.attempt t rpcCell) rfl) rfl rfl)
      intro _ s4 hafter4 _ hs4
      subst hs4
      have h4 := hafter4.sound
      apply bind h4 (cellAt hk h4 rpcCell)
      rintro r s5 _ _ ⟨hs5, hr, _⟩
      subst hs5 hr
      split
      . have hrole : (((s2.setKind t (.timeoutCell { data with isRpcStarted := true })).record
            (.attempt t rpcCell)).it.cells t).role ≠ .cell := by
          simp [St.record, St.setKind, St.setCell, Cell.role, CellKind.role]
        exact setFailedReason hk hupd ht h4 hrole _
      . next hsucceeded =>
        apply bind h4 (assert hk h4 _ rfl)
        rintro _ s6 _ _ ⟨hs6, hid⟩
        subst hs6
        apply bind h4 (output hk h4 (.timer _ rfl)
          (.setTimer timeoutMs rpcCell hid (by simpa using hsucceeded)))
        intro _ s7 hafter7 _ hs7
        subst hs7
        apply last hupd.returns
        apply bindTimeoutCell hk hupd hafter7.sound ht _ hlt
        simp [St.output, St.record, St.setKind, St.setCell, Cell.role, CellKind.role]
    . exact fault hk h1 rfl

theorem deriveRpcCell (hk : Keeps env A P E) (hupd : Updates A P R E upd) (h : Sound A P s)
    (type : Ty) (timeoutMs : TimeoutLenT) (retryTimes : Nat) (f : Prog V) (args : List CellId)
    {bind : M V (Option CellId)}
    (hbind : ∀ s1, Sound A P s1 → Runs A P E s1 bind (fun _ _ => True))
    : Runs A P E s (deriveRpcCell upd type timeoutMs retryTimes f args bind)
        (fun _ _ => True) := by
  have ht := h.fenced.newCell _ (Nat.le_refl _)
  apply weaken
  apply newCell hk h rfl (by simp [CellKind.role])
  intro s1 hafter hstack _ _
  split
  . exact registerAsListener hk hupd ht args hafter.sound hstack
  . exact resume hupd.returns hstack rfl
      (invokeRpcOnce hk hupd hafter.sound ht timeoutMs (hbind s1 hafter.sound))

theorem timeout (hk : Keeps env A P E) (h : Sound A P s) (t : CellId)
    : Runs A P E s (timeout env t) (fun _ _ => True) := by
  unfold MsgRpc.timeout
  apply bind h (cellAt hk h t)
  rintro o s1 _ _ ⟨hs1, ho, halive⟩
  subst hs1 ho
  split
  . next data hkind =>
    split
    . exact pure h trivial
    . next hhook =>
      exact ⟨After.effect hk h (.newHook t data halive hkind hhook) rfl, rfl, trivial⟩
  . exact fault hk h rfl

end Derive

/--
What code with `self` may set.
-/
def Settable (A : Updatable → Prop) (self : Option CellId) (s : St V) : Prop :=
  ∀ c, self = some c
    → A (.cell c) ∧ c < s.it.cellCount ∧ (s.it.cells c).role = .derivedCell

theorem Settable.extends {self : Option CellId} {s s' : St V} (h : Settable A self s)
    (hext : Extends s s')
    : Settable A self s' := by
  intro c hc
  obtain ⟨hA, hlt, hrole⟩ := h c hc
  refine ⟨hA, Nat.lt_of_lt_of_le hlt hext.cellCount, ?_⟩
  rw [hext.role c hlt, hrole]

theorem Settable.none : Settable A Option.none s := by
  intro c hc
  simp at hc

-- only code that sets a cell can be the last to run
def Leaves (P : St V → Prop) (R : List Frame → St V → Prop) (stack : List Frame)
    (self : Option CellId) : St V → Prop :=
  match self with
  | some _ => R stack
  | none => P

theorem Leaves.of_runs (hr : Returns A P R) {x : M V β} {Q : β → St V → Prop}
    (hx : Runs A P E s x Q) (stack : List Frame) (self : Option CellId)
    : Runs A (Leaves P R stack self) E s x Q := by
  cases self with
  | some c => exact last hr hx stack
  | none => exact hx

-- one call of code, `k` is the code that follows
theorem call {self : Option CellId} {x : M V α} {k : α → Prog V} (h : Sound A P s)
    (hself : Settable A self s) (hx : Runs A P E s x (fun _ _ => True))
    (hk : ∀ a s1, Sound A P s1 → Settable A self s1
      → Runs A (Leaves P R s1.stack self) E s1 (runProg env upd self (k a)) (fun _ _ => True))
    : Runs A (Leaves P R s.stack self) E s (x >>= fun a => runProg env upd self (k a))
        (fun _ _ => True) := by
  apply bind h hx
  intro a s1 hafter hstack _
  rw [← hstack]
  exact hk a s1 hafter.sound (hself.extends hafter.ext)

theorem setResult (hk : Keeps env A P E) (hupd : Updates A P R E upd) (h : Sound A P s)
    {c : CellId} (hself : Settable A (some c) s) (o : Outcome V) {k : Prog V}
    (hrest : ∀ s1, Sound A P s1 → Settable A (some c) s1
      → Runs A (R s1.stack) E s1 (runProg env upd (some c) k) (fun _ _ => True))
    : Runs A (R s.stack) E s
        (do MsgRpc.withFrame (.logic k.isRet) (MsgRpc.setOutcome upd c o)
            runProg env upd (some c) k)
        (fun _ _ => True) := by
  obtain ⟨hc, _, hrole⟩ := hself c rfl
  have hset : Sound A P (s.pushFrame (.logic k.isRet))
      → Runs A (R (.logic k.isRet :: s.stack)) E (s.pushFrame (.logic k.isRet))
          (MsgRpc.setOutcome upd c o) (fun _ _ => True) := by
    intro hpush
    apply setOutcome hk hupd hc hpush
    simp [St.pushFrame, hrole]
  cases hret : k.isRet with
  | true =>
    obtain ⟨cell, hcell⟩ : ∃ cell, k = .ret cell := by
      cases k <;> simp [Prog.isRet] at hret
      exact ⟨_, rfl⟩
    rw [hret] at hset
    have hframe : Runs A (R s.stack) E s
        (MsgRpc.withFrame (.logic true) (MsgRpc.setOutcome upd c o)) (fun _ _ => True) :=
      withFrame hk hupd.returns h rfl hset (fun _ _ _ => trivial)
    unfold Runs
    rw [wp_bind, hcell]
    apply wp_mono hframe
    . intro _ s1 hs1
      exact hs1
    . intro e s1 he
      exact he
  | false =>
    rw [hret] at hset
    have hframe : Runs A P E s
        (MsgRpc.withFrame (.logic false) (MsgRpc.setOutcome upd c o)) (fun _ _ => True) :=
      withFrame_unfinished hk hupd.returns h rfl rfl hset (fun _ _ _ => trivial)
    apply bind h hframe
    intro _ s1 hafter hstack _
    rw [← hstack]
    exact hrest s1 hafter.sound (hself.extends hafter.ext)

theorem runProg (hk : Keeps env A P E) (hupd : Updates A P R E upd) {self : Option CellId}
    (h : Sound A P s) (hself : Settable A self s) (p : Prog V)
    : Runs A (Leaves P R s.stack self) E s (runProg env upd self p) (fun _ _ => True) := by
  induction p generalizing self s with
  | ret cell => exact Leaves.of_runs hupd.returns (pure h trivial) _ _
  | read c k ih =>
    apply bind h (cellAt hk h c)
    rintro o s1 _ _ ⟨hs1, _, _⟩
    subst hs1
    exact ih _ h hself
  | setResult o k ih =>
    unfold MsgRpc.runProg
    split
    . next c =>
      apply setResult hk hupd h hself o
      intro s1 h1 hself1
      exact ih h1 hself1
    . exact fault hk h rfl
  | stub rpc k ih =>
    apply bind h (encodeRequestAndSend hk h rpc)
    intro c s1 hafter1 hstack1 _
    rw [← hstack1]
    apply call hafter1.sound (hself.extends hafter1.ext)
      (weaken (alter hk hafter1.sound (.mark (.stub c) rfl) rfl rfl))
    intro _ s2 h2 hself2
    exact ih c h2 hself2
  | failedCell type reason k ih =>
    apply call h hself (weaken (failedCellWithReason hk h type reason))
    intro c s1 h1 hself1
    exact ih c h1 hself1
  | deriveCell type logic args k _ ih =>
    apply call h hself (deriveCell hk hupd h type logic args)
    intro c s1 h1 hself1
    exact ih c h1 hself1
  | deriveRpcCell type timeoutMs retryTimes f args k ihf ih =>
    have hf : ∀ s1, Sound A P s1 → Runs A P E s1 (MsgRpc.runProg env upd none f)
        (fun _ _ => True) := by
      intro s1 h1
      exact ihf h1 Settable.none
    apply call h hself (deriveRpcCell hk hupd h type timeoutMs retryTimes f args hf)
    intro c s1 h1 hself1
    exact ih c h1 hself1
  | deriveAsyncCell type f args k _ ih =>
    apply call h hself (deriveAsyncCell hk hupd h type f args)
    intro c s1 h1 hself1
    exact ih c h1 hself1
  | deriveAction f args k _ ih =>
    have hderive : Runs A P E s (MsgRpc.deriveAction upd (.user f) args) (fun _ _ => True) := by
      apply deriveAction hk hupd rfl _ args h
      simp [Bind.target]
    apply call h hself hderive
    intro _ s1 h1 hself1
    exact ih h1 hself1
  | timeout t k ih =>
    apply call h hself (timeout hk h t)
    intro c s1 h1 hself1
    exact ih c h1 hself1

section Update

theorem retryRpcIfNeed (hk : Keeps env A P E) (hupd : Updates A P R E upd) (h : Sound A P s)
    {t : CellId} (ht : A (.cell t)) (rsp : Cell V)
    : Runs A (R s.stack) E s (retryRpcIfNeed env upd t rsp) (fun _ _ => True) := by
  unfold MsgRpc.retryRpcIfNeed
  apply bind h (cellAt hk h t)
  rintro o s1 _ _ ⟨hs1, ho, halive⟩
  subst hs1 ho
  split
  . next data hkind =>
    split
    . have hretry : Effect env A s1
          (s1.setKind t (.timeoutCell { data with retryTimes := data.retryTimes - 1 })) :=
        .setData t data { data with retryTimes := data.retryTimes - 1 } ht halive hkind rfl
      apply bind h (alter hk h hretry rfl rfl)
      intro _ s2 hafter2 hstack2 _
      rw [← hstack2]
      have h2 := hafter2.sound
      exact invokeRpcOnce hk hupd h2 ht _ (runProg hk hupd h2 Settable.none _)
    . have hset : Runs A P E s1 (MsgRpc.withFrame (.retry t)
          (MsgRpc.setFailedReason upd t rsp.status)) (fun _ _ => True) := by
        apply withFrame_unfinished hk hupd.returns h rfl rfl
        . intro hpush
          apply setFailedReason hk hupd ht hpush
          simp [St.pushFrame, Cell.role, CellKind.role, hkind]
        . intros
          trivial
      apply bind h hset
      intro _ s2 hafter2 hstack2 _
      rw [← hstack2]
      have h2 := hafter2.sound
      apply bind h2 (cellAt hk h2 t)
      rintro o s3 _ _ ⟨hs3, ho, _⟩
      subst hs3 ho
      split
      . next hook hhook =>
        apply setValue hk hupd (h2.fenced.hook t hook ht hhook) h2
        intro hcell
        rw [h2.wellFormed.hook t hook hhook] at hcell
        simp at hcell
      . exact last hupd.returns (pure h2 trivial) _
  . exact fault hk h rfl

theorem callBind (hk : Keeps env A P E) (hupd : Updates A P R E upd) (h : Sound A P s)
    {bind : Bind V} (hreply : bind.isReply = false)
    (htarget : ∀ t, bind.target = some t
      → A (.cell t) ∧ (s.it.cells t).role = bind.targetRole)
    : Runs A (R s.stack) E s (callBind env upd bind) (fun _ _ => True) := by
  have hset : ∀ t, bind.target = some t → A (.cell t) ∧ (s.it.cells t).role ≠ .cell := by
    intro t ht
    refine ⟨(htarget t ht).1, ?_⟩
    rw [(htarget t ht).2]
    cases bind <;> simp [Bind.targetRole]
  unfold MsgRpc.callBind
  cases bind with
  | user f =>
    apply Runs.bind h (runProg hk hupd h Settable.none f)
    intro _ s1 hafter _ _
    exact last hupd.returns (pure hafter.sound trivial) _
  | guard t rsp =>
    obtain ⟨ht, hrole⟩ := hset t rfl
    apply Runs.bind h (cellAt hk h rsp)
    rintro r s1 _ _ ⟨hs1, hr, _⟩
    subst hs1 hr
    split
    . exact retryRpcIfNeed hk hupd h ht _
    . split
      . next hset =>
        apply Runs.bind h (assert hk h _ rfl)
        rintro _ s2 _ _ ⟨hs2, hid⟩
        subst hs2
        apply Runs.bind h (output hk h (.timer _ rfl) (.cancelTimer rsp hid hset))
        intro _ s3 hafter3 _ hs3
        subst hs3
        exact setCellValue hk hupd ht hafter3.sound hrole rsp
      . exact setCellValue hk hupd ht h hrole rsp
  | asyncResult d rsp =>
    obtain ⟨hd, hrole⟩ := hset d rfl
    apply Runs.bind h (cellAt hk h rsp)
    rintro r s1 _ _ ⟨hs1, hr, _⟩
    subst hs1 hr
    split
    . exact setFailedReason hk hupd hd h hrole _
    . exact setCellValue hk hupd hd h hrole rsp
  | reply _ _ _ => simp [Bind.isReply] at hreply

theorem updateAction (hk : Keeps env A P E) (hupd : Updates A P R E upd) (h : Sound A P s)
    {a : ActionId} (ha : A (.action a)) (hdue : Due s (.action a))
    (hfinal : (s.it.actions a).isFinalAction = false)
    : Runs A (R s.stack) E s (updateAction env upd a) (fun _ s' => Ran (.action a) s') := by
  unfold MsgRpc.updateAction
  apply bind h (actionAt hk h a)
  rintro act s1 _ _ ⟨hs1, hact, halive⟩
  subst hs1 hact
  have hnotified : ∃ c, .notified c (.action a) ∈ s1.it.log := hdue
  apply bind h (alter hk h (.ranAction a ha halive hnotified hfinal) rfl rfl)
  intro _ s2 hafter2 _ hs2
  subst hs2
  simp only [hfinal, Bool.false_eq_true, ↓reduceIte]
  have hreply : (s1.it.actions a).bind.isReply = false := by
    cases hb : (s1.it.actions a).bind.isReply with
    | true =>
      have := h.wellFormed.reply a hb
      simp [hfinal] at this
    | false => rfl
  apply mono (callBind hk hupd hafter2.sound hreply _)
  . intro _ s3 hafter3 _ b hb
    apply hafter3.ext.log.subset
    simp at hb
    simp [St.record, hb]
  . intro t ht
    exact ⟨h.fenced.target a t ha ht, h.wellFormed.target a t ht⟩

theorem updateCell (hk : Keeps env A P E) (hupd : Updates A P R E upd) (h : Sound A P s)
    {c : CellId} (hc : A (.cell c))
    : Runs A (R s.stack) E s (updateCell env upd c) (fun _ _ => True) := by
  unfold MsgRpc.updateCell
  apply bind h (cellAt hk h c)
  rintro o s1 _ _ ⟨hs1, ho, halive⟩
  subst hs1 ho
  have hlt := h.wellFormed.lt_of_alive halive
  split
  . exact last hupd.returns (pure h trivial) _
  . exact last hupd.returns (pure h trivial) _
  . next logic hkind =>
    split
    . exact last hupd.returns (pure h trivial) _
    . have hself : Settable A (some c) s1 := by
        intro c' hc'
        simp only [Option.some.injEq] at hc'
        subst hc'
        refine ⟨hc, hlt, ?_⟩
        simp [Cell.role, hkind, CellKind.role]
      exact discard (runProg hk hupd h hself _)
  . next data hkind =>
    apply bind h (assert hk h _ rfl)
    rintro _ s2 _ _ ⟨hs2, _⟩
    subst hs2
    split
    . exact last hupd.returns (pure h trivial) _
    . exact invokeRpcOnce hk hupd h hc _ (runProg hk hupd h Settable.none _)
  . next f hkind =>
    split
    . exact last hupd.returns (pure h trivial) _
    . apply bind h (runProg hk hupd h Settable.none f)
      intro cell s2 hafter2 hstack2 _
      rw [← hstack2]
      have h2 := hafter2.sound
      have hrole : (s2.it.cells c).role = .derivedAsyncCell := by
        rw [hafter2.ext.role c hlt]
        simp [Cell.role, hkind, CellKind.role]
      split
      . next cell =>
        apply bind h2 (cellAt hk h2 cell)
        rintro r s3 _ _ ⟨hs3, _, _⟩
        subst hs3
        split
        . apply setFailedReason hk hupd hc h2
          simp [hrole]
        . have hderive : Runs A P E s3 (MsgRpc.deriveAction upd (.asyncResult c cell) [cell])
              (fun _ _ => True) := by
            apply deriveAction hk hupd rfl _ _ h2
            intro t ht
            simp only [Bind.target, Option.some.injEq] at ht
            subst ht
            exact ⟨hc, hrole, Nat.lt_of_lt_of_le hlt hafter2.ext.cellCount⟩
          apply bind h2 hderive
          intro _ s4 hafter4 _ _
          exact last hupd.returns (pure hafter4.sound trivial) _
      . exact fault hk h2 rfl

end Update
end Runs

-- by induction on the stack depth, the calls `update` makes in turn have less stack
theorem Keeps.update {env : Env V} {A : Updatable → Prop} {P : St V → Prop}
    {R : List Frame → St V → Prop} {E : Fault → St V → Prop} (hk : Keeps env A P E)
    (hr : Returns A P R) (hfinal : KeepsFinal env A P R E) (n : Nat)
    : Updates A P R E (update env n) := by
  refine ⟨?_, hr⟩
  induction n with
  | zero =>
    intro u s h _ _
    exact Runs.fault hk h rfl
  | succ n ih =>
    intro u s h hu hdue
    have hupd : Updates A P R E (MsgRpc.update env n) := ⟨ih, hr⟩
    cases u with
    | cell c =>
      apply Runs.mono (Runs.updateCell hk hupd h hu)
      intro _ s1 _ _ a ha
      simp at ha
    | action a =>
      cases hisFinal : (s.it.actions a).isFinalAction with
      | false => exact Runs.updateAction hk hupd h hu hdue hisFinal
      | true =>
        cases halive : (s.it.actions a).alive with
        | true => exact hfinal n a s h hu hdue halive hisFinal hupd
        | false =>
          apply Runs.bind h (Runs.actionAt hk h a)
          rintro act s1 _ _ ⟨hs1, _, halive'⟩
          simp [halive] at halive'

end MsgRpc
