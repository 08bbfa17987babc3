import MsgRpc.Core.RpcSequenceId

/-!
This module contains `RpcSequenceId::get` as it is run by several threads at once: every increment
and every load of the counter is one atomic step, the steps of different calls interleave freely.
-/

namespace MsgRpc
namespace RpcSequenceId

-- the atomic step of `get` a thread takes next
inductive Pc where
  | increment -- outside of a call, next is the first `++sequence_id_` of one
  | compare -- the load in `if (sequence_id_ == k_invalid_rpc_sequence_id)`
  | skip -- the `++sequence_id_` in that branch
  | load -- the load in `return sequence_id_`
  deriving DecidableEq, Repr

/--
The shared counter together with the progress of every thread. `calls` counts the calls that have
taken their first step, `returned` holds what the finished ones returned, the latest one first.
-/
structure Threads (τ : Type) where
  sequenceId : UInt32
  pc : τ → Pc
  calls : Nat
  returned : List RpcSequenceIdT

namespace Threads

def init (τ : Type) (start : UInt32) : Threads τ :=
  ⟨start, fun _ => .increment, 0, []⟩

def Unique (s : Threads τ) : Prop :=
  s.returned.Nodup ∧ kInvalidRpcSequenceId ∉ s.returned

variable {τ : Type} [DecidableEq τ]

def step (s : Threads τ) (t : τ) : Threads τ :=
  match s.pc t with
  | .increment =>
    { s with
      sequenceId := s.sequenceId + 1
      pc := Function.update s.pc t .compare
      calls := s.calls + 1
    }
  | .compare =>
    let next := if s.sequenceId = kInvalidRpcSequenceId then .skip else .load
    { s with pc := Function.update s.pc t next }
  | .skip =>
    { s with
      sequenceId := s.sequenceId + 1
      pc := Function.update s.pc t .load
    }
  | .load =>
    { s with
      pc := Function.update s.pc t .increment
      returned := s.sequenceId :: s.returned
    }

def run (s : Threads τ) (schedule : List τ) : Threads τ :=
  schedule.foldl step s

/--
The next step of `t` does not start a call while another one is between its first increment and the
load of the id it returns.
-/
def Exclusive (s : Threads τ) (t : τ) : Prop :=
  s.pc t = .increment → ∀ u, s.pc u = .increment

def NonOverlapping (s : Threads τ) : List τ → Prop
  | [] => True
  | t :: schedule => s.Exclusive t ∧ (s.step t).NonOverlapping schedule

omit [DecidableEq τ] in
theorem unique_of_issued {s : Threads τ} (h : Issued start c s.returned) : s.Unique :=
  ⟨h.nodup, h.valid⟩

theorem calls_le_step (s : Threads τ) (t : τ) : s.calls ≤ (s.step t).calls := by
  unfold step
  split <;> simp

theorem calls_le_run (s : Threads τ) (schedule : List τ) : s.calls ≤ (s.run schedule).calls := by
  induction schedule generalizing s with
  | nil => simp [run]
  | cons t schedule ih =>
    have h1 := calls_le_step s t
    have h2 := ih (s.step t)
    simp only [run, List.foldl_cons] at h2 ⊢
    omega

/--
How far a call that found the counter at `c` and is alone with it has come: before its return it has
done exactly what `get` does to `c`.
-/
def Progress (c sequenceId : UInt32) : Pc → Prop
  | .increment => False
  | .compare => sequenceId = c + 1
  | .skip => sequenceId = c + 1 ∧ sequenceId = kInvalidRpcSequenceId
  | .load => sequenceId = (get c).1

/--
The invariant of the runs whose calls do not overlap: there is either no call in progress, or just
the one of `t`, and all the others have been plain runs of `get`.
-/
inductive Serial (start : UInt32) (s : Threads τ) : Prop where
  | idle (hpc : ∀ u, s.pc u = .increment) (hissued : Issued start s.sequenceId s.returned)
      (hcalls : s.calls = s.returned.length)
  | active (t : τ) (c : UInt32) (hpc : ∀ u, u ≠ t → s.pc u = .increment)
      (hissued : Issued start c s.returned) (hcalls : s.calls = s.returned.length + 1)
      (hprogress : Progress c s.sequenceId (s.pc t))

omit [DecidableEq τ] in
theorem Serial.unique {s : Threads τ} (h : Serial start s) : s.Unique := by
  cases h with
  | idle hpc hissued hcalls => exact unique_of_issued hissued
  | active t c hpc hissued hcalls hprogress => exact unique_of_issued hissued

omit [DecidableEq τ] in
theorem serial_init (start : UInt32) : Serial start (init τ start) := by
  apply Serial.idle
  . intro u
    rfl
  . apply Issued.nil
  . rfl

theorem Serial.step_idle {s : Threads τ} (t : τ) (hpc : ∀ u, s.pc u = .increment)
    (hissued : Issued start s.sequenceId s.returned) (hcalls : s.calls = s.returned.length)
    : Serial start (s.step t) := by
  unfold step
  simp only [hpc t]
  apply Serial.active t s.sequenceId
  . intro u hu
    simp [hu, hpc]
  . exact hissued
  . simp [hcalls]
  . simp [Progress]

theorem Serial.step_active {s : Threads τ} (t : τ) (c : UInt32)
    (hpc : ∀ u, u ≠ t → s.pc u = .increment) (hissued : Issued start c s.returned)
    (hcalls : s.calls = s.returned.length + 1) (hprogress : Progress c s.sequenceId (s.pc t))
    (hlimit : s.calls < 4294967295)
    : Serial start (s.step t) := by
  unfold step
  cases hpct : s.pc t with
  | increment => simp [hpct, Progress] at hprogress
  | compare =>
    simp only [hpct, Progress] at hprogress
    apply Serial.active t c
    . intro u hu
      simp [hu, hpc]
    . exact hissued
    . exact hcalls
    . by_cases hzero : s.sequenceId = kInvalidRpcSequenceId
      . simp [hzero, Progress]
        rw [← hprogress, hzero]
      . simp [hzero, Progress, RpcSequenceId.get, ← hprogress]
  | skip =>
    simp only [hpct, Progress] at hprogress
    apply Serial.active t c
    . intro u hu
      simp [hu, hpc]
    . exact hissued
    . exact hcalls
    . obtain ⟨hseq, hzero⟩ := hprogress
      simp [Progress, RpcSequenceId.get, ← hseq, hzero]
  | load =>
    simp only [hpct, Progress] at hprogress
    apply Serial.idle
    . intro u
      by_cases hu : u = t
      . simp [hu]
      . simp [hu, hpc]
    . dsimp only
      rw [hprogress]
      apply hissued.get
      omega
    . simp [hcalls]

theorem Serial.step {s : Threads τ} {t : τ} (h : Serial start s) (hexcl : s.Exclusive t)
    (hlimit : s.calls < 4294967295)
    : Serial start (s.step t) := by
  cases h with
  | idle hpc hissued hcalls => exact Serial.step_idle t hpc hissued hcalls
  | active u c hpc hissued hcalls hprogress =>
    -- whoever steps while `u` is in its call is `u`
    have htu : t = u := by
      by_contra hne
      have hall := hexcl (hpc t hne) u
      simp [hall, Progress] at hprogress
    subst htu
    exact Serial.step_active t c hpc hissued hcalls hprogress hlimit

theorem Serial.run {s : Threads τ} {schedule : List τ} (h : Serial start s)
    (hno : s.NonOverlapping schedule) (hlimit : (s.run schedule).calls < 4294967295)
    : Serial start (s.run schedule) := by
  induction schedule generalizing s with
  | nil => exact h
  | cons t schedule ih =>
    obtain ⟨hexcl, hno⟩ := hno
    have hle1 := calls_le_step s t
    have hle2 := calls_le_run (s.step t) schedule
    simp only [Threads.run, List.foldl_cons] at hlimit hle2 ⊢
    apply ih
    . apply h.step hexcl
      omega
    . exact hno
    . exact hlimit

/--
As long as no call starts inside of another one, `get` hands out every id once and never the invalid
one.
-/
theorem unique_run_of_nonOverlapping (start : UInt32) (schedule : List τ)
    (hno : (init τ start).NonOverlapping schedule)
    (hlimit : ((init τ start).run schedule).calls < 4294967295)
    : ((init τ start).run schedule).Unique := by
  have hserial : Serial start ((init τ start).run schedule) := by
    apply Serial.run
    . apply serial_init
    . exact hno
    . exact hlimit
  exact hserial.unique

theorem unique_run_of_nonOverlapping_wrapping
    : ((init Bool 4294967294).run
        [true, true, true, false, false, false, false, true, true, true]).Unique := by
  apply unique_run_of_nonOverlapping
  . simp only [NonOverlapping, Exclusive]
    decide
  . decide

/--
Two calls that overlap: both increments come first, both calls then load the same id.
-/
theorem not_unique_run_overlapping
    : ¬ ∀ (start : UInt32) (schedule : List Bool),
        ((init Bool start).run schedule).calls < 4294967295
          →
        ((init Bool start).run schedule).Unique := by
  intro h
  have hdup := h 0 [true, false, true, true, false, false] (by decide)
  revert hdup
  unfold Unique
  decide

end Threads
end RpcSequenceId
end MsgRpc
