import Mathlib

/-!
This module contains `RpcSequenceId`: the 32 bit counter the ids of all rpcs are drawn from. `get`
is the code run by a single caller, `Threads` the same code cut into its atomic steps and run by any
number of threads.
-/

namespace MsgRpc

abbrev RpcSequenceIdT := UInt32

def kInvalidRpcSequenceId : RpcSequenceIdT := 0

namespace RpcSequenceId

/--
`RpcSequenceId::get`, run without interruption on the counter `sequenceId`: the returned id and the
counter afterwards.
-/
def get (sequenceId : UInt32) : RpcSequenceIdT × UInt32 :=
  let sequenceId := sequenceId + 1
  let sequenceId :=
    -- skip value of k_invalid_rpc_sequence_id
    if sequenceId = kInvalidRpcSequenceId then sequenceId + 1 else sequenceId
  ⟨sequenceId, sequenceId⟩

theorem get_valid (sequenceId : UInt32) : (get sequenceId).1 ≠ kInvalidRpcSequenceId := by
  unfold get
  dsimp only
  split
  . next hzero =>
    rw [hzero]
    decide
  . next hzero => exact hzero

-- how many increments the counter needs to get from `start` to `id`
def rank (start id : UInt32) : Nat := (id - start).toNat

theorem rank_eq (start id : UInt32)
    : rank start id = (4294967296 - start.toNat + id.toNat) % 4294967296 := by
  simp [rank, UInt32.toNat_sub]

theorem rank_self (start : UInt32) : rank start start = 0 := by
  simp [rank]

theorem rank_add_one {start id : UInt32} (h : rank start id + 1 < 4294967296)
    : rank start (id + 1) = rank start id + 1 := by
  have h1 := id.toNat_lt
  have h3 := start.toNat_lt
  rw [rank_eq] at h ⊢
  rw [rank_eq, UInt32.toNat_add]
  simp only [UInt32.reduceToNat]
  omega

/--
`ids` have been handed out one after the other since the counter was `start`, it now is
`sequenceId`. The counter runs ahead of the number of ids by the one increment that skips the
invalid id, should it have come by.
-/
structure Issued (start sequenceId : UInt32) (ids : List RpcSequenceIdT) : Prop where
  nodup : ids.Nodup
  valid : kInvalidRpcSequenceId ∉ ids
  rank_le : ∀ id ∈ ids, rank start id ≤ rank start sequenceId
  count : rank start sequenceId ≤ ids.length + 1
  skipped : rank start sequenceId = ids.length + 1
    → 0 < rank start kInvalidRpcSequenceId
      ∧ rank start kInvalidRpcSequenceId ≤ rank start sequenceId

theorem Issued.nil (start : UInt32) : Issued start start [] where
  nodup := by simp
  valid := by simp
  rank_le := by simp
  count := by simp [rank_self]
  skipped := by simp [rank_self]

/--
The one fact about `get` everything else uses: below the limit the counter moves on, the id it
stops at is valid and lies beyond every id handed out before.
-/
theorem Issued.rank_get {start sequenceId : UInt32} {ids : List RpcSequenceIdT}
    (h : Issued start sequenceId ids) (hlen : ids.length + 1 < 4294967295)
    : rank start sequenceId < rank start (get sequenceId).1
        ∧ (get sequenceId).1 ≠ kInvalidRpcSequenceId
        ∧ rank start (get sequenceId).1 ≤ ids.length + 2
        ∧ (rank start (get sequenceId).1 = ids.length + 2
            → 0 < rank start kInvalidRpcSequenceId
              ∧ rank start kInvalidRpcSequenceId ≤ rank start (get sequenceId).1) := by
  have hcount := h.count
  have hstep : rank start (sequenceId + 1) = rank start sequenceId + 1 := by
    apply rank_add_one
    omega
  unfold get
  dsimp only
  split
  . next hzero =>
    -- the counter reached the invalid id for the first time, so it cannot be ahead already
    have hnot : rank start sequenceId ≠ ids.length + 1 := by
      intro hahead
      have hskip := h.skipped hahead
      rw [← hzero, hstep] at hskip
      omega
    have hstep2 : rank start (sequenceId + 1 + 1) = rank start (sequenceId + 1) + 1 := by
      apply rank_add_one
      omega
    refine ⟨by omega, ?_, by omega, ?_⟩
    . rw [hzero]
      decide
    . intro
      rw [← hzero]
      omega
  . next hzero =>
    refine ⟨by omega, hzero, by omega, ?_⟩
    intro hahead
    have hskip := h.skipped (by omega)
    omega

theorem Issued.get_not_mem {start sequenceId : UInt32} {ids : List RpcSequenceIdT}
    (h : Issued start sequenceId ids) (hlen : ids.length + 1 < 4294967295)
    : (get sequenceId).1 ∉ ids := by
  intro hmem
  have h1 := h.rank_le _ hmem
  have h2 := (h.rank_get hlen).1
  omega

theorem Issued.get {start sequenceId : UInt32} {ids : List RpcSequenceIdT}
    (h : Issued start sequenceId ids) (hlen : ids.length + 1 < 4294967295)
    : Issued start (RpcSequenceId.get sequenceId).2 ((RpcSequenceId.get sequenceId).1 :: ids) := by
  have hsame : (RpcSequenceId.get sequenceId).2 = (RpcSequenceId.get sequenceId).1 := rfl
  obtain ⟨hlt, hvalid, hcount, hskip⟩ := h.rank_get hlen
  rw [hsame]
  constructor
  . exact List.nodup_cons.mpr ⟨h.get_not_mem hlen, h.nodup⟩
  . simp only [List.mem_cons, not_or]
    exact ⟨hvalid.symm, h.valid⟩
  . intro id hid
    cases List.mem_cons.mp hid with
    | inl heq => simp [heq]
    | inr hmem =>
      have := h.rank_le _ hmem
      omega
  . simpa using hcount
  . simpa using hskip

end RpcSequenceId
end MsgRpc
