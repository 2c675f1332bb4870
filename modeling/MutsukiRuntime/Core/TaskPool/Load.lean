/-
  RUNNER LOAD: what `runner_load` reports, as scans of the records.

  * `readyDispatchCount_eq`: the queued count, which adds up aggregated counters, is the
    number of eligible records.
  * `length_naiveSelection`: that is how many tasks a claim without a budget takes, up to
    its limit.
-/
import MutsukiRuntime.Core.TaskPool.Occupancy
import MutsukiRuntime.Core.TaskPool.Runs
import MutsukiRuntime.Lib.Counting

namespace MutsukiRuntime

open Std Buckets List

/-! ## Slots -/

theorem SlotIndex.size_bucket {κ : Type} [Ord κ] [TransOrd κ] [LawfulEqOrd κ] [DecidableEq κ]
    {m : ExtTreeMap κ (ExtTreeSet TaskId)} {tasks : TaskMap} {slot : TaskRecord → Option κ}
    (h : SlotIndex m tasks slot fun _ => False) (hkeyed : Keyed tasks) (key : κ) :
    (bucket m key).size = (recordsOf tasks).countP fun r => decide (slot r = some key) := by
  have hperm : (bucket m key).toList.Perm
      (((recordsOf tasks).filter fun r => decide (slot r = some key)).map (·.task.taskId)) := by
    refine (perm_ext_iff_of_nodup (nodup_set_toList _) ?_).2 fun id => ?_
    · exact (nodup_ids_recordsOf tasks hkeyed).sublist (filter_sublist.map _)
    · rw [ExtTreeSet.mem_toList, h.mem_iff]
      simp only [mem_map, mem_filter, mem_recordsOf tasks hkeyed, decide_eq_true_eq]
      constructor
      · rintro ⟨r, hr, hslot, -⟩
        have hid := hkeyed id r hr
        exact ⟨r, ⟨hid ▸ hr, hslot⟩, hid⟩
      · rintro ⟨r, ⟨hr, hslot⟩, rfl⟩
        exact ⟨r, hr, hslot, fun hf => hf⟩
  rw [← ExtTreeSet.length_toList, hperm.length_eq, length_map, countP_eq_length_filter]

namespace TaskPool

variable {pool : TaskPool}

/-! ## The queued count -/

/-- A count bucket that is due at `step` in generation `registryGeneration`. -/
def bucketDue (step registryGeneration : Nat) (b : CountBucket) : Bool :=
  decide (b.readyAtStep ≤ step) &&
    (registryGeneration == 0 || b.registryGeneration == 0 ||
      b.registryGeneration == registryGeneration)

theorem bucketDue_countBucket (step registryGeneration : Nat) (r : TaskRecord) :
    bucketDue step registryGeneration r.countBucket = true ↔ r.task.readyAtStep.getD 0 ≤ step ∧
        (registryGeneration = 0 ∨ r.task.registryGeneration = 0 ∨
          r.task.registryGeneration = registryGeneration) := by
  unfold bucketDue
  simp only [Bool.and_eq_true, decide_eq_true_eq, Bool.or_eq_true, beq_iff_eq, or_assoc]
  rfl

/-- The counters that `ready_dispatch_count` visits, protocol by protocol and selector by
    selector. -/
theorem readyDispatchCount_sum (idx : TaskIndexes) (runner : RunnerDescriptor)
    (step registryGeneration : Nat) :
    idx.readyDispatchCount runner step registryGeneration =
      (runner.acceptedProtocolIds.map fun p => ((buildReadySelectors runner.runnerId).map fun s =>
        (((bucket (bucket idx.readyCountsByProtocol p) s).toList.filter fun e =>
          bucketDue step registryGeneration e.1).map (·.2)).sum).sum).sum := by
  unfold TaskIndexes.readyDispatchCount
  dsimp only
  rw [flatMap_congr (g := fun p => (buildReadySelectors runner.runnerId).flatMap fun s =>
    (bucket (bucket idx.readyCountsByProtocol p) s).toList)]
  · simp only [filter_flatMap, map_flatMap, bucketDue]
    simp only [flatMap_def, sum_flatten, map_map, Function.comp_def]
  · intro p _
    cases hp : idx.readyCountsByProtocol[p]? with
    | none =>
      rw [bucket_of_none _ _ hp]
      simp [Bucket.empty]
    | some bySelector =>
      rw [bucket_of_some _ _ _ hp]
      exact flatMap_stored bySelector _ _ (by simp [Bucket.empty])

theorem readyDispatchCount_eq (h : Good pool) {runner : RunnerDescriptor}
    (hnd : runner.acceptedProtocolIds.Nodup) (step registryGeneration : Nat) :
    pool.indexes.readyDispatchCount runner step registryGeneration =
      (recordsOf pool.tasks).countP (eligible runner step registryGeneration) := by
  -- one protocol and one selector
  have hpair : ∀ p s, (((bucket (bucket pool.indexes.readyCountsByProtocol p) s).toList.filter
      fun e => bucketDue step registryGeneration e.1).map (·.2)).sum =
      (recordsOf pool.tasks).countP fun r => decide (r.queuesAt p s) &&
        bucketDue step registryGeneration r.countBucket := by
    intro p s
    exact Counting.sum_toList_countP (fun b => h.indexes.counts.count_eq p s b) _
  -- one protocol: the selectors of the runner
  have hprotocol : ∀ p, ((buildReadySelectors runner.runnerId).map fun s =>
      (recordsOf pool.tasks).countP fun r => decide (r.queuesAt p s) &&
        bucketDue step registryGeneration r.countBucket).sum =
      (recordsOf pool.tasks).countP fun r =>
        (decide (r.status = .ready) && bucketDue step registryGeneration r.countBucket &&
          decide (readySelectorOf r ∈ buildReadySelectors runner.runnerId)) &&
        decide (r.task.protocolId = p) := by
    intro p
    have hsum := Counting.sum_countP_key (recordsOf pool.tasks)
      (fun r => decide (r.status = .ready) && bucketDue step registryGeneration r.countBucket &&
        decide (r.task.protocolId = p)) readySelectorOf
      (nodup_buildReadySelectors runner.runnerId)
    refine Eq.trans ?_ (hsum.trans (countP_congr fun r _ => ?_))
    · refine congrArg List.sum (map_congr_left fun s _ => countP_congr fun r _ => ?_)
      simp only [Bool.and_eq_true, decide_eq_true_eq]
      unfold TaskRecord.queuesAt
      tauto
    · simp only [Bool.and_eq_true, decide_eq_true_eq]
      tauto
  rw [readyDispatchCount_sum]
  simp only [hpair, hprotocol]
  rw [Counting.sum_countP_key _ _ _ hnd]
  refine countP_congr fun r _ => ?_
  simp only [eligible, bucketDue_countBucket, Bool.and_eq_true, Bool.or_eq_true, beq_iff_eq,
    decide_eq_true_eq, contains_iff_mem, mem_buildReadySelectors]
  tauto

/-! ## Claims without a budget -/

theorem greedyScan_none (maxEntries : Nat) (sizeOf : TaskId → Nat)
    (records taken : List TaskRecord) :
    greedyScan none maxEntries sizeOf records taken =
      taken ++ records.take (maxEntries - taken.length) := by
  induction records generalizing taken with
  | nil => simp [greedyScan]
  | cons r records ih =>
    rw [greedyScan]
    split
    · next hfull => simp [Nat.sub_eq_zero_of_le hfull]
    next hroom =>
      have hleft : maxEntries - taken.length = maxEntries - (taken ++ [r]).length + 1 := by
        rw [length_append, length_singleton]
        omega
      rw [if_pos (show fits none sizeOf taken r = true from rfl), ih, append_assoc, hleft,
        take_succ_cons, singleton_append]

theorem length_naiveSelection (pool : TaskPool) (runner : RunnerDescriptor)
    (step registryGeneration limit : Nat) :
    (pool.naiveSelection runner step registryGeneration limit none).length =
      min limit ((recordsOf pool.tasks).countP (eligible runner step registryGeneration)) := by
  unfold naiveSelection
  split
  next hclosed =>
    have hzero : limit = 0 := by simpa using hclosed
    simp [hzero]
  · rw [length_map, greedyScan_none, nil_append, length_take, length_nil,
      Nat.sub_zero, (perm_insertionSort _ _).length_eq, countP_eq_length_filter]

/-! ## The load -/

/-- In every pool that operations reach, a claim without a budget takes the tasks that the load
    reports as queued, as far as its limit allows and provided that a `Vec` can hold as many ids
    as the limit says; the running and waiting counts are those of the records. -/
theorem runner_load_exact (ops : List PoolOp) (debugAssertions : Bool) (runner : RunnerDescriptor)
    (hnd : runner.acceptedProtocolIds.Nodup) (executorId : ExecutorId)
    (step registryGeneration : Nat) (expiresAtStep : Option Nat) :
    let pool := runOps ops {}
    let load := pool.runnerLoad runner step registryGeneration
    (∀ limit, 24 * limit ≤ isizeMax →
      ∃ leased, ((claimReadyForExecutorWithBudget debugAssertions runner executorId step
          registryGeneration limit none expiresAtStep).run pool).1 = .ok leased ∧
        leased.length = min limit load.queuedCount) ∧
    load.runningCount = ((recordsOf pool.tasks).filter fun r =>
      r.status == .running && r.claimedBy == some runner.runnerId).length ∧
    load.waitingCount = ((recordsOf pool.tasks).filter fun r =>
      r.status == .waiting && r.ownerRunner == some runner.runnerId).length := by
  have h := runOps_good ops good_empty
  generalize runOps ops {} = pool at h
  refine ⟨fun limit hroom => ?_, ?_, ?_⟩
  · obtain ⟨leased, pool', hrun, hids⟩ :=
      claimReady_leased h hnd (.inr hroom : Reservable limit none)
    refine ⟨leased, by rw [hrun], ?_⟩
    rw [← length_map (·.1.taskId), hids, selectCandidateIds_eq h hnd, length_naiveSelection]
    exact congrArg (min limit) (readyDispatchCount_eq h hnd step registryGeneration).symm
  · show (bucket pool.indexes.runningByRunner runner.runnerId).size = _
    rw [h.indexes.running.size_bucket h.keyed, ← countP_eq_length_filter]
    refine countP_congr fun r _ => ?_
    simp [TaskRecord.runningUnder]
  · show (bucket pool.indexes.waitingByRunner runner.runnerId).size = _
    rw [h.indexes.waiting.size_bucket h.keyed, ← countP_eq_length_filter]
    refine countP_congr fun r _ => ?_
    simp [TaskRecord.waitingUnder]

/-- Two tasks queued for the runner, one running under it. -/
theorem runner_load_exact_sample :
    let ops : List PoolOp :=
      [ .enqueueAt { taskId := "t.1", protocolId := "p.mail", payload := .null } 0
      , .enqueueAt { taskId := "t.2", protocolId := "p.sms", payload := .null, priority := 5 } 0
      , .enqueueAt { taskId := "t.3", protocolId := "p.sms", payload := .null } 0
      , .claimReady sampleRunner "exec" 1 1 1 none none ]
    let load := (runOps ops {}).runnerLoad sampleRunner 1 1
    (load.runningCount, load.waitingCount, load.queuedCount) = (1, 0, 2) ∧
    sampleRunner.acceptedProtocolIds.Nodup ∧
    ∃ leased, ((claimReadyForExecutorWithBudget true sampleRunner "exec" 1 1 9 none none).run
      (runOps ops {})).1 = .ok leased ∧ leased.length = min 9 load.queuedCount :=
  ⟨by decide +kernel, by decide,
    (runner_load_exact _ true sampleRunner (by decide) "exec" 1 1 none).1 9 (by decide)⟩

end TaskPool

end MutsukiRuntime
