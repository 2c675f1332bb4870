/-
  SLEEPING UNTIL THE NEXT STEP: `next_required_step_after` as a bound on what time alone does
  to the pool.

  * `dueFree_of_next`: nothing has been skipped by the next required step.
-/
import MutsukiRuntime.Core.TaskPool.Runs

namespace MutsukiRuntime

open Std Buckets Prog List

namespace TaskPool

/-! ## Nothing due -/

/-- No id stands in a bucket up to `step`. -/
def DueFree (m : ExtTreeMap Nat (ExtTreeSet TaskId)) (step : Nat) : Prop :=
  ∀ (key : Nat) (id : TaskId), id ∈ bucket m key → step < key

theorem dueFree_takeDueBuckets (m : ExtTreeMap Nat (ExtTreeSet TaskId)) (step : Nat) :
    DueFree (takeDueBuckets m step).2 step := by
  intro key id hid
  rw [bucket_takeDueBuckets] at hid
  split at hid
  · simp [Bucket.empty] at hid
  · omega

variable {m : ExtTreeMap Nat (ExtTreeSet TaskId)} {step : Nat}

theorem DueFree.setSlot (h : DueFree m step) (slot : Option Nat) (taskId : TaskId) (present : Bool)
    (hslot : present = true → ∀ key, slot = some key → step < key) :
    DueFree (MutsukiRuntime.setSlot m slot taskId present) step := by
  intro key id hid
  rw [mem_bucket_setSlot] at hid
  split at hid
  · next heq => exact hslot hid key heq.1
  · exact h key id hid

theorem takeDueBuckets_of_dueFree (hpruned : Pruned (fun _ => True) m) (h : DueFree m step) :
    takeDueBuckets m step = ([], m) := by
  have hlater : ∀ (key : Nat) (ids : ExtTreeSet TaskId), m[key]? = some ids → step < key := by
    intro key ids hget
    have hne := (hpruned key ids hget).1
    obtain ⟨id, hid⟩ : ∃ id, id ∈ ids := by
      by_contra hnone
      exact hne (ExtTreeSet.eq_empty_iff_forall_not_mem.2 fun id hid => hnone ⟨id, hid⟩)
    exact h key id (by rwa [bucket_of_some m key ids hget])
  refine Prod.ext ?_ ?_
  · refine eq_nil_iff_forall_not_mem.2 ?_
    rintro ⟨id, key⟩ hmem
    obtain ⟨hle, hid⟩ := (mem_takeDueBuckets m step id key).1 hmem
    have := h key id hid
    omega
  · refine ExtTreeMap.ext_getElem? fun key => ?_
    show (m.filter fun key _ => !decide (key ≤ step))[key]? = m[key]?
    rw [ExtTreeMap.getElem?_filter']
    cases hget : m[key]? with
    | none => rfl
    | some ids =>
      have := hlater key ids hget
      simp [Option.filter_some, this]

/-! ## Sweeps and claims -/

variable {pool : TaskPool}

section Timed

-- one of the indexes by step, and the slot under which it files a record
variable {index : TaskIndexes → ExtTreeMap Nat (ExtTreeSet TaskId)}
  {slot : TaskRecord → Option Nat}
  (hindex : ∀ (idx : TaskIndexes) (r : TaskRecord) (present : Bool),
    index (idx.updateRecord r present) = setSlot (index idx) (slot r) r.task.taskId present)
  {step : Nat}

include hindex

theorem dueFree_unindexed (taskId : TaskId) (h : DueFree (index pool.indexes) step) :
    DueFree (index (pool.updateRecordIndexes taskId false).indexes) step := by
  unfold updateRecordIndexes
  split
  · rw [hindex]
    exact h.setSlot _ _ _ fun hf => by cases hf
  · exact h

theorem dueFree_rewritten (taskId : TaskId) {r' : TaskRecord}
    (hlater : ∀ key, slot r' = some key → step < key) (h : DueFree (index pool.indexes) step) :
    DueFree (index ((pool.setRecord taskId r').updateRecordIndexes taskId true).indexes) step := by
  unfold updateRecordIndexes
  have hget : (pool.setRecord taskId r').tasks[taskId]? = some r' := by
    simp [TaskPool.setRecord]
  rw [hget]
  show DueFree (index (pool.indexes.updateRecord r' true)) step
  rw [hindex]
  exact h.setSlot _ _ _ fun _ => hlater

theorem mutateOrCrash_dueFree {α : Type} (taskId : TaskId) (site : String)
    {mutate : TaskRecord → α × TaskRecord}
    (hlater : ∀ r key, slot (mutate r).2 = some key → step < key) :
    Leads (Still fun pool : TaskPool => DueFree (index pool.indexes) step)
      (mutateOrCrash taskId site mutate) := by
  unfold mutateOrCrash
  refine .bind (.attempt ?_) fun result => ?_
  · unfold mutateRecordIndexed
    refine .bind .read fun pool => ?_
    split
    · exact .fail _
    · next r _ =>
      refine .bind (.update fun pool h => dueFree_unindexed hindex taskId h) fun _ => ?_
      have hpair : Leads (Still fun pool : TaskPool => DueFree (index pool.indexes) step) (do
            Prog.update (·.setRecord taskId (mutate r).2)
            Prog.update (·.updateRecordIndexes taskId true)
            pure (mutate r).1 : PoolM α) :=
        fun pool h => dueFree_rewritten hindex taskId (hlater r) h
      exact hpair
  · split
    · exact .pure _
    · exact .crash _

theorem wakeDueTask_dueFree (currentStep : Nat) (taskId : TaskId)
    (hready : ∀ r : TaskRecord, r.status = .ready → slot r = none) :
    Leads (Still fun pool : TaskPool => DueFree (index pool.indexes) step)
      (wakeDueTask currentStep taskId) := by
  unfold wakeDueTask
  refine .bind (mutateOrCrash_dueFree hindex taskId _ fun r key hkey => ?_) fun _ =>
    .bind (.update fun _ h => h) fun _ => .update fun _ h => h
  rw [hready (readyAgain currentStep r) rfl] at hkey
  cases hkey

theorem reclaimTask_dueFree (currentStep : Nat) (reclaimed : List TaskLease) (taskId : TaskId)
    (hready : ∀ r : TaskRecord, r.status = .ready → slot r = none) :
    Leads (Still fun pool : TaskPool => DueFree (index pool.indexes) step)
      (reclaimTask currentStep reclaimed taskId) := by
  unfold reclaimTask
  refine .bind .read fun pool => ?_
  split
  · exact .pure _
  · refine .ite ?_ (.pure _)
    refine .bind (mutateOrCrash_dueFree hindex taskId _ fun r key hkey => ?_) fun _ =>
      .bind (.update fun _ h => h) fun _ => .pure _
    rw [hready (readyAgain currentStep r) rfl] at hkey
    cases hkey

theorem claim_dueFree {runner : RunnerDescriptor} {executorId : ExecutorId}
    {currentStep registryGeneration limit : Nat} {budget : Option DispatchBudget}
    {expiresAtStep : Option Nat}
    (hlater : ∀ r key, slot (leaseRecord runner
      (newLease runner executorId currentStep registryGeneration expiresAtStep r) r) = some key →
        step < key) :
    Leads (Still fun pool : TaskPool => DueFree (index pool.indexes) step)
      (claimSelected false runner executorId currentStep registryGeneration limit budget
        expiresAtStep) := by
  unfold claimSelected
  refine .bind .read fun pool => .bind (.foldEach fun counters taskId _ => ?_) fun _ =>
    .bind (.update fun _ h => h) fun _ => .pure _
  unfold claimTask
  refine .bind (.update fun pool h => dueFree_unindexed hindex taskId h) fun _ =>
    .bind .read fun pool => ?_
  split
  · exact .crash _
  · exact .ite (.crash _) fun pool h => dueFree_rewritten hindex taskId (hlater _) h

end Timed

theorem wakeStep_of_ready (r : TaskRecord) (h : r.status = .ready) : r.wakeStep = none := by
  simp [TaskRecord.wakeStep, h]

theorem leaseExpiry_of_ready (r : TaskRecord) (h : r.status = .ready) : r.leaseExpiry = none := by
  simp [TaskRecord.leaseExpiry, h]

/-- No suspended task is due, and no lease has expired. -/
structure Swept (pool : TaskPool) (step : Nat) : Prop where
  wake : DueFree pool.indexes.wakeByStep step
  leases : DueFree pool.indexes.leasesByExpiry step

theorem wakeDueTasks_dueFree (pool : TaskPool) (step : Nat) :
    DueFree ((wakeDueTasks step).run pool).2.indexes.wakeByStep step ∧
      (DueFree pool.indexes.leasesByExpiry step →
        DueFree ((wakeDueTasks step).run pool).2.indexes.leasesByExpiry step) := by
  unfold wakeDueTasks
  rw [run_read_bind]
  dsimp only
  rw [run_update_bind]
  have hrest : ∀ {I : TaskPool → Prop}, (∀ taskId, Leads (Still I) (wakeDueTask step taskId)) →
      Leads (Still I) (do
        Prog.forEach (takeDueBuckets pool.indexes.wakeByStep step).1 fun due =>
          wakeDueTask step due.1
        pure (takeDueBuckets pool.indexes.wakeByStep step).1 : PoolM (List (TaskId × Nat))) :=
    fun hwake => .bind (.forEach fun due _ => hwake due.1) fun _ => .pure _
  constructor
  · exact hrest (fun taskId => wakeDueTask_dueFree TaskIndexes.updateRecord_wakeByStep step taskId
      wakeStep_of_ready) _ (dueFree_takeDueBuckets _ step)
  · intro h
    exact hrest (fun taskId => wakeDueTask_dueFree TaskIndexes.updateRecord_leasesByExpiry step
      taskId leaseExpiry_of_ready) _ h

theorem reclaimExpiredTaskLeases_dueFree (pool : TaskPool) (step : Nat) :
    DueFree ((reclaimExpiredTaskLeases step).run pool).2.indexes.leasesByExpiry step ∧
      (DueFree pool.indexes.wakeByStep step →
        DueFree ((reclaimExpiredTaskLeases step).run pool).2.indexes.wakeByStep step) := by
  unfold reclaimExpiredTaskLeases
  rw [run_read_bind]
  dsimp only
  rw [run_update_bind]
  have hrest : ∀ {index : TaskIndexes → ExtTreeMap Nat (ExtTreeSet TaskId)}, (∀ reclaimed taskId,
        Leads (Still fun p : TaskPool => DueFree (index p.indexes) step)
          (reclaimTask step reclaimed taskId)) →
      Leads (Still fun p : TaskPool => DueFree (index p.indexes) step) (do
        let reclaimed ← Prog.foldEach
          ((takeDueBuckets pool.indexes.leasesByExpiry step).1.map (·.1)) [] (reclaimTask step)
        Prog.forEach reclaimed fun lease => Prog.update (·.recordAttemptFinished lease step)
        pure reclaimed : PoolM (List TaskLease)) :=
    fun hreclaim => .bind (.foldEach fun reclaimed taskId _ => hreclaim reclaimed taskId)
      fun _ => .bind (.forEach fun _ _ => .update fun _ h => h) fun _ => .pure _
  constructor
  · exact hrest (fun reclaimed taskId => reclaimTask_dueFree
      TaskIndexes.updateRecord_leasesByExpiry step reclaimed taskId leaseExpiry_of_ready) _
      (dueFree_takeDueBuckets _ step)
  · intro h
    exact hrest (fun reclaimed taskId => reclaimTask_dueFree
      TaskIndexes.updateRecord_wakeByStep step reclaimed taskId wakeStep_of_ready) _ h

/-- A claim in a pass at `step` whose leases expire later, if ever. -/
def ClaimsAt (step : Nat) : PoolOp → Prop
  | .claimReady _ _ currentStep _ _ _ expiresAtStep =>
    currentStep = step ∧ ∀ expiresAt, expiresAtStep = some expiresAt → step < expiresAt
  | _ => False

theorem Swept.claim (h : pool.Swept step) {op : PoolOp} (hop : ClaimsAt step op) :
    (op.exec.run pool).2.Swept step := by
  cases op with
  | claimReady runner executorId currentStep registryGeneration limit budget expiresAtStep =>
    obtain ⟨rfl, hlater⟩ := hop
    refine claimReady_state (P := (Swept · currentStep)) h ?_
    constructor
    · exact claim_dueFree TaskIndexes.updateRecord_wakeByStep (fun r key hkey => by cases hkey)
        pool h.wake
    · exact claim_dueFree TaskIndexes.updateRecord_leasesByExpiry (fun _ => hlater) pool h.leases
  | _ => exact hop.elim

theorem Swept.claims (h : pool.Swept step) {ops : List PoolOp}
    (hops : ∀ op ∈ ops, ClaimsAt step op) : (runOps ops pool).Swept step := by
  induction ops generalizing pool with
  | nil => exact h
  | cons op ops ih =>
    exact ih (h.claim (hops op (by simp))) fun op' hop => hops op' (by simp [hop])

/-- The two sweeps of a step, in either order. -/
def Sweeps (step : Nat) (ops : List PoolOp) : Prop :=
  ops = [.wakeDueTasks step, .reclaimExpiredTaskLeases step] ∨
    ops = [.reclaimExpiredTaskLeases step, .wakeDueTasks step]

theorem swept_of_sweeps (pool : TaskPool) {ops : List PoolOp} (hops : Sweeps step ops) :
    (runOps ops pool).Swept step := by
  have hwake : ∀ p : TaskPool, ((PoolOp.wakeDueTasks step).exec.run p).2 =
      ((wakeDueTasks step).run p).2 := fun p => state_discard _ p
  have hreclaim : ∀ p : TaskPool, ((PoolOp.reclaimExpiredTaskLeases step).exec.run p).2 =
      ((reclaimExpiredTaskLeases step).run p).2 := fun p => state_discard _ p
  rcases hops with rfl | rfl
  · simp only [runOps, foldl_cons, foldl_nil, hwake, hreclaim]
    have hleases := reclaimExpiredTaskLeases_dueFree ((wakeDueTasks step).run pool).2 step
    exact ⟨hleases.2 (wakeDueTasks_dueFree pool step).1, hleases.1⟩
  · simp only [runOps, foldl_cons, foldl_nil, hwake, hreclaim]
    have hwakes := wakeDueTasks_dueFree ((reclaimExpiredTaskLeases step).run pool).2 step
    exact ⟨hwakes.1, hwakes.2 (reclaimExpiredTaskLeases_dueFree pool step).1⟩

/-! ## The next required step -/

theorem nextBucketAfter_le {key : Nat} {id : TaskId} (hid : id ∈ bucket m key) (hlt : step < key) :
    ∃ next, nextBucketAfter m step = some next ∧ next ≤ key := by
  have hkey : key ∈ m.keys := by
    rw [ExtTreeMap.mem_keys]
    by_contra hnot
    rw [bucket_of_none m key (ExtTreeMap.getElem?_eq_none hnot)] at hid
    simp [Bucket.empty] at hid
  have hordered : m.keys.Pairwise fun a b => a < b :=
    ExtTreeMap.ordered_keys.imp fun h => Std.compare_eq_lt.1 h
  unfold nextBucketAfter
  cases hfind : m.keys.find? fun k => decide (step < k) with
  | none => exact absurd (decide_eq_true hlt) (find?_eq_none.1 hfind key hkey)
  | some next =>
    refine ⟨next, rfl, ?_⟩
    obtain ⟨-, before, after, hsplit, hskipped⟩ := find?_eq_some_iff_append.1 hfind
    rw [hsplit] at hkey hordered
    rcases mem_append.1 hkey with hbefore | hrest
    · have := hskipped key hbefore
      simp [hlt] at this
    · rcases mem_cons.1 hrest with rfl | hafter
      · exact le_rfl
      · have hhead := (pairwise_append.1 hordered).2.1
        exact ((pairwise_cons.1 hhead).1 key hafter).le

/-- What lies ahead in one of the three indexes lies behind `t`, if the next step does. -/
theorem lt_of_next {idx : TaskIndexes} {t : Nat}
    (hnext : ∀ next, idx.nextRequiredStepAfter step = some next → t < next)
    (hm : m = idx.readyByStep ∨ m = idx.wakeByStep ∨ m = idx.leasesByExpiry) {key : Nat}
    {taskId : TaskId} (hid : taskId ∈ bucket m key) (hlt : step < key) : t < key := by
  obtain ⟨first, hfirst, hle⟩ := nextBucketAfter_le hid hlt
  have hmem : first ∈ [nextBucketAfter idx.readyByStep step, nextBucketAfter idx.wakeByStep step,
      nextBucketAfter idx.leasesByExpiry step].filterMap id := by
    refine mem_filterMap.2 ⟨some first, ?_, rfl⟩
    rcases hm with rfl | rfl | rfl <;> simp [hfirst]
  cases hmin : idx.nextRequiredStepAfter step with
  | none =>
    rw [TaskIndexes.nextRequiredStepAfter, min?_eq_none_iff] at hmin
    rw [hmin] at hmem
    cases hmem
  | some next =>
    have hless : next ≤ first := (min?_eq_some_iff.1 hmin).2 first hmem
    have := hnext next hmin
    omega

section Sleeping

variable {pool : TaskPool} {step t u : Nat}

theorem Swept.later (h : pool.Swept step)
    (hnext : ∀ next, pool.indexes.nextRequiredStepAfter step = some next → t < next)
    (hle : u ≤ t) : pool.Swept u where
  wake key _ hid := by
    have := lt_of_next hnext (.inr (.inl rfl)) hid (h.wake key _ hid)
    omega
  leases key _ hid := by
    have := lt_of_next hnext (.inr (.inr rfl)) hid (h.leases key _ hid)
    omega

theorem Swept.wakeDueTasks_run (h : pool.Swept step) (hgood : Good pool) :
    (wakeDueTasks step).run pool = (.ok [], pool) := by
  unfold wakeDueTasks
  rw [run_read_bind, takeDueBuckets_of_dueFree hgood.indexes.wake.pruned h.wake]
  rfl

theorem Swept.reclaim_run (h : pool.Swept step) (hgood : Good pool) :
    (reclaimExpiredTaskLeases step).run pool = (.ok [], pool) := by
  unfold reclaimExpiredTaskLeases
  rw [run_read_bind, takeDueBuckets_of_dueFree hgood.indexes.leases.pruned h.leases]
  rfl

variable (hgood : Good pool)
  (hnext : ∀ next, pool.indexes.nextRequiredStepAfter step = some next → t < next)
  (hlt : step < u) (hle : u ≤ t)

include hgood hnext hlt hle

/-- A ready record is due at `u` if it is due at `step`. -/
theorem readyStep_le_iff {id : TaskId} {r : TaskRecord} (hr : pool.tasks[id]? = some r)
    (hready : r.status = .ready) :
    r.task.readyAtStep.getD 0 ≤ u ↔ r.task.readyAtStep.getD 0 ≤ step := by
  cases hat : r.task.readyAtStep with
  | none => simp
  | some key =>
    rw [Option.getD_some]
    by_cases hahead : step < key
    · have hid : id ∈ bucket pool.indexes.readyByStep key := by
        refine (hgood.indexes.readyStep.mem_iff key id).2 ⟨r, hr, ?_, fun hf => hf⟩
        rw [TaskRecord.readyStep, if_pos hready, hat]
      have := lt_of_next hnext (.inl rfl) hid hahead
      omega
    · omega

theorem eligible_later (runner : RunnerDescriptor) (registryGeneration : Nat)
    {id : TaskId} {r : TaskRecord} (hr : pool.tasks[id]? = some r) :
    eligible runner u registryGeneration r = eligible runner step registryGeneration r := by
  by_cases hready : r.status = .ready
  · have hdue := readyStep_le_iff hgood hnext hlt hle hr hready
    simp only [eligible, hdue]
  · have hnot : (r.status == .ready) = false := beq_eq_false_iff_ne.2 hready
    simp only [eligible, hnot, Bool.false_and]

theorem visitCandidateRecords_later {β : Type} (runner : RunnerDescriptor)
    (registryGeneration : Nat) (visit : β → TaskRecord → β × Bool) (acc : β) :
    pool.visitCandidateRecords runner u registryGeneration visit acc =
      pool.visitCandidateRecords runner step registryGeneration visit acc := by
  unfold visitCandidateRecords
  refine KMerge.merge_congr ?_ ?_ acc
  · intro queue hqueue
    obtain ⟨q, -, rfl⟩ := mem_map.1 hqueue
    exact sorted_toList q
  · intro queue hqueue key hkey
    obtain ⟨q, hq, rfl⟩ := mem_map.1 hqueue
    -- every key of the runner's queues is the key of a ready record
    have hmem : key ∈ (pool.indexes.readyDispatchQueues runner).flatMap (·.toList) :=
      mem_flatMap.2 ⟨q, hq, hkey⟩
    rw [flatMap_readyDispatchQueues _ _ _ (by simp [Bucket.empty])] at hmem
    simp only [mem_flatMap, ExtTreeSet.mem_toList] at hmem
    obtain ⟨p, -, s, -, hk⟩ := hmem
    obtain ⟨r, hr, ⟨hready, -, -⟩, rfl⟩ := (hgood.indexes.queues.mem_iff p s key).1 hk
    have hdue := readyStep_le_iff hgood hnext hlt hle hr hready
    exact decide_eq_decide.2 hdue

theorem selectCandidateIds_later (runner : RunnerDescriptor)
    (registryGeneration limit : Nat) (budget : Option DispatchBudget) :
    pool.selectCandidateIds runner u registryGeneration limit budget =
      pool.selectCandidateIds runner step registryGeneration limit budget := by
  unfold selectCandidateIds
  simp only [visitCandidateRecords_later hgood hnext hlt hle]

end Sleeping

/-- After the sweeps and any claims of a step, a driver may sleep until the next required step:
    before it the sweeps change nothing, and every runner may claim what it may claim now. -/
theorem sleeping_misses_nothing (ops sweeps claims : List PoolOp) (step t : Nat)
    (hsweeps : Sweeps step sweeps) (hclaims : ∀ op ∈ claims, ClaimsAt step op) :
    let pool := runOps (ops ++ sweeps ++ claims) {}
    (∀ next, pool.indexes.nextRequiredStepAfter step = some next → t < next) →
    ∀ u, step < u → u ≤ t → (wakeDueTasks u).run pool = (.ok [], pool) ∧
      (reclaimExpiredTaskLeases u).run pool = (.ok [], pool) ∧
      ∀ (runner : RunnerDescriptor) (registryGeneration : Nat),
        (∀ (id : TaskId) (r : TaskRecord), pool.tasks[id]? = some r →
          eligible runner u registryGeneration r = eligible runner step registryGeneration r) ∧
        ∀ (limit : Nat) (budget : Option DispatchBudget),
          pool.selectCandidateIds runner u registryGeneration limit budget =
            pool.selectCandidateIds runner step registryGeneration limit budget := by
  intro pool hnext u hlt hle
  have hgood : Good pool := runOps_good _ good_empty
  have hswept : pool.Swept step := by
    have hrun : pool = runOps claims (runOps sweeps (runOps ops {})) := by
      simp only [pool, runOps, foldl_append]
    rw [hrun]
    exact (swept_of_sweeps _ hsweeps).claims hclaims
  have hlater : pool.Swept u := hswept.later hnext hle
  refine ⟨hlater.wakeDueTasks_run hgood, hlater.reclaim_run hgood, fun runner generation => ?_⟩
  exact ⟨fun id r hr => eligible_later hgood hnext hlt hle runner generation hr,
    selectCandidateIds_later hgood hnext hlt hle runner generation⟩

/-- A task that waits until step 6 and one whose lease lasts until step 9: from step 2 on nothing
    happens up to step 5. -/
theorem sleeping_misses_nothing_sample :
    let ops : List PoolOp :=
      [ .enqueueAt { taskId := "t.1", protocolId := "p.mail", payload := .null } 0
      , .enqueueAt { taskId := "t.2", protocolId := "p.sms", payload := .null,
                     readyAtStep := some 6 } 0 ]
    let sweeps : List PoolOp := [.reclaimExpiredTaskLeases 2, .wakeDueTasks 2]
    let claims : List PoolOp := [.claimReady sampleRunner "exec" 2 1 4 none (some 9)]
    let pool := runOps (ops ++ sweeps ++ claims) {}
    pool.indexes.nextRequiredStepAfter 2 = some 6 ∧ (wakeDueTasks 5).run pool = (.ok [], pool) ∧
      (reclaimExpiredTaskLeases 5).run pool = (.ok [], pool) := by
  intro ops sweeps claims pool
  have hnext : pool.indexes.nextRequiredStepAfter 2 = some 6 := by decide +kernel
  have hsleep := sleeping_misses_nothing ops sweeps claims 2 5 (.inr rfl) (fun op hop => by
      rw [mem_singleton.1 hop]
      exact ⟨rfl, fun expiresAt he => by cases he; decide⟩)
    (fun next hsome => by
      rw [show runOps (ops ++ sweeps ++ claims) {} = pool from rfl, hnext] at hsome
      cases hsome
      decide) 5 (by decide) (by decide)
  exact ⟨hnext, hsleep.1, hsleep.2.1⟩

end TaskPool

end MutsukiRuntime
