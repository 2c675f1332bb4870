/-
  EDITS: what a pool operation can do to the record of one task.
-/
import MutsukiRuntime.Core.TaskPool.Counters
import MutsukiRuntime.Core.TaskPool.Fencing

namespace MutsukiRuntime

open Std Buckets Board Prog List Option

/-- The edits of a record, by what they are for. -/
inductive EditKind where
  | claim
  | finish
  | suspend
  | ready
  | defer
  | rebind
  deriving DecidableEq, Repr

namespace PoolOp

/-- The operation defers an attempt of this task, if it succeeds. -/
def Defers (op : PoolOp) (taskId : TaskId) : Prop :=
  match op with
  | .deferLeased lease _ => lease.taskId = taskId
  | _ => False

/-- An operation makes edits of one kind, or none. -/
def editKind : PoolOp → Option EditKind
  | .claimReady .. => some .claim
  | .complete .. | .fail .. | .cancelTask .. | .rejectReady .. | .cancelByCore ..
  | .expireByCore .. | .deadLetterByCore .. | .abortAll .. => some .finish
  | .wait .. | .waitOnTask .. | .block .. => some .suspend
  | .deferLeased .. => some .defer
  | .wake .. | .wakeDueTasks .. | .cancelRunningInvocation ..
  | .reclaimExpiredTaskLeases .. => some .ready
  | .rebindReadyGeneration .. => some .rebind
  | .enqueueAt .. | .configureHistoryRetention .. | .takeWaitsForChild ..
  | .recordStaleResultRejection => none

/-- The edits an operation makes to the record of a task. -/
def Makes (op : PoolOp) (taskId : TaskId) (kind : EditKind) : Prop :=
  op.editKind = some kind ∧ (kind = .defer → op.Defers taskId)

end PoolOp

namespace TaskPool

/-! ## Edits -/

/-- One edit of a record.  A claim is made by the runner of the task's hint, if it has one, and
    by the owner of the record, if it has one. -/
inductive Edit : EditKind → TaskRecord → TaskRecord → Prop where
  | claim (r : TaskRecord) (runner : RunnerDescriptor) (executorId : ExecutorId)
      (step registryGeneration : Nat) (expiresAtStep : Option Nat)
      (hselector : readySelectorOf r ∈ buildReadySelectors runner.runnerId) :
      Edit .claim r (leaseRecord runner
        (newLease runner executorId step registryGeneration expiresAtStep r) r)
  | finish (r : TaskRecord) (output : Option Value) {status : TaskStatus}
      (failure : Option RuntimeError) (hterm : isTerminalStatus status = true) :
      Edit .finish r (markTerminalRecord { r with output } status failure)
  | reject (r : TaskRecord) (failure : RuntimeError) :
      Edit .finish r { r with status := .failed, failure := some failure }
  | suspend (r : TaskRecord) {status : TaskStatus} (readyAtStep : Option Nat)
      (continuationRef : Option String) (hs : status = .waiting ∨ status = .blocked) :
      Edit .suspend r (releaseRecordLease
        { r with status, task := { r.task with readyAtStep, continuationRef } })
  | readyAgain (r : TaskRecord) (currentStep : Nat) :
      Edit .ready r (TaskPool.readyAgain currentStep r)
  | defer (r : TaskRecord) (currentStep : Nat) :
      Edit .defer r (clearRecordOwner (releaseRecordLease
        { r with status := .ready, readySinceStep := currentStep }))
  | rebind (r : TaskRecord) (registryGeneration : Nat) :
      Edit .rebind r { r with task := { r.task with registryGeneration } }

/-- Any number of edits of the given kinds. -/
def Edits (kinds : EditKind → Prop) : TaskRecord → TaskRecord → Prop :=
  Relation.ReflTransGen fun r r' => ∃ kind, kinds kind ∧ Edit kind r r'

variable {r r' : TaskRecord}

variable {kinds : EditKind → Prop} {op : PoolOp} {ops : List PoolOp}

theorem Edits.mono {kinds' : EditKind → Prop} (h : Edits kinds r r')
    (hle : ∀ kind, kinds kind → kinds' kind) : Edits kinds' r r' := by
  refine Relation.ReflTransGen.mono ?_ _ _ h
  intro a b hab
  obtain ⟨kind, hkind, hedit⟩ := hab
  exact ⟨kind, hle kind hkind, hedit⟩

variable {P : TaskRecord → Prop}

theorem Edits.preserves (h : Edits kinds r r')
    (hedit : ∀ kind r r', kinds kind → Edit kind r r' → P r → P r') (hP : P r) : P r' := by
  induction h with
  | refl => exact hP
  | tail _ hab ih =>
    obtain ⟨kind, hkind, he⟩ := hab
    exact hedit kind _ _ hkind he ih

/-- Every record was there before and has been edited; none has been added. -/
def Edited (makes : TaskId → EditKind → Prop) (pool pool' : TaskPool) : Prop :=
  ∀ (id : TaskId) r', pool'.tasks[id]? = some r' →
    ∃ r, pool.tasks[id]? = some r ∧ Edits (makes id) r r'

variable {taskId : TaskId} {kind : EditKind}

section Edited

variable {makes : TaskId → EditKind → Prop} {pool pool' : TaskPool}

theorem edited_of_tasks (h : pool'.tasks = pool.tasks) : Edited makes pool pool' := by
  intro id r hr
  rw [h] at hr
  exact ⟨r, hr, .refl⟩

instance : IsPreorder TaskPool (Edited makes) where
  refl _ := edited_of_tasks rfl
  trans pool pool' pool'' h h' := by
    intro id r'' hr''
    obtain ⟨r', hr', hlater⟩ := h' id r'' hr''
    obtain ⟨r, hr, hfirst⟩ := h id r' hr'
    exact ⟨r, hr, hfirst.trans hlater⟩

theorem edited_insert (hr : pool.tasks[taskId]? = some r) (hkind : makes taskId kind)
    (hedit : Edit kind r r') (htasks : pool'.tasks = pool.tasks.insert taskId r') :
    Edited makes pool pool' := by
  intro id v hv
  rw [htasks, getElem?_insert_ite] at hv
  split at hv
  next hid =>
    cases hv
    subst hid
    exact ⟨r, hr, .single ⟨kind, hkind, hedit⟩⟩
  · exact ⟨v, hv, .refl⟩

theorem edited_map {f : TaskRecord → TaskRecord} (hkind : ∀ id, makes id kind)
    (hf : ∀ r, f r = r ∨ Edit kind r (f r))
    (htasks : ∀ id : TaskId, pool'.tasks[id]? = pool.tasks[id]?.map f) :
    Edited makes pool pool' := by
  intro id v hv
  rw [htasks] at hv
  obtain ⟨r, hr, rfl⟩ := map_eq_some_iff.1 hv
  refine ⟨r, hr, ?_⟩
  rcases hf r with hsame | hedit
  · rw [hsame]
    exact .refl
  · exact .single ⟨kind, hkind id, hedit⟩

end Edited

/-! ## Known ids -/

/-- No task has been enqueued, and no id has become known. -/
structure Shrinks (pool pool' : TaskPool) : Prop where
  sequence : pool'.nextSequence = pool.nextSequence
  known : ∀ id, pool'.containsTaskId id = true → pool.containsTaskId id = true

instance : IsPreorder TaskPool Shrinks where
  refl _ := ⟨rfl, fun _ h => h⟩
  trans _ _ _ h h' := ⟨h'.sequence.trans h.sequence, fun id hid => h.known id (h'.known id hid)⟩

variable {id : TaskId}

section Shrinks

variable {pool pool' : TaskPool}

theorem containsTaskId_iff :
    pool.containsTaskId id = true ↔ id ∈ pool.tasks ∨ id ∈ pool.evictedTaskIds := by
  unfold containsTaskId
  rw [Bool.or_eq_true, ExtTreeMap.mem_iff_contains, ExtTreeSet.mem_iff_contains]

theorem mem_tasks_of_getElem? (hr : pool.tasks[id]? = some r) : id ∈ pool.tasks := by
  rw [ExtTreeMap.mem_iff_isSome_getElem?, hr]
  rfl

/-- The records are under ids that had one, and evicted ids were known. -/
theorem Edited.shrinks {makes : TaskId → EditKind → Prop} (h : Edited makes pool pool')
    (hsequence : pool'.nextSequence = pool.nextSequence)
    (hevicted : ∀ id ∈ pool'.evictedTaskIds, id ∈ pool.tasks ∨ id ∈ pool.evictedTaskIds) :
    Shrinks pool pool' := by
  refine ⟨hsequence, fun id hid => containsTaskId_iff.2 ?_⟩
  rcases containsTaskId_iff.1 hid with hmem | hmem
  · obtain ⟨r, hr, -⟩ := h id _ (ExtTreeMap.getElem?_eq_some_getElem hmem)
    exact .inl (mem_tasks_of_getElem? hr)
  · exact hevicted id hmem

end Shrinks

/-! ## Revisions -/

/-- Records are edited or dropped, no id becomes known and the counters stay right. -/
structure Revises (makes : TaskId → EditKind → Prop) (pool pool' : TaskPool) : Prop where
  edited : Edited makes pool pool'
  shrinks : Shrinks pool pool'
  counts : Counts pool pool'

/-- What a revision is about. -/
def ledger (pool : TaskPool) : TaskMap × Nat × ExtTreeSet TaskId × TaskPoolStatistics :=
  (pool.tasks, pool.nextSequence, pool.evictedTaskIds, pool.statistics)

section Revises

variable {makes : TaskId → EditKind → Prop} {pool pool' : TaskPool}

instance : IsPreorder TaskPool (Revises makes) where
  refl pool := ⟨refl_of (Edited makes) pool, refl_of Shrinks pool, refl_of Counts pool⟩
  trans _ _ _ h h' := ⟨trans_of (Edited makes) h.edited h'.edited,
    trans_of Shrinks h.shrinks h'.shrinks, trans_of Counts h.counts h'.counts⟩

theorem revises_of_same (htasks : pool'.tasks = pool.tasks)
    (hsequence : pool'.nextSequence = pool.nextSequence)
    (hevicted : ∀ id ∈ pool'.evictedTaskIds, id ∈ pool.evictedTaskIds)
    (hstatistics : pool.statistics.SameCounts pool'.statistics) : Revises makes pool pool' :=
  ⟨edited_of_tasks htasks, (edited_of_tasks htasks : Edited makes pool pool').shrinks hsequence
      fun id hid => .inr (hevicted id hid),
    counts_of_same htasks hstatistics⟩

theorem revises_of_ledger (h : pool'.ledger = pool.ledger) : Revises makes pool pool' := by
  have htasks : pool'.tasks = pool.tasks := congrArg (·.1) h
  have hsequence : pool'.nextSequence = pool.nextSequence := congrArg (·.2.1) h
  have hevicted : pool'.evictedTaskIds = pool.evictedTaskIds := congrArg (·.2.2.1) h
  have hstatistics : pool'.statistics = pool.statistics := congrArg (·.2.2.2) h
  refine revises_of_same htasks hsequence (fun id hid => hevicted ▸ hid) ?_
  rw [hstatistics]
  exact TaskPoolStatistics.sameCounts_refl _

theorem revises_frame {f : TaskPool → TaskPool} (h : ∀ pool, (f pool).ledger = pool.ledger) :
    Leads (Revises makes) (Prog.update f : PoolM Unit) :=
  .update fun pool => revises_of_ledger (h pool)

theorem revises_recordAttemptFinished (lease : TaskLease) (currentStep : Nat) :
    Leads (Revises makes) (Prog.update (·.recordAttemptFinished lease currentStep) : PoolM Unit) :=
  .update fun pool => revises_of_same rfl rfl (fun _ hid => hid)
    (pool.statistics.sameCounts_recordAttemptFinished lease currentStep)

variable {target : TaskStatus}

/-- A record is replaced by its edit, and its change of status counted. -/
theorem revises_replace {source : TaskStatus} (hr : pool.tasks[taskId]? = some r)
    (hkind : makes taskId kind) (hedit : Edit kind r r')
    (hok : RecordOk r → RecordOk r' ∧ r.status = source) (htarget : r'.status = target)
    (htasks : pool'.tasks = pool.tasks.insert taskId r')
    (hsequence : pool'.nextSequence = pool.nextSequence)
    (hevicted : pool'.evictedTaskIds = pool.evictedTaskIds)
    (hstatistics : (pool.statistics.recordStatusTransition (some source) (some target)).SameCounts
      pool'.statistics) : Revises makes pool pool' := by
  have hedited : Edited makes pool pool' := edited_insert hr hkind hedit htasks
  exact ⟨hedited, hedited.shrinks hsequence fun id hid => .inr (hevicted ▸ hid),
    counts_replace hr hok htarget htasks hstatistics⟩

theorem revises_evictRecord (hr : pool.tasks[taskId]? = some r) (retention : TaskHistoryRetention) :
    Revises makes pool (pool.evictRecord taskId r.status retention) := by
  obtain ⟨htasks, hsequence, hevicted, -⟩ := evictRecord_fields pool taskId r.status retention
  have hedited : Edited makes pool (pool.evictRecord taskId r.status retention) := by
    intro id v hv
    rw [htasks, getElem?_erase_ite] at hv
    split at hv
    · cases hv
    · exact ⟨v, hv, .refl⟩
  refine ⟨hedited, hedited.shrinks hsequence fun id hid => ?_, counts_evictRecord hr retention⟩
  rcases hevicted id hid with rfl | hold
  · exact .inl (mem_tasks_of_getElem? hr)
  · exact .inr hold

/-! ## The bounded history -/

theorem revises_compactLoop (retention : TaskHistoryRetention) (fuel examined : Nat) :
    Leads (Revises makes) (compactLoop retention fuel examined) := by
  induction fuel generalizing examined with
  | zero => exact .pure ()
  | succ fuel ih =>
    refine .read_bind fun pool => ?_
    have hself := refl_of (Revises makes) pool
    split
    · split
      · exact hself
      next taskId rest _ =>
        split
        · refine trans_of (Revises makes) ?_ (ih (examined + 1) _)
          exact revises_of_ledger rfl
        · split
          · exact revises_of_ledger rfl
          next r hr =>
            -- the record is read before its id leaves the order
            have hpopped : Revises makes pool { pool with terminalOrder := rest } :=
              revises_of_ledger rfl
            have hr' : { pool with terminalOrder := rest }.tasks[taskId]? = some r := hr
            exact trans_of (Revises makes) (trans_of (Revises makes) hpopped
              (revises_evictRecord hr' retention)) (ih 0 _)
    · exact hself

theorem revises_compactTerminalHistory : Leads (Revises makes) compactTerminalHistory := by
  refine .bind .read fun pool => ?_
  split
  · exact .pure ()
  · exact revises_compactLoop _ _ _

theorem revises_recordTerminalTask (taskId : TaskId) :
    Leads (Revises makes) (recordTerminalTask taskId) :=
  .bind .read fun _ => .ite
    (.bind (revises_frame fun _ => rfl) fun _ => revises_compactTerminalHistory) (.pure ())

/-! ## Edits that are counted -/

/-- A record is edited, and the change of its status counted before anything else. -/
theorem revises_mutateRecordIndexed {α β : Type}
    {mutate : TaskRecord → Except RuntimeError (α × TaskRecord)} (source : α → TaskStatus)
    {k : α → PoolM β} (hkind : makes taskId kind)
    (h : ∀ r value r', mutate r = .ok (value, r') → Edit kind r r' ∧
      (RecordOk r → RecordOk r' ∧ r.status = source value) ∧ r'.status = target)
    (hk : ∀ value, Leads (Revises makes) (k value)) :
    Leads (Revises makes) (do
      let value ← mutateRecordIndexed taskId mutate
      Prog.update (·.countTransition (source value) target)
      k value) := by
  intro pool
  cases hr : pool.tasks[taskId]? with
  | none =>
    rw [run_bind_of_err (mutateRecordIndexed_run_missing hr)]
    exact refl_of (Revises makes) pool
  | some r =>
    cases hm : mutate r with
    | ok result =>
      obtain ⟨hedit, hok, htarget⟩ := h r result.1 result.2 hm
      rw [run_bind_of_ok (mutateRecordIndexed_run_ok hr hm), run_update_bind]
      refine trans_of (Revises makes) ?_ (hk result.1 _)
      exact revises_replace hr hkind hedit hok htarget rfl rfl rfl
        (TaskPoolStatistics.sameCounts_refl _)
    | error failure =>
      have hrun : (mutateRecordIndexed taskId mutate).run pool = (.err failure,
          (pool.updateRecordIndexes taskId false).updateRecordIndexes taskId true) := by
        simp [mutateRecordIndexed, hr, hm]
      obtain ⟨removed, hremoved⟩ := exists_updateRecordIndexes pool taskId false
      obtain ⟨added, hadded⟩ := exists_updateRecordIndexes { pool with indexes := removed }
        taskId true
      rw [run_bind_of_err hrun, hremoved, hadded]
      exact revises_of_ledger rfl

variable {site : String} {lease : TaskLease}

theorem mutateOrCrash_run_missing {α : Type} {mutate : TaskRecord → α × TaskRecord}
    (hr : pool.tasks[taskId]? = none) :
    (mutateOrCrash taskId site mutate).run pool = (.panic site, pool) := by
  simp [mutateOrCrash, mutateRecordIndexed, run_bind, run_attempt, hr]

theorem mutateOrCrash_run_ok {α : Type} {mutate : TaskRecord → α × TaskRecord}
    (hr : pool.tasks[taskId]? = some r) :
    (mutateOrCrash taskId site mutate).run pool =
      (.ok (mutate r).1, pool.replaceRecord taskId r (mutate r).2) := by
  have hrun : (mutateRecordIndexed taskId fun r => .ok (mutate r)).run pool =
      (.ok (mutate r).1, pool.replaceRecord taskId r (mutate r).2) :=
    mutateRecordIndexed_run_ok hr rfl
  unfold mutateOrCrash
  rw [run_bind, run_attempt, hrun]
  rfl

theorem revises_mutateOrCrash {α β : Type} {mutate : TaskRecord → α × TaskRecord}
    (source : α → TaskStatus) {k : α → PoolM β} (hkind : makes taskId kind)
    (h : ∀ r, pool.tasks[taskId]? = some r → Edit kind r (mutate r).2 ∧
      (RecordOk r → RecordOk (mutate r).2 ∧ r.status = source (mutate r).1) ∧
      (mutate r).2.status = target) (hk : ∀ value, Leads (Revises makes) (k value)) :
    Revises makes pool ((do
      let value ← mutateOrCrash taskId site mutate
      Prog.update (·.countTransition (source value) target)
      k value : PoolM β).run pool).2 := by
  cases hr : pool.tasks[taskId]? with
  | none =>
    rw [run_bind, mutateOrCrash_run_missing hr]
    exact refl_of (Revises makes) pool
  | some r =>
    obtain ⟨hedit, hok, htarget⟩ := h r hr
    rw [run_bind_of_ok (mutateOrCrash_run_ok hr), run_update_bind]
    refine trans_of (Revises makes) ?_ (hk _ _)
    exact revises_replace hr hkind hedit hok htarget rfl rfl rfl
      (TaskPoolStatistics.sameCounts_refl _)

theorem revises_map {f : TaskRecord → TaskRecord} (hkind : ∀ id, makes id kind)
    (hf : ∀ r, f r = r ∨ Edit kind r (f r)) (htasks : pool'.tasks = pool.tasks.map fun _ r => f r)
    (hsequence : pool'.nextSequence = pool.nextSequence)
    (hevicted : pool'.evictedTaskIds = pool.evictedTaskIds) (hcounts : Counts pool pool') :
    Revises makes pool pool' := by
  have hedited : Edited makes pool pool' := by
    refine edited_map hkind hf fun id => ?_
    rw [htasks, ExtTreeMap.getElem?_map]
  exact ⟨hedited, hedited.shrinks hsequence fun id hid => .inr (hevicted ▸ hid), hcounts⟩

/-! ## Operations -/

theorem revises_endAttempt {currentStep : Nat} {action : String}
    {edit : TaskRecord → TaskRecord} (hkind : makes lease.taskId kind)
    (htarget : target ≠ .created ∧ target ≠ .running)
    (h : ∀ r, Edit kind r (edit r) ∧ (edit r).lease = none ∧ (edit r).claimedBy = none ∧
      (edit r).status = target) :
    Leads (Revises makes) (endAttempt lease currentStep action target edit) := by
  refine revises_mutateRecordIndexed (fun _ => .running) hkind (fun r value r' hm => ?_)
    fun _ => revises_recordAttemptFinished lease currentStep
  unfold leasedEdit at hm
  split at hm
  next hvalid =>
    cases hm
    obtain ⟨hedit, hlease, hclaimed, hstatus⟩ := h r
    refine ⟨hedit, fun _ => ⟨?_, ?_⟩, hstatus⟩
    · rw [← hstatus] at htarget
      exact recordOk_idle hlease hclaimed htarget.1 htarget.2
    · unfold validateRecordLease at hvalid
      split at hvalid
      · next ha => exact (leaseActive_iff.1 ha).1
      · cases hvalid
  · cases hm

/-- What a leased operation makes of its record. -/
def leasedKind : LeasedOp → EditKind
  | .complete _ | .fail _ | .cancelTask => .finish
  | .wait _ | .waitOnTask _ | .block => .suspend
  | .deferLeased => .defer

theorem revises_leased (op : LeasedOp) (hkind : makes lease.taskId (leasedKind op))
    (currentStep : Nat) : Leads (Revises makes) (op.exec lease currentStep) := by
  cases op with
  | complete output =>
    exact .bind (revises_endAttempt hkind (by decide)
      fun r => ⟨.finish r output none rfl, rfl, rfl, rfl⟩) fun _ => revises_recordTerminalTask _
  | fail failure =>
    exact .bind (revises_endAttempt hkind (by decide)
      fun r => ⟨.finish r r.output (some failure) rfl, rfl, rfl, rfl⟩)
      fun _ => revises_recordTerminalTask _
  | wait readyAtStep =>
    exact revises_endAttempt hkind (by decide)
      fun r => ⟨.suspend r readyAtStep r.task.continuationRef (.inl rfl), rfl, rfl, rfl⟩
  | waitOnTask taskAwait =>
    exact .bind .read fun _ => .bind (.lift _) fun _ =>
      .bind (revises_endAttempt hkind (by decide)
        fun r => ⟨.suspend r (readyStepForWait taskAwait) _ (.inl rfl), rfl, rfl, rfl⟩)
      fun _ => revises_frame fun _ => rfl
  | deferLeased =>
    exact revises_endAttempt hkind (by decide) fun r => ⟨.defer r currentStep, rfl, rfl, rfl⟩
  | block =>
    exact revises_endAttempt hkind (by decide)
      fun r => ⟨.suspend r r.task.readyAtStep r.task.continuationRef (.inr rfl), rfl, rfl, rfl⟩
  | cancelTask =>
    exact .bind (revises_endAttempt hkind (by decide)
      fun r => ⟨.finish r r.output none rfl, rfl, rfl, rfl⟩) fun _ =>
      .bind (revises_frame fun _ => rfl) fun _ => revises_recordTerminalTask _

theorem revises_terminalByCore (hkind : makes taskId .finish) {status : TaskStatus}
    (hterm : isTerminalStatus status = true) (failure : Option RuntimeError) (action : String)
    (currentStep : Nat) :
    Leads (Revises makes) (terminalByCore taskId status failure action currentStep) := by
  refine revises_mutateRecordIndexed (fun value : Option TaskLease × TaskStatus => value.2) hkind
    (fun r value r' hm => ?_) fun result => ?_
  · split at hm
    · cases hm
    · cases hm
      exact ⟨.finish r r.output failure hterm,
        fun _ => ⟨recordOk_markTerminalRecord r failure hterm, rfl⟩, rfl⟩
  · have htidy : Leads (Revises makes)
        (do Prog.update (·.removeWaitsForParent taskId); recordTerminalTask taskId) :=
      .bind (revises_frame fun _ => rfl) fun _ => revises_recordTerminalTask taskId
    dsimp only
    split
    · exact .bind (revises_recordAttemptFinished _ _) fun _ => htidy
    · exact htidy

theorem revises_wakeDueTasks (hkind : ∀ id, makes id .ready) (currentStep : Nat) :
    Leads (Revises makes) (wakeDueTasks currentStep) :=
  .bind .read fun _ => .bind (revises_frame fun _ => rfl) fun _ => .bind
    (.forEach fun _ _ _ => revises_mutateOrCrash (fun value => value) (hkind _)
      (fun r _ => ⟨.readyAgain r currentStep,
        fun _ => ⟨recordOk_readyAgain currentStep r, rfl⟩, rfl⟩)
      fun _ => revises_frame fun _ => rfl)
    fun _ => .pure _

theorem revises_wake (hkind : makes taskId .ready) (currentStep : Nat) :
    Leads (Revises makes) (wake taskId currentStep) := by
  refine revises_mutateRecordIndexed (fun value => value) hkind (fun r value r' hm => ?_)
    fun _ => revises_frame fun _ => rfl
  split at hm
  · cases hm
    exact ⟨.readyAgain r currentStep, fun _ => ⟨recordOk_readyAgain currentStep r, rfl⟩, rfl⟩
  · cases hm

theorem revises_rejectReady (hkind : makes taskId .finish) (failure : RuntimeError) :
    Leads (Revises makes) (rejectReady taskId failure) := by
  refine revises_mutateRecordIndexed (fun _ => .ready) hkind (fun r value r' hm => ?_)
    fun _ => revises_recordTerminalTask taskId
  split at hm
  · cases hm
  next hready =>
    cases hm
    have hready : r.status = .ready := Decidable.not_not.1 hready
    exact ⟨.reject r failure, fun hok => ⟨recordOk_rejected failure hok hready, hready⟩, rfl⟩

theorem revises_cancelRunningInvocation (hkind : ∀ id, makes id .ready) (h : Good pool)
    (runnerId invocationId : String) (currentStep : Nat) :
    Revises makes pool
      ((cancelRunningInvocation runnerId invocationId currentStep).run pool).2 := by
  unfold cancelRunningInvocation
  rw [run_read_bind]
  cases hfound : pool.runningInvocation runnerId invocationId with
  | none => exact refl_of (Revises makes) pool
  | some taskId =>
    obtain ⟨r, lease, hr, hrun, hlease, -⟩ := runningInvocation_eq_some h hfound
    simp only [hr, bind_some, hlease]
    rw [run_bind_of_ok (mutateOrCrash_run_ok hr)]
    refine revises_replace hr (hkind taskId) (.readyAgain r currentStep)
      (fun _ => ⟨recordOk_readyAgain currentStep r, hrun⟩) rfl rfl rfl rfl ?_
    exact ⟨fun status => by cases status <;> rfl, rfl, rfl⟩

theorem revises_reclaimExpiredTaskLeases (hkind : ∀ id, makes id .ready) (currentStep : Nat) :
    Leads (Revises makes) (reclaimExpiredTaskLeases currentStep) := by
  refine .bind .read fun _ => .bind (revises_frame fun _ => rfl) fun _ =>
    .bind (.foldEach fun reclaimed taskId _ => .read_bind fun pool => ?_) fun _ =>
    .bind (.forEach fun _ _ => revises_recordAttemptFinished _ _) fun _ => .pure _
  split
  · exact refl_of (Revises makes) pool
  next lease hlease =>
    split
    · refine revises_mutateOrCrash (fun _ => .running) (hkind taskId)
        (fun r hr => ⟨.readyAgain r currentStep, fun hok => ?_, rfl⟩) fun _ => .pure _
      rw [hr] at hlease
      exact ⟨recordOk_readyAgain currentStep r, hok.running.2 (by simp_all)⟩
    · exact refl_of (Revises makes) pool

theorem revises_abortAll (hkind : ∀ id, makes id .finish) (currentStep : Nat)
    (failure : RuntimeError) :
    Leads (Revises makes) (abortAll currentStep failure) := by
  refine .bind .read fun _ => .bind (.update fun pool => ?_) fun _ =>
    .bind (revises_frame fun _ => rfl) fun _ =>
    .bind (.forEach fun _ _ => revises_recordAttemptFinished _ _) fun _ =>
    .bind (.forEach fun taskId _ => .bind (revises_frame fun _ => rfl) fun _ =>
      revises_recordTerminalTask taskId) fun _ => .pure _
  refine revises_map (f := aborted failure) hkind (fun r => ?_) rfl rfl rfl
    (counts_abortRecords failure)
  rcases aborted_cases failure r with ⟨-, he⟩ | ⟨-, he⟩
  · exact .inl he
  · rw [he]
    exact .inr (.finish r r.output (some failure) rfl)

theorem revises_rebindReadyGeneration (hkind : ∀ id, makes id .rebind)
    (oldGeneration newGeneration : Nat) :
    Leads (Revises makes) (rebindReadyGeneration oldGeneration newGeneration) := by
  refine .bind .read fun _ => .bind (.update fun pool => ?_) fun _ =>
    .bind (revises_frame fun _ => rfl) fun _ => .pure _
  refine revises_map (f := rebound oldGeneration newGeneration) hkind (fun r => ?_) rfl rfl rfl
    (counts_rebound rfl rfl)
  rcases rebound_cases oldGeneration newGeneration r with he | ⟨-, -, he⟩
  · exact .inl he
  · rw [he]
    exact .inr (.rebind r newGeneration)

theorem revises_configureHistoryRetention (order : IterationOrder)
    (retention : Option TaskHistoryRetention) :
    Leads (Revises makes) (configureHistoryRetention order retention) := by
  refine .bind (revises_frame fun _ => rfl) fun _ => ?_
  have hforgets : ∀ {pool pool' : TaskPool}, pool'.tasks = pool.tasks →
      pool'.nextSequence = pool.nextSequence → pool'.statistics = pool.statistics →
      (∀ id ∈ pool'.evictedTaskIds, id ∈ pool.evictedTaskIds) → Revises makes pool pool' := by
    intro pool pool' htasks hsequence hstatistics hevicted
    refine revises_of_same htasks hsequence hevicted ?_
    rw [hstatistics]
    exact TaskPoolStatistics.sameCounts_refl _
  cases retention with
  | none =>
    exact .update fun _ => hforgets rfl rfl rfl fun _ hid => (ExtTreeSet.not_mem_empty hid).elim
  | some =>
    exact .bind (revises_frame fun _ => rfl) fun _ =>
      .bind (.update fun _ => hforgets rfl rfl rfl fun _ hid => ((mem_foldl_erase _ _ _).1 hid).1)
        fun _ => revises_compactTerminalHistory

theorem revises_takeWaitsForChild (childTaskId : TaskId) :
    Leads (Revises makes) (takeWaitsForChild childTaskId) := by
  refine .read_bind fun pool => ?_
  have hunlinked : Revises makes pool (pool.unlinkChild childTaskId).2 := revises_of_ledger rfl
  exact trans_of (Revises makes) hunlinked
    ((Leads.bind revises_compactTerminalHistory fun _ => .pure _) (pool.unlinkChild childTaskId).2)

end Revises

variable {pool : TaskPool}

theorem exec_revises (op : PoolOp) (h : Good pool) (henqueues : ∀ id, ¬ op.Enqueues id)
    (hclaims : op.editKind ≠ some .claim) :
    Revises op.Makes pool (op.exec.run pool).2 := by
  have hmakes : ∀ {kind}, op.editKind = some kind → kind ≠ .defer → ∀ id, op.Makes id kind := by
    intro kind hkind hne id
    exact ⟨hkind, fun he => absurd he hne⟩
  have hleads : Leads (Revises op.Makes) op.exec → _ := fun hl => hl pool
  cases op with
  | enqueueAt task => exact absurd rfl (henqueues task.taskId)
  | claimReady => exact absurd rfl hclaims
  | complete lease currentStep output =>
    exact hleads (revises_leased (.complete output) (hmakes rfl (by decide) _) currentStep)
  | fail lease currentStep failure =>
    exact hleads (revises_leased (.fail failure) (hmakes rfl (by decide) _) currentStep)
  | wait lease currentStep readyAtStep =>
    exact hleads (revises_leased (.wait readyAtStep) (hmakes rfl (by decide) _) currentStep)
  | waitOnTask lease currentStep taskAwait =>
    exact hleads (revises_leased (.waitOnTask taskAwait) (hmakes rfl (by decide) _) currentStep)
  | deferLeased lease currentStep =>
    exact hleads (revises_leased .deferLeased ⟨rfl, fun _ => rfl⟩ currentStep)
  | block lease currentStep =>
    exact hleads (revises_leased .block (hmakes rfl (by decide) _) currentStep)
  | cancelTask lease currentStep =>
    exact hleads (revises_leased .cancelTask (hmakes rfl (by decide) _) currentStep)
  | wake taskId currentStep => exact hleads (revises_wake (hmakes rfl (by decide) _) currentStep)
  | wakeDueTasks currentStep =>
    exact hleads (.bind (revises_wakeDueTasks (hmakes rfl (by decide)) currentStep)
      fun _ => .pure ())
  | rejectReady taskId failure =>
    exact hleads (revises_rejectReady (hmakes rfl (by decide) _) failure)
  | cancelRunningInvocation runnerId invocationId currentStep =>
    have hcancel := revises_cancelRunningInvocation (hmakes rfl (by decide)) h runnerId
      invocationId currentStep
    rw [← state_discard] at hcancel
    exact hcancel
  | cancelByCore taskId currentStep =>
    exact hleads (revises_terminalByCore (hmakes rfl (by decide) _) rfl none _ currentStep)
  | expireByCore taskId failure currentStep | deadLetterByCore taskId failure currentStep =>
    exact hleads (revises_terminalByCore (hmakes rfl (by decide) _) rfl _ _ currentStep)
  | reclaimExpiredTaskLeases currentStep =>
    exact hleads (.bind (revises_reclaimExpiredTaskLeases (hmakes rfl (by decide)) currentStep)
      fun _ => .pure ())
  | abortAll currentStep failure =>
    exact hleads (.bind (revises_abortAll (hmakes rfl (by decide)) currentStep failure)
      fun _ => .pure ())
  | rebindReadyGeneration oldGeneration newGeneration =>
    exact hleads (.bind (revises_rebindReadyGeneration (hmakes rfl (by decide)) oldGeneration
      newGeneration) fun _ => .pure ())
  | configureHistoryRetention order retention =>
    exact hleads (revises_configureHistoryRetention order retention)
  | takeWaitsForChild childTaskId =>
    exact hleads (.bind (revises_takeWaitsForChild childTaskId) fun _ => .pure ())
  | recordStaleResultRejection =>
    exact revises_of_same rfl rfl (fun _ hid => hid)
      ⟨fun status => by cases status <;> rfl, rfl, rfl⟩

/-! ## Claims and new records -/

section Claims

variable {pool : TaskPool} {runner : RunnerDescriptor} {executorId : ExecutorId}
  {step registryGeneration limit : Nat} {budget : Option DispatchBudget}
  {expiresAtStep : Option Nat}

/-- A claim edits the records it selected, which are its to claim, and leases no others. -/
theorem claim_edits (makes : TaskId → EditKind → Prop) (h : Good pool)
    (hkind : ∀ id, makes id .claim) :
    wp (claimSelected false runner executorId step registryGeneration limit budget expiresAtStep)
      (fun leased pool' => Edited makes pool pool' ∧ ∀ entry ∈ leased, ∃ r,
        pool.tasks[entry.1.taskId]? = some r ∧
          readySelectorOf r ∈ buildReadySelectors runner.runnerId)
      (fun _ _ => False) pool := by
  refine wp_claimSelected (fun leased pool' => Edited makes pool pool' ∧ ∀ entry ∈ leased, ∃ r,
      pool.tasks[entry.1.taskId]? = some r ∧
        readySelectorOf r ∈ buildReadySelectors runner.runnerId) h (.inr rfl)
    ⟨edited_of_tasks rfl, by simp⟩ ?_ (fun _ _ _ _ hI => hI)
  rintro id r leased p ⟨hedited, hleased⟩ hr
  have hclaim : Edit .claim r (leaseRecord runner
      (newLease runner executorId step registryGeneration expiresAtStep r) r) :=
    .claim r runner executorId step registryGeneration expiresAtStep hr.selector
  refine ⟨trans_of (Edited makes) hedited (edited_insert hr.stored (hkind id) hclaim rfl), ?_⟩
  refine forall_mem_append.2 ⟨hleased, forall_mem_singleton.2 ?_⟩
  show ∃ v, pool.tasks[r.task.taskId]? = some v ∧ _
  rw [hr.keyed]
  exact hr.selected

theorem counts_claimSelected (h : Good pool) (hnd : runner.acceptedProtocolIds.Nodup) :
    wp (claimSelected false runner executorId step registryGeneration limit budget expiresAtStep)
      (fun _ => Counts pool) (fun _ _ => False) pool := by
  refine wp_claimSelected (fun _ => Counts pool) h (.inr rfl) (refl_of Counts pool) ?_ ?_
  · intro id r _ p hcounts hr
    have hready := hr.status.resolve_right fun hs => hs.1 hnd
    exact trans_of Counts hcounts (counts_replace hr.stored
      (fun _ => ⟨recordOk_leaseRecord r, hready⟩) rfl rfl (TaskPoolStatistics.sameCounts_refl _))
  · intro _ p _ _ hcounts
    refine trans_of Counts hcounts ?_
    exact counts_of_same rfl ⟨fun status => by cases status <;> rfl, rfl, rfl⟩

theorem enqueueAt_record {task : Task} {currentStep : Nat}
    (hr' : ((PoolOp.enqueueAt task currentStep).exec.run pool).2.tasks[id]? = some r') :
    pool.tasks[id]? = some r' ∨
      (task.taskId = id ∧ pool.tasks[id]? = none ∧ r' = pool.newRecord task currentStep) := by
  unfold PoolOp.exec at hr'
  dsimp only at hr'
  cases hdup : pool.containsTaskId task.taskId with
  | true =>
    rw [run_bind_of_err (enqueueAt_run_duplicate task currentStep hdup)] at hr'
    exact .inl hr'
  | false =>
    rw [run_bind_of_ok (enqueueAt_run_new task currentStep hdup)] at hr'
    have hget : (pool.enqueued (pool.newRecord task currentStep)).tasks[id]? =
        if task.taskId = id then some (pool.newRecord task currentStep) else pool.tasks[id]? := by
      show (pool.tasks.insert (pool.newRecord task currentStep).task.taskId _)[id]? = _
      rw [newRecord_taskId, getElem?_insert_ite]
    rw [run_pure, hget] at hr'
    split at hr'
    next hid =>
      refine .inr ⟨hid, ?_, (some.inj hr').symm⟩
      rw [← hid]
      exact (not_stored_of_new hdup).1
    · exact .inl hr'

end Claims

/-- What one operation does to the record of a task: it edits it, or stores a first one. -/
theorem exec_record (op : PoolOp) (h : Good pool)
    (hr' : (op.exec.run pool).2.tasks[id]? = some r') :
    (∃ r, pool.tasks[id]? = some r ∧ Edits (op.Makes id) r r') ∨
      (op.Enqueues id ∧ pool.tasks[id]? = none ∧
        ∃ task currentStep, r' = pool.newRecord task currentStep) := by
  cases op with
  | enqueueAt task currentStep =>
    rcases enqueueAt_record hr' with hsame | ⟨hid, hnone, hnew⟩
    · exact .inl ⟨r', hsame, .refl⟩
    · exact .inr ⟨hid, hnone, task, currentStep, hnew⟩
  | claimReady runner executorId step registryGeneration limit budget expiresAtStep =>
    have hmakes : ∀ id, PoolOp.Makes (.claimReady runner executorId step registryGeneration limit
        budget expiresAtStep) id .claim := fun _ => ⟨rfl, fun he => by cases he⟩
    exact .inl (claimReady_state (P := Edited (PoolOp.Makes _) pool) (edited_of_tasks rfl)
      (wp_run (wp_total (claim_edits _ h hmakes) fun _ _ h' => h'.1)) id r' hr')
  | _ =>
    refine .inl ((exec_revises _ h ?_ ?_).edited id r' hr')
    · exact fun _ hf => hf
    · exact fun he => by cases he

/-! ## Runs -/

/-- What holds of a fresh record and is kept by every edit holds of every record of a run. -/
theorem runOps_records
    (hnew : ∀ (pool : TaskPool) task currentStep, P (pool.newRecord task currentStep))
    (hedit : ∀ kind r r', Edit kind r r' → P r → P r') (ops : List PoolOp) (h : Good pool)
    (hP : ∀ (id : TaskId) r, pool.tasks[id]? = some r → P r) :
    ∀ (id : TaskId) r, (runOps ops pool).tasks[id]? = some r → P r := by
  induction ops generalizing pool with
  | nil => exact hP
  | cons op ops ih =>
    refine ih (exec_good op h) fun id r' hr' => ?_
    rcases exec_record op h hr' with ⟨r, hr, hedits⟩ | ⟨-, -, task, currentStep, rfl⟩
    · exact hedits.preserves (fun kind r r' _ => hedit kind r r') (hP id r hr)
    · exact hnew pool task currentStep

/-- The task has a record that satisfies `P` after every part of a run. -/
def Throughout (ops : List PoolOp) (pool : TaskPool) (id : TaskId) (P : TaskRecord → Prop) :
    Prop :=
  ∀ done, done <+: ops → ∃ r, (runOps done pool).tasks[id]? = some r ∧ P r

theorem Throughout.tail (h : Throughout (op :: ops) pool id P) :
    Throughout ops (op.exec.run pool).2 id P :=
  fun done hdone => h (op :: done) (cons_prefix_cons.2 ⟨rfl, hdone⟩)

theorem throughout_nil (h : ∃ r, pool.tasks[id]? = some r ∧ P r) : Throughout [] pool id P := by
  intro done hdone
  rw [prefix_nil.1 hdone]
  exact h

theorem throughout_cons (h : ∃ r, pool.tasks[id]? = some r ∧ P r)
    (htail : Throughout ops (op.exec.run pool).2 id P) : Throughout (op :: ops) pool id P := by
  intro done hdone
  cases done with
  | nil => exact h
  | cons first done =>
    obtain ⟨rfl, hrest⟩ := cons_prefix_cons.1 hdone
    exact htail done hrest

/-- While its record satisfies `P` a task only passes through edits of the operations, of those
    kinds that `P` leaves. -/
theorem edits_throughout {K : PoolOp → EditKind → Prop}
    (hkinds : ∀ (op : PoolOp) r r', P r' → Edits (op.Makes id) r r' → Edits (K op) r r')
    (ops : List PoolOp) (h : Good pool) (hP : Throughout ops pool id P)
    (hr : pool.tasks[id]? = some r) (hr' : (runOps ops pool).tasks[id]? = some r') :
    Edits (fun kind => ∃ op ∈ ops, K op kind) r r' := by
  induction ops generalizing pool r with
  | nil =>
    obtain rfl := some.inj (hr.symm.trans hr')
    exact .refl
  | cons op ops ih =>
    obtain ⟨r₁, hr₁, hP₁⟩ := hP.tail [] nil_prefix
    have hlater := ih (exec_good op h) hP.tail hr₁ hr'
    have hfirst : Edits (K op) r r₁ := by
      rcases exec_record op h hr₁ with ⟨r₀, hr₀, hedits⟩ | ⟨-, hnone, -⟩
      · obtain rfl := some.inj (hr.symm.trans hr₀)
        exact hkinds op r r₁ hP₁ hedits
      · rw [hnone] at hr
        cases hr
    refine Relation.ReflTransGen.trans (hfirst.mono fun kind hkind => ?_)
      (hlater.mono fun kind hkind => ?_)
    · exact ⟨op, mem_cons_self, hkind⟩
    · obtain ⟨later, hmem, hlater⟩ := hkind
      exact ⟨later, mem_cons_of_mem op hmem, hlater⟩

/-! ## Runs and their counters -/

end TaskPool

/-- A claim is made by a runner that accepts each protocol once, as registered runners do. -/
def PoolOp.Proper : PoolOp → Prop
  | .claimReady runner .. => runner.acceptedProtocolIds.Nodup
  | _ => True

namespace TaskPool

variable {pool : TaskPool}

theorem exec_counts (op : PoolOp) (h : Good pool) (hproper : op.Proper)
    (henqueues : ∀ id, ¬ op.Enqueues id) : Counts pool (op.exec.run pool).2 := by
  cases op with
  | claimReady runner executorId step registryGeneration limit budget expiresAtStep =>
    exact claimReady_state (refl_of Counts pool)
      (wp_run (wp_total (counts_claimSelected h hproper) fun _ _ hc => hc))
  | enqueueAt task => exact absurd rfl (henqueues task.taskId)
  | _ => exact (exec_revises _ h henqueues fun he => by cases he).counts

/-- An operation leaves the counters right, and room for submissions was there before. -/
theorem exec_counted (op : PoolOp) (h : Good pool) (hproper : op.Proper) :
    (Counted pool → Counted (op.exec.run pool).2) ∧
      ((op.exec.run pool).2.statistics.submittedTotal < u64Max →
        pool.statistics.submittedTotal < u64Max) := by
  by_cases henqueues : ∃ id, op.Enqueues id
  · cases op with
    | enqueueAt task currentStep =>
      unfold PoolOp.exec
      dsimp only
      rw [state_discard]
      cases hdup : pool.containsTaskId task.taskId with
      | true =>
        rw [enqueueAt_run_duplicate task currentStep hdup]
        exact ⟨fun hc => hc, fun hroom => hroom⟩
      | false =>
        rw [enqueueAt_run_new task currentStep hdup]
        refine ⟨fun hc => counted_enqueued hc (recordOk_idle rfl rfl ?_ ?_) rfl ?_, fun hroom => ?_⟩
        · exact TaskStatus.noConfusion
        · exact TaskStatus.noConfusion
        · rw [newRecord_taskId]
          exact (not_stored_of_new hdup).1
        · have hroom : satAdd pool.statistics.submittedTotal 1 < u64Max := hroom
          unfold satAdd at hroom
          omega
    | _ =>
      obtain ⟨id, hf⟩ := henqueues
      exact hf.elim
  · obtain ⟨hsubmitted, hcounted⟩ := exec_counts op h hproper fun id hid => henqueues ⟨id, hid⟩
    exact ⟨hcounted, fun hroom => hsubmitted ▸ hroom⟩

/-- After every run the counters are right, as long as there is room for submissions. -/
theorem runOps_counted (ops : List PoolOp) (hproper : ∀ op ∈ ops, op.Proper) (h : Good pool)
    (hc : Counted pool) :
    Counted (runOps ops pool) ∧ ((runOps ops pool).statistics.submittedTotal < u64Max →
        pool.statistics.submittedTotal < u64Max) := by
  induction ops generalizing pool with
  | nil => exact ⟨hc, fun hroom => hroom⟩
  | cons op ops ih =>
    obtain ⟨hkept, hroom⟩ := exec_counted op h (hproper op mem_cons_self)
    obtain ⟨hlater, hlaterRoom⟩ := ih (fun o ho => hproper o (mem_cons_of_mem op ho))
      (exec_good op h) (hkept hc)
    exact ⟨hlater, fun hr => hroom (hlaterRoom hr)⟩

end TaskPool

end MutsukiRuntime
