/-
  TASK TRANSITIONS (`task_pool/transitions.rs`, `task_pool/awaits.rs`): every
  status change of a stored record, and the wait links between a suspended parent
  and the child it awaits.

  * `validateRecordLease` is the fence of the seven leased operations (`complete`,
    `fail`, `wait`, `waitOnTask`, `deferLeased`, `block`, `cancelTask`).
  * `waitsByChild` and `waitsByParent` are two views of the same links.
-/
import MutsukiRuntime.Core.TaskPool.Pool

namespace MutsukiRuntime

open Std Buckets Prog

namespace TaskPool

/-! ## Leases -/

def taskLeaseExpired (lease : TaskLease) (currentStep : Nat) : Bool :=
  match lease.expiresAtStep with
  | some expiresAt => decide (expiresAt ≤ currentStep)
  | none => false

/-- The test of `validate_record_lease`: the record runs under exactly this lease. -/
def leaseActive (r : TaskRecord) (lease : TaskLease) (currentStep : Nat) : Bool :=
  r.status == .running && r.claimedBy == some lease.runnerId && r.lease == some lease &&
    !taskLeaseExpired lease currentStep

/-- The error of `validate_record_lease`, with its evidence. -/
def staleLeaseError (r : TaskRecord) (lease : TaskLease) (currentStep : Nat) (action : String) :
    RuntimeError :=
  let e := runtimeError errTaskClaimConflict "runtime.task_pool" s!"task.{action}.{lease.taskId}"
  let e := e.withEvidence "lease_id" (.string lease.leaseId)
  let e := e.withEvidence "executor_id" (.string lease.executorId)
  let e := e.withEvidence "current_step" (.int (asI64 currentStep))
  let e := match r.lease with
    | some active =>
      (e.withEvidence "active_lease_id" (.string active.leaseId)).withEvidence
        "active_executor_id" (.string active.executorId)
    | none => e
  if taskLeaseExpired lease currentStep then
    e.withEvidence "reason" (.string "lease_expired")
  else e

def validateRecordLease (r : TaskRecord) (lease : TaskLease) (currentStep : Nat)
    (action : String) : Except RuntimeError Unit :=
  if leaseActive r lease currentStep then .ok ()
  else .error (staleLeaseError r lease currentStep action)

/-- `ensure_active_lease`. -/
def ensureActiveLease (pool : TaskPool) (taskId : TaskId) (lease : TaskLease)
    (currentStep : Nat) (action : String) : Except RuntimeError Unit := do
  let r ← pool.record taskId
  validateRecordLease r lease currentStep action

def releaseRecordLease (r : TaskRecord) : TaskRecord :=
  { r with lease := none, task := { r.task with leaseId := none }, claimedBy := none }

def clearRecordOwner (r : TaskRecord) : TaskRecord :=
  { r with ownerRunner := none }

def markTerminalRecord (r : TaskRecord) (status : TaskStatus) (failure : Option RuntimeError) :
    TaskRecord :=
  { clearRecordOwner (releaseRecordLease { r with status }) with failure }

/-! ## Wait links -/

/-- `awaits_for_parent`. -/
def awaitsForParent (pool : TaskPool) (taskId : TaskId) : List TaskAwait :=
  bucket pool.waitsByParent taskId

/-- `awaits::take_waits_for_child`: the links on a child, removed from both views. -/
def unlinkChild (pool : TaskPool) (childTaskId : TaskId) : List TaskAwait × TaskPool :=
  let waits := bucket pool.waitsByChild childTaskId
  (waits,
    { pool with
      waitsByChild := pool.waitsByChild.erase childTaskId
      waitsByParent := waits.foldl
        (fun m taskAwait => shrink m taskAwait.parentTaskId
          (·.filter fun item => item.child.taskId != childTaskId))
        pool.waitsByParent })

/-- `remove_waits_for_parent`. -/
def removeWaitsForParent (pool : TaskPool) (parentTaskId : TaskId) : TaskPool :=
  let waits := bucket pool.waitsByParent parentTaskId
  { pool with
    waitsByParent := pool.waitsByParent.erase parentTaskId
    waitsByChild := waits.foldl
      (fun m taskAwait => shrink m taskAwait.child.taskId
        (·.filter fun item => item.parentTaskId != parentTaskId))
      pool.waitsByChild }

/-- `take_waits_for_child`. -/
def takeWaitsForChild (childTaskId : TaskId) : PoolM (List TaskAwait) := do
  let pool ← read
  let (waits, pool') := pool.unlinkChild childTaskId
  update fun _ => pool'
  compactTerminalHistory
  pure waits

def readyStepForWait (taskAwait : TaskAwait) : Option Nat :=
  match taskAwait.continuation.wake with
  | some (.timer readyAtStep) | some (.retryAfter readyAtStep) => some readyAtStep
  | _ => none

/-- What an await handle claims about its child, and that the child runs in the parent's trace
    and correlation. -/
def awaitChildMatches (parent child : Task) (handle : TaskHandle) : Bool :=
  handle.protocolId == child.protocolId && handle.targetBindingId == child.targetBindingId &&
    handle.traceId == child.traceId && handle.correlationId == child.correlationId &&
    (child.traceId == parent.traceId && child.correlationId == parent.correlationId)

def validateTaskAwaitChild (parent child : TaskRecord) (taskAwait : TaskAwait) :
    Except RuntimeError Unit :=
  if isTerminalStatus child.status then
    .error (runtimeError errTaskClaimConflict "runtime.task_pool"
      s!"task.await.child_terminal.{taskAwait.child.taskId}")
  else if awaitChildMatches parent.task child.task taskAwait.child then .ok ()
  else
    .error (runtimeError errTaskClaimConflict "runtime.task_pool"
      s!"task.await.child_descriptor.{taskAwait.parentTaskId}")

/-! ## Leased transitions -/

/-- The record edit of a leased operation: validate, then `edit`. -/
def leasedEdit (lease : TaskLease) (currentStep : Nat) (action : String)
    (edit : TaskRecord → TaskRecord) (r : TaskRecord) : Except RuntimeError (Unit × TaskRecord) :=
  match validateRecordLease r lease currentStep action with
  | .ok () => .ok ((), edit r)
  | .error e => .error e

/-- What the leased operations share: the validated edit, the status counters and the end of
    the attempt. -/
def endAttempt (lease : TaskLease) (currentStep : Nat) (action : String) (target : TaskStatus)
    (edit : TaskRecord → TaskRecord) : PoolM Unit := do
  mutateRecordIndexed lease.taskId (leasedEdit lease currentStep action edit)
  update (·.countTransition .running target)
  update (·.recordAttemptFinished lease currentStep)

def complete (lease : TaskLease) (currentStep : Nat) (output : Option Value) : PoolM Unit := do
  endAttempt lease currentStep "complete" .completed fun r =>
    markTerminalRecord { r with output } .completed none
  recordTerminalTask lease.taskId

def fail (lease : TaskLease) (currentStep : Nat) (failure : RuntimeError) : PoolM Unit := do
  endAttempt lease currentStep "fail" .failed fun r =>
    markTerminalRecord r .failed (some failure)
  recordTerminalTask lease.taskId

def wait (lease : TaskLease) (currentStep : Nat) (readyAtStep : Option Nat) : PoolM Unit :=
  endAttempt lease currentStep "wait" .waiting fun r =>
    releaseRecordLease { r with status := .waiting, task := { r.task with readyAtStep } }

def deferLeased (lease : TaskLease) (currentStep : Nat) : PoolM Unit :=
  endAttempt lease currentStep "defer" .ready fun r =>
    clearRecordOwner (releaseRecordLease
      { r with status := .ready, readySinceStep := currentStep })

def block (lease : TaskLease) (currentStep : Nat) : PoolM Unit :=
  endAttempt lease currentStep "block" .blocked fun r =>
    releaseRecordLease { r with status := .blocked }

def cancelTask (lease : TaskLease) (currentStep : Nat) : PoolM Unit := do
  endAttempt lease currentStep "cancel" .cancelled fun r =>
    markTerminalRecord r .cancelled none
  update (·.removeWaitsForParent lease.taskId)
  recordTerminalTask lease.taskId

/-- The checks of `wait_on_task` before its first edit. -/
def checkWaitOnTask (pool : TaskPool) (lease : TaskLease) (currentStep : Nat)
    (taskAwait : TaskAwait) : Except RuntimeError Unit :=
  if taskAwait.parentTaskId ≠ lease.taskId then
    .error (runtimeError errTaskClaimConflict "runtime.task_pool"
      s!"task.await.parent.{lease.taskId}")
  else do
    let parent ← pool.record lease.taskId
    validateRecordLease parent lease currentStep "wait"
    let child ← pool.record taskAwait.child.taskId
    validateTaskAwaitChild parent child taskAwait

/-- The two `push`es of a new link. -/
def linkAwait (pool : TaskPool) (parentTaskId : TaskId) (taskAwait : TaskAwait) : TaskPool :=
  { pool with
    waitsByChild := upsert pool.waitsByChild taskAwait.child.taskId (· ++ [taskAwait])
    waitsByParent := upsert pool.waitsByParent parentTaskId (· ++ [taskAwait]) }

/-- The record of a parent suspended by `wait_on_task`. -/
def suspendOn (taskAwait : TaskAwait) (r : TaskRecord) : TaskRecord :=
  releaseRecordLease
    { r with
      status := .waiting
      task :=
        { r.task with
          readyAtStep := readyStepForWait taskAwait
          continuationRef := some taskAwait.continuation.continuation.refId } }

def waitOnTask (lease : TaskLease) (currentStep : Nat) (taskAwait : TaskAwait) : PoolM Unit := do
  let pool ← read
  lift (pool.checkWaitOnTask lease currentStep taskAwait)
  endAttempt lease currentStep "wait" .waiting (suspendOn taskAwait)
  update (·.linkAwait lease.taskId taskAwait)

/-! ## Core transitions -/

/-- Back to `Ready` at `currentStep`, without a lease. -/
def readyAgain (currentStep : Nat) (r : TaskRecord) : TaskRecord :=
  releaseRecordLease { r with status := .ready, readySinceStep := currentStep }

def wake (taskId : TaskId) (currentStep : Nat) : PoolM Unit := do
  let previousStatus ← mutateRecordIndexed taskId fun r =>
    if r.status = .waiting ∨ r.status = .blocked then
      .ok (r.status, readyAgain currentStep r)
    else
      .error (runtimeError errTaskClaimConflict "runtime.task_pool" s!"task.wake.{taskId}")
  update (·.countTransition previousStatus .ready)
  update (·.removeWaitsForParent taskId)

/-- `mutate_record_indexed(..).expect(site)`. -/
def mutateOrCrash {α : Type} (taskId : TaskId) (site : String)
    (mutate : TaskRecord → α × TaskRecord) : PoolM α := do
  match ← attempt (mutateRecordIndexed taskId fun r => .ok (mutate r)) with
  | .ok value => pure value
  | .error _ => crash site

/-- One iteration of `wake_due_tasks`. -/
def wakeDueTask (currentStep : Nat) (taskId : TaskId) : PoolM Unit := do
  let previousStatus ← mutateOrCrash taskId "wake index referenced a missing task record"
    fun r => (r.status, readyAgain currentStep r)
  update (·.countTransition previousStatus .ready)
  update (·.removeWaitsForParent taskId)

def wakeDueTasks (currentStep : Nat) : PoolM (List (TaskId × Nat)) := do
  let pool ← read
  let (dueTasks, future) := takeDueBuckets pool.indexes.wakeByStep currentStep
  update fun pool => { pool with indexes := { pool.indexes with wakeByStep := future } }
  forEach dueTasks fun due => wakeDueTask currentStep due.1
  pure dueTasks

def rejectReady (taskId : TaskId) (failure : RuntimeError) : PoolM Unit := do
  mutateRecordIndexed taskId fun r =>
    if r.status ≠ .ready then
      .error (runtimeError errTaskClaimConflict "runtime.task_pool" s!"task.reject.{taskId}")
    else .ok ((), { r with status := .failed, failure := some failure })
  update (·.countTransition .ready .failed)
  recordTerminalTask taskId

/-- The running task of `runnerId` whose lease has the given id. -/
def runningInvocation (pool : TaskPool) (runnerId invocationId : String) : Option TaskId :=
  (bucket pool.indexes.runningByRunner runnerId).toList.findSome? fun taskId =>
    match pool.tasks[taskId]? with
    | some r =>
      if r.lease.any (·.leaseId == invocationId) then some r.task.taskId else none
    | none => none

def cancelRunningInvocation (runnerId invocationId : String) (currentStep : Nat) :
    PoolM Nat := do
  let pool ← read
  match pool.runningInvocation runnerId invocationId with
  | none => pure 0
  | some taskId =>
    let lease := pool.tasks[taskId]?.bind (·.lease)
    mutateOrCrash taskId "running index referenced a missing task record"
      fun r => ((), readyAgain currentStep r)
    match lease with
    | some lease => update (·.recordAttemptFinished lease currentStep)
    | none => pure ()
    update (·.countTransition .running .ready)
    pure 1

/-- `terminal_by_core`, the body of the three transitions below. -/
def terminalByCore (taskId : TaskId) (status : TaskStatus) (failure : Option RuntimeError)
    (action : String) (currentStep : Nat) : PoolM Unit := do
  let (activeLease, previousStatus) ← mutateRecordIndexed taskId fun r =>
    if isTerminalStatus r.status then
      .error (runtimeError errTaskClaimConflict "runtime.task_pool" s!"task.{action}.{taskId}")
    else .ok ((r.lease, r.status), markTerminalRecord r status failure)
  update (·.countTransition previousStatus status)
  match activeLease with
  | some lease => update (·.recordAttemptFinished lease currentStep)
  | none => pure ()
  update (·.removeWaitsForParent taskId)
  recordTerminalTask taskId

def cancelByCore (taskId : TaskId) (currentStep : Nat) : PoolM Unit :=
  terminalByCore taskId .cancelled none "cancel" currentStep

def expireByCore (taskId : TaskId) (failure : RuntimeError) (currentStep : Nat) : PoolM Unit :=
  terminalByCore taskId .expired (some failure) "expire" currentStep

def deadLetterByCore (taskId : TaskId) (failure : RuntimeError) (currentStep : Nat) :
    PoolM Unit :=
  terminalByCore taskId .deadLetter (some failure) "dead_letter" currentStep

/-- One iteration of `reclaim_expired_task_leases`. -/
def reclaimTask (currentStep : Nat) (reclaimed : List TaskLease) (taskId : TaskId) :
    PoolM (List TaskLease) := do
  let pool ← read
  match pool.tasks[taskId]?.bind (·.lease) with
  | none => pure reclaimed
  | some lease =>
    if taskLeaseExpired lease currentStep then
      mutateOrCrash taskId "lease expiry index referenced a missing task record"
        fun r => ((), readyAgain currentStep r)
      update (·.countTransition .running .ready)
      pure (reclaimed ++ [lease])
    else pure reclaimed

def reclaimExpiredTaskLeases (currentStep : Nat) : PoolM (List TaskLease) := do
  let pool ← read
  let (due, future) := takeDueBuckets pool.indexes.leasesByExpiry currentStep
  update fun pool => { pool with indexes := { pool.indexes with leasesByExpiry := future } }
  let reclaimed ← foldEach (due.map (·.1)) [] (reclaimTask currentStep)
  forEach reclaimed fun lease => update (·.recordAttemptFinished lease currentStep)
  pure reclaimed

/-- The pass of `abort_all` over the stored records. -/
def abortRecords (pool : TaskPool) (failure : RuntimeError) : TaskPool :=
  let live := (recordsOf pool.tasks).filter fun r => !isTerminalStatus r.status
  { pool with
    tasks := pool.tasks.map fun _ r =>
      if isTerminalStatus r.status then r else markTerminalRecord r .cancelled (some failure)
    statistics := live.foldl
      (fun s r => s.recordStatusTransition (some r.status) (some .cancelled)) pool.statistics
    leaseLog := (live.filterMap (·.lease)).map .ended ++ pool.leaseLog }

def abortAll (currentStep : Nat) (failure : RuntimeError) : PoolM (List TaskId) := do
  let pool ← read
  let live := (recordsOf pool.tasks).filter fun r => !isTerminalStatus r.status
  let finishedLeases := live.filterMap (·.lease)
  let aborted := (live.map (·.task.taskId)).insertionSort (· ≤ ·)
  update (·.abortRecords failure)
  update fun pool => { pool with indexes := rebuildIndexes pool.tasks }
  forEach finishedLeases fun lease =>
    update (·.recordAttemptFinished lease currentStep)
  forEach aborted fun taskId => do
    update (·.removeWaitsForParent taskId)
    recordTerminalTask taskId
  pure aborted

/-- A record `rebind_ready_generation` moves to the new generation. -/
def isRebound (oldGeneration : Nat) (r : TaskRecord) : Bool :=
  r.status == .ready && r.task.registryGeneration == oldGeneration

def rebindReadyGeneration (oldGeneration newGeneration : Nat) : PoolM Nat := do
  let pool ← read
  let rebound := ((recordsOf pool.tasks).filter (isRebound oldGeneration)).length
  update fun pool =>
    { pool with
      tasks := pool.tasks.map fun _ r =>
        if isRebound oldGeneration r then
          { r with task := { r.task with registryGeneration := newGeneration } }
        else r }
  update fun pool => { pool with indexes := rebuildIndexes pool.tasks }
  pure rebound

end TaskPool

end MutsukiRuntime
