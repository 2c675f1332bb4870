/-
  ROUTING RUNNER RESULTS (`runner_loop/result_router.rs`, `failure_reporting.rs`,
  `completion_router.rs`): from a completed dispatch to the tasks it ends, suspends
  and derives.

  * `completeRunnerDispatch` returns the runner, checks the batch as a whole, and
    routes its entries in the order of the dispatch.
  * `routeResult` checks the lease and the result, enqueues what the result derives,
    and commits its status.  An error of `routeResult` that is not a stale lease
    leaves the loop over the entries.
  * `failRunnerDispatch` ends a lease as failed, if it is still active.
-/
import MutsukiRuntime.Core.Runtime.TaskApi

namespace MutsukiRuntime

open Std Prog

namespace CoreRuntime

/-! ## Checks of a result -/

def routerError (route : String) : RuntimeError :=
  runtimeError errTaskClaimConflict "runtime.result_router" route

/-- `validate_await_child_task`. -/
def validateAwaitChildTask (parentTaskId : TaskId) (parentTask : Task) (taskAwait : TaskAwait)
    (childTask : Task) : Except RuntimeError Unit :=
  if TaskPool.awaitChildMatches parentTask childTask taskAwait.child then .ok ()
  else .error (routerError s!"task.await.child_descriptor.{parentTaskId}")

/-- `validate_await_child_descriptor`: the child is one of the result's own tasks, or a stored
    task that is not terminal. -/
def validateAwaitChildDescriptor (rt : CoreRuntime) (parentTaskId : TaskId)
    (taskAwait : TaskAwait) (outputTasks : List Task) : Except RuntimeError Unit :=
  match rt.tasks.tasks[parentTaskId]? with
  | none =>
    .error (runtimeError errTaskNotFound "runtime.result_router"
      s!"task.await.parent.{parentTaskId}")
  | some parent =>
    match outputTasks.find? (·.taskId == taskAwait.child.taskId) with
    | some outputTask => validateAwaitChildTask parentTaskId parent.task taskAwait outputTask
    | none =>
      match rt.tasks.tasks[taskAwait.child.taskId]? with
      | none =>
        .error (runtimeError errTaskNotFound "runtime.result_router"
          s!"task.await.child.{taskAwait.child.taskId}")
      | some child =>
        if isTerminalStatus child.status then
          .error (routerError s!"task.await.child_terminal.{taskAwait.child.taskId}")
        else validateAwaitChildTask parentTaskId parent.task taskAwait child.task

/-- `validate_waiting_result`. -/
def validateWaitingResult (rt : CoreRuntime) (result : RunnerResult) :
    Except RuntimeError Unit :=
  match result.taskAwait with
  | none => .ok ()
  | some taskAwait =>
    if result.status ≠ .waiting then
      .error (routerError s!"task.await.status.{result.taskId}")
    else do
      rt.ensureTaskCanSuspend result.taskId
      if taskAwait.parentTaskId ≠ result.taskId then
        .error (routerError s!"task.await.parent.{result.taskId}")
      else rt.validateAwaitChildDescriptor result.taskId taskAwait result.tasks

/-- A result without outputs of any kind. -/
def hasNoOutputs (result : RunnerResult) : Bool :=
  result.output.isNone && result.deltas.isEmpty && result.events.isEmpty &&
    result.tasks.isEmpty && result.effects.isEmpty && result.values.isEmpty &&
    result.resources.isEmpty

/-- `validate_status_outputs`. -/
def validateStatusOutputs (result : RunnerResult) : Except RuntimeError Unit :=
  if result.output.isSome ∧ result.status ≠ .completed then
    .error (routerError s!"task.status.output.{result.taskId}")
  else if result.status ≠ .continue then .ok ()
  else if hasNoOutputs result then .ok ()
  else .error (routerError s!"task.continue.outputs.{result.taskId}")

/-! ## Derived tasks -/

def commitTask (sourceTaskId : TaskId) (index : Nat) (delta : StateDelta) (generation : Nat) :
    Task :=
  { Task.new s!"{sourceTaskId}:commit:{index}" "core.commit" delta.toValue with
    registryGeneration := generation }

def eventTask (sourceTaskId : TaskId) (event : DomainEvent) (generation : Nat) : Task :=
  { Task.new s!"{sourceTaskId}:event:{event.eventId}" "core.event.append" event.toValue with
    registryGeneration := generation }

def effectTask (sourceTaskId : TaskId) (effect : EffectRequest) (generation : Nat) : Task :=
  { Task.new s!"{sourceTaskId}:effect:{effect.effectId}" effect.kind effect.toValue with
    registryGeneration := generation
    expectedVersions := effect.preconditions.map fun precondition =>
      { refId := precondition.refId, expectedVersion := precondition.expectedVersion } }

/-- `pending_output_tasks`. -/
def pendingOutputTasks (generation : Nat) (purity : RunnerPurity) (result : RunnerResult) :
    List Task :=
  (if purity = .pure then
    result.deltas.mapIdx (fun index delta => commitTask result.taskId index delta generation) ++
      result.effects.map (fun effect => effectTask result.taskId effect generation)
   else []) ++
    result.events.map (fun event => eventTask result.taskId event generation) ++ result.tasks

/-- `ensure_output_task_ids_available`. -/
def ensureOutputTaskIdsAvailable (rt : CoreRuntime) (pendingTasks : List Task) :
    Except RuntimeError Unit :=
  match duplicateTask rt.tasks [] pendingTasks with
  | some taskId =>
    .error (runtimeError errTaskDuplicate "runtime.result_router" s!"task.enqueue.{taskId}")
  | none => .ok ()

/-- The purity check at the head of `route_result_outputs`. -/
def validatePurity (runner : RunnerDescriptor) (result : RunnerResult) :
    Except RuntimeError Unit :=
  if runner.purity ≠ .pure ∧ (!result.deltas.isEmpty || !result.effects.isEmpty) then
    .error (runtimeError errRunnerPurityViolation "runtime.result_router"
      s!"runner.{runner.runnerId}.core_derivation")
  else .ok ()

def refLineageAttrs (refId : RefId) (schema : String) (generation : Nat) : Attributes :=
  .ofEntries [("ref_id", .string refId), ("schema", .string schema),
    ("generation", .int (asI64 generation))]

/-- Ghost: notes a task derived from a result of an effectful runner. -/
def noteOrigin (runner : RunnerDescriptor) (task : Task) : CoreM Unit :=
  update fun rt =>
    { rt with
      effectOutputs :=
        if runner.purity = .effectful then task :: rt.effectOutputs else rt.effectOutputs }

def routeResultOutputs (runner : RunnerDescriptor) (result : RunnerResult) : CoreM Unit := do
  let rt ← read
  lift (validatePurity runner result)
  let pendingTasks := pendingOutputTasks rt.loadPlan.registryGeneration runner.purity result
  lift (rt.ensureOutputTaskIdsAvailable pendingTasks)
  forEach result.values fun ref =>
    recordEvent .resource "value.lineage" (some result.taskId)
      (refLineageAttrs ref.refId ref.schema ref.generation) none
  forEach result.resources fun ref =>
    recordEvent .resource "resource.lineage" (some result.taskId)
      (refLineageAttrs ref.refId ref.schema ref.generation) none
  forEach pendingTasks fun task => do
    let _ ← enqueueTask task
    noteOrigin runner task

/-! ## Committing a status -/

/-- The terminal arms of `commit_result_status`: the pool operation, the event, the wake-up. -/
def finishTask (op : PoolM Unit) (taskId : TaskId) (name : String)
    (failure : Option RuntimeError) : CoreM Nat := do
  onPool op
  recordTaskTerminalEvent taskId name failure
  let _ ← wakeTasksWaitingOn taskId
  pure 1

/-- The pool operation of a `Waiting` result. -/
def suspend (lease : TaskLease) (currentStep : Nat) : Option TaskAwait → PoolM Unit
  | some taskAwait => TaskPool.waitOnTask lease currentStep taskAwait
  | none => TaskPool.wait lease currentStep none

def progressEvent (taskId : TaskId) (status : String) : CoreM Unit :=
  recordEvent .task "task.progress" (some taskId) (.ofEntries [("status", .string status)]) none

/-- `commit_result_status`. -/
def commitResultStatus (runner : RunnerDescriptor) (lease : TaskLease) (result : RunnerResult) :
    CoreM Nat := do
  let rt ← read
  match result.status with
  | .completed =>
    finishTask (TaskPool.complete lease rt.currentStep result.output) result.taskId
      "task.completed" none
  | .waiting =>
    onPool (suspend lease rt.currentStep result.taskAwait)
    progressEvent result.taskId "waiting"
    pure 0
  | .blocked =>
    onPool (TaskPool.block lease rt.currentStep)
    progressEvent result.taskId "blocked"
    pure 0
  | .failed =>
    let failure := runtimeError "runner.failed" "runtime.result_router"
      s!"runner.{runner.runnerId}"
    finishTask (TaskPool.fail lease rt.currentStep failure) result.taskId "task.failed"
      (some failure)
  | .cancelled =>
    finishTask (TaskPool.cancelTask lease rt.currentStep) result.taskId "task.cancelled" none
  | .continue => pure 0

def routeResult (runner : RunnerDescriptor) (lease : TaskLease) (result : RunnerResult) :
    CoreM Nat := do
  let rt ← read
  lift (rt.tasks.ensureActiveLease result.taskId lease rt.currentStep "route")
  lift (rt.validateWaitingResult result)
  lift (validateStatusOutputs result)
  routeResultOutputs runner result
  commitResultStatus runner lease result

/-! ## Reporting failures -/

def failRunnerDispatch (lease : TaskLease) (failure : RuntimeError) : CoreM Nat := do
  let rt ← read
  match ← attempt (onPool (TaskPool.fail lease rt.currentStep failure)) with
  | .ok () =>
    recordTaskTerminalEvent lease.taskId "task.failed" (some failure)
    let _ ← wakeTasksWaitingOn lease.taskId
    pure 1
  | .error _ => pure 0

def failRunnerDispatches (leases : List TaskLease) (failure : RuntimeError) : CoreM Nat :=
  foldEach leases 0 fun completed lease => do
    let count ← failRunnerDispatch lease failure
    pure (completed + count)

def recordRejectedRunnerResult (taskId : TaskId) (error : RuntimeError) : CoreM Unit := do
  let rt ← read
  recordEvent .task "task.result.rejected" (some taskId)
    (.ofEntries [("error_code", .string error.code), ("error_route", .string error.route),
      ("current_step", .int (asI64 rt.currentStep))])
    (some error)

/-! ## Completions -/

def batchClaimConflict (route : String) : RuntimeError :=
  runtimeError errTaskClaimConflict "runtime.runner_loop" route

def isStaleCompletionConflict (error : RuntimeError) : Bool :=
  error.code == errTaskClaimConflict &&
    "task.route.".toList.isPrefixOf error.route.toList

/-- What the router does with an error of `route_result`: a stale lease is counted and
    reported, anything else leaves the loop. -/
def rejectResult (lease : TaskLease) (failure : RuntimeError) : CoreM Nat :=
  if isStaleCompletionConflict failure then do
    onPool (update (·.recordStaleResultRejection))
    recordRejectedRunnerResult lease.taskId failure
    pure 0
  else fail failure

def routeEntryCompletion (descriptor : RunnerDescriptor) (lease : TaskLease)
    (completion : EntryCompletion) : CoreM Nat :=
  match completion.error with
  | some error => failRunnerDispatch lease error
  | none =>
    match completion.result with
    | none =>
      failRunnerDispatch lease
        (batchClaimConflict s!"batch.entry.empty.{completion.entryId}")
    | some result =>
      if result.taskId ≠ lease.taskId ∨ completion.taskId ≠ lease.taskId then
        failRunnerDispatch lease (batchClaimConflict s!"task.result.{result.taskId}")
      else do
        match ← attempt (routeResult descriptor lease result) with
        | .ok count => pure count
        | .error failure => rejectResult lease failure

/-- `leases_by_task`: of several leases of one task the last one is kept. -/
def leaseOf (leases : List TaskLease) (taskId : TaskId) : Option TaskLease :=
  leases.reverse.find? (·.taskId == taskId)

/-- The first expected entry that repeats an id or has no lease. -/
def badExpectedEntry (leases : List TaskLease) (seen : List EntryId) :
    List BatchEntry → Option EntryId
  | [] => none
  | entry :: entries =>
    if entry.entryId ∈ seen ∨ (leaseOf leases entry.taskId).isNone then some entry.entryId
    else badExpectedEntry leases (entry.entryId :: seen) entries

/-- The completions of a batch against its expected entries: the first one that names an
    unknown entry, the wrong task, or an entry already answered is an error. -/
def badCompletion (leases : List TaskLease) (expectedEntries : List BatchEntry)
    (answered : List EntryId) : List EntryCompletion → Option EntryId
  | [] => none
  | completion :: completions =>
    match expectedEntries.find? (·.entryId == completion.entryId) with
    | none => some completion.entryId
    | some entry =>
      if entry.taskId ≠ completion.taskId ∨ (leaseOf leases completion.taskId).isNone ∨
          completion.entryId ∈ answered then
        some completion.entryId
      else badCompletion leases expectedEntries (completion.entryId :: answered) completions

/-- One expected entry: its completion, or the failure of a missing one. -/
def routeEntry (descriptor : RunnerDescriptor) (lease : TaskLease) (entry : BatchEntry) :
    Option EntryCompletion → CoreM Nat
  | none => failRunnerDispatch lease (batchClaimConflict s!"batch.missing.{entry.entryId}")
  | some completion => routeEntryCompletion descriptor lease completion

/-- The routing loop over the expected entries. -/
def routeEntries (descriptor : RunnerDescriptor) (leases : List TaskLease)
    (completions : List EntryCompletion) : List BatchEntry → Nat → CoreM Nat
  | [], completed => pure completed
  | entry :: entries, completed =>
    match leaseOf leases entry.taskId with
    | none =>
      failRunnerDispatches leases
        (batchClaimConflict s!"batch.entry.expected.{entry.entryId}")
    | some lease => do
      let count ← routeEntry descriptor lease entry
        (completions.find? (·.entryId == entry.entryId))
      routeEntries descriptor leases completions entries (completed + count)

/-- `route_completion_batch`. -/
def routeCompletionBatch (descriptor : RunnerDescriptor) (leases : List TaskLease)
    (expectedEntries : List BatchEntry) (batch : CompletionBatch) : CoreM Nat :=
  match badExpectedEntry leases [] expectedEntries with
  | some entryId =>
    failRunnerDispatches leases (batchClaimConflict s!"batch.entry.expected.{entryId}")
  | none =>
    match badCompletion leases expectedEntries [] batch.results with
    | some entryId => failRunnerDispatches leases (batchClaimConflict s!"batch.entry.{entryId}")
    | none => routeEntries descriptor leases batch.results expectedEntries 0

/-- The runner id a completion is accounted to. -/
def RunnerCompletion.runnerId (completion : RunnerCompletion) : Option RunnerId :=
  match completion.runner with
  | some runner => some runner.descriptor.runnerId
  | none => completion.taskLeases.head?.map (·.runnerId)

/-- The registered descriptor of a completion's runner. -/
def completionDescriptor (rt : CoreRuntime) (completion : RunnerCompletion) :
    Option RunnerDescriptor :=
  (RunnerCompletion.runnerId completion).bind fun runnerId =>
    rt.registry.descriptorSnapshot.find? (·.runnerId == runnerId)

/-- `if let Some(runner) = completion.runner { registry.put_runner(runner) }`. -/
def returnRunner : Option Runner → CoreM Unit
  | some runner => update fun rt => { rt with registry := rt.registry.putRunner runner }
  | none => pure ()

/-- A completion whose runner is registered, once the runner has been returned. -/
def routeCompletion (descriptor : RunnerDescriptor) (completion : RunnerCompletion) :
    CoreM Nat :=
  match completion.result with
  | .error failure => failRunnerDispatches completion.taskLeases failure
  | .ok result =>
    if result.batchId ≠ completion.batchId then
      failRunnerDispatches completion.taskLeases
        (batchClaimConflict s!"batch.result.{result.batchId}")
    else
      routeCompletionBatch descriptor completion.taskLeases completion.expectedEntries result

def completeRunnerDispatch (completion : RunnerCompletion) : CoreM RunnerLoopReport := do
  let rt ← read
  match rt.completionDescriptor completion with
  | none =>
    fail (runtimeError errRunnerNotFound "runtime.runner_loop"
      s!"batch.{completion.batchId}.runner")
  | some descriptor =>
    returnRunner completion.runner
    let completed ← routeCompletion descriptor completion
    pure { claimedTasks := 0, completedTasks := completed }

end CoreRuntime

end MutsukiRuntime
