/-
  TASK INTERFACE (`runtime/task_api.rs`): submission, and the terminal transitions
  a caller may ask for.

  * `enqueueTask` stores every new task, submitted or derived; a task that needs a
    deprecated surface is stored and rejected at once.
-/
import MutsukiRuntime.Core.Runtime.State

namespace MutsukiRuntime

open Std Prog

namespace CoreRuntime

/-! ## Submission -/

/-- A task without a generation is bound to the active one. -/
def bindGeneration (rt : CoreRuntime) (task : Task) : Task :=
  if task.registryGeneration = 0 then
    { task with registryGeneration := rt.loadPlan.registryGeneration }
  else task

/-- The first deprecated surface a task needs. -/
def deprecatedSurface (rt : CoreRuntime) (task : Task) : Option SurfaceId :=
  (TaskPool.surfaceIdsForTask task rt.protocolClasses).find? rt.isSurfaceDeprecated

def deprecatedSurfaceError (surfaceId : SurfaceId) : RuntimeError :=
  runtimeError errReloadBlocked "runtime.result_router" s!"surface.deprecated.{surfaceId}"

/-- `let _ = self.tasks.reject_ready(..)` on a task that needs a deprecated surface. -/
def rejectDeprecated (taskId : TaskId) : Option SurfaceId → CoreM Unit
  | some surfaceId => do
    let _ ← attempt
      (onPool (TaskPool.rejectReady taskId (deprecatedSurfaceError surfaceId)))
  | none => pure ()

def enqueueTask (task : Task) : CoreM TaskId := do
  let rt ← read
  lift rt.ensureNotAborted
  let task := rt.bindGeneration task
  let taskId ← onPool (TaskPool.enqueueAt task rt.currentStep)
  rejectDeprecated taskId (rt.deprecatedSurface task)
  recordEvent .task "task.enqueue" (some taskId) ∅ none
  recordEvent .task "task.submitted" (some taskId) ∅ none
  pure taskId

/-- The first task of a batch that repeats an id of the batch or of the pool. -/
def duplicateTask (pool : TaskPool) (seen : List TaskId) : List Task → Option TaskId
  | [] => none
  | task :: tasks =>
    if task.taskId ∈ seen ∨ pool.containsTaskId task.taskId then some task.taskId
    else duplicateTask pool (task.taskId :: seen) tasks

/-- `task_handle_for_id`. -/
def taskHandleForId (rt : CoreRuntime) (taskId : TaskId) : Except RuntimeError TaskHandle :=
  match rt.tasks.tasks[taskId]? with
  | none =>
    .error (runtimeError errTaskNotFound "runtime.task" s!"task.handle.{taskId}")
  | some r =>
    .ok
      { taskId := r.task.taskId
        protocolId := r.task.protocolId
        targetBindingId := r.task.targetBindingId
        cancelPolicy := .cascade
        traceId := r.task.traceId
        correlationId := r.task.correlationId }

def submitBatch (batch : TaskBatch) : CoreM (List TaskHandle) := do
  let rt ← read
  lift rt.ensureAcceptingExternalTasks
  match duplicateTask rt.tasks [] batch.tasks with
  | some taskId =>
    fail (runtimeError errTaskDuplicate "runtime.task"
      s!"task.batch.{batch.batchId}.{taskId}")
  | none =>
    let taskIds ← foldEach batch.tasks [] fun taskIds task => do
      let taskId ← enqueueTask task
      pure (taskIds ++ [taskId])
    let rt ← read
    lift (taskIds.mapM rt.taskHandleForId)

def submitTask (task : Task) : CoreM TaskHandle := do
  let handles ← submitBatch { batchId := s!"core.submit.{task.taskId}", tasks := [task] }
  match handles with
  | handle :: _ => pure handle
  | [] => fail (runtimeError errTaskClaimConflict "runtime.task" "task.submit.empty")

def submitTargetedTask (taskId : TaskId) (bindingId : BindingId) (payload : Value) :
    CoreM TaskHandle := do
  let rt ← read
  match rt.handlerBindings.find? (·.bindingId == bindingId) with
  | none =>
    fail (runtimeError errRegistryUnauthorized "runtime.handler_binding"
      s!"handler_binding.{bindingId}")
  | some binding =>
    submitTask
      { Task.new taskId binding.targetProtocolId payload with
        targetBindingId := some binding.bindingId
        runnerHint := binding.targetRunnerHint }

/-! ## Terminal transitions -/

def isLiveStatus (status : Option TaskStatus) : Bool :=
  match status with
  | some status => !isTerminalStatus status
  | none => false

/-- `cancel_task_by_id`. -/
def cancelTaskById : Nat → TaskId → CoreM Unit
  | 0, _ => crash "cancellation recursed deeper than the tasks"
  | fuel + 1, taskId => do
    let rt ← read
    let awaits := rt.tasks.awaitsForParent taskId
    if awaits.any (·.cancelPolicy != .cascade) then
      fail (runtimeError "task.cancel_policy_unsupported" "runtime.task"
        s!"task.cancel.{taskId}")
    else
      onPool (TaskPool.cancelByCore taskId rt.currentStep)
      recordTaskTerminalEvent taskId "task.cancelled" none
      forEach awaits fun taskAwait => do
        let rt ← read
        if isLiveStatus (rt.taskStatus taskAwait.child.taskId) then
          cancelTaskById fuel taskAwait.child.taskId
        else pure ()
      let _ ← wakeTasksWaitingOn taskId

def cancelTaskHandle (handle : TaskHandle) : CoreM Unit := do
  let rt ← read
  cancelTaskById (rt.tasks.tasks.size + 1) handle.taskId

def expireTask (taskId : TaskId) (reason : String) : CoreM Unit := do
  let rt ← read
  let failure := (runtimeError errTaskExpired "runtime.task" s!"task.expire.{taskId}").withEvidence
    "reason" (.string reason)
  onPool (TaskPool.expireByCore taskId failure rt.currentStep)
  recordTaskTerminalEvent taskId "task.expired" (some failure)
  let _ ← wakeTasksWaitingOn taskId

def deadLetterTask (taskId : TaskId) (reason : String) : CoreM Unit := do
  let rt ← read
  let failure :=
    (runtimeError errTaskDeadLetter "runtime.task" s!"task.dead_letter.{taskId}").withEvidence
      "reason" (.string reason)
  onPool (TaskPool.deadLetterByCore taskId failure rt.currentStep)
  recordTaskTerminalEvent taskId "task.dead_lettered" (some failure)
  let _ ← wakeTasksWaitingOn taskId

def wakeTaskHandle (handle : TaskHandle) : CoreM Unit := do
  let rt ← read
  onPool (TaskPool.wake handle.taskId rt.currentStep)

end CoreRuntime

end MutsukiRuntime
