/-
  THE CORE RUNTIME (`runtime.rs`): its state, the stop state machine, and what
  every scheduling and routing path uses to end, wake and reject tasks.

  * A `CoreM` program keeps the runtime it reached when it fails, as `&mut self`
    methods do; `onPool` runs a pool operation inside it.
  * `wakeTasksWaitingOn` is the wake-up of the parents of a finished child.

  The read-only queries of the public interface are left out.
-/
import MutsukiRuntime.Core.TaskPool.Occupancy
import MutsukiRuntime.Core.Stores
import MutsukiRuntime.Core.PlanChecks

namespace MutsukiRuntime

open Std Prog

inductive RuntimeStopState where
  | running
  | draining
  | aborted
  deriving DecidableEq

inductive PluginGenerationPhase where
  | shadowStarting
  | active
  | draining
  | disposed
  deriving DecidableEq

structure PluginGenerationState where
  pluginId : String
  generation : Nat
  phase : PluginGenerationPhase
  deriving DecidableEq

structure DrainingGeneration where
  registryGeneration : Nat
  runnerIds : List RunnerId
  registry : RunnerRegistry

structure CoreRuntime where
  loadPlan : RuntimeLoadPlan
  handlerBindings : List HandlerBinding
  surfaces : List ContractSurface
  protocolClasses : ExtTreeMap ProtocolId ProtocolClass
  registry : RunnerRegistry
  drainingGenerations : List DrainingGeneration := []
  generationStates : List PluginGenerationState
  tasks : TaskPool := {}
  resources : ResourceManager := {}
  states : StateStore := {}
  events : EventLog
  traces : TraceLog
  schedulerDecisions : Nat := 0
  currentStep : Nat := 0
  stopState : RuntimeStopState := .running
  /-- Ghost: the tasks that results of effectful runners have derived. -/
  effectOutputs : List Task := []

abbrev CoreM := Prog CoreRuntime RuntimeError

/-- `protocol_classes_for_plan`: the last class a plan names for a protocol. -/
def protocolClassesForPlan (plan : RuntimeLoadPlan) : ExtTreeMap ProtocolId ProtocolClass :=
  (plan.plugins.flatMap (·.protocolClasses.toList)).foldl (fun m e => m.insert e.1 e.2) ∅

/-- `generation_states_for_plan`. -/
def generationStatesForPlan (plan : RuntimeLoadPlan) (phase : PluginGenerationPhase) :
    List PluginGenerationState :=
  plan.plugins.map fun plugin =>
    { pluginId := plugin.pluginId, generation := plan.registryGeneration, phase }

namespace CoreRuntime

/-- The descriptors that come with a plan. -/
def descriptorsOf (runners : List Runner) (asyncHandlers : List AsyncBatchHandler) :
    List RunnerDescriptor :=
  runners.map (·.descriptor) ++ asyncHandlers.map (·.descriptor)

/-- `boot_with_async_handlers`. -/
def boot (loadPlan : RuntimeLoadPlan) (runners : List Runner)
    (asyncHandlers : List AsyncBatchHandler) : Except RuntimeError CoreRuntime := do
  validateRuntimeDescriptors loadPlan (descriptorsOf runners asyncHandlers)
  let registry ← RunnerRegistry.build runners asyncHandlers
  pure
    { loadPlan
      handlerBindings := handlerBindingsOf loadPlan
      surfaces := loadPlan.contractSurfaces
      protocolClasses := protocolClassesForPlan loadPlan
      registry
      generationStates := generationStatesForPlan loadPlan .active
      events := .new loadPlan.observability.events
      traces := .new loadPlan.observability.traces }

/-- A pool operation. -/
def onPool {α : Type} (m : PoolM α) : CoreM α :=
  zoom (·.tasks) (fun tasks rt => { rt with tasks }) m

/-- `self.events.record(..)`. -/
def recordEvent (kind : RuntimeEventKind) (name : String) (subjectId : Option String)
    (attributes : Attributes) (error : Option RuntimeError) : CoreM Unit :=
  update fun rt =>
    { rt with events := rt.events.record kind name subjectId attributes error }

/-! ## Stopping -/

def ensureAcceptingExternalTasks (rt : CoreRuntime) : Except RuntimeError Unit :=
  match rt.stopState with
  | .running => .ok ()
  | .aborted => .error (runtimeError errRuntimeAborted "runtime.lifecycle" "runtime.submit")
  | .draining => .error (runtimeError errRuntimeNotAccepting "runtime.lifecycle" "runtime.submit")

def ensureNotAborted (rt : CoreRuntime) : Except RuntimeError Unit :=
  if rt.stopState ≠ .aborted then .ok ()
  else .error (runtimeError errRuntimeAborted "runtime.lifecycle" "runtime.execute.aborted")

def beginDrain : CoreM RuntimeStopState := do
  let rt ← read
  match rt.stopState with
  | .running =>
    update fun rt => { rt with stopState := .draining }
    recordEvent .lifecycle "runtime.drain_started" none ∅ none
    pure .draining
  | .draining => pure .draining
  | .aborted =>
    fail (runtimeError errRuntimeAborted "runtime.lifecycle" "runtime.drain.aborted")

/-- `record_task_terminal_event`. -/
def recordTaskTerminalEvent (taskId : TaskId) (name : String) (error : Option RuntimeError) :
    CoreM Unit :=
  recordEvent .task name (some taskId) ∅ error

/-- The failure every task cancelled by an abort carries. -/
def abortFailure (reason : String) : RuntimeError :=
  (runtimeError errRuntimeAborted "runtime.lifecycle" "runtime.abort").withEvidence "reason"
    (.string reason)

def abort (reason : String) : CoreM Nat := do
  let rt ← read
  if rt.stopState = .aborted then pure 0
  else
    update fun rt => { rt with stopState := .aborted }
    let failure := abortFailure reason
    let aborted ← onPool (TaskPool.abortAll rt.currentStep failure)
    forEach aborted fun taskId =>
      recordTaskTerminalEvent taskId "task.cancelled" (some failure)
    recordEvent .lifecycle "runtime.aborted" none
      (.ofEntries [("reason", .string reason), ("cancelled_tasks", .int (asI64 aborted.length))])
      (some failure)
    pure aborted.length

/-! ## Configuration -/

def configureEventCapacity (capacity : Nat) : CoreM Unit :=
  update fun rt =>
    { rt with
      loadPlan :=
        { rt.loadPlan with
          observability :=
            { rt.loadPlan.observability with
              events := { rt.loadPlan.observability.events with capacity } } }
      events := rt.events.setCapacity capacity }

def configureObservability (profile : ObservabilityProfile) : CoreM Unit :=
  update fun rt =>
    { rt with
      events := rt.events.configure profile.events
      traces := rt.traces.configure profile.traces
      loadPlan := { rt.loadPlan with observability := profile } }

def configureTaskHistoryRetention (order : IterationOrder)
    (retention : Option TaskHistoryRetention) : CoreM Unit :=
  onPool (TaskPool.configureHistoryRetention order retention)

/-! ## Surfaces and suspension -/

def isSurfaceDeprecated (rt : CoreRuntime) (surfaceId : SurfaceId) : Bool :=
  rt.surfaces.any fun surface => surface.surfaceId == surfaceId && surface.deprecated

def ensureTaskCanSuspend (rt : CoreRuntime) (taskId : TaskId) : Except RuntimeError Unit :=
  let activeMutable := rt.resources.activeMutableLeaseRoutesForTask taskId
  if activeMutable.isEmpty then .ok ()
  else
    .error ((runtimeError "resource.lease_cross_await" "runtime.resource_manager"
      s!"task.await.{taskId}").withEvidence "active_mutable_leases"
        (.string (",".intercalate activeMutable)))

/-! ## Waking -/

/-- `task_status`. -/
def taskStatus (rt : CoreRuntime) (taskId : TaskId) : Option TaskStatus :=
  rt.tasks.tasks[taskId]?.map (·.status)

/-- One iteration of `wake_tasks_waiting_on`. -/
def wakeParent (childTaskId : TaskId) (woken : Nat) (taskAwait : TaskAwait) : CoreM Nat := do
  let rt ← read
  if rt.taskStatus taskAwait.parentTaskId = some .waiting ∨
      rt.taskStatus taskAwait.parentTaskId = some .blocked then
    onPool (TaskPool.wake taskAwait.parentTaskId rt.currentStep)
    recordEvent .task "task.wake" (some taskAwait.parentTaskId)
      (.ofEntries [("child_task_id", .string childTaskId)]) none
    pure (woken + 1)
  else pure woken

def wakeTasksWaitingOn (childTaskId : TaskId) : CoreM Nat := do
  let waits ← onPool (TaskPool.takeWaitsForChild childTaskId)
  foldEach waits 0 (wakeParent childTaskId)

def wakeDueTasks : CoreM Nat := do
  let rt ← read
  let dueTasks ← onPool (TaskPool.wakeDueTasks rt.currentStep)
  forEach dueTasks fun due =>
    recordEvent .task "task.wake" (some due.1)
      (.ofEntries [("reason", .string "ready_at_step"), ("ready_at_step", .int (asI64 due.2))])
      none
  pure dueTasks.length

/-- The ready tasks whose preconditions no longer hold, each with its error. -/
def staleReadyTasks (rt : CoreRuntime) : List (TaskId × RuntimeError) :=
  rt.tasks.staleExpectationTaskIds.filterMap fun taskId =>
    match rt.tasks.tasks[taskId]? with
    | none => none
    | some r =>
      match rt.states.validateExpectations r.task.expectedVersions
          s!"task.precondition.{taskId}" with
      | .ok () => none
      | .error failure => some (taskId, failure)

/-- One iteration of `reject_stale_ready_tasks`. -/
def rejectStaleTask (rejected : Nat) (stale : TaskId × RuntimeError) : CoreM Nat := do
  onPool (TaskPool.rejectReady stale.1 stale.2)
  recordTaskTerminalEvent stale.1 "task.failed" (some stale.2)
  let _ ← wakeTasksWaitingOn stale.1
  pure (rejected + 1)

def rejectStaleReadyTasks : CoreM Nat := do
  let rt ← read
  foldEach rt.staleReadyTasks 0 rejectStaleTask

end CoreRuntime

end MutsukiRuntime
