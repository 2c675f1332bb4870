/-
  RELOAD AND INVOCATION CANCELLATION (`runtime/reload.rs`, `reload/`).

  * A reload builds the new registry, cancels the clean invocations of the old one,
    keeps the old registry as a draining generation if some invocation is polluted,
    and swaps plan and registry.
  * `reloadLoadPlanOnly` swaps the plan under the registry that is there; it compares
    the surfaces of the two plans, but does not check the new one.
-/
import MutsukiRuntime.Core.Runtime.Dispatch

namespace MutsukiRuntime

open Std Prog

inductive InvocationPollution where
  | clean
  | localDirty
  | polluted
  | unknownDirty
  deriving DecidableEq

/-- The `{:?}` text of a pollution. -/
def InvocationPollution.debug : InvocationPollution → String
  | .clean => "Clean"
  | .localDirty => "LocalDirty"
  | .polluted => "Polluted"
  | .unknownDirty => "UnknownDirty"

/-- An invocation that must be drained before its generation is disposed. -/
def InvocationPollution.needsDrain : InvocationPollution → Bool
  | .clean | .localDirty => false
  | .polluted | .unknownDirty => true

structure RunningInvocationDisposition where
  taskId : TaskId
  invocationId : String
  runnerId : RunnerId
  pluginId : String
  pluginGeneration : Nat
  pollution : InvocationPollution
  deriving DecidableEq

/-- `classify_pollution`. -/
def classifyPollution (task : Task) (runner : RunnerDescriptor)
    (protocolClasses : ExtTreeMap ProtocolId ProtocolClass) : InvocationPollution :=
  match protocolClasses[task.protocolId]? with
  | some .effect | some .core | some .control => .polluted
  | none => .unknownDirty
  | some .domain =>
    if runner.purity ≠ .pure then .unknownDirty
    else if !task.inputRefs.isEmpty || !task.expectedVersions.isEmpty then .localDirty
    else .clean

namespace CoreRuntime

/-! ## Invocations -/

def dispositionOf (rt : CoreRuntime) (r : TaskRecord) : Option RunningInvocationDisposition :=
  r.claimedBy.map fun runnerId =>
    let invocationId := match r.lease with
      | some lease => lease.leaseId
      | none => r.task.taskId
    match rt.registry.descriptors[runnerId]? with
    | some descriptor =>
      { taskId := r.task.taskId
        invocationId
        runnerId
        pluginId := descriptor.pluginId
        pluginGeneration := descriptor.pluginGeneration
        pollution := classifyPollution r.task descriptor rt.protocolClasses }
    | none =>
      { taskId := r.task.taskId
        invocationId
        runnerId
        pluginId := "unknown"
        pluginGeneration := r.task.registryGeneration
        pollution := .unknownDirty }

/-- `classify_running_invocations`. -/
def classifyRunningInvocations (rt : CoreRuntime) (order : IterationOrder) :
    List RunningInvocationDisposition :=
  (rt.tasks.runningRecords order).filterMap rt.dispositionOf

def cancelAttrs (disposition : RunningInvocationDisposition) (policy : String) : Attributes :=
  .ofEntries
    [ ("runner_id", .string disposition.runnerId)
    , ("invocation_id", .string disposition.invocationId)
    , ("plugin_id", .string disposition.pluginId)
    , ("plugin_generation", .int (asI64 disposition.pluginGeneration))
    , ("pollution", .string disposition.pollution.debug)
    , ("policy", .string policy) ]

def cancelInvocation (calls : RunnerCalls) (runnerId invocationId : String) : CoreM Nat := do
  let rt ← read
  lift (rt.registry.cancelRunner calls runnerId invocationId)
  let returned ← onPool (TaskPool.cancelRunningInvocation runnerId invocationId rt.currentStep)
  recordEvent .runner "runner.cancel" (some runnerId)
    (.ofEntries [("runner_id", .string runnerId), ("invocation_id", .string invocationId),
      ("returned_to_ready", .int (asI64 returned))])
    none
  pure returned

/-- `cancel_runner_invocation`: only the plugin is told. -/
def cancelRunnerInvocation (calls : RunnerCalls) (runnerId invocationId : String) :
    CoreM Unit := do
  let rt ← read
  lift (rt.registry.cancelRunner calls runnerId invocationId)

/-! ## Generations -/

/-- `mark_generation_phase`. -/
def markGenerationPhase (rt : CoreRuntime) (registryGeneration : Nat)
    (phase : PluginGenerationPhase) : CoreRuntime :=
  { rt with
    generationStates := rt.generationStates.map fun state =>
      if state.generation = registryGeneration then { state with phase } else state }

/-- Adds the states of `added` whose plugin and generation are not listed yet. -/
def addGenerationStates (states added : List PluginGenerationState) :
    List PluginGenerationState :=
  added.foldl (fun states state =>
    if states.any fun s => s.pluginId == state.pluginId && s.generation == state.generation then
      states
    else states ++ [state]) states

/-- `set_active_generation_states`. -/
def setActiveGenerationStates (rt : CoreRuntime) : CoreRuntime :=
  let states := rt.generationStates.map fun state =>
    if state.generation = rt.loadPlan.registryGeneration then { state with phase := .active }
    else if state.phase = .active then { state with phase := .draining }
    else state
  { rt with
    generationStates := addGenerationStates states (generationStatesForPlan rt.loadPlan .active) }

def disposePlugins (calls : RunnerCalls) : CoreM (List RunnerId) := do
  let rt ← read
  let disposed ← lift (rt.registry.disposeAll calls)
  update fun rt => rt.markGenerationPhase rt.loadPlan.registryGeneration .disposed
  recordEvent .plugin "plugin.dispose" none ∅ none
  pure disposed

/-- What the loop of `settle_draining_generations` has sorted out so far. -/
structure SettledGenerations where
  remaining : List DrainingGeneration := []
  disposed : List RunnerId := []
  disposedGenerations : List Nat := []

def settleGeneration (calls : RunnerCalls) (pool : TaskPool) (acc : SettledGenerations)
    (generation : DrainingGeneration) : Except RuntimeError SettledGenerations :=
  if generation.runnerIds.any pool.hasRunningRecords then
    .ok { acc with remaining := acc.remaining ++ [generation] }
  else do
    let disposed ← generation.registry.disposeAll calls
    pure { acc with
      disposed := acc.disposed ++ disposed
      disposedGenerations := acc.disposedGenerations ++ [generation.registryGeneration] }

/-- `settle_draining_generations`.  The table is drained while the loop runs, so an error leaves
    it empty. -/
def settleDrainingGenerations (calls : RunnerCalls) : CoreM (List RunnerId) := do
  let rt ← read
  match rt.drainingGenerations.foldlM (settleGeneration calls rt.tasks) {} with
  | .error failure =>
    update fun rt => { rt with drainingGenerations := [] }
    fail failure
  | .ok settled =>
    update fun rt =>
      settled.disposedGenerations.foldl (·.markGenerationPhase · .disposed)
        { rt with drainingGenerations := settled.remaining }
    pure settled.disposed

/-! ## Reloading -/

/-- `apply_load_plan`. -/
def applyLoadPlan (newPlan : RuntimeLoadPlan) : CoreM Unit := do
  let rt ← read
  let _ ← onPool (TaskPool.rebindReadyGeneration rt.loadPlan.registryGeneration
    newPlan.registryGeneration)
  update fun rt =>
    { rt with
      handlerBindings := handlerBindingsOf newPlan
      surfaces := newPlan.contractSurfaces
      protocolClasses := protocolClassesForPlan newPlan
      loadPlan := newPlan }

/-- `surface_occupancy` of `reload/occupancy.rs`. -/
def surfaceOccupancy (rt : CoreRuntime) : List SurfaceOccupancy :=
  mergeOccupancy (rt.tasks.surfaceOccupancy rt.protocolClasses)
    (rt.resources.surfaceOccupancy rt.surfaces)

/-- The comparison that opens both reloads: a breaking change blocks. -/
def reloadDecision (rt : CoreRuntime) (newPlan : RuntimeLoadPlan) :
    Except RuntimeError ReloadDecision := do
  let decision ← compareSurfaces rt.surfaces newPlan.contractSurfaces rt.surfaceOccupancy
  if decision.blocked then
    .error (runtimeError errReloadBlocked "runtime.reload" "reload.breaking")
  else pure decision

def reloadLoadPlanOnly (newPlan : RuntimeLoadPlan) : CoreM ReloadDecision := do
  let rt ← read
  let decision ← lift (rt.reloadDecision newPlan)
  recordEvent .reload "plugin.reload" (some s!"{newPlan.registryGeneration}") ∅ none
  applyLoadPlan newPlan
  pure decision

/-- One running invocation of the old generation. -/
def reloadInvocation (calls : RunnerCalls) (disposition : RunningInvocationDisposition) :
    CoreM Unit := do
  if disposition.pollution.needsDrain then
    recordEvent .reload "plugin.reload.drain_invocation" (some disposition.taskId)
      (cancelAttrs disposition "reload.drain") none
  else
    let rt ← read
    lift (rt.registry.cancelRunner calls disposition.runnerId disposition.invocationId)
    let _ ← onPool (TaskPool.cancelRunningInvocation disposition.runnerId
      disposition.invocationId rt.currentStep)
    recordEvent .runner "runner.cancel" (some disposition.runnerId)
      (cancelAttrs disposition "reload.cancel_requeue") none

/-- The old registry is kept while it drains, or disposed at once. -/
def retireRegistry (calls : RunnerCalls) (needsDrain : Bool) (oldGeneration : Nat)
    (oldRunnerIds : List RunnerId) : CoreM Unit := do
  let rt ← read
  let oldRegistry := rt.registry
  update fun rt => { rt with registry := {} }
  if needsDrain then
    update fun rt =>
      { rt with
        drainingGenerations := rt.drainingGenerations ++
          [{ registryGeneration := oldGeneration, runnerIds := oldRunnerIds
             registry := oldRegistry }] }
  else
    let _ ← lift (oldRegistry.disposeAll calls)
    update (·.markGenerationPhase oldGeneration .disposed)

def reloadWithAsyncHandlers (calls : RunnerCalls) (order : IterationOrder)
    (newPlan : RuntimeLoadPlan) (newRunners : List Runner)
    (newAsyncHandlers : List AsyncBatchHandler) : CoreM ReloadDecision := do
  lift (validateRuntimeDescriptors newPlan (descriptorsOf newRunners newAsyncHandlers))
  let rt ← read
  let decision ← lift (rt.reloadDecision newPlan)
  let newRegistry ← lift (RunnerRegistry.build newRunners newAsyncHandlers)
  update fun rt =>
    { rt with
      generationStates := addGenerationStates rt.generationStates
        (generationStatesForPlan newPlan .shadowStarting) }
  let rt ← read
  let dispositions := rt.classifyRunningInvocations order
  forEach dispositions (reloadInvocation calls)
  retireRegistry calls (dispositions.any (·.pollution.needsDrain))
    rt.loadPlan.registryGeneration rt.registry.runnerIds
  recordEvent .reload "plugin.reload.swap_generation" (some s!"{newPlan.registryGeneration}") ∅
    none
  applyLoadPlan newPlan
  update fun rt => { rt with registry := newRegistry }.setActiveGenerationStates
  let _ ← settleDrainingGenerations calls
  pure decision

end CoreRuntime

end MutsukiRuntime
