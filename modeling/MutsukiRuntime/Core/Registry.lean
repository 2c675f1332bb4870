/-
  RUNNERS AND THEIR REGISTRY (`runner.rs`, `registry.rs`).

  * A `Runner` is one boxed instance: its descriptor and a number that tells the
    instances of one id apart.  What the plugin code behind it answers during a
    public call of the core is `RunnerCalls`, an argument of that call.
  * `RunnerRegistry` keeps the idle instances of each id as a stack, the async
    handlers, and the descriptors with their sorted snapshot.

  Heartbeats and capability declarations are written and read by the Host alone;
  they are left out.
-/
import MutsukiRuntime.Core.Logs

namespace MutsukiRuntime

open Std Buckets

/-! ## Runners -/

/-- `Box<dyn Runner>`. -/
structure Runner where
  descriptor : RunnerDescriptor
  instanceId : Nat := 0
  deriving DecidableEq

/-- `Arc<dyn AsyncBatchHandler>`.  The core never polls it. -/
structure AsyncBatchHandler where
  descriptor : RunnerDescriptor
  deriving DecidableEq

/-- What plugin code answers during one call. -/
structure RunnerCalls where
  runBatch : Runner → RunnerContext → WorkBatch → Except RuntimeError CompletionBatch
  cancel : Runner → String → Except RuntimeError Unit
  dispose : Runner → Except RuntimeError Unit
  disposeHandler : AsyncBatchHandler → Except RuntimeError Unit

inductive RunnerDispatchTarget where
  | sync (runner : Runner)
  | async (handler : AsyncBatchHandler)
  deriving DecidableEq

structure RunnerDispatch where
  target : RunnerDispatchTarget
  ctx : RunnerContext
  taskLeases : List TaskLease
  batch : WorkBatch

structure RunnerCompletion where
  runner : Option Runner
  taskLeases : List TaskLease
  batchId : BatchId
  expectedEntries : List BatchEntry
  result : Except RuntimeError CompletionBatch

/-- `InlineRunnerExecutor::execute`. -/
def RunnerCalls.execute (calls : RunnerCalls) (dispatch : RunnerDispatch) : RunnerCompletion :=
  match dispatch.target with
  | .sync runner =>
    { runner := some runner
      taskLeases := dispatch.taskLeases
      batchId := dispatch.batch.batchId
      expectedEntries := dispatch.batch.entries
      result := calls.runBatch runner dispatch.ctx dispatch.batch }
  | .async _ =>
    { runner := none
      taskLeases := dispatch.taskLeases
      batchId := dispatch.batch.batchId
      expectedEntries := dispatch.batch.entries
      result := .error (runtimeError errRuntimeHostFailed "runtime.inline_executor"
        "host.async_executor.unavailable") }

/-! ## Handler bindings -/

/-- The order of `sort_bindings`: protocol, then priority from high to low, then id. -/
def bindingLe (a b : HandlerBinding) : Bool :=
  decide (a.protocolId < b.protocolId) ||
    (a.protocolId == b.protocolId && (decide (b.priority < a.priority) ||
      (a.priority == b.priority && decide (a.bindingId ≤ b.bindingId))))

/-- `HandlerBindingRegistry::from_load_plan`. -/
def handlerBindingsOf (plan : RuntimeLoadPlan) : List HandlerBinding :=
  (plan.plugins.flatMap (·.handlerBindings)).insertionSort fun a b => bindingLe a b

/-! ## The registry -/

structure RunnerRegistry where
  runners : ExtTreeMap RunnerId (List Runner) := ∅
  asyncHandlers : ExtTreeMap RunnerId AsyncBatchHandler := ∅
  descriptors : ExtTreeMap RunnerId RunnerDescriptor := ∅
  descriptorSnapshot : List RunnerDescriptor := []
  frozen : Bool := false

namespace RunnerRegistry

/-- `Vec::dedup` on a sorted list. -/
def dedupSorted : List String → List String
  | [] => []
  | [a] => [a]
  | a :: b :: rest => if a = b then dedupSorted (b :: rest) else a :: dedupSorted (b :: rest)

/-- `normalized_descriptor`. -/
def normalizedDescriptor (descriptor : RunnerDescriptor) : RunnerDescriptor :=
  { descriptor with
    acceptedProtocolIds :=
      dedupSorted (descriptor.acceptedProtocolIds.insertionSort (· ≤ ·)) }

/-- `duplicate_runner`. -/
def duplicateRunner (runnerId : RunnerId) : RuntimeError :=
  runtimeError errRegistryUnauthorized "runtime.runner_registry" s!"runner.{runnerId}.duplicate"

/-- `rebuild_descriptor_snapshot`. -/
def rebuildDescriptorSnapshot (reg : RunnerRegistry) : RunnerRegistry :=
  { reg with
    descriptorSnapshot := (reg.descriptors.toList.map (·.2)).insertionSort
      fun a b => a.runnerId ≤ b.runnerId }

/-- The instances a descriptor asks for. -/
def instancesOf (descriptor : RunnerDescriptor) : Nat :=
  match descriptor.concurrency with
  | .sharded instances => instances
  | _ => 1

/-- `register`.  Its callers drop the registry when it fails. -/
def register (reg : RunnerRegistry) (runner : Runner) : Except RuntimeError RunnerRegistry :=
  if reg.frozen then
    .error (runtimeError errRegistryFrozen "runtime.runner_registry" "runner.register")
  else
    let runnerId := runner.descriptor.runnerId
    let descriptor := normalizedDescriptor runner.descriptor
    let runners := reg.runners.getD runnerId []
    if reg.asyncHandlers.contains runnerId then .error (duplicateRunner runnerId)
    else if reg.descriptors[runnerId]?.any (· != descriptor) then
      .error (duplicateRunner runnerId)
    else if instancesOf descriptor ≤ runners.length then .error (duplicateRunner runnerId)
    else
      .ok { reg with
        runners := reg.runners.insert runnerId (runners ++ [runner])
        descriptors := reg.descriptors.insert runnerId descriptor }.rebuildDescriptorSnapshot

/-- `register_async_handler`. -/
def registerAsyncHandler (reg : RunnerRegistry) (handler : AsyncBatchHandler) :
    Except RuntimeError RunnerRegistry :=
  if reg.frozen then
    .error (runtimeError errRegistryFrozen "runtime.runner_registry" "async_handler.register")
  else
    let descriptor := normalizedDescriptor handler.descriptor
    let runnerId := descriptor.runnerId
    if reg.descriptors.contains runnerId || reg.runners.contains runnerId ||
        reg.asyncHandlers.contains runnerId then
      .error (duplicateRunner runnerId)
    else if descriptor.invocationMode ≠ .asyncReentrant ∧
        descriptor.invocationMode ≠ .asyncExclusive then
      .error (runtimeError errRegistryUnauthorized "runtime.runner_registry"
        s!"runner.{runnerId}.async_invocation_mode")
    else
      .ok { reg with
        descriptors := reg.descriptors.insert runnerId descriptor
        asyncHandlers := reg.asyncHandlers.insert runnerId handler }.rebuildDescriptorSnapshot

/-- The instances `validate_instance_counts` finds for a descriptor. -/
def instanceCount (reg : RunnerRegistry) (runnerId : RunnerId) : Nat :=
  match reg.runners[runnerId]? with
  | some runners => runners.length
  | none => if reg.asyncHandlers.contains runnerId then 1 else 0

/-- `validate_instance_counts`.  The source meets the descriptors in hash order, so with several
    mismatches it may name another one. -/
def validateInstanceCounts (reg : RunnerRegistry) : Except RuntimeError Unit :=
  reg.descriptorSnapshot.forM fun descriptor =>
    let actual := reg.instanceCount descriptor.runnerId
    let expected := instancesOf descriptor
    if actual = expected then .ok ()
    else
      .error (runtimeError errRegistryUnauthorized "runtime.runner_registry"
        s!"runner.{descriptor.runnerId}.instances.{actual}.expected.{expected}")

/-- The registry that `boot` and a reload build: every registration, the instance counts, and
    the freeze. -/
def build (runners : List Runner) (handlers : List AsyncBatchHandler) :
    Except RuntimeError RunnerRegistry := do
  let reg ← runners.foldlM register {}
  let reg ← handlers.foldlM registerAsyncHandler reg
  reg.validateInstanceCounts
  pure { reg with frozen := true }

/-- `runner_ids`. -/
def runnerIds (reg : RunnerRegistry) : List RunnerId :=
  reg.descriptorSnapshot.map (·.runnerId)

/-- The idle instances of an id, the next one to be taken last. -/
def idle (reg : RunnerRegistry) (runnerId : RunnerId) : List Runner :=
  reg.runners.getD runnerId []

/-- `take_runner`. -/
def takeRunner (reg : RunnerRegistry) (runnerId : RunnerId) :
    Option Runner × RunnerRegistry :=
  match reg.runners[runnerId]? with
  | some runners =>
    (runners.getLast?, { reg with runners := reg.runners.insert runnerId runners.dropLast })
  | none => (none, reg)

/-- `put_runner`. -/
def putRunner (reg : RunnerRegistry) (runner : Runner) : RunnerRegistry :=
  let runnerId := runner.descriptor.runnerId
  { reg with runners := reg.runners.insert runnerId (reg.idle runnerId ++ [runner]) }

/-- `cancel_runner`. -/
def cancelRunner (reg : RunnerRegistry) (calls : RunnerCalls) (runnerId : RunnerId)
    (invocationId : String) : Except RuntimeError Unit :=
  match (reg.idle runnerId).getLast? with
  | none =>
    .error (runtimeError errRunnerNotFound "runtime.runner_registry"
      s!"runner.cancel.{runnerId}")
  | some runner => calls.cancel runner invocationId

/-- `dispose_all`: the disposed ids.  The source meets the runners in hash order. -/
def disposeAll (reg : RunnerRegistry) (calls : RunnerCalls) :
    Except RuntimeError (List RunnerId) := do
  let runners := reg.runners.toList.flatMap (·.2)
  let handlers := reg.asyncHandlers.toList.map (·.2)
  runners.forM calls.dispose
  handlers.forM calls.disposeHandler
  pure (runners.map (·.descriptor.runnerId) ++ handlers.map (·.descriptor.runnerId))

end RunnerRegistry

end MutsukiRuntime
