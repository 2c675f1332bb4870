/-
  CHECKING A LOAD PLAN (`validate_runtime_descriptors` of `registry.rs`): what `boot`
  and a full reload ask of a plan and of the runners that come with it.

  The class of a protocol is here that of the FIRST plugin that mentions it, while
  the class map of the runtime (`protocol_classes_for_plan`) keeps the LAST one.
-/
import MutsukiRuntime.Contracts.Runner

namespace MutsukiRuntime

open Std

/-- A refusal of the plan check. -/
def unauthorized (source route : String) : Except RuntimeError Unit :=
  .error (runtimeError errRegistryUnauthorized source route)

/-! ## One runner -/

/-- The pairs of `invocation_matches_concurrency`. -/
def invocationMatchesConcurrency : InvocationMode → RunnerConcurrency → Bool
  | .syncExclusive, .exclusive => true
  | .syncExclusive, .sharded _ => true
  | .asyncExclusive, .exclusive => true
  | .asyncReentrant, .reentrant _ _ => true
  | .externalProcess, .exclusive => true
  | .externalProcess, .sharded _ => true
  | _, _ => false

/-- The batch sizes `validate_runner_batch_capabilities` refuses. -/
def badBatchSizes (runner : RunnerDescriptor) : Bool :=
  let declaredBatches := runner.concurrency.maxInflightBatches
  let declaredEntries := runner.concurrency.maxInflightEntries runner.batch.maxBatchEntries
  runner.batch.preferredBatchSize == 0 || runner.batch.maxBatchEntries == 0 ||
    runner.batch.maxEntryConcurrency == 0 || runner.batch.maxInflightBatches == 0 ||
    runner.batch.maxInflightBatches != declaredBatches || declaredBatches == 0 ||
    declaredEntries == 0 ||
    decide (runner.batch.maxBatchEntries < runner.batch.preferredBatchSize) ||
    decide (runner.batch.maxBatchEntries < runner.batch.maxEntryConcurrency)

def validateRunnerBatchCapabilities (runner : RunnerDescriptor) : Except RuntimeError Unit :=
  if badBatchSizes runner then unauthorized "runtime.load_plan" s!"runner.{runner.runnerId}.batch"
  else if !invocationMatchesConcurrency runner.invocationMode runner.concurrency then
    unauthorized "runtime.load_plan" s!"runner.{runner.runnerId}.concurrency"
  else if runner.payload.layouts.isEmpty ||
      !runner.payload.layouts.contains runner.payload.preferredLayout ||
      !runner.payload.layouts.contains .row then
    unauthorized "runtime.load_plan" s!"runner.{runner.runnerId}.payload"
  else
    match runner.ordering.default with
    | .strictSequence _ =>
      if runner.ordering.supportsSequence then .ok ()
      else unauthorized "runtime.load_plan" s!"runner.{runner.runnerId}.ordering.sequence"
    | .sameResourceOrder _ =>
      if runner.ordering.supportsSameResourceOrder then .ok ()
      else unauthorized "runtime.load_plan" s!"runner.{runner.runnerId}.ordering.resource"
    | _ => .ok ()

def validateRunnerPrivilege (runner : RunnerDescriptor) : Except RuntimeError Unit :=
  if runner.purity = .committer ∧ runner.runnerId ≠ "core.kernel" then
    unauthorized "runtime.load_plan" s!"runner.{runner.runnerId}.committer"
  else if runner.executionClass = .control ∧ runner.runnerId ≠ "core.kernel" then
    unauthorized "runtime.load_plan" s!"runner.{runner.runnerId}.control"
  else validateRunnerBatchCapabilities runner

/-- The pairs of `matches_purity`. -/
def matchesPurity : RunnerPurity → ProtocolClass → Bool
  | .pure, .domain => true
  | .effectful, .effect => true
  | .committer, .core => true
  | .committer, .control => true
  | _, _ => false

/-- The class the check reads: that of the first plugin that mentions the protocol. -/
def plannedClass (plan : RuntimeLoadPlan) (protocolId : ProtocolId) : Option ProtocolClass :=
  plan.plugins.findSome? fun plugin => plugin.protocolClasses[protocolId]?

/-- The check of one accepted protocol. -/
def validateProtocolClass (plan : RuntimeLoadPlan) (runner : RunnerDescriptor)
    (protocolId : ProtocolId) : Except RuntimeError Unit :=
  match plannedClass plan protocolId with
  | none =>
    unauthorized "runtime.load_plan.protocol_class"
      s!"runner.{runner.runnerId}.protocol.{protocolId}.unknown"
  | some protocolClass =>
    if !matchesPurity runner.purity protocolClass ||
        (protocolClass == .control && runner.executionClass != .control) then
      unauthorized "runtime.load_plan.protocol_class"
        s!"runner.{runner.runnerId}.protocol.{protocolId}.purity_conflict"
    else .ok ()

def validateRunnerProtocolClasses (plan : RuntimeLoadPlan) (runner : RunnerDescriptor) :
    Except RuntimeError Unit :=
  runner.acceptedProtocolIds.forM (validateProtocolClass plan runner)

/-! ## The whole plan -/

def plannedRunners (plan : RuntimeLoadPlan) : List RunnerDescriptor :=
  plan.plugins.flatMap (·.runners)

/-- A runner that comes with the plan must be planned, as it is. -/
def validateProvidedRunner (plan : RuntimeLoadPlan) (runner : RunnerDescriptor) :
    Except RuntimeError Unit :=
  match (plannedRunners plan).find? (·.runnerId == runner.runnerId) with
  | none => unauthorized "runtime.load_plan" s!"runner.{runner.runnerId}"
  | some planned => do
    if planned.invocationMode ≠ runner.invocationMode ∨
        planned.concurrency ≠ runner.concurrency then
      unauthorized "runtime.load_plan" s!"runner.{runner.runnerId}.invocation"
    else do
      validateRunnerPrivilege runner
      validateRunnerProtocolClasses plan runner

/-- One binding of `validate_handler_bindings`. -/
def validateHandlerBinding (runners : List RunnerDescriptor) (binding : HandlerBinding) :
    Except RuntimeError Unit :=
  if !runners.any (·.acceptedProtocolIds.contains binding.targetProtocolId) then
    unauthorized "runtime.load_plan"
      s!"handler_binding.{binding.bindingId}.target_protocol_id.{binding.targetProtocolId}"
  else
    match binding.targetRunnerHint with
    | none => .ok ()
    | some runnerHint =>
      match runners.find? (·.runnerId == runnerHint) with
      | none =>
        unauthorized "runtime.load_plan"
          s!"handler_binding.{binding.bindingId}.target_runner_hint.{runnerHint}"
      | some runner =>
        if !runner.acceptedProtocolIds.contains binding.targetProtocolId then
          unauthorized "runtime.load_plan" (s!"handler_binding.{binding.bindingId}" ++
            s!".target_runner_hint.{runnerHint}.target_protocol_id." ++
            binding.targetProtocolId)
        else .ok ()

def validateHandlerBindings (plan : RuntimeLoadPlan) : Except RuntimeError Unit :=
  (plan.plugins.flatMap (·.handlerBindings)).forM (validateHandlerBinding (plannedRunners plan))

def validateRuntimeDescriptors (plan : RuntimeLoadPlan) (runners : List RunnerDescriptor) :
    Except RuntimeError Unit := do
  (plannedRunners plan).forM fun runner => do
    validateRunnerPrivilege runner
    validateRunnerProtocolClasses plan runner
  runners.forM (validateProvidedRunner plan)
  validateHandlerBindings plan

end MutsukiRuntime
