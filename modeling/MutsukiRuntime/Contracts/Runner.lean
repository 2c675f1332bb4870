/-
  RUNNER DESCRIPTORS, PLANS AND BUDGETS of `mutsuki-runtime-contracts`
  (`runner.rs`, `plugin.rs`, `observability.rs`) and of the core's scheduler.

  Kept are the fields that claiming, dispatch, routing, reload and the core's own
  check of a plan read.  The descriptor's schemas, resource and control capabilities
  and metadata, and the plan's identity, deployment and capability-graph fields, are
  read by the Host's resolver alone.
-/
import MutsukiRuntime.Contracts.Task

namespace MutsukiRuntime

open Std

inductive ExecutionClass where
  | control
  | orchestration
  | io
  | cpu
  | blocking
  | script
  deriving DecidableEq

inductive InvocationMode where
  | syncExclusive
  | asyncReentrant
  | asyncExclusive
  | externalProcess
  deriving DecidableEq

inductive RunnerConcurrency where
  | exclusive
  | reentrant (maxInflightBatches maxInflightEntries : Nat)
  | sharded (instances : Nat)
  deriving DecidableEq

def RunnerConcurrency.maxInflightBatches : RunnerConcurrency → Nat
  | .exclusive => 1
  | .reentrant maxInflightBatches _ => maxInflightBatches
  | .sharded instances => instances

def RunnerConcurrency.maxInflightEntries (fallback : Nat) : RunnerConcurrency → Nat
  | .exclusive => fallback
  | .reentrant _ maxInflightEntries => maxInflightEntries
  | .sharded instances => min (fallback * instances) usizeMax

inductive RunnerPurity where
  | pure
  | committer
  | effectful
  deriving DecidableEq

inductive RunnerMode where
  | scalarAdapter
  | nativeBatch
  | batch
  deriving DecidableEq

/-- The `{:?}` text of a runner mode. -/
def RunnerMode.debug : RunnerMode → String
  | .scalarAdapter => "ScalarAdapter"
  | .nativeBatch => "NativeBatch"
  | .batch => "Batch"

/-- The `{:?}` text of a lane. -/
def DispatchLane.debug : DispatchLane → String
  | .control => "Control"
  | .interactive => "Interactive"
  | .normal => "Normal"
  | .background => "Background"
  | .bulk => "Bulk"

structure RunnerBatchCapability where
  mode : RunnerMode := .scalarAdapter
  preferredBatchSize : Nat := 1
  maxBatchEntries : Nat := 1
  maxEntryConcurrency : Nat := 1
  maxInflightBatches : Nat := 1
  deriving DecidableEq

inductive PayloadLayout where
  | row
  | columnar
  | binaryPacked
  | resourceBacked
  deriving DecidableEq

structure RunnerPayloadCapability where
  layouts : List PayloadLayout := [.row]
  preferredLayout : PayloadLayout := .row
  deriving DecidableEq

structure RunnerOrderingCapability where
  default : OrderingRequirement := .none
  supportsSequence : Bool := true
  supportsSameResourceOrder : Bool := true
  deriving DecidableEq

structure RunnerDescriptor where
  runnerId : RunnerId
  pluginId : String
  pluginGeneration : Nat
  acceptedProtocolIds : List ProtocolId
  purity : RunnerPurity
  executionClass : ExecutionClass
  invocationMode : InvocationMode := .syncExclusive
  concurrency : RunnerConcurrency := .exclusive
  batch : RunnerBatchCapability := {}
  payload : RunnerPayloadCapability := {}
  ordering : RunnerOrderingCapability := {}
  contractSurfaces : List SurfaceId := []
  deriving DecidableEq

structure RunnerContext where
  registryGeneration : Nat
  currentStep : Nat
  tickId : TickId
  batchId : BatchId
  executorId : ExecutorId
  taskLeaseIds : List TaskLeaseId
  entryCount : Nat
  invocationId : String
  cancelToken : String
  deadlineTick : Option Nat := none
  deadlineAfterMs : Option Nat := none
  cancelRequested : Bool := false
  deriving DecidableEq

structure RunnerLoopReport where
  claimedTasks : Nat
  completedTasks : Nat
  deriving DecidableEq

/-! ## Load plans -/

inductive ProtocolClass where
  | domain
  | effect
  | core
  | control
  deriving DecidableEq

structure HandlerBinding where
  bindingId : BindingId
  protocolId : String
  targetProtocolId : ProtocolId
  targetRunnerHint : Option String
  priority : Int
  deriving DecidableEq

inductive ContractSurfaceKind where
  | runner
  | taskProtocol
  | schema
  | resourceSchema
  | resourceProvider
  | hostExtension
  | pluginBackend
  | codec
  | bridge
  | schedulerPolicy
  | workflow
  | effect
  | stream
  | subscription
  | timer
  | protocol
  | handlerBinding
  | stateSchema
  | lifecycle
  | permission
  deriving DecidableEq

structure ContractSurface where
  surfaceId : SurfaceId
  kind : ContractSurfaceKind
  fingerprint : String
  deprecated : Bool
  deriving DecidableEq

inductive ObservabilityOverflowPolicy where
  | dropOldest
  | dropNew
  deriving DecidableEq

structure ObservabilityOutletProfile where
  capacity : Nat
  overflowPolicy : ObservabilityOverflowPolicy
  deriving DecidableEq

structure ObservabilityProfile where
  events : ObservabilityOutletProfile
  traces : ObservabilityOutletProfile
  detailedSchedulerDecisions : Bool
  dispatchSpans : Bool
  deriving DecidableEq

structure PluginManifest where
  pluginId : String
  artifactSha256 : String
  runners : List RunnerDescriptor
  protocolClasses : ExtTreeMap String ProtocolClass
  handlerBindings : List HandlerBinding

structure RuntimeLoadPlan where
  registryGeneration : Nat
  plugins : List PluginManifest
  observability : ObservabilityProfile
  contractSurfaces : List ContractSurface

/-! ## Surface occupancy -/

structure SurfaceOccupancy where
  surfaceId : SurfaceId
  readyTasks : Nat := 0
  runningInvocations : Nat := 0
  resourceRefs : Nat := 0
  stateRefs : Nat := 0
  activeLeases : Nat := 0
  openStreams : Nat := 0
  subscriptions : Nat := 0
  timers : Nat := 0
  effectInflight : Nat := 0
  deriving DecidableEq

def SurfaceOccupancy.isZero (o : SurfaceOccupancy) : Bool :=
  o.readyTasks == 0 && o.runningInvocations == 0 && o.resourceRefs == 0 && o.stateRefs == 0 &&
    o.activeLeases == 0 && o.openStreams == 0 && o.subscriptions == 0 && o.timers == 0 &&
    o.effectInflight == 0

inductive SurfaceOccupancyHandleKind where
  | stream
  | subscription
  | timer
  deriving DecidableEq

structure SurfaceOccupancyHandle where
  handleId : String
  surfaceId : SurfaceId
  kind : SurfaceOccupancyHandleKind
  deriving DecidableEq

inductive SurfaceCompatibility where
  | identical
  | additive
  | deprecated
  | removed
  | breaking
  deriving DecidableEq

/-! ## Dispatch budgets -/

structure LaneBudget where
  maxEntries : Nat
  deriving DecidableEq

/-- `DispatchBudget`; a lane without an entry in the map has no budget of its own. -/
structure DispatchBudget where
  maxEntries : Nat
  maxBatches : Nat
  maxBytes : Nat
  laneBudget : DispatchLane → Option LaneBudget

def DispatchBudget.singleBatch (maxEntries : Nat) : DispatchBudget :=
  { maxEntries
    maxBatches := if maxEntries > 0 then 1 else 0
    maxBytes := usizeMax
    laneBudget := fun _ => none }

def DispatchBudget.clampTo (b : DispatchBudget) (hardCapacity : Nat) : DispatchBudget :=
  let maxEntries := min b.maxEntries hardCapacity
  { b with
    maxEntries
    maxBatches := if maxEntries = 0 then 0 else min b.maxBatches maxEntries }

def DispatchBudget.clampBatches (b : DispatchBudget) (hardBatchCapacity : Nat) : DispatchBudget :=
  let maxBatches := min b.maxBatches hardBatchCapacity
  { b with
    maxBatches
    maxEntries := if maxBatches = 0 then 0 else b.maxEntries }

structure ScheduleDecision where
  schedulerId : String
  reason : String
  requestedDispatchLimit : Nat
  dispatchLimit : Nat
  budget : DispatchBudget

def ScheduleDecision.new (schedulerId : String) (dispatchLimit : Nat) (reason : String) :
    ScheduleDecision :=
  { schedulerId, reason, requestedDispatchLimit := dispatchLimit, dispatchLimit
    budget := .singleBatch dispatchLimit }

def ScheduleDecision.clampTo (d : ScheduleDecision) (hardCapacity : Nat) : ScheduleDecision :=
  { d with
    dispatchLimit := min d.dispatchLimit hardCapacity
    budget := d.budget.clampTo hardCapacity }

def ScheduleDecision.clampBatches (d : ScheduleDecision) (hardBatchCapacity : Nat) :
    ScheduleDecision :=
  let budget := d.budget.clampBatches hardBatchCapacity
  { d with
    budget
    dispatchLimit := if budget.maxBatches = 0 then 0 else d.dispatchLimit }

end MutsukiRuntime
