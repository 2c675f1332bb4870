/-
  TASKS AND BATCHES of `mutsuki-runtime-contracts` (`task.rs`, `batch/`).

  A task payload is its JSON value: a typed local payload is only a cache of the
  same value, and `decode` of a local value of the requested type returns that
  value.  Of a `ValueRef` the fields the core reads are kept.
-/
import MutsukiRuntime.Contracts.Value

namespace MutsukiRuntime

inductive TaskStatus where
  | created
  | ready
  | running
  | waiting
  | blocked
  | completed
  | failed
  | cancelled
  | expired
  | deadLetter
  deriving DecidableEq

/-- `is_terminal_status`; the result router has its own copy of the same match. -/
def isTerminalStatus : TaskStatus → Bool
  | .completed | .failed | .cancelled | .expired | .deadLetter => true
  | _ => false

inductive DispatchLane where
  | control
  | interactive
  | normal
  | background
  | bulk
  deriving DecidableEq

inductive OrderingRequirement where
  | none
  | preserveSubmitOrder
  | sameResourceOrder (refId : RefId)
  | strictSequence (sequenceId : String)
  deriving DecidableEq

inductive ResourceAccessMode where
  | read
  | write
  | exclusiveWrite
  deriving DecidableEq

structure ResourceRequirement where
  refId : RefId
  mode : ResourceAccessMode
  expectedVersion : Option Nat
  deriving DecidableEq

structure VersionExpectation where
  refId : RefId
  expectedVersion : Nat
  deriving DecidableEq

structure Task where
  taskId : TaskId
  protocolId : ProtocolId
  priority : Int := 0
  readyAtStep : Option Nat := none
  payload : Value
  inputRefs : List RefId := []
  outputRef : Option RefId := none
  continuationRef : Option RefId := none
  targetBindingId : Option BindingId := none
  leaseId : Option TaskLeaseId := none
  traceId : Option TraceId := none
  expectedVersions : List VersionExpectation := []
  correlationId : Option String := none
  idempotencyKey : Option String := none
  runnerHint : Option String := none
  registryGeneration : Nat := 0
  requiredSurfaces : List SurfaceId := []
  dispatchLane : DispatchLane := .normal
  ordering : OrderingRequirement := .none
  resourceRequirements : List ResourceRequirement := []
  createdSequence : Nat := 0

/-- `Task::new`: the defaults of the structure. -/
def Task.new (taskId : TaskId) (protocolId : ProtocolId) (payload : Value) : Task :=
  { taskId, protocolId, payload }

structure TaskLease where
  leaseId : TaskLeaseId
  taskId : TaskId
  attemptGeneration : Nat
  runnerId : RunnerId
  executorId : ExecutorId
  registryGeneration : Nat
  acquiredAtStep : Nat
  expiresAtStep : Option Nat
  deriving DecidableEq

inductive CancelPolicy where
  | cascade
  | detach
  | shield
  deriving DecidableEq

structure TaskHandle where
  taskId : TaskId
  protocolId : ProtocolId
  targetBindingId : Option BindingId
  cancelPolicy : CancelPolicy
  traceId : Option TraceId
  correlationId : Option String
  deriving DecidableEq

inductive WakeCondition where
  | timer (readyAtStep : Nat)
  | retryAfter (readyAtStep : Nat)
  | resourceEvent (refId : RefId)
  | externalSignal (signalId : String)
  | manualWake
  deriving DecidableEq

inductive ResourceSemantic where
  | frozenValue
  | versionedSnapshot
  | readOnlyFact
  | cowVersionedState
  | capabilityResource
  | streamResource
  | transactionResource
  deriving DecidableEq

inductive ResourceSealState where
  | writable
  | sealed
  deriving DecidableEq

inductive ResourceLifetime where
  | borrowedUntilTaskEnd
  | leaseUntil (step : Nat)
  | persistent
  | externalManaged
  deriving DecidableEq

inductive ResourceAccess where
  | inline
  | mmapFile (path : String) (offset len : Nat) (readonly : Bool)
  | sharedMemory (name : String) (offset len : Nat) (readonly : Bool)
  | blob (storeId key : String)
  | stream (endpoint : String)
  | providerRpc (providerId method : String)
  deriving DecidableEq

def ResourceAccess.isStream : ResourceAccess → Bool
  | .stream _ => true
  | _ => false

structure ResourceId where
  kindId : String
  slotId : String
  generation : Nat
  version : Nat
  deriving DecidableEq

structure LeaseToken where
  tokenId : String
  refId : RefId
  owner : String
  mode : String
  expiresAtStep : Option Nat
  generation : Nat
  deriving DecidableEq

structure ResourceRef where
  refId : RefId
  schema : String
  generation : Nat
  providerId : String := ""
  resourceKind : String := ""
  access : ResourceAccess := .inline
  version : Nat := 1
  resourceId : ResourceId := { kindId := resourceKind, slotId := refId, generation, version }
  semantic : ResourceSemantic := .versionedSnapshot
  sizeHint : Option Nat := none
  contentHash : Option String := none
  lifetime : ResourceLifetime := .persistent
  lease : Option LeaseToken := none
  sealState : ResourceSealState := .writable
  deriving DecidableEq

structure ValueRef where
  refId : RefId
  schema : String
  generation : Nat
  deriving DecidableEq

structure TaskStepContinuation where
  continuation : ResourceRef
  wake : Option WakeCondition
  reason : Option String
  deriving DecidableEq

structure TaskAwait where
  parentTaskId : TaskId
  child : TaskHandle
  continuation : TaskStepContinuation
  cancelPolicy : CancelPolicy
  deriving DecidableEq

inductive ConflictPolicy where
  | retry
  | merge
  | discard
  | fail
  | emitConflictTask
  deriving DecidableEq

structure StateDelta where
  targetRef : RefId
  expectedVersion : Nat
  patch : Value
  conflictPolicy : ConflictPolicy

structure DomainEvent where
  eventId : String
  kind : String
  payload : Value

structure EffectPrecondition where
  refId : RefId
  expectedVersion : Nat
  deriving DecidableEq

structure EffectRequest where
  effectId : String
  kind : String
  payload : Value
  preconditions : List EffectPrecondition
  idempotencyKey : Option String

/-! ## Batches -/

structure BatchEntry where
  entryId : EntryId
  taskId : TaskId
  traceId : Option TraceId
  parentId : Option EntryId
  payloadIndex : Nat
  resourceRequirementIndices : List Nat
  cancelIndex : Option Nat
  deadlineTick : Option Nat
  priority : Int
  lane : DispatchLane
  ordering : OrderingRequirement
  deriving DecidableEq

structure TaskBatch where
  batchId : BatchId
  tasks : List Task

inductive RunnerStatus where
  | completed
  | waiting
  | blocked
  | continue
  | failed
  | cancelled
  deriving DecidableEq

structure RunnerResult where
  taskId : TaskId
  output : Option Value := none
  deltas : List StateDelta := []
  events : List DomainEvent := []
  tasks : List Task := []
  effects : List EffectRequest := []
  values : List ValueRef := []
  resources : List ResourceRef := []
  taskAwait : Option TaskAwait := none
  status : RunnerStatus := .completed

structure EntryCompletion where
  entryId : EntryId
  taskId : TaskId
  result : Option RunnerResult
  error : Option RuntimeError

structure CompletionBatch where
  batchId : BatchId
  tickId : TickId
  results : List EntryCompletion

structure ResourceReadView where
  refId : RefId
  requirementIndices : List Nat
  deriving DecidableEq

structure ResourceWriteLock where
  refId : RefId
  requirementIndices : List Nat
  deriving DecidableEq

/-- `WorkResourcePlan`; `deferred_writes` is always empty and left out. -/
structure WorkResourcePlan where
  readViews : List ResourceReadView := []
  writeLocks : List ResourceWriteLock := []
  parallelGroups : List (List EntryId) := []
  serialGroups : List (List EntryId) := []
  parallelismLimit : Nat := 1
  versionChecks : List VersionExpectation := []
  conflictEntries : List EntryId := []
  deriving DecidableEq

/-- `WorkBatch`; its payload is the in-process list of tasks. -/
structure WorkBatch where
  batchId : BatchId
  tickId : TickId
  batchKey : String
  entries : List BatchEntry
  payload : List Task
  resourcePlan : WorkResourcePlan
  taskLeases : List TaskLease

end MutsukiRuntime
