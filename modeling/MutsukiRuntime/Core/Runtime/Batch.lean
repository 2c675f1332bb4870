/-
  WORK BATCHES (`runner_loop/batch.rs`, `trace_metadata.rs`): how claimed tasks
  become the batch a runner gets, with its resource plan and trace attributes.

  * `splitLeasedTasksByResourceConflict` cuts the claimed tasks wherever one writes
    a ref an earlier task of its group writes.
-/
import MutsukiRuntime.Core.TaskPool.Occupancy

namespace MutsukiRuntime

open Std Buckets

/-! ## Splitting by write conflicts -/

/-- `write_requirement_refs`. -/
def writeRequirementRefs (task : Task) : List RefId :=
  (task.resourceRequirements.filter fun requirement =>
    requirement.mode == .write || requirement.mode == .exclusiveWrite).map (·.refId)

/-- The groups closed so far, the open group and the refs it writes. -/
structure ConflictGroups where
  groups : List (List (TaskLease × Task)) := []
  currentGroup : List (TaskLease × Task) := []
  currentWriteRefs : List RefId := []

def ConflictGroups.add (acc : ConflictGroups) (leasedTask : TaskLease × Task) :
    ConflictGroups :=
  let writeRefs := writeRequirementRefs leasedTask.2
  if !acc.currentGroup.isEmpty && writeRefs.any acc.currentWriteRefs.contains then
    { groups := acc.groups ++ [acc.currentGroup]
      currentGroup := [leasedTask]
      currentWriteRefs := writeRefs }
  else
    { acc with
      currentGroup := acc.currentGroup ++ [leasedTask]
      currentWriteRefs := acc.currentWriteRefs ++ writeRefs }

def splitLeasedTasksByResourceConflict (leasedTasks : List (TaskLease × Task)) :
    List (List (TaskLease × Task)) :=
  let acc := leasedTasks.foldl ConflictGroups.add {}
  if acc.currentGroup.isEmpty then acc.groups else acc.groups ++ [acc.currentGroup]

/-- `slice::chunks`; the fuel bounds the number of chunks. -/
def chunks {α : Type} (size : Nat) : Nat → List α → List (List α)
  | 0, _ => []
  | _, [] => []
  | fuel + 1, x :: xs => (x :: xs).take size :: chunks size fuel ((x :: xs).drop size)

/-! ## The batch -/

/-- The entries, from the index of the first one and of its first resource requirement. -/
def batchEntries (payloadIndex resourceStart : Nat) : List Task → List BatchEntry
  | [] => []
  | task :: tasks =>
    { entryId := task.taskId
      taskId := task.taskId
      traceId := task.traceId
      parentId := none
      payloadIndex
      resourceRequirementIndices :=
        List.range' resourceStart task.resourceRequirements.length
      cancelIndex := some payloadIndex
      deadlineTick := none
      priority := task.priority
      lane := task.dispatchLane
      ordering := task.ordering } ::
    batchEntries (payloadIndex + 1) (resourceStart + task.resourceRequirements.length) tasks

/-- `requirement_entry_indices`: the entry of each requirement. -/
def requirementEntryIndices (tasks : List Task) : List Nat :=
  (tasks.mapIdx fun index task =>
    List.replicate task.resourceRequirements.length index).flatten

/-- The requirement indices of each ref whose requirement satisfies `select`, by ref. -/
def requirementsByRef (requirements : List ResourceRequirement)
    (select : ResourceRequirement → Bool) : ExtTreeMap RefId (List Nat) :=
  (requirements.mapIdx fun index requirement => (index, requirement)).foldl
    (fun m e => if select e.2 then upsert m e.2.refId (· ++ [e.1]) else m) ∅

def isWriteAccess (requirement : ResourceRequirement) : Bool :=
  match requirement.mode with
  | .read => false
  | .write | .exclusiveWrite => true

/-- The entries that share a written ref: those of a write lock with several requirements. -/
def conflictEntryIndices (writeLocks : List (RefId × List Nat)) (entryIndices : List Nat) :
    List Nat :=
  (writeLocks.filter fun lock => decide (1 < lock.2.length)).flatMap fun lock =>
    lock.2.filterMap (entryIndices[·]?)

/-- `build_work_resource_plan`. -/
def buildWorkResourcePlan (entries : List BatchEntry) (requirements : List ResourceRequirement)
    (entryIndices : List Nat) : WorkResourcePlan :=
  let readViews := (requirementsByRef requirements fun r => !isWriteAccess r).toList
  let writeLocks := (requirementsByRef requirements isWriteAccess).toList
  let conflicting := conflictEntryIndices writeLocks entryIndices
  let indexed := entries.mapIdx fun index entry => (index, entry)
  let free := (indexed.filter fun e => !conflicting.contains e.1).map (·.2)
  let conflictEntries :=
    (indexed.filter fun e => conflicting.contains e.1).map (·.2.entryId)
  let parallelGroup := (free.filter fun e => e.ordering == .none).map (·.entryId)
  let serialGroups := (free.filter fun e => e.ordering != .none).map ([·.entryId])
  { readViews := readViews.map fun e => { refId := e.1, requirementIndices := e.2 }
    writeLocks := writeLocks.map fun e => { refId := e.1, requirementIndices := e.2 }
    versionChecks := requirements.filterMap fun r =>
      r.expectedVersion.map fun expectedVersion => { refId := r.refId, expectedVersion }
    conflictEntries
    serialGroups
    parallelGroups := if parallelGroup.isEmpty then [] else [parallelGroup]
    parallelismLimit :=
      if serialGroups.isEmpty && conflictEntries.isEmpty then max entries.length 1 else 1 }

/-- `build_work_batch`. -/
def buildWorkBatch (currentStep : Nat) (batchId : BatchId) (descriptor : RunnerDescriptor)
    (leasedTasks : List (TaskLease × Task)) : WorkBatch :=
  let tasks := leasedTasks.map (·.2)
  let entries := batchEntries 0 0 tasks
  { batchId
    tickId := s!"tick-{currentStep}"
    batchKey := descriptor.runnerId
    entries
    payload := tasks
    resourcePlan := buildWorkResourcePlan entries (tasks.flatMap (·.resourceRequirements))
      (requirementEntryIndices tasks)
    taskLeases := leasedTasks.map (·.1) }

/-! ## Attributes -/

/-- `dispatch_batch_attrs`; an in-process payload has the row layout. -/
def dispatchBatchAttrs (descriptor : RunnerDescriptor) (batch : WorkBatch)
    (taskLeases : List TaskLease) (executorId : ExecutorId) : List (String × ScalarValue) :=
  let plan := batch.resourcePlan
  [ ("executor_id", .string executorId)
  , ("task_count", .int (asI64 batch.entries.length))
  , ("entry_count", .int (asI64 batch.entries.length))
  , ("batch_id", .string batch.batchId)
  , ("tick_id", .string batch.tickId)
  , ("payload_layout", .string "row")
  , ("resource_conflict_count", .int (asI64 plan.conflictEntries.length))
  , ("parallel_group_count", .int (asI64 plan.parallelGroups.length))
  , ("serial_group_count", .int (asI64 plan.serialGroups.length))
  , ("effective_concurrency", .int (asI64 plan.parallelismLimit))
  , ("runner_mode", .string descriptor.batch.mode.debug) ] ++
  (match batch.entries.head? with
    | some entry =>
      [ ("entry_id", .string entry.entryId), ("task_id", .string entry.taskId)
      , ("lane", .string entry.lane.debug) ]
    | none => []) ++
  (match batch.payload.head?.bind (·.correlationId) with
    | some correlationId => [("correlation_id", .string correlationId)]
    | none => []) ++
  [("task_lease_ids", .string (",".intercalate (taskLeases.map (·.leaseId))))]

def descriptorFingerprint (runner : RunnerDescriptor) : String :=
  s!"runner:{runner.runnerId}:{runner.pluginId}:{runner.pluginGeneration}:" ++
    ",".intercalate runner.acceptedProtocolIds

def contractFingerprint (runner : RunnerDescriptor) (plan : RuntimeLoadPlan) : String :=
  let fingerprints := runner.contractSurfaces.map fun surfaceId =>
    let fingerprint := match plan.contractSurfaces.find? (·.surfaceId == surfaceId) with
      | some surface => surface.fingerprint
      | none => "missing"
    s!"{surfaceId}={fingerprint}"
  ";".intercalate (fingerprints.insertionSort (· ≤ ·))

/-- `runner_attrs`. -/
def runnerAttrs (runner : RunnerDescriptor) (plan : RuntimeLoadPlan) :
    List (String × ScalarValue) :=
  let artifactHash := match plan.plugins.find? (·.pluginId == runner.pluginId) with
    | some plugin => plugin.artifactSha256
    | none => "unknown"
  [ ("runner_id", .string runner.runnerId)
  , ("plugin_id", .string runner.pluginId)
  , ("plugin_generation", .int (asI64 runner.pluginGeneration))
  , ("artifact_hash", .string artifactHash)
  , ("descriptor_hash", .string (descriptorFingerprint runner))
  , ("contract_fingerprint", .string (contractFingerprint runner plan)) ]

/-- `trace_attrs`. -/
def traceAttrs (span : TraceSpan) : Attributes :=
  .ofEntries [("trace_id", .string span.traceId), ("span_id", .string span.spanId),
    ("span_name", .string span.name)]

end MutsukiRuntime
