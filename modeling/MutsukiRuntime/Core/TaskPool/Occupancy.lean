/-
  POOL QUERIES (`task_pool/occupancy.rs` and the readers of `task_pool.rs`): what
  the runtime asks the pool before it schedules, reloads or enqueues.
-/
import MutsukiRuntime.Core.TaskPool.Claiming
import MutsukiRuntime.Core.Registry
import MutsukiRuntime.Core.Surfaces

namespace MutsukiRuntime

open Std Buckets

structure RunnerLoad where
  runningCount : Nat
  waitingCount : Nat
  queuedCount : Nat
  pendingWeight : Nat
  deriving DecidableEq

namespace TaskPool

/-- `runner_load`. -/
def runnerLoad (pool : TaskPool) (runner : RunnerDescriptor) (step registryGeneration : Nat) :
    RunnerLoad :=
  let runningCount := (bucket pool.indexes.runningByRunner runner.runnerId).size
  let waitingCount := (bucket pool.indexes.waitingByRunner runner.runnerId).size
  let queuedCount := pool.indexes.readyDispatchCount runner step registryGeneration
  { runningCount, waitingCount, queuedCount
    pendingWeight := runningCount + waitingCount + queuedCount }

/-- `is_effect`. -/
def isEffect (task : Task) (protocolClasses : ExtTreeMap ProtocolId ProtocolClass) : Bool :=
  protocolClasses[task.protocolId]? == some .effect

/-- `surface_ids_for_task`. -/
def surfaceIdsForTask (task : Task) (protocolClasses : ExtTreeMap ProtocolId ProtocolClass) :
    List SurfaceId :=
  let surfaceIds := task.requiredSurfaces ++ [s!"task_protocol:{task.protocolId}"]
  let surfaceIds :=
    if isEffect task protocolClasses then surfaceIds ++ [s!"effect:{task.protocolId}"]
    else surfaceIds
  let surfaceIds := match task.runnerHint with
    | some runnerHint => surfaceIds ++ [s!"runner:{runnerHint}"]
    | none => surfaceIds
  RunnerRegistry.dedupSorted (surfaceIds.insertionSort (· ≤ ·))

/-- What a record adds to the occupancy of one of its surfaces.  A blocked task adds nothing. -/
def recordOccupancy (protocolClasses : ExtTreeMap ProtocolId ProtocolClass) (r : TaskRecord)
    (surfaceId : SurfaceId) : SurfaceOccupancy :=
  let effectInflight := if isEffect r.task protocolClasses then 1 else 0
  match r.status with
  | .ready => { surfaceId, readyTasks := 1, effectInflight }
  | .running | .waiting => { surfaceId, runningInvocations := 1, effectInflight }
  | _ => { surfaceId }

/-- `surface_occupancy`. -/
def surfaceOccupancy (pool : TaskPool)
    (protocolClasses : ExtTreeMap ProtocolId ProtocolClass) : List SurfaceOccupancy :=
  tallyOccupancy ((recordsOf pool.tasks).flatMap fun r =>
    (surfaceIdsForTask r.task protocolClasses).map (recordOccupancy protocolClasses r))

/-- `stale_expectation_task_ids`: the ready tasks with preconditions. -/
def staleExpectationTaskIds (pool : TaskPool) : List TaskId :=
  pool.indexes.readyWithExpectations.toList

/-- `running_records`. -/
def runningRecords (pool : TaskPool) (order : IterationOrder) : List TaskRecord :=
  ((order.1 (recordsOf pool.tasks)).filter fun r => r.status == .running).insertionSort
    fun a b => a.task.createdSequence ≤ b.task.createdSequence

/-- Whether `running_records_for_runner` finds any record. -/
def hasRunningRecords (pool : TaskPool) (runnerId : RunnerId) : Bool :=
  (bucket pool.indexes.runningByRunner runnerId).toList.any fun taskId =>
    pool.tasks.contains taskId

end TaskPool

end MutsukiRuntime
