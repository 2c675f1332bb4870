/-
  CLAIMING (`task_pool/claiming.rs`): selecting ready tasks for a runner under a
  dispatch budget, and leasing them.

  * `visit_candidate_records` merges the runner's ready queues with a `BinaryHeap`
    of `Reverse((key, index))`: it is `KMerge.merge` with `visitKey` as its body.
  * A claim panics, before it changes anything, if the ids it may select need more
    bytes than a `Vec` can have.  `debug_assert_eq!` is on in debug builds only, so
    the claim has `debugAssertions` as a parameter.
-/
import MutsukiRuntime.Core.TaskPool.Transitions
import MutsukiRuntime.Lib.KMerge

namespace MutsukiRuntime

open Std Buckets Prog

namespace TaskPool

/-! ## The merge -/

/-- `runner_accepts_indexed_task`. -/
def runnerAcceptsIndexedTask (task : Task) (registryGeneration : Nat) : Bool :=
  !(registryGeneration != 0 && task.registryGeneration != 0 &&
    task.registryGeneration != registryGeneration)

/-- The body of the merge loop: `visit` returns the accumulator and whether to go on. -/
def visitKey {β : Type} (pool : TaskPool) (registryGeneration : Nat)
    (visit : β → TaskRecord → β × Bool) (acc : β) (key : ReadyKey) : β × Bool :=
  match pool.tasks[key.taskId]? with
  | some r =>
    if runnerAcceptsIndexedTask r.task registryGeneration then visit acc r else (acc, true)
  | none => (acc, true)

/-- `visit_candidate_records`. -/
def visitCandidateRecords {β : Type} (pool : TaskPool) (runner : RunnerDescriptor)
    (step registryGeneration : Nat) (visit : β → TaskRecord → β × Bool) (acc : β) : β :=
  KMerge.merge (·.isDue step) (visitKey pool registryGeneration visit)
    ((pool.indexes.readyDispatchQueues runner).map (·.toList)) acc

/-! ## Selection under a budget -/

/-- The counters captured by the closure of `select_candidate_ids`. -/
structure Selection where
  laneCounts : DispatchLane → Nat := fun _ => 0
  selectedBytes : Nat := 0
  selected : List TaskId := []

/-- Whether the budget has no room for one more entry of this size and lane. -/
def overBudget (budget : DispatchBudget) (sel : Selection) (lane : DispatchLane)
    (payloadWireBytes : Nat) : Bool :=
  decide (budget.maxBytes < satAdd sel.selectedBytes payloadWireBytes) ||
    match budget.laneBudget lane with
    | some laneBudget => decide (laneBudget.maxEntries ≤ sel.laneCounts lane)
    | none => false

/-- The closure of `select_candidate_ids`: skip, stop, or select. -/
def visitCandidate (budget : Option DispatchBudget) (maxEntries : Nat)
    (payloadWireBytesOf : TaskId → Nat) (sel : Selection) (r : TaskRecord) : Selection × Bool :=
  if maxEntries ≤ sel.selected.length then (sel, false)
  else
    let payloadWireBytes := if budget.isSome then payloadWireBytesOf r.task.taskId else 0
    if budget.any (overBudget · sel r.task.dispatchLane payloadWireBytes) then (sel, true)
    else
      let sel : Selection :=
        { laneCounts := fun lane =>
            if lane = r.task.dispatchLane then sel.laneCounts lane + 1 else sel.laneCounts lane
          selectedBytes := satAdd sel.selectedBytes payloadWireBytes
          selected := sel.selected ++ [r.task.taskId] }
      (sel, decide (sel.selected.length < maxEntries))

/-- Nothing can be selected at all. -/
def budgetClosed (limit : Nat) (budget : Option DispatchBudget) : Bool :=
  limit == 0 || budget.any fun b => b.maxBatches == 0 || b.maxEntries == 0 || b.maxBytes == 0

/-- `max_entries` of `select_candidate_ids`. -/
def maxSelected (limit : Nat) (budget : Option DispatchBudget) : Nat :=
  match budget with
  | some b => min limit b.maxEntries
  | none => limit

/-- `Vec::with_capacity(max_entries)` of `select_candidate_ids` fits: a task id is a `String` of
    24 bytes, and nothing is allocated for a closed budget. -/
def Reservable (limit : Nat) (budget : Option DispatchBudget) : Prop :=
  budgetClosed limit budget = true ∨ 24 * maxSelected limit budget ≤ isizeMax

instance (limit : Nat) (budget : Option DispatchBudget) : Decidable (Reservable limit budget) :=
  inferInstanceAs (Decidable (_ ∨ _))

/-- The panic of a `Vec` that is too large. -/
def capacityOverflow : String := "capacity overflow"

/-- The ids `select_candidate_ids` returns, once it has room for them.  Every ready task has a
    cached payload size (`payload_wire_bytes` expects one), so the lookup is total. -/
def selectCandidateIds (pool : TaskPool) (runner : RunnerDescriptor)
    (step registryGeneration limit : Nat) (budget : Option DispatchBudget) : List TaskId :=
  if budgetClosed limit budget then []
  else
    (visitCandidateRecords pool runner step registryGeneration
      (visitCandidate budget (maxSelected limit budget)
        fun taskId => pool.payloadWireBytes.getD taskId 0)
      {}).selected

/-! ## Leasing -/

structure ClaimCounters where
  leased : List (TaskLease × Task) := []
  queueSteps : Nat := 0
  attemptsStarted : Nat := 0

/-- The lease a claim writes into a record. -/
def newLease (runner : RunnerDescriptor) (executorId : ExecutorId)
    (step registryGeneration : Nat) (expiresAtStep : Option Nat) (r : TaskRecord) : TaskLease :=
  let attemptGeneration := satAdd r.attemptGeneration 1
  { leaseId := s!"task-lease-{step}-{r.task.taskId}-{attemptGeneration}"
    taskId := r.task.taskId
    attemptGeneration
    runnerId := runner.runnerId
    executorId
    registryGeneration
    acquiredAtStep := step
    expiresAtStep }

def leaseRecord (runner : RunnerDescriptor) (lease : TaskLease) (r : TaskRecord) : TaskRecord :=
  { r with
    attemptGeneration := lease.attemptGeneration
    status := .running
    claimedBy := some runner.runnerId
    ownerRunner := some runner.runnerId
    lease := some lease
    task := { r.task with leaseId := some lease.leaseId } }

/-- One iteration of the claim loop. -/
def claimTask (debugAssertions : Bool) (runner : RunnerDescriptor) (executorId : ExecutorId)
    (step registryGeneration : Nat) (expiresAtStep : Option Nat) (counters : ClaimCounters)
    (taskId : TaskId) : PoolM ClaimCounters := do
  update (·.updateRecordIndexes taskId false)
  let pool ← read
  match pool.tasks[taskId]? with
  | none => crash "ready index referenced a missing task record"
  | some r =>
    if debugAssertions ∧ r.status ≠ .ready then
      crash "assertion failed: record.status == TaskStatus::Ready"
    else
      let lease := newLease runner executorId step registryGeneration expiresAtStep r
      let r' := leaseRecord runner lease r
      update (·.setRecord taskId r')
      update (·.updateRecordIndexes taskId true)
      update (·.countTransition .ready .running)
      pure
        { leased := counters.leased ++ [(lease, r'.task)]
          queueSteps := satAdd counters.queueSteps (step - r.readySinceStep)
          attemptsStarted := satAdd counters.attemptsStarted 1 }

/-- A claim once its selection has room: the selected tasks are leased one after the other. -/
def claimSelected (debugAssertions : Bool) (runner : RunnerDescriptor) (executorId : ExecutorId)
    (step registryGeneration limit : Nat) (budget : Option DispatchBudget)
    (expiresAtStep : Option Nat) : PoolM (List (TaskLease × Task)) := do
  let pool ← read
  let candidates := pool.selectCandidateIds runner step registryGeneration limit budget
  let counters ← foldEach candidates {}
    (claimTask debugAssertions runner executorId step registryGeneration expiresAtStep)
  update fun pool =>
    { pool with
      statistics :=
        { pool.statistics with
          attemptsStarted := satAdd pool.statistics.attemptsStarted counters.attemptsStarted
          cumulativeQueueSteps :=
            satAdd pool.statistics.cumulativeQueueSteps counters.queueSteps } }
  pure counters.leased

/-- `claim_ready_for_executor_with_budget`. -/
def claimReadyForExecutorWithBudget (debugAssertions : Bool) (runner : RunnerDescriptor)
    (executorId : ExecutorId) (step registryGeneration limit : Nat)
    (budget : Option DispatchBudget) (expiresAtStep : Option Nat) :
    PoolM (List (TaskLease × Task)) :=
  if Reservable limit budget then
    claimSelected debugAssertions runner executorId step registryGeneration limit budget
      expiresAtStep
  else crash capacityOverflow

end TaskPool

end MutsukiRuntime
