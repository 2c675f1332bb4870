/-
  TASK POOL (`task_pool.rs`): the pool's state, its counters, indexed mutation of
  a record, enqueueing, and the bounded history of terminal records.

  * `PoolM` programs keep the pool they reached when they fail, as `&mut self`
    methods do; `expect` sites are `crash`.
  * `leaseLog` is a history variable: every lease a record has taken up or given up,
    newest first.  `setRecord` and `abortRecords`, the two places that overwrite
    records, log them; nothing reads it.

  Counters that the code bumps with `+= 1` (`next_sequence`) are unbounded here.
-/
import MutsukiRuntime.Core.TaskPool.Indexes

namespace MutsukiRuntime

open Std Buckets Prog

structure TaskHistoryRetention where
  maxTerminalRecords : Nat
  maxEvictedTaskIds : Nat
  deriving DecidableEq

/-! ## Statistics -/

structure TaskPoolStatistics where
  ready : Nat := 0
  running : Nat := 0
  waiting : Nat := 0
  blocked : Nat := 0
  completed : Nat := 0
  failed : Nat := 0
  cancelled : Nat := 0
  expired : Nat := 0
  deadLetter : Nat := 0
  submittedTotal : Nat := 0
  attemptsStarted : Nat := 0
  cumulativeQueueSteps : Nat := 0
  cumulativeExecutionSteps : Nat := 0
  staleResultsRejected : Nat := 0
  terminalRecordsEvicted : Nat := 0
  deriving DecidableEq

/-- Edits the counter `status_counter_mut` selects.  A `Created` status has none. -/
def TaskPoolStatistics.editCounter (s : TaskPoolStatistics) (status : TaskStatus)
    (f : Nat → Nat) : TaskPoolStatistics :=
  match status with
  | .created => s
  | .ready => { s with ready := f s.ready }
  | .running => { s with running := f s.running }
  | .waiting => { s with waiting := f s.waiting }
  | .blocked => { s with blocked := f s.blocked }
  | .completed => { s with completed := f s.completed }
  | .failed => { s with failed := f s.failed }
  | .cancelled => { s with cancelled := f s.cancelled }
  | .expired => { s with expired := f s.expired }
  | .deadLetter => { s with deadLetter := f s.deadLetter }

/-- `record_status_transition`. -/
def TaskPoolStatistics.recordStatusTransition (s : TaskPoolStatistics)
    (source target : Option TaskStatus) : TaskPoolStatistics :=
  let s := match source with
    | some status => s.editCounter status (· - 1)
    | none => s
  match target with
  | some status => s.editCounter status (satAdd · 1)
  | none => s

/-- `record_attempt_finished_value`. -/
def TaskPoolStatistics.recordAttemptFinished (s : TaskPoolStatistics) (lease : TaskLease)
    (currentStep : Nat) : TaskPoolStatistics :=
  let elapsed := satAdd (currentStep - lease.acquiredAtStep) 1
  { s with cumulativeExecutionSteps := satAdd s.cumulativeExecutionSteps elapsed }

/-! ## State -/

structure TaskPool where
  tasks : ExtTreeMap TaskId TaskRecord := ∅
  waitsByChild : ExtTreeMap TaskId (List TaskAwait) := ∅
  waitsByParent : ExtTreeMap TaskId (List TaskAwait) := ∅
  indexes : TaskIndexes := {}
  payloadWireBytes : ExtTreeMap TaskId Nat := ∅
  terminalOrder : List TaskId := []
  evictedTaskIds : ExtTreeSet TaskId := ∅
  evictedTaskOrder : List TaskId := []
  historyRetention : Option TaskHistoryRetention := none
  nextSequence : Nat := 0
  statistics : TaskPoolStatistics := {}
  leaseLog : List LeaseEvent := []
  completedLog : List Task := []

abbrev PoolM := Prog TaskPool RuntimeError

/-- The order in which a hash map yields its values. -/
def IterationOrder := { order : List TaskRecord → List TaskRecord // ∀ l, (order l).Perm l }

namespace TaskPool

def containsTaskId (pool : TaskPool) (taskId : TaskId) : Bool :=
  pool.tasks.contains taskId || pool.evictedTaskIds.contains taskId

/-- The error of `record` and of `mutate_record_indexed` on a missing id. -/
def recordNotFound (taskId : TaskId) : RuntimeError :=
  runtimeError errTaskNotFound "runtime.task_pool" s!"task.{taskId}"

/-- `record`. -/
def record (pool : TaskPool) (taskId : TaskId) : Except RuntimeError TaskRecord :=
  match pool.tasks[taskId]? with
  | some r => .ok r
  | none => .error (recordNotFound taskId)

def updateRecordIndexes (pool : TaskPool) (taskId : TaskId) (present : Bool) : TaskPool :=
  match pool.tasks[taskId]? with
  | some r => { pool with indexes := pool.indexes.updateRecord r present }
  | none => pool

/-- Overwrites a record, and logs the lease it takes up or gives up, and its completion. -/
def setRecord (pool : TaskPool) (taskId : TaskId) (r : TaskRecord) : TaskPool :=
  { pool with
    tasks := pool.tasks.insert taskId r
    leaseLog := leaseEvents (pool.tasks[taskId]?.bind (·.lease)) r.lease ++ pool.leaseLog
    completedLog := completedTasks r ++ pool.completedLog }

/-- `statistics.record_status_transition(Some(from), Some(to))`. -/
def countTransition (pool : TaskPool) (source target : TaskStatus) : TaskPool :=
  { pool with
    statistics := pool.statistics.recordStatusTransition (some source) (some target) }

/-- `record_attempt_finished`. -/
def recordAttemptFinished (pool : TaskPool) (lease : TaskLease) (currentStep : Nat) : TaskPool :=
  { pool with statistics := pool.statistics.recordAttemptFinished lease currentStep }

/-- `record_stale_result_rejection`. -/
def recordStaleResultRejection (pool : TaskPool) : TaskPool :=
  { pool with
    statistics :=
      { pool.statistics with
        staleResultsRejected := satAdd pool.statistics.staleResultsRejected 1 } }

/-- `mutate_record_indexed`.  Every closure of the source fails before its first edit, so a
    failing `mutate` has no new record. -/
def mutateRecordIndexed {α : Type} (taskId : TaskId)
    (mutate : TaskRecord → Except RuntimeError (α × TaskRecord)) : PoolM α := do
  let pool ← read
  match pool.tasks[taskId]? with
  | none => fail (recordNotFound taskId)
  | some r =>
    update (·.updateRecordIndexes taskId false)
    match mutate r with
    | .ok (value, r') =>
      update (·.setRecord taskId r')
      update (·.updateRecordIndexes taskId true)
      pure value
    | .error e =>
      update (·.updateRecordIndexes taskId true)
      fail e

/-! ## Bounded history -/

/-- `trim_evicted_task_ids`. -/
def trimEvictedTaskIds (pool : TaskPool) (capacity : Nat) : TaskPool :=
  let expired := pool.evictedTaskOrder.take (pool.evictedTaskOrder.length - capacity)
  { pool with
    evictedTaskOrder := pool.evictedTaskOrder.drop (pool.evictedTaskOrder.length - capacity)
    evictedTaskIds := expired.foldl (·.erase ·) pool.evictedTaskIds }

/-- `remember_evicted_task_id`. -/
def rememberEvictedTaskId (pool : TaskPool) (taskId : TaskId) (capacity : Nat) : TaskPool :=
  if capacity = 0 then pool
  else
    { pool with
      evictedTaskIds := pool.evictedTaskIds.insert taskId
      evictedTaskOrder := pool.evictedTaskOrder ++ [taskId] }.trimEvictedTaskIds capacity

/-- The body of one eviction in `compact_terminal_history`. -/
def evictRecord (pool : TaskPool) (taskId : TaskId) (status : TaskStatus)
    (retention : TaskHistoryRetention) : TaskPool :=
  let pool := pool.updateRecordIndexes taskId false
  let statistics := pool.statistics.recordStatusTransition (some status) none
  { pool with
    tasks := pool.tasks.erase taskId
    payloadWireBytes := pool.payloadWireBytes.erase taskId
    statistics :=
      { statistics with
        terminalRecordsEvicted := satAdd statistics.terminalRecordsEvicted 1 }
    }.rememberEvictedTaskId taskId retention.maxEvictedTaskIds

/-- A record that is still linked as an awaited child or as a waiting parent. -/
def isLinked (pool : TaskPool) (taskId : TaskId) : Bool :=
  pool.waitsByChild.contains taskId || pool.waitsByParent.contains taskId

/-- The `while` loop of `compact_terminal_history`; `compactFuel` iterations are enough. -/
def compactLoop (retention : TaskHistoryRetention) : Nat → Nat → PoolM Unit
  | 0, _ => pure ()
  | fuel + 1, protectedExamined => do
    let pool ← read
    if retention.maxTerminalRecords < pool.terminalOrder.length ∧
        protectedExamined < pool.terminalOrder.length then
      match pool.terminalOrder with
      | [] => crash "terminal history length checked above"
      | taskId :: rest =>
        if pool.isLinked taskId then
          update fun pool => { pool with terminalOrder := rest ++ [taskId] }
          compactLoop retention fuel (protectedExamined + 1)
        else
          update fun pool => { pool with terminalOrder := rest }
          match pool.tasks[taskId]? with
          | none => crash "terminal history referenced a missing task record"
          | some r =>
            update (·.evictRecord taskId r.status retention)
            compactLoop retention fuel 0
    else pure ()

def compactFuel (n : Nat) : Nat := n * (n + 1)

/-- `compact_terminal_history`. -/
def compactTerminalHistory : PoolM Unit := do
  let pool ← read
  match pool.historyRetention with
  | none => pure ()
  | some retention => compactLoop retention (compactFuel pool.terminalOrder.length) 0

/-- `record_terminal_task`. -/
def recordTerminalTask (taskId : TaskId) : PoolM Unit := do
  let pool ← read
  if pool.historyRetention.isSome then
    update fun pool => { pool with terminalOrder := pool.terminalOrder ++ [taskId] }
    compactTerminalHistory
  else pure ()

/-- The terminal records in the order `configure_history_retention` queues them. -/
def terminalIds (records : List TaskRecord) : List TaskId :=
  ((records.filter fun r => isTerminalStatus r.status).insertionSort
      fun a b => a.task.createdSequence ≤ b.task.createdSequence).map (·.task.taskId)

/-- `configure_history_retention`. -/
def configureHistoryRetention (order : IterationOrder)
    (retention : Option TaskHistoryRetention) : PoolM Unit := do
  update fun pool => { pool with historyRetention := retention, terminalOrder := [] }
  match retention with
  | some retention =>
    update fun pool =>
      { pool with terminalOrder := terminalIds (order.1 (recordsOf pool.tasks)) }
    update (·.trimEvictedTaskIds retention.maxEvictedTaskIds)
    compactTerminalHistory
  | none =>
    update fun pool => { pool with evictedTaskIds := ∅, evictedTaskOrder := [] }

/-! ## Enqueueing -/

/-- `enqueue_at`.  Encoding a JSON value into a counter cannot fail. -/
def enqueueAt (task : Task) (currentStep : Nat) : PoolM TaskId := do
  let pool ← read
  if pool.containsTaskId task.taskId then
    fail (runtimeError errTaskDuplicate "runtime.task_pool" s!"task.enqueue.{task.taskId}")
  else
    let nextSequence := pool.nextSequence + 1
    let task :=
      if task.createdSequence = 0 then { task with createdSequence := nextSequence } else task
    update fun pool =>
      { pool with
        nextSequence
        tasks := pool.tasks.insert task.taskId
          { task, status := .ready, readySinceStep := currentStep }
        payloadWireBytes :=
          pool.payloadWireBytes.insert task.taskId (compactJsonLen task.payload) }
    update (·.updateRecordIndexes task.taskId true)
    update fun pool =>
      { pool with
        statistics :=
          { pool.statistics with
            submittedTotal := satAdd pool.statistics.submittedTotal 1
          }.recordStatusTransition none (some .ready) }
    pure task.taskId

end TaskPool

end MutsukiRuntime
