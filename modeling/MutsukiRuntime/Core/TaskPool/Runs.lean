/-
  RUNS OF THE TASK POOL: every sequence of pool operations from the empty pool.

  * `PoolOp` lists the operations; a failed one leaves the pool it reached, also if it
    is a claim that panics for want of room.  Claims are those of a release build; a
    debug build makes the same ones for runners that name no protocol twice.
  * `exec_settled`, `runOps_good`: each operation is a run of moves of the board, and
    the invariant holds after it.
-/
import MutsukiRuntime.Core.TaskPool.Fencing
import MutsukiRuntime.Core.TaskPool.Selection

namespace MutsukiRuntime

open Std Buckets Prog

inductive PoolOp where
  | enqueueAt (task : Task) (currentStep : Nat)
  | claimReady (runner : RunnerDescriptor) (executorId : ExecutorId)
      (step registryGeneration limit : Nat) (budget : Option DispatchBudget)
      (expiresAtStep : Option Nat)
  | complete (lease : TaskLease) (currentStep : Nat) (output : Option Value)
  | fail (lease : TaskLease) (currentStep : Nat) (failure : RuntimeError)
  | wait (lease : TaskLease) (currentStep : Nat) (readyAtStep : Option Nat)
  | waitOnTask (lease : TaskLease) (currentStep : Nat) (taskAwait : TaskAwait)
  | deferLeased (lease : TaskLease) (currentStep : Nat)
  | block (lease : TaskLease) (currentStep : Nat)
  | cancelTask (lease : TaskLease) (currentStep : Nat)
  | wake (taskId : TaskId) (currentStep : Nat)
  | wakeDueTasks (currentStep : Nat)
  | rejectReady (taskId : TaskId) (failure : RuntimeError)
  | cancelRunningInvocation (runnerId invocationId : String) (currentStep : Nat)
  | cancelByCore (taskId : TaskId) (currentStep : Nat)
  | expireByCore (taskId : TaskId) (failure : RuntimeError) (currentStep : Nat)
  | deadLetterByCore (taskId : TaskId) (failure : RuntimeError) (currentStep : Nat)
  | reclaimExpiredTaskLeases (currentStep : Nat)
  | abortAll (currentStep : Nat) (failure : RuntimeError)
  | rebindReadyGeneration (oldGeneration newGeneration : Nat)
  | configureHistoryRetention (order : IterationOrder) (retention : Option TaskHistoryRetention)
  | takeWaitsForChild (childTaskId : TaskId)
  | recordStaleResultRejection

namespace PoolOp

/-- The operation, with its result dropped. -/
def exec : PoolOp → PoolM Unit
  | .enqueueAt task currentStep => do let _ ← TaskPool.enqueueAt task currentStep
  | .claimReady runner executorId step registryGeneration limit budget expiresAtStep => do
    let _ ← TaskPool.claimReadyForExecutorWithBudget false runner executorId step
      registryGeneration limit budget expiresAtStep
  | .complete lease currentStep output => TaskPool.complete lease currentStep output
  | .fail lease currentStep failure => TaskPool.fail lease currentStep failure
  | .wait lease currentStep readyAtStep => TaskPool.wait lease currentStep readyAtStep
  | .waitOnTask lease currentStep taskAwait => TaskPool.waitOnTask lease currentStep taskAwait
  | .deferLeased lease currentStep => TaskPool.deferLeased lease currentStep
  | .block lease currentStep => TaskPool.block lease currentStep
  | .cancelTask lease currentStep => TaskPool.cancelTask lease currentStep
  | .wake taskId currentStep => TaskPool.wake taskId currentStep
  | .wakeDueTasks currentStep => do let _ ← TaskPool.wakeDueTasks currentStep
  | .rejectReady taskId failure => TaskPool.rejectReady taskId failure
  | .cancelRunningInvocation runnerId invocationId currentStep => do
    let _ ← TaskPool.cancelRunningInvocation runnerId invocationId currentStep
  | .cancelByCore taskId currentStep => TaskPool.cancelByCore taskId currentStep
  | .expireByCore taskId failure currentStep => TaskPool.expireByCore taskId failure currentStep
  | .deadLetterByCore taskId failure currentStep =>
    TaskPool.deadLetterByCore taskId failure currentStep
  | .reclaimExpiredTaskLeases currentStep => do
    let _ ← TaskPool.reclaimExpiredTaskLeases currentStep
  | .abortAll currentStep failure => do let _ ← TaskPool.abortAll currentStep failure
  | .rebindReadyGeneration oldGeneration newGeneration => do
    let _ ← TaskPool.rebindReadyGeneration oldGeneration newGeneration
  | .configureHistoryRetention order retention =>
    TaskPool.configureHistoryRetention order retention
  | .takeWaitsForChild childTaskId => do let _ ← TaskPool.takeWaitsForChild childTaskId
  | .recordStaleResultRejection => Prog.update (·.recordStaleResultRejection)

/-- The operation enqueues a task of this id. -/
def Enqueues (op : PoolOp) (taskId : TaskId) : Prop :=
  match op with
  | .enqueueAt task _ => task.taskId = taskId
  | _ => False

/-- The moves of an operation: all but the submission of a task it does not enqueue. -/
def Moves (op : PoolOp) : Move → Prop
  | .submit task => op.Enqueues task.taskId
  | _ => True

end PoolOp

namespace TaskPool

/-- The pool after a sequence of operations. -/
def runOps (ops : List PoolOp) (pool : TaskPool) : TaskPool :=
  ops.foldl (fun pool op => (op.exec.run pool).2) pool

/-- One operation is a run of its moves that keeps the invariant. -/
theorem exec_settled (op : PoolOp) {pool : TaskPool} (h : Good pool) :
    Settled op.Moves pool.board (op.exec.run pool).2 := by
  have hs : Settled op.Moves pool.board pool := settled_self h
  -- an operation that leaves the pool alone when it fails
  have hopen : ∀ {m : PoolM Unit}, wp m (fun _ => Settled op.Moves pool.board)
      (fun _ pool' => pool' = pool) pool → Settled op.Moves pool.board (m.run pool).2 := by
    intro m hm
    exact wp_run (wp_mono hm (fun _ _ h' => h') (fun _ _ he => he ▸ hs))
  -- an operation that cannot fail, with its result dropped
  have htotal : ∀ {α : Type} {m : PoolM α} {Q : α → TaskPool → Prop},
      wp m Q (fun _ _ => False) pool →
      (∀ a p, Q a p → Settled op.Moves pool.board p) →
      Settled op.Moves pool.board ((do let _ ← m : PoolM Unit).run pool).2 := by
    intro α m Q hm hQ
    rw [state_discard]
    exact wp_run (wp_total hm hQ)
  cases op with
  | enqueueAt task currentStep =>
    show Settled _ _ ((do let _ ← TaskPool.enqueueAt task currentStep : PoolM Unit).run pool).2
    rw [state_discard]
    exact wp_run (wp_mono (enqueueAt_tracks hs (fun _ => rfl) currentStep)
      (fun _ _ h' => h'.2.2.1) (fun _ _ he => he ▸ hs))
  | claimReady runner executorId step registryGeneration limit budget =>
    exact claimReady_state hs (wp_run (wp_total (claimSelected_tracks hs (fun _ _ _ _ => trivial)
      (Or.inr ⟨rfl, fun _ _ => trivial⟩)) fun _ _ h' => h'))
  | complete lease currentStep output =>
    exact hopen (leased_settles hs (fun _ => trivial) trivial (.complete output) trivial)
  | fail lease currentStep failure =>
    exact hopen (leased_settles hs (fun _ => trivial) trivial (.fail failure) trivial)
  | wait lease currentStep readyAtStep =>
    exact hopen (leased_settles hs (fun _ => trivial) trivial (.wait readyAtStep) trivial)
  | waitOnTask lease currentStep taskAwait =>
    exact hopen (leased_settles hs (fun _ => trivial) trivial (.waitOnTask taskAwait)
      ⟨trivial, trivial⟩)
  | deferLeased lease currentStep =>
    exact hopen (leased_settles hs (fun _ => trivial) trivial .deferLeased trivial)
  | block lease currentStep =>
    exact hopen (leased_settles hs (fun _ => trivial) trivial .block trivial)
  | cancelTask lease currentStep =>
    exact hopen (leased_settles hs (fun _ => trivial) trivial .cancelTask trivial)
  | wake taskId currentStep => exact hopen (wake_tracks hs trivial trivial currentStep)
  | wakeDueTasks currentStep =>
    exact htotal (wakeDueTasks_tracks hs (fun _ => trivial) trivial currentStep)
      fun _ _ h' => h'
  | rejectReady taskId failure =>
    exact hopen (rejectReady_tracks hs (fun _ => trivial) trivial trivial failure)
  | cancelRunningInvocation runnerId invocationId currentStep =>
    exact htotal (cancelRunningInvocation_tracks hs (fun _ => trivial) runnerId invocationId
      currentStep) fun _ _ h' => h'
  | cancelByCore =>
    exact hopen
      (terminalByCore_tracks hs (fun _ => trivial) trivial trivial rfl (by decide) none _ _)
  | expireByCore | deadLetterByCore =>
    exact hopen (terminalByCore_tracks hs (fun _ => trivial) trivial trivial rfl (by decide) _ _ _)
  | reclaimExpiredTaskLeases currentStep =>
    exact htotal (reclaimExpiredTaskLeases_tracks hs currentStep fun _ _ _ _ _ _ => trivial)
      fun _ _ h' => h'
  | abortAll currentStep failure =>
    exact htotal (abortAll_tracks hs trivial trivial (fun _ => trivial) currentStep failure)
      fun _ _ h' => h'
  | rebindReadyGeneration oldGeneration newGeneration =>
    exact htotal (rebindReadyGeneration_tracks hs trivial oldGeneration newGeneration)
      fun _ _ h' => h'.1
  | configureHistoryRetention order retention =>
    exact wp_run (wp_total (configureHistoryRetention_tracks hs (fun _ => trivial) order retention)
      (fun _ _ h' => h'))
  | takeWaitsForChild childTaskId =>
    exact htotal (takeWaitsForChild_tracks hs (fun _ => trivial) trivial childTaskId)
      fun _ _ h' => h'.2.1
  | recordStaleResultRejection => exact hs.withStatistics _

theorem exec_good (op : PoolOp) {pool : TaskPool} (h : Good pool) : Good (op.exec.run pool).2 :=
  (exec_settled op h).wf

theorem runOps_good (ops : List PoolOp) {pool : TaskPool} (h : Good pool) :
    Good (runOps ops pool) := by
  induction ops generalizing pool with
  | nil => exact h
  | cons op ops ih => exact ih (exec_good op h)

/-- After any sequence of operations the indexes are those rebuilt from the records, in whatever
    order the records are visited, and the wire sizes are kept for exactly the stored tasks. -/
theorem indexes_equal_rebuilt (ops : List PoolOp) :
    let pool := runOps ops {}
    (∀ order : IterationOrder, pool.indexes = indexesOf (order.1 (recordsOf pool.tasks))) ∧
      ∀ taskId, taskId ∈ pool.payloadWireBytes ↔ taskId ∈ pool.tasks := by
  have h := runOps_good ops good_empty
  refine ⟨fun order => ?_, h.wireBytes⟩
  exact h.indexes.ext (describes_indexesOf _ h.keyed _ (order.2 _))

/-- The merge selects the tasks of the naive specification, in its order, and none of them twice;
    a claim, in either build, leases them exactly if there is room for their ids. -/
theorem claim_selects_naive (ops : List PoolOp) (debugAssertions : Bool)
    (runner : RunnerDescriptor) (hnd : runner.acceptedProtocolIds.Nodup) (executorId : ExecutorId)
    (step registryGeneration limit : Nat) (budget : Option DispatchBudget)
    (expiresAtStep : Option Nat) :
    let pool := runOps ops {}
    let naive := pool.naiveSelection runner step registryGeneration limit budget
    let claim := (claimReadyForExecutorWithBudget debugAssertions runner executorId step
      registryGeneration limit budget expiresAtStep).run pool
    pool.selectCandidateIds runner step registryGeneration limit budget = naive ∧ naive.Nodup ∧
      ((∃ leased, claim.1 = .ok leased ∧ leased.map (·.1.taskId) = naive) ↔
        Reservable limit budget) := by
  have h := runOps_good ops good_empty
  have heq := selectCandidateIds_eq h hnd step registryGeneration limit budget
  refine ⟨heq, nodup_naiveSelection h _ _ _ _ _, fun hleased => ?_, fun hroom => ?_⟩
  · by_contra hroom
    obtain ⟨leased, hok, -⟩ := hleased
    rw [claimReady_run_of_not hroom] at hok
    cases hok
  · obtain ⟨leased, pool', hrun, hids⟩ := claimReady_leased h hnd hroom
    exact ⟨leased, congrArg Prod.fst hrun, hids.trans heq⟩

/-- A runner of two protocols. -/
def sampleRunner : RunnerDescriptor where
  runnerId := "runner.a"
  pluginId := "plugin"
  pluginGeneration := 1
  acceptedProtocolIds := ["p.mail", "p.sms"]
  purity := .pure
  executionClass := .cpu

/-- Three tasks: an urgent one, and one for another runner. -/
def sampleQueue : List PoolOp :=
  [ .enqueueAt { taskId := "t.1", protocolId := "p.mail", payload := .null } 0
  , .enqueueAt { taskId := "t.2", protocolId := "p.sms", payload := .null, priority := 5 } 0
  , .enqueueAt
      { taskId := "t.3", protocolId := "p.sms", payload := .null,
        runnerHint := some "runner.b" } 0 ]

/-- The urgent task comes first, the one for another runner is left out. -/
theorem claim_selects_naive_sample :
    sampleRunner.acceptedProtocolIds.Nodup ∧
    (let pool := runOps sampleQueue {}
     let naive := pool.naiveSelection sampleRunner 1 1 4 none
     naive = ["t.2", "t.1"] ∧
     pool.selectCandidateIds sampleRunner 1 1 4 none = naive ∧ naive.Nodup ∧
      ∃ leased, ((claimReadyForExecutorWithBudget true sampleRunner "exec" 1 1 4 none none).run
        pool).1 = .ok leased ∧ leased.map (·.1.taskId) = naive) := by
  have hclaim :=
    claim_selects_naive sampleQueue true sampleRunner (by decide) "exec" 1 1 4 none none
  exact ⟨by decide, by decide, hclaim.1, hclaim.2.1, hclaim.2.2.2 (by decide)⟩

/-- Without a limit worth the name, a claim of the same tasks panics before it selects any. -/
theorem unlimited_claim_panics :
    (runOps sampleQueue {}).naiveSelection sampleRunner 1 1 usizeMax none = ["t.2", "t.1"] ∧
      ((claimReadyForExecutorWithBudget false sampleRunner "exec" 1 1 usizeMax none none).run
        (runOps sampleQueue {})).1 = .panic capacityOverflow :=
  ⟨by decide +kernel, congrArg Prod.fst (claimReady_run_of_not (by decide))⟩

end TaskPool

end MutsukiRuntime
