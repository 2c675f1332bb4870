/-
  COMPLETIONS, RESULT BY RESULT: when a refused result leaves nothing behind, and what
  becomes of results whose lease is stale.
-/
import MutsukiRuntime.Core.Runtime.History
import MutsukiRuntime.Core.Runtime.Outcomes

namespace MutsukiRuntime

open Std Board TaskPool Prog

namespace CoreRuntime

variable {strict : Prop} {served : RunnerId → Prop} {rt rt' : CoreRuntime}
  {runner descriptor : RunnerDescriptor} {lease : TaskLease} {result : RunnerResult}

/-! ## One result -/

/-- A `Continue` that carries an output. -/
def restless : RunnerResult := { taskId := "t.1", output := some .null, status := .continue }

/-- A result with a valid lease that is refused leaves pool, state and log as they were, unless
    it passes every check and awaits an output of its own that the runtime refuses. -/
theorem routeResult_atomic_iff (h : Orderly strict served rt)
    (hlease : rt.tasks.ensureActiveLease result.taskId lease rt.currentStep "route" = .ok ()) :
    (∀ e, ((routeResult runner lease result).run rt).1 = .err e →
      ((routeResult runner lease result).run rt).2.tasks = rt.tasks ∧
      ((routeResult runner lease result).run rt).2.states = rt.states ∧
      ((routeResult runner lease result).run rt).2.events = rt.events) ↔
    ¬ (rt.validateWaitingResult result = .ok () ∧ validateStatusOutputs result = .ok () ∧
      validatePurity runner result = .ok () ∧
      rt.ensureOutputTaskIdsAvailable
        (pendingOutputTasks rt.loadPlan.registryGeneration runner.purity result) = .ok () ∧
      rt.AwaitsRefused result) := by
  have hspec : wp (routeResult runner lease result) _ _ rt := routeResult_spec h.good h.stopped
  constructor
  · rintro hatomic ⟨hwait, hstatus, hpurity, hids, hrefused⟩
    have hchecks : rt.routeChecks runner lease result = .ok () :=
      routeChecks_ok_iff.2 ⟨hlease, hwait, hstatus, hpurity, hids⟩
    unfold wp at hspec
    split at hspec
    · exact hspec.2.1 hrefused
    next e rt' hrun =>
      rcases hspec with ⟨herr, -⟩ | ⟨-, -, hsequence⟩
      · cases hchecks.symm.trans herr
      · have hsame := (hatomic e (by rw [hrun])).1
        rw [hrun] at hsame
        dsimp only at hsame
        rw [hsame] at hsequence
        omega
    · exact hspec
  · intro hnot e he
    unfold wp at hspec
    split at hspec
    next hrun =>
      rw [hrun] at he
      cases he
    next e' rt' hrun =>
      rw [hrun]
      rcases hspec with ⟨-, rfl⟩ | ⟨hchecks, hrefused, -⟩
      · exact ⟨rfl, rfl, rfl⟩
      · obtain ⟨-, hwait, hstatus, hpurity, hids⟩ := routeChecks_ok_iff.1 hchecks
        exact absurd ⟨hwait, hstatus, hpurity, hids, hrefused⟩ hnot
    · exact hspec.elim

/-- A `Continue` with an output is refused, and nothing has changed. -/
theorem routeResult_atomic_sample :
    ((routeResult workRunner.descriptor sampleLease restless).run claimedRuntime).1 =
        .err (routerError "task.status.output.t.1") ∧
      ((routeResult workRunner.descriptor sampleLease restless).run claimedRuntime).2.tasks =
        claimedRuntime.tasks := by
  have hrun : Run (fun _ _ => True) claimedRuntime := run_sampleRuntime.after _ (by simp)
  have hlease : claimedRuntime.tasks.ensureActiveLease "t.1" sampleLease
      claimedRuntime.currentStep "route" = .ok () := by decide +kernel
  have herr : ((routeResult workRunner.descriptor sampleLease restless).run claimedRuntime).1 =
      .err (routerError "task.status.output.t.1") := by decide +kernel
  generalize claimedRuntime = rt at hrun hlease herr
  have horderly := hrun.inOrder
  have hstatus : validateStatusOutputs restless ≠ .ok () := nofun
  exact ⟨herr, ((routeResult_atomic_iff horderly hlease).2 (fun h => hstatus h.2.1) _ herr).1⟩

/-- The claimed runtime under a plan with a deprecated surface. -/
def deprecatingRuntime : CoreRuntime :=
  after [.reloadLoadPlanOnly
    { samplePlan with
      contractSurfaces :=
        [{ surfaceId := "s.old", kind := .protocol, fingerprint := "f", deprecated := true }] }]
    claimedRuntime

/-- A result whose own child needs the deprecated surface and is waited for. -/
def refusedAwait : RunnerResult :=
  waitFor { Task.new "c" "p.work" .null with requiredSurfaces := ["s.old"] } .cascade "t.1"

/-- The result is refused, but its child stays in the pool as a failed task. -/
theorem refused_await_leaves_child : Run (fun _ _ => True) deprecatingRuntime ∧
    deprecatingRuntime.tasks.ensureActiveLease "t.1" sampleLease
      deprecatingRuntime.currentStep "route" = .ok () ∧
    ((routeResult workRunner.descriptor sampleLease refusedAwait).run deprecatingRuntime).1 =
      .err (runtimeError errTaskClaimConflict "runtime.task_pool" "task.await.child_terminal.c") ∧
    deprecatingRuntime.taskStatus "c" = none ∧
    ((routeResult workRunner.descriptor sampleLease refusedAwait).run
      deprecatingRuntime).2.taskStatus "c" = some .failed :=
  ⟨(run_sampleRuntime.after _ (by simp)).after _ (by simp), by decide +kernel, by decide +kernel,
    by decide +kernel, by decide +kernel⟩

/-! ## Stale leases -/

/-- No record runs under the lease. -/
def Stale (rt : CoreRuntime) (lease : TaskLease) : Prop :=
  ∀ r, rt.tasks.tasks[lease.taskId]? = some r → leaseActive r lease rt.currentStep = false

instance (lease : TaskLease) : Decidable (rt.Stale lease) :=
  decidable_of_iff
    (rt.tasks.tasks[lease.taskId]?.all (fun r => !leaseActive r lease rt.currentStep) = true)
    (by unfold Stale; cases rt.tasks.tasks[lease.taskId]? <;> simp)

/-- The log has grown by events of these names only. -/
def LogsOnly (names : List String) : EventLog → EventLog → Prop :=
  Relation.ReflTransGen fun log log' => ∃ kind name subjectId attributes error,
    name ∈ names ∧ log' = log.record kind name subjectId attributes error

/-- Nothing but the counter of stale results, the event log and the idle runners differs from
    `start`; the log has grown by rejections, and the runners by the one returned. -/
structure OnlyRejects (returned : Option Runner) (start rt : CoreRuntime) : Prop where
  frame : rt =
    { start with
      tasks :=
        { start.tasks with
          statistics :=
            { start.tasks.statistics with
              staleResultsRejected := rt.tasks.statistics.staleResultsRejected } }
      registry := rt.registry
      events := rt.events }
  registry : rt.registry = start.registry ∨
    ∃ runner, returned = some runner ∧ rt.registry = start.registry.putRunner runner
  events : LogsOnly ["task.result.rejected"] start.events rt.events

variable {returned : Option Runner} {start : CoreRuntime}

theorem OnlyRejects.good (h : OnlyRejects returned start rt) (hgood : Good start.tasks) :
    Good rt.tasks := by
  have hself : Settled (fun _ => True) start.tasks.board start.tasks := settled_self hgood
  rw [h.frame]
  exact (hself.withStatistics _).wf

theorem OnlyRejects.stale (h : OnlyRejects returned start rt) (hstale : Stale start lease) :
    Stale rt lease := by
  rw [h.frame]
  exact hstale

theorem Stale.exec (hstale : Stale rt lease) (hgood : Good rt.tasks) (op : LeasedOp) :
    wp (op.exec lease rt.currentStep) (fun _ _ => False) (fun _ pool => pool = rt.tasks)
      rt.tasks := by
  refine wp_mono (exec_spends hgood op) ?_ fun _ _ he => he.2
  intro _ _ ⟨_, _, r, hspent⟩
  have hactive := hspent.active
  rw [hstale r hspent.stored] at hactive
  cases hactive

theorem keeps_failRunnerDispatch_stale (hgood : Good start.tasks) (hstale : Stale start lease)
    (failure : RuntimeError) :
    Keeps (OnlyRejects returned start) (failRunnerDispatch lease failure) := by
  refine .read_bind fun rt h => ?_
  have hfail : wp (TaskPool.fail lease rt.currentStep failure) _ _ rt.tasks :=
    (h.stale hstale).exec (h.good hgood) (.fail failure)
  rw [wp_bind, wp_attempt, wp_onPool]
  refine wp_mono hfail (fun _ _ hf => hf.elim) ?_
  rintro _ _ rfl
  exact h

theorem keeps_failRunnerDispatches_stale (hgood : Good start.tasks) {leases : List TaskLease}
    (hstale : ∀ lease ∈ leases, Stale start lease) (failure : RuntimeError) :
    Keeps (OnlyRejects returned start) (failRunnerDispatches leases failure) :=
  .foldEach fun _ lease hmem =>
    .bind (keeps_failRunnerDispatch_stale hgood (hstale lease hmem) failure) fun _ => .pure _

theorem Stale.routeChecks (hstale : Stale rt lease) (hresult : result.taskId = lease.taskId) :
    ∃ e, rt.routeChecks runner lease result = .error e := by
  cases hchecks : rt.routeChecks runner lease result with
  | error e => exact ⟨e, rfl⟩
  | ok _ =>
    obtain ⟨r, hr, ha⟩ := ensureActiveLease_ok_iff.1 (routeChecks_ok_iff.1 hchecks).1
    rw [hresult] at hr
    rw [hstale r hr] at ha
    cases ha

theorem keeps_rejectResult_stale (lease : TaskLease) (failure : RuntimeError) :
    Keeps (OnlyRejects returned start) (rejectResult lease failure) := by
  refine .ite (.bind (fun rt h => ?_) fun _ => .bind (.read_bind fun rt h => ?_) fun _ => .pure 0)
    (.fail failure)
  · refine ⟨?_, h.registry, h.events⟩
    rw [h.frame]
    rfl
  · refine ⟨?_, h.registry, h.events.tail ⟨_, _, _, _, _, by simp, rfl⟩⟩
    rw [h.frame]

theorem keeps_routeEntryCompletion_stale (hgood : Good start.tasks) (hstale : Stale start lease)
    (completion : EntryCompletion) :
    Keeps (OnlyRejects returned start) (routeEntryCompletion descriptor lease completion) := by
  unfold routeEntryCompletion
  cases completion.error with
  | some error => exact keeps_failRunnerDispatch_stale hgood hstale error
  | none =>
    cases completion.result with
    | none => exact keeps_failRunnerDispatch_stale hgood hstale _
    | some result =>
      dsimp only
      by_cases hids : result.taskId ≠ lease.taskId ∨ completion.taskId ≠ lease.taskId
      · rw [if_pos hids]
        exact keeps_failRunnerDispatch_stale hgood hstale _
      · rw [if_neg hids]
        rw [not_or, not_not] at hids
        refine .bind (.attempt fun rt h => ?_) fun outcome => ?_
        · have hrefused : ∃ e, rt.routeChecks descriptor lease result = .error e :=
            (h.stale hstale).routeChecks hids.1
          obtain ⟨e, he⟩ := hrefused
          exact (wp_of_run_err (routeResult_run_error he)).2 h
        · cases outcome with
          | ok count => exact .pure count
          | error failure => exact keeps_rejectResult_stale lease failure

theorem keeps_routeEntries_stale (hgood : Good start.tasks) {leases : List TaskLease}
    (hstale : ∀ lease ∈ leases, Stale start lease) (completions : List EntryCompletion)
    (entries : List BatchEntry) (completed : Nat) :
    Keeps (OnlyRejects returned start)
      (routeEntries descriptor leases completions entries completed) := by
  induction entries generalizing completed with
  | nil => exact .pure completed
  | cons entry entries ih =>
    unfold routeEntries
    cases hlease : leaseOf leases entry.taskId with
    | none => exact keeps_failRunnerDispatches_stale hgood hstale _
    | some lease =>
      have hl := hstale lease (leaseOf_mem hlease).1
      refine .bind ?_ fun count => ih (completed + count)
      cases completions.find? (·.entryId == entry.entryId) with
      | none => exact keeps_failRunnerDispatch_stale hgood hl _
      | some completion => exact keeps_routeEntryCompletion_stale hgood hl completion

theorem keeps_routeCompletion_stale (hgood : Good start.tasks) {completion : RunnerCompletion}
    (hstale : ∀ lease ∈ completion.taskLeases, Stale start lease) :
    Keeps (OnlyRejects returned start) (routeCompletion descriptor completion) := by
  have hfail : ∀ failure, Keeps (OnlyRejects returned start)
      (failRunnerDispatches completion.taskLeases failure) :=
    keeps_failRunnerDispatches_stale hgood hstale
  unfold routeCompletion
  cases completion.result with
  | error failure => exact hfail failure
  | ok batch =>
    refine .ite (hfail _) ?_
    unfold routeCompletionBatch
    cases badExpectedEntry completion.taskLeases [] completion.expectedEntries with
    | some entryId => exact hfail _
    | none =>
      cases badCompletion completion.taskLeases completion.expectedEntries [] batch.results with
      | some entryId => exact hfail _
      | none => exact keeps_routeEntries_stale hgood hstale _ _ _

/-- A completion all of whose leases are stale changes nothing but the counter of stale results,
    the rejections in the log, and the idle runners. -/
theorem stale_completion_frame {rt : CoreRuntime} (h : Run (fun _ _ => True) rt)
    {completion : RunnerCompletion} (hstale : ∀ lease ∈ completion.taskLeases, Stale rt lease) :
    OnlyRejects completion.runner rt ((completeRunnerDispatch completion).run rt).2 := by
  have horderly := h.inOrder
  have hself : OnlyRejects completion.runner rt rt := ⟨rfl, .inl rfl, .refl⟩
  have hrouted : wp (completeRunnerDispatch completion)
      (fun _ => OnlyRejects completion.runner rt) (fun _ => OnlyRejects completion.runner rt)
      rt := by
    unfold completeRunnerDispatch
    rw [wp_bind, wp_read]
    cases rt.completionDescriptor completion with
    | none => exact hself
    | some =>
      have hreturned : wp (returnRunner completion.runner)
          (fun _ => OnlyRejects completion.runner rt)
          (fun _ => OnlyRejects completion.runner rt) rt := by
        cases hrunner : completion.runner with
        | none =>
          rw [hrunner] at hself
          exact hself
        | some runner => exact ⟨rfl, .inr ⟨runner, rfl, rfl⟩, .refl⟩
      rw [wp_bind]
      refine wp_mono hreturned ?_ fun _ _ h' => h'
      intro _ rt' h'
      exact Keeps.bind (keeps_routeCompletion_stale horderly.good hstale) (fun _ => .pure _) rt' h'
  exact wp_run hrouted

/-- The worker's answer to a batch of tasks. -/
def answerOf (leases : List TaskLease) (results : List RunnerResult) : RunnerCompletion where
  runner := some workRunner
  taskLeases := leases
  batchId := "b"
  expectedEntries := batchEntries 0 0 (leases.map fun lease => Task.new lease.taskId "p.work" .null)
  result := .ok
    { batchId := "b"
      tickId := "tick-1"
      results := results.map fun result =>
        { entryId := result.taskId, taskId := result.taskId, result := some result
          error := none } }

/-- The claimed task has been given up before its runner answers. -/
def lapsedRuntime : CoreRuntime := after [.expireTask "t.1" "late"] claimedRuntime

def lateAnswer : RunnerCompletion :=
  answerOf [sampleLease] [waitFor (Task.new "c" "p.work" .null) .cascade "t.1"]

/-- The child a late result derives is not enqueued. -/
theorem stale_completion_frame_sample : lapsedRuntime.Stale sampleLease ∧
      ((completeRunnerDispatch lateAnswer).run lapsedRuntime).2.taskStatus "c" = none ∧
      OnlyRejects (some workRunner) lapsedRuntime
        ((completeRunnerDispatch lateAnswer).run lapsedRuntime).2 := by
  have hrun : Run (fun _ _ => True) lapsedRuntime :=
    (run_sampleRuntime.after _ (by simp)).after _ (by simp)
  have hstale : lapsedRuntime.Stale sampleLease := by decide +kernel
  refine ⟨hstale, by decide +kernel, ?_⟩
  generalize lapsedRuntime = rt at hrun hstale
  have hleases : ∀ lease ∈ lateAnswer.taskLeases, rt.Stale lease := by
    intro lease hmem
    rw [List.mem_singleton.1 hmem]
    exact hstale
  exact stale_completion_frame hrun hleases

end CoreRuntime

end MutsukiRuntime
