/-
  CLAIM PASSES (`runner_loop.rs`, `runner_loop/kernel.rs`, `dispatch_selection.rs`,
  `dispatch_build.rs`): one scheduling step over every registered runner.

  * `claimReadyDispatchesAtStep` moves to a later step, reclaims, wakes and rejects,
    and then claims work for each runner in the order of the descriptor snapshot.
  * `claimRunnerWork` claims under a clamped decision and hands the leased tasks to
    the kernel, or cuts them into dispatches and defers the rest.
  * `tickOnce` is the same pass with every dispatch run inline.  Its step is a `u64`: a tick
    panics where the step or the end of a lease would exceed it.

  A scheduling policy is a function of what it is called with: within a pass it is
  called once per runner, so a policy with state of its own is covered.
-/
import MutsukiRuntime.Core.Runtime.Routing
import MutsukiRuntime.Core.Runtime.Batch

namespace MutsukiRuntime

open Std Prog

namespace CoreRuntime

def taskLeaseTtlSteps : Nat := 1

/-! ## Kernel tasks -/

def commitDelta (payload : Value) : CoreM Unit := do
  let rt ← read
  match StateDelta.ofValue payload with
  | .error text => fail (runtimeError "state.delta_decode_failed" "runtime.committer" text)
  | .ok delta =>
    match rt.states.apply delta with
    | .error failure => fail failure
    | .ok states =>
      update fun rt => { rt with states }
      recordEvent .state "state.commit" (some delta.targetRef) ∅ none

def appendEvent (payload : Value) : CoreM Unit :=
  match DomainEvent.ofValue payload with
  | .error text => fail (runtimeError "event.decode_failed" "runtime.event_log" text)
  | .ok event => recordEvent .task event.kind (some event.eventId) ∅ none

/-- One iteration of `process_kernel_tasks`.  A commit or an event ends the task without waking
    the tasks that wait on it. -/
def processKernelTask (completed : Nat) (leased : TaskLease × Task) : CoreM Nat := do
  let (lease, task) := leased
  let rt ← read
  lift (rt.tasks.ensureActiveLease task.taskId lease rt.currentStep "kernel")
  if task.protocolId = "core.commit" then
    commitDelta task.payload
    onPool (TaskPool.complete lease rt.currentStep none)
    pure (completed + 1)
  else if task.protocolId = "core.event.append" then
    appendEvent task.payload
    onPool (TaskPool.complete lease rt.currentStep none)
    pure (completed + 1)
  else
    let failure := runtimeError errTaskUnsupported "runtime.committer"
      s!"core.task.{task.protocolId}"
    let count ← finishTask (TaskPool.fail lease rt.currentStep failure) task.taskId "task.failed"
      (some failure)
    pure (completed + count)

def processKernelTasks (tasks : List (TaskLease × Task)) : CoreM Nat :=
  foldEach tasks 0 processKernelTask

/-! ## Building a dispatch -/

/-- The span of a dispatch, if the traces keep it. -/
def recordDispatchSpan (traceId : TraceId) (attributes : List (String × ScalarValue)) :
    CoreM (Option TraceSpan) := do
  let rt ← read
  if rt.loadPlan.observability.dispatchSpans && rt.traces.willRetainNext then
    let (traces, span) := rt.traces.record traceId "runner.run_batch" none .ok
      (.ofEntries attributes)
    update fun rt => { rt with traces }
    pure span
  else pure none

/-- The async handler of a runner, or an idle instance of it. -/
def dispatchTarget (runnerId : RunnerId) : CoreM RunnerDispatchTarget := do
  let rt ← read
  match rt.registry.asyncHandlers[runnerId]? with
  | some handler => pure (.async handler)
  | none =>
    match rt.registry.takeRunner runnerId with
    | (some runner, registry) =>
      update fun rt => { rt with registry }
      pure (.sync runner)
    | (none, _) =>
      fail (runtimeError errRunnerNotFound "runtime.runner_loop" s!"runner.{runnerId}")

def recordTaskStarted (lease : TaskLease) : CoreM Unit :=
  recordEvent .task "task.started" (some lease.taskId)
    (.ofEntries [("lease_id", .string lease.leaseId), ("runner_id", .string lease.runnerId),
      ("registry_generation", .int (asI64 lease.registryGeneration))])
    none

/-- `if let Some(span) = span && events.is_enabled()`: the event of the dispatch span. -/
def recordSpanEvent (runnerId : RunnerId) : Option TraceSpan → CoreM Unit
  | some span => do
    let rt ← read
    if rt.events.isEnabled then
      recordEvent .trace "trace.span" (some runnerId) (traceAttrs span) none
    else pure ()
  | none => pure ()

/-- The id of a batch: step, runner, and the sequence number of its first task. -/
def batchIdOf (currentStep : Nat) (runnerId : RunnerId) (leasedTasks : List (TaskLease × Task)) :
    BatchId :=
  let createdSequence := match leasedTasks.head? with
    | some leased => leased.2.createdSequence
    | none => 0
  s!"batch-{currentStep}-{runnerId}-{createdSequence}"

/-- The trace of a dispatch: that of its first task. -/
def dispatchTraceId (batchId : BatchId) (leasedTasks : List (TaskLease × Task)) : TraceId :=
  match leasedTasks.head? with
  | some leased => leased.2.traceId.getD s!"trace-task-{leased.2.taskId}"
  | none => s!"trace-batch-{batchId}"

def buildRunnerDispatch (descriptor : RunnerDescriptor) (executorId : ExecutorId)
    (leasedTasks : List (TaskLease × Task)) : CoreM RunnerDispatch := do
  let rt ← read
  let batchId := batchIdOf rt.currentStep descriptor.runnerId leasedTasks
  let taskLeases := leasedTasks.map (·.1)
  let batch := buildWorkBatch rt.currentStep batchId descriptor leasedTasks
  let span ← recordDispatchSpan (dispatchTraceId batchId leasedTasks)
    (runnerAttrs descriptor rt.loadPlan ++
      dispatchBatchAttrs descriptor batch taskLeases executorId)
  let target ← dispatchTarget descriptor.runnerId
  forEach taskLeases recordTaskStarted
  recordSpanEvent descriptor.runnerId span
  pure
    { target
      ctx :=
        { registryGeneration := rt.loadPlan.registryGeneration
          currentStep := rt.currentStep
          tickId := s!"tick-{rt.currentStep}"
          batchId
          executorId
          taskLeaseIds := taskLeases.map (·.leaseId)
          entryCount := taskLeases.length
          invocationId := batchId
          cancelToken := batchId }
      taskLeases
      batch }

/-! ## Claiming for one runner -/

def runnerCanDispatch (descriptor : RunnerDescriptor) : Bool :=
  descriptor.executionClass != .control || descriptor.runnerId == "core.kernel"

/-- The attributes of a recorded decision. -/
def decisionAttrs (rt : CoreRuntime) (descriptor : RunnerDescriptor)
    (decision : ScheduleDecision) : Attributes :=
  .ofEntries
    [ ("scheduler_id", .string decision.schedulerId)
    , ("runner_id", .string descriptor.runnerId)
    , ("requested_dispatch_limit", .int (asI64 decision.requestedDispatchLimit))
    , ("effective_dispatch_limit", .int (asI64 decision.dispatchLimit))
    , ("budget_max_entries", .int (asI64 decision.budget.maxEntries))
    , ("budget_max_batches", .int (asI64 decision.budget.maxBatches))
    , ("reason", .string decision.reason)
    , ("registry_generation", .int (asI64 rt.loadPlan.registryGeneration))
    , ("current_step", .int (asI64 rt.currentStep)) ]

/-- `record_scheduler_decision`. -/
def withSchedulerDecision (rt : CoreRuntime) (descriptor : RunnerDescriptor)
    (decision : ScheduleDecision) : CoreRuntime :=
  let rt := { rt with schedulerDecisions := satAdd rt.schedulerDecisions 1 }
  if !rt.loadPlan.observability.detailedSchedulerDecisions ||
      (!rt.events.isEnabled && !rt.traces.willRetainNext) then rt
  else
    let attrs := rt.decisionAttrs descriptor decision
    let (traces, span) :=
      if rt.traces.willRetainNext then
        rt.traces.record s!"trace-scheduler-{descriptor.runnerId}" "scheduler.decision" none .ok
          attrs
      else (rt.traces, none)
    let attrs := match span with
      | some span => attrs.insert "span_id" (.string span.spanId)
      | none => attrs
    { rt with
      traces
      events :=
        if rt.events.isEnabled then
          rt.events.record .trace "scheduler.decision" (some descriptor.runnerId) attrs none
        else rt.events }

/-- The decision `claim_runner_work` acts on: clamped to the runner's batches and entries. -/
def clampDecision (descriptor : RunnerDescriptor) (decision : ScheduleDecision) :
    ScheduleDecision :=
  let maxBatches := min decision.budget.maxBatches descriptor.concurrency.maxInflightBatches
  (decision.clampTo (min (descriptor.batch.maxBatchEntries * maxBatches) usizeMax)).clampBatches
    maxBatches

def deferAll (leased : List (TaskLease × Task)) : CoreM Unit := do
  let rt ← read
  forEach leased fun leased => onPool (TaskPool.deferLeased leased.1 rt.currentStep)

/-- What happens to the leased tasks of a runner that is not the kernel: the first group without
    write conflicts is cut into batches, everything else is deferred. -/
def dispatchLeased (descriptor : RunnerDescriptor) (executorId : ExecutorId) (maxBatches : Nat)
    (leasedTasks : List (TaskLease × Task)) : CoreM (RunnerLoopReport × List RunnerDispatch) := do
  match splitLeasedTasksByResourceConflict leasedTasks with
  | [] => crash "removal index (is 0) should be < len (is 0)"
  | dispatchGroup :: deferredGroups =>
    deferAll deferredGroups.flatten
    let batches := (chunks descriptor.batch.maxBatchEntries dispatchGroup.length
      dispatchGroup).take maxBatches
    let dispatchedTasks := (batches.map List.length).sum
    deferAll (dispatchGroup.drop dispatchedTasks)
    let dispatches ← foldEach batches [] fun dispatches batch => do
      let dispatch ← buildRunnerDispatch descriptor executorId batch
      pure (dispatches ++ [dispatch])
    pure ({ claimedTasks := dispatchedTasks, completedTasks := 0 }, dispatches)

def isKernelRunner (descriptor : RunnerDescriptor) : Bool :=
  descriptor.purity == .committer && descriptor.runnerId == "core.kernel"

/-- The leased tasks of a runner go to the kernel or into dispatches. -/
def handleLeased (descriptor : RunnerDescriptor) (executorId : ExecutorId) (maxBatches : Nat)
    (leasedTasks : List (TaskLease × Task)) : CoreM (RunnerLoopReport × List RunnerDispatch) :=
  if leasedTasks.isEmpty then pure ({ claimedTasks := 0, completedTasks := 0 }, [])
  else if isKernelRunner descriptor then do
    let completedTasks ← processKernelTasks leasedTasks
    pure ({ claimedTasks := leasedTasks.length, completedTasks }, [])
  else dispatchLeased descriptor executorId maxBatches leasedTasks

def claimRunnerWork (descriptor : RunnerDescriptor) (decision : ScheduleDecision)
    (leaseExpiresAt : Option Nat) : CoreM (RunnerLoopReport × List RunnerDispatch) := do
  let maxBatches := min decision.budget.maxBatches descriptor.concurrency.maxInflightBatches
  let decision := clampDecision descriptor decision
  update (·.withSchedulerDecision descriptor decision)
  if decision.dispatchLimit = 0 then pure ({ claimedTasks := 0, completedTasks := 0 }, [])
  else
    let rt ← read
    let executorId := s!"executor:{descriptor.runnerId}"
    let leasedTasks ← onPool (TaskPool.claimReadyForExecutorWithBudget true descriptor executorId
      rt.currentStep rt.loadPlan.registryGeneration decision.dispatchLimit (some decision.budget)
      leaseExpiresAt)
    handleLeased descriptor executorId maxBatches leasedTasks

/-! ## Passes -/

/-- `decide_schedule`. -/
abbrev SchedulePolicy :=
  RunnerDescriptor → RunnerLoad → Nat → Nat → Except RuntimeError ScheduleDecision

def reclaimExpiredTaskLeases : CoreM Unit := do
  let rt ← read
  let reclaimed ← onPool (TaskPool.reclaimExpiredTaskLeases rt.currentStep)
  forEach reclaimed fun lease =>
    recordEvent .task "task.lease.expired" (some lease.taskId)
      (.ofEntries
        ([ ("lease_id", ScalarValue.string lease.leaseId)
         , ("runner_id", .string lease.runnerId)
         , ("executor_id", .string lease.executorId)
         , ("registry_generation", .int (asI64 lease.registryGeneration))
         , ("acquired_at_step", .int (asI64 lease.acquiredAtStep)) ] ++
        (match lease.expiresAtStep with
          | some expiresAtStep => [("expires_at_step", ScalarValue.int (asI64 expiresAtStep))]
          | none => []) ++
        [("current_step", .int (asI64 rt.currentStep))]))
      none

/-- The head of a pass: the new step, then reclaim, wake and reject. -/
def beginPass (targetStep : Nat) : CoreM Nat := do
  update fun rt => { rt with currentStep := targetStep }
  reclaimExpiredTaskLeases
  let _ ← wakeDueTasks
  rejectStaleReadyTasks

/-- One iteration of a pass. -/
def scheduleRunner (decideSchedule : SchedulePolicy) (leaseExpiresAt : Option Nat)
    (acc : RunnerLoopReport × List RunnerDispatch) (descriptor : RunnerDescriptor) :
    CoreM (RunnerLoopReport × List RunnerDispatch) := do
  if !runnerCanDispatch descriptor then pure acc
  else
    let rt ← read
    let load := rt.tasks.runnerLoad descriptor rt.currentStep rt.loadPlan.registryGeneration
    let decision ← lift (decideSchedule descriptor load rt.currentStep
      rt.loadPlan.registryGeneration)
    let (report, dispatches) ← claimRunnerWork descriptor decision leaseExpiresAt
    pure ({ claimedTasks := acc.1.claimedTasks + report.claimedTasks
            completedTasks := acc.1.completedTasks + report.completedTasks },
      acc.2 ++ dispatches)

def claimReadyDispatchesAtStep (targetStep : Nat) (decideSchedule : SchedulePolicy)
    (leaseExpiresAt : Option Nat) : CoreM (RunnerLoopReport × List RunnerDispatch) := do
  let rt ← read
  lift rt.ensureNotAborted
  if targetStep ≤ rt.currentStep then
    fail (runtimeError "runtime.tick.invalid" "runtime.runner_loop"
      s!"runtime.step.{targetStep}.after.{rt.currentStep}")
  else
    let completedTasks ← beginPass targetStep
    let rt ← read
    foldEach rt.registry.descriptorSnapshot
      ({ claimedTasks := 0, completedTasks }, []) (scheduleRunner decideSchedule leaseExpiresAt)

def claimReadyDispatches (decideSchedule : SchedulePolicy) (leaseExpiresAt : Option Nat) :
    CoreM (RunnerLoopReport × List RunnerDispatch) := do
  let rt ← read
  claimReadyDispatchesAtStep (satAdd rt.currentStep 1) decideSchedule leaseExpiresAt

/-! ## Inline execution -/

/-- The panic of a sum that is no `u64`. -/
def addOverflow : String := "attempt to add with overflow"

/-- `step + count` on `u64`. -/
def addSteps (step count : Nat) : CoreM Nat :=
  if step + count ≤ u64Max then pure (step + count) else crash addOverflow

/-- The decision of an inline tick: everything that is queued. -/
def inlineDecision (load : RunnerLoad) : ScheduleDecision :=
  (ScheduleDecision.new "core.inline" load.queuedCount "inline.default").clampTo load.queuedCount

/-- One iteration of `tick_once`: claim for a runner and run its dispatches. -/
def tickRunner (calls : RunnerCalls) (acc : RunnerLoopReport) (descriptor : RunnerDescriptor) :
    CoreM RunnerLoopReport := do
  if !runnerCanDispatch descriptor then pure acc
  else
    let rt ← read
    let load := rt.tasks.runnerLoad descriptor rt.currentStep rt.loadPlan.registryGeneration
    let leaseExpiresAt ← addSteps rt.currentStep taskLeaseTtlSteps
    let (report, dispatches) ← claimRunnerWork descriptor (inlineDecision load)
      (some leaseExpiresAt)
    foldEach dispatches
      { claimedTasks := acc.claimedTasks + report.claimedTasks
        completedTasks := acc.completedTasks + report.completedTasks }
      fun acc dispatch => do
        let report ← completeRunnerDispatch (calls.execute dispatch)
        pure { acc with completedTasks := acc.completedTasks + report.completedTasks }

def tickOnce (calls : RunnerCalls) : CoreM RunnerLoopReport := do
  let rt ← read
  lift rt.ensureNotAborted
  let nextStep ← addSteps rt.currentStep 1
  let completedTasks ← beginPass nextStep
  let rt ← read
  foldEach rt.registry.descriptorSnapshot { claimedTasks := 0, completedTasks }
    (tickRunner calls)

/-- `run_until_idle`; `calls n` answers the plugin calls of the tick with `n` ticks to go. -/
def runUntilIdle (calls : Nat → RunnerCalls) : Nat → RunnerLoopReport → CoreM RunnerLoopReport
  | 0, aggregate => pure aggregate
  | maxTicks + 1, aggregate => do
    let report ← tickOnce (calls maxTicks)
    let aggregate : RunnerLoopReport :=
      { claimedTasks := aggregate.claimedTasks + report.claimedTasks
        completedTasks := aggregate.completedTasks + report.completedTasks }
    if report.claimedTasks = 0 ∧ report.completedTasks = 0 then pure aggregate
    else runUntilIdle calls maxTicks aggregate

/-! ## Returning a dispatch -/

/-- `if let RunnerDispatchTarget::Sync(runner) = dispatch.target { put_runner(runner) }`. -/
def returnTarget : RunnerDispatchTarget → CoreM Unit
  | .sync runner => returnRunner (some runner)
  | .async _ => pure ()

def deferRunnerDispatch (dispatch : RunnerDispatch) : CoreM Nat := do
  let rt ← read
  lift (dispatch.taskLeases.forM fun lease =>
    rt.tasks.ensureActiveLease lease.taskId lease rt.currentStep "host_defer")
  forEach dispatch.taskLeases fun lease =>
    onPool (TaskPool.deferLeased lease rt.currentStep)
  returnTarget dispatch.target
  pure dispatch.taskLeases.length

end CoreRuntime

end MutsukiRuntime
