/-
  RUNS OF THE CORE RUNTIME: every sequence of public calls after a boot, each with
  arguments of its own, whether the calls return a value or an error.

  * `Call` has one constructor per public method that changes the runtime; resources
    may be replaced at will between calls.
-/
import MutsukiRuntime.Core.Runtime.Orderly

namespace MutsukiRuntime

open Std Board TaskPool Prog

inductive Call where
  | beginDrain
  | abort (reason : String)
  | configureEventCapacity (capacity : Nat)
  | configureObservability (profile : ObservabilityProfile)
  | configureTaskHistoryRetention (order : IterationOrder)
      (retention : Option TaskHistoryRetention)
  | editResources (resources : ResourceManager)
  | submitBatch (batch : TaskBatch)
  | submitTask (task : Task)
  | submitTargetedTask (taskId : TaskId) (bindingId : BindingId) (payload : Value)
  | cancelTaskHandle (handle : TaskHandle)
  | expireTask (taskId : TaskId) (reason : String)
  | deadLetterTask (taskId : TaskId) (reason : String)
  | wakeTaskHandle (handle : TaskHandle)
  | tickOnce (calls : RunnerCalls)
  | runUntilIdle (calls : Nat → RunnerCalls) (maxTicks : Nat)
  | claimReadyDispatches (decideSchedule : CoreRuntime.SchedulePolicy)
      (leaseExpiresAt : Option Nat)
  | claimReadyDispatchesAtStep (targetStep : Nat) (decideSchedule : CoreRuntime.SchedulePolicy)
      (leaseExpiresAt : Option Nat)
  | completeRunnerDispatch (completion : RunnerCompletion)
  | deferRunnerDispatch (dispatch : RunnerDispatch)
  | cancelInvocation (calls : RunnerCalls) (runnerId invocationId : String)
  | cancelRunnerInvocation (calls : RunnerCalls) (runnerId invocationId : String)
  | disposePlugins (calls : RunnerCalls)
  | settleDrainingGenerations (calls : RunnerCalls)
  | reloadLoadPlanOnly (newPlan : RuntimeLoadPlan)
  | reloadWithAsyncHandlers (calls : RunnerCalls) (order : IterationOrder)
      (newPlan : RuntimeLoadPlan) (newRunners : List Runner)
      (newAsyncHandlers : List AsyncBatchHandler)

namespace Call

open CoreRuntime

/-- The call, with its result dropped. -/
def exec : Call → CoreM Unit
  | beginDrain => do let _ ← CoreRuntime.beginDrain
  | abort reason => do let _ ← CoreRuntime.abort reason
  | configureEventCapacity capacity => CoreRuntime.configureEventCapacity capacity
  | configureObservability profile => CoreRuntime.configureObservability profile
  | configureTaskHistoryRetention order retention =>
    CoreRuntime.configureTaskHistoryRetention order retention
  | editResources resources => Prog.update fun rt => { rt with resources }
  | submitBatch batch => do let _ ← CoreRuntime.submitBatch batch
  | submitTask task => do let _ ← CoreRuntime.submitTask task
  | submitTargetedTask taskId bindingId payload => do
    let _ ← CoreRuntime.submitTargetedTask taskId bindingId payload
  | cancelTaskHandle handle => CoreRuntime.cancelTaskHandle handle
  | expireTask taskId reason => CoreRuntime.expireTask taskId reason
  | deadLetterTask taskId reason => CoreRuntime.deadLetterTask taskId reason
  | wakeTaskHandle handle => CoreRuntime.wakeTaskHandle handle
  | tickOnce calls => do let _ ← CoreRuntime.tickOnce calls
  | runUntilIdle calls maxTicks => do
    let _ ← CoreRuntime.runUntilIdle calls maxTicks { claimedTasks := 0, completedTasks := 0 }
  | claimReadyDispatches decideSchedule leaseExpiresAt => do
    let _ ← CoreRuntime.claimReadyDispatches decideSchedule leaseExpiresAt
  | claimReadyDispatchesAtStep targetStep decideSchedule leaseExpiresAt => do
    let _ ← CoreRuntime.claimReadyDispatchesAtStep targetStep decideSchedule leaseExpiresAt
  | completeRunnerDispatch completion => do
    let _ ← CoreRuntime.completeRunnerDispatch completion
  | deferRunnerDispatch dispatch => do let _ ← CoreRuntime.deferRunnerDispatch dispatch
  | cancelInvocation calls runnerId invocationId => do
    let _ ← CoreRuntime.cancelInvocation calls runnerId invocationId
  | cancelRunnerInvocation calls runnerId invocationId =>
    CoreRuntime.cancelRunnerInvocation calls runnerId invocationId
  | disposePlugins calls => do let _ ← CoreRuntime.disposePlugins calls
  | settleDrainingGenerations calls => do let _ ← CoreRuntime.settleDrainingGenerations calls
  | reloadLoadPlanOnly newPlan => do let _ ← CoreRuntime.reloadLoadPlanOnly newPlan
  | reloadWithAsyncHandlers calls order newPlan newRunners newAsyncHandlers => do
    let _ ← CoreRuntime.reloadWithAsyncHandlers calls order newPlan newRunners newAsyncHandlers

/-- The calls after which every parent owed a wake-up has had it: cancellations that only meet
    cascading links below the task's own, and results that await no kernel task. -/
def Wakes (rt : CoreRuntime) : Call → Prop
  | cancelTaskHandle handle => CascadesBelow rt.tasks.board handle.taskId
  | completeRunnerDispatch completion =>
    ∀ batch, completion.result = .ok batch → LinksOf PlainLink batch.results
  | tickOnce calls => PlainCalls calls
  | runUntilIdle calls _ => ∀ n, PlainCalls (calls n)
  | _ => True

/-- The calls that change the setup of the runtime; the others claim, route and end work. -/
def isAdmin : Call → Bool
  | beginDrain | abort _ | configureEventCapacity _ | configureObservability _
  | editResources _ | reloadLoadPlanOnly _ | reloadWithAsyncHandlers _ _ _ _ _ => true
  | _ => false

/-- What a call brings with it is within a scope: the tasks it submits, and what the results it
    carries, or the runners it calls, complete, derive and link. -/
def Within (s : Scope) (rt : CoreRuntime) : Call → Prop
  | submitBatch batch => ∀ task ∈ batch.tasks, Accepts s rt task
  | submitTask task => Accepts s rt task
  | submitTargetedTask taskId _ payload =>
    ∀ binding, Accepts s rt (targetedTask taskId binding payload)
  | tickOnce calls => CallsWithin s rt calls ∧ FreesRunners s rt
  | runUntilIdle calls _ => (∀ n, CallsWithin s rt (calls n)) ∧ FreesRunners s rt
  | completeRunnerDispatch completion => Completes { s with ids := fun _ => True } rt completion
  | _ => True

/-- Where a call may panic: the passes for lack of room, the ticks also for lack of steps. -/
def Panics (rt : CoreRuntime) : Call → String → Prop
  | claimReadyDispatches _ _ | claimReadyDispatchesAtStep _ _ _ => PassPanics rt
  | tickOnce _ => TickPanics rt (rt.currentStep + 1)
  | runUntilIdle _ maxTicks => TickPanics rt (rt.currentStep + maxTicks)
  | _ => fun _ => False

end Call

namespace CoreRuntime

variable {loadPlan : RuntimeLoadPlan} {runners : List Runner}
  {asyncHandlers : List AsyncBatchHandler}

section Calls

variable {s : Scope} {strict : Prop} {admin : Bool} {served : RunnerId → Prop}
  {start rt : CoreRuntime}

/-! ## The remaining calls -/

theorem Moved.stop (h : Moved s strict true served start rt) {stopState : RuntimeStopState}
    (hne : stopState ≠ .aborted) : Moved s strict true served start { rt with stopState } :=
  h.hop (.stop rfl stopState (settled_self h.orderly.good))
    { h.orderly with stopped := fun he => absurd he hne }

theorem keeps_beginDrain : Keeps (Moved s strict true served start) beginDrain := by
  refine .bind .read fun rt => ?_
  cases rt.stopState with
  | running =>
    exact .bind (.update fun _ h => h.stop (by decide)) fun _ =>
      .bind (keeps_movedEvent _ _ _ _ _) fun _ => .pure _
  | draining => exact .pure _
  | aborted => exact .fail _

theorem keeps_abort (reason : String) :
    Keeps (Moved s strict true served start) (abort reason) := by
  refine .bind .read fun rt => .ite (.pure 0) fun rt' h => ?_
  rw [wp_bind, wp_update, wp_bind]
  refine wp_mono (abortAll_moved h .aborted rt.currentStep (abortFailure reason)) ?_
    fun _ _ hf => hf.elim
  intro aborted rt₁ h₁
  exact Keeps.bind (.forEach fun _ _ => keeps_movedEvent _ _ _ _ _)
    (fun _ => .bind (keeps_movedEvent _ _ _ _ _) fun _ => .pure _) rt₁ h₁

theorem Moved.configure (h : Moved s strict true served start rt)
    (observability : ObservabilityProfile) (events : EventLog) (traces : TraceLog)
    (resources : ResourceManager) :
    Moved s strict true served start
      { rt with loadPlan := { rt.loadPlan with observability }, events, traces, resources } :=
  h.hop (.configure rfl observability events traces resources) { h.orderly with }

theorem keeps_configureTaskHistoryRetention (order : IterationOrder)
    (retention : Option TaskHistoryRetention) :
    Keeps (Moved s strict admin served start)
      (configureTaskHistoryRetention order retention) := by
  refine keeps_moved fun start => .of_total fun rt h => ?_
  have hself : Settled (Routes (inRun s strict start) noneTaken) rt.tasks.board rt.tasks :=
    settled_self h.good
  exact h.onPool_total (configureHistoryRetention_tracks hself (fun _ => trivial) order
    retention) fun _ hd => hd

theorem keeps_cancelRunningInvocation (runnerId invocationId : String) (currentStep : Nat) :
    Keeps (Moved s strict admin served start)
      (onPool (TaskPool.cancelRunningInvocation runnerId invocationId currentStep)) := by
  refine keeps_moved fun start => .of_total fun rt h => ?_
  have hself : Settled (Routes (inRun s strict start) noneTaken) rt.tasks.board rt.tasks :=
    settled_self h.good
  exact h.onPool_total (cancelRunningInvocation_tracks hself (fun _ => trivial) runnerId
    invocationId currentStep) fun _ hd => hd

theorem keeps_cancelInvocation (calls : RunnerCalls) (runnerId invocationId : String) :
    Keeps (Moved s strict admin served start)
      (cancelInvocation calls runnerId invocationId) :=
  .bind .read fun _ => .bind (.lift _) fun _ => .bind (keeps_cancelRunningInvocation _ _ _)
    fun _ => .bind (keeps_movedEvent _ _ _ _ _) fun _ => .pure _

/-- What a reload does to its generation states does not matter here. -/
theorem Moved.withGenerations (h : Moved s strict admin served start rt)
    (generationStates : List PluginGenerationState)
    (drainingGenerations : List DrainingGeneration) :
    Moved s strict admin served start { rt with generationStates, drainingGenerations } := by
  have hself : Routed s strict rt rt := h.orderly.restart
  exact h.routed { hself with }

theorem keeps_disposePlugins (calls : RunnerCalls) :
    Keeps (Moved s strict admin served start) (disposePlugins calls) :=
  .bind .read fun _ => .bind (.lift _) fun _ =>
    .bind (.update fun _ h => h.withGenerations _ _) fun _ =>
    .bind (keeps_movedEvent _ _ _ _ _) fun _ => .pure _

theorem Moved.markGenerations (h : Moved s strict admin served start rt) (generations : List Nat)
    (phase : PluginGenerationPhase) :
    Moved s strict admin served start
      (generations.foldl (·.markGenerationPhase · phase) rt) := by
  induction generations generalizing rt with
  | nil => exact h
  | cons generation generations ih =>
    exact ih (h.withGenerations _ _ : Moved s strict admin served start
      (rt.markGenerationPhase _ _))

theorem keeps_settleDrainingGenerations (calls : RunnerCalls) :
    Keeps (Moved s strict admin served start) (settleDrainingGenerations calls) := by
  refine .bind .read fun rt => ?_
  cases rt.drainingGenerations.foldlM (settleGeneration calls rt.tasks) {} with
  | error failure =>
    exact .bind (.update fun _ h => h.withGenerations _ _) fun _ => .fail failure
  | ok settled =>
    refine .bind (.update fun _ h => ?_) fun _ => .pure _
    exact Moved.markGenerations (h.withGenerations _ _) _ _

/-! ## Reloads -/

theorem keeps_applyLoadPlan (newPlan : RuntimeLoadPlan) :
    Keeps (Moved s strict true served start) (applyLoadPlan newPlan) :=
  .of_total fun _ h => applyLoadPlan_moved h newPlan

theorem keeps_reloadLoadPlanOnly (newPlan : RuntimeLoadPlan) :
    Keeps (Moved s strict true served start) (reloadLoadPlanOnly newPlan) :=
  .bind .read fun _ => .bind (.lift _) fun _ => .bind (keeps_movedEvent _ _ _ _ _) fun _ =>
    .bind (keeps_applyLoadPlan newPlan) fun _ => .pure _

theorem keeps_reloadInvocation (calls : RunnerCalls)
    (disposition : RunningInvocationDisposition) :
    Keeps (Moved s strict admin served start) (reloadInvocation calls disposition) :=
  .ite (keeps_movedEvent _ _ _ _ _) (.bind .read fun _ => .bind (.lift _) fun _ =>
    .bind (keeps_cancelRunningInvocation _ _ _) fun _ => keeps_movedEvent _ _ _ _ _)

theorem Moved.withRegistry (h : Moved s strict true served start rt) {registry : RunnerRegistry}
    (hsnapshot : SnapshotOk registry.descriptorSnapshot) :
    Moved s strict true served start { rt with registry } :=
  h.hop (.registry rfl registry) { h.orderly with snapshot := hsnapshot }

theorem keeps_retireRegistry (calls : RunnerCalls) (needsDrain : Bool) (oldGeneration : Nat)
    (oldRunnerIds : List RunnerId) :
    Keeps (Moved s strict true served start)
      (retireRegistry calls needsDrain oldGeneration oldRunnerIds) := by
  have hempty : SnapshotOk ({} : RunnerRegistry).descriptorSnapshot := ⟨by simp, by simp⟩
  exact .bind .read fun _ => .bind (.update fun _ h => h.withRegistry hempty) fun _ =>
    .ite (.update fun _ h => h.withGenerations _ _)
      (.bind (.lift _) fun _ => .update fun _ h => h.withGenerations _ _)

theorem keeps_reloadWithAsyncHandlers (calls : RunnerCalls) (order : IterationOrder)
    (newPlan : RuntimeLoadPlan) (newRunners : List Runner)
    (newAsyncHandlers : List AsyncBatchHandler) :
    Keeps (Moved s strict true served start)
      (reloadWithAsyncHandlers calls order newPlan newRunners newAsyncHandlers) := by
  refine .bind (.lift _) fun _ => .bind .read fun _ => .bind (.lift _) fun _ rt h => ?_
  rw [wp_bind]
  cases hbuild : RunnerRegistry.build newRunners newAsyncHandlers with
  | error failure => exact h
  | ok =>
    have hsnapshot := RunnerRegistry.build_snapshot hbuild
    rw [wp_lift_ok]
    refine (?_ : Keeps (Moved s strict true served start) _) rt h
    refine .bind (.update fun _ h => h.withGenerations _ _) fun _ => .bind .read fun _ =>
      .bind (.forEach fun _ _ => keeps_reloadInvocation _ _) fun _ =>
      .bind (keeps_retireRegistry _ _ _ _) fun _ =>
      .bind (keeps_movedEvent _ _ _ _ _) fun _ =>
      .bind (keeps_applyLoadPlan newPlan) fun _ =>
      .bind (.update fun rt h => ?_) fun _ =>
      .bind (keeps_settleDrainingGenerations calls) fun _ => .pure _
    exact (h.withRegistry hsnapshot).withGenerations _ _

/-! ## Every call -/

theorem keeps_drop {α : Type} {I : CoreRuntime → Prop} {m : CoreM α} (h : Keeps I m) :
    Keeps I (do let _ ← m) :=
  .bind h fun _ => .pure ()

theorem drop_moved {α : Type} {m : CoreM α} {T : String → Prop} {Q : α → CoreRuntime → Prop}
    (h : wlp T m Q (fun _ => Moved s strict admin served start) rt)
    (hQ : ∀ a rt', Q a rt' → Moved s strict admin served start rt') :
    wlp T (do let _ ← m) (fun _ => Moved s strict admin served start)
      (fun _ => Moved s strict admin served start) rt := by
  rw [wlp_bind]
  exact wlp_mono h (fun _ ht => ht) hQ (fun _ _ h' => h')

theorem Accepts.inRun {task : Task} (h : Accepts s rt task) :
    Accepts (inRun s strict rt) rt task :=
  fun hopen createdSequence => ⟨hopen, h hopen createdSequence⟩

theorem Completes.inRun {completion : RunnerCompletion}
    (h : Completes { s with ids := fun _ => True } rt completion)
    (hplain : strict → ∀ batch, completion.result = .ok batch → LinksOf PlainLink batch.results) :
    Completes (inRun s strict rt) rt completion := by
  refine ⟨fun lease hl => ⟨trivial, (h.ends lease hl).2⟩, ?_⟩
  intro descriptor hmem hid batch hbatch entry hentry result hresult
  have hadmits := h.admits descriptor hmem hid batch hbatch entry hentry result hresult
  have hs : Admits s rt descriptor result := ⟨hadmits.links, hadmits.new, hadmits.effects⟩
  exact hs.inRun fun hstrict taskAwait ha =>
    hplain hstrict batch hbatch entry hentry result taskAwait hresult ha

/-- Every call is a run of hops within its scope, also one that panics; in a strict run only calls
    that wake whom they must are made. -/
theorem exec_moved (call : Call) (h : Orderly strict (fun _ => True) rt)
    (hwithin : call.Within s rt) (hcall : strict → call.Wakes rt) :
    wlp (call.Panics rt) call.exec (fun _ => Moved s strict call.isAdmin (fun _ => True) rt)
      (fun _ => Moved s strict call.isAdmin (fun _ => True) rt) rt := by
  have hself : ∀ {admin : Bool}, Moved s strict admin (fun _ => True) rt rt := moved_self h
  -- a routing program that starts the call
  have hroute : ∀ {α : Type} {m : CoreM α}, Keeps (Routed s strict rt) m →
      wlp (fun _ => False) (do let _ ← m) (fun _ => Moved s strict false (fun _ => True) rt)
        (fun _ => Moved s strict false (fun _ => True) rt) rt := by
    intro α m hm
    exact drop_moved (wlp_of_wp (wp_mono (hm rt h.restart) (fun _ _ hs => hself.routed hs)
      (fun _ _ hs => hself.routed hs))) fun _ _ h' => h'
  cases call with
  | beginDrain => exact wlp_of_wp <| keeps_drop keeps_beginDrain rt hself
  | abort reason => exact wlp_of_wp <| keeps_drop (keeps_abort reason) rt hself
  | configureEventCapacity | configureObservability => exact wlp_of_wp <| hself.configure _ _ _ _
  | configureTaskHistoryRetention order retention =>
    exact wlp_of_wp <| keeps_configureTaskHistoryRetention order retention rt hself
  | editResources => exact wlp_of_wp <| hself.configure _ _ _ _
  | submitBatch batch => exact hroute (keeps_submitBatch fun task ht => (hwithin task ht).inRun)
  | submitTask task => exact hroute (keeps_submitTask (Accepts.inRun hwithin))
  | submitTargetedTask taskId bindingId payload =>
    exact hroute (keeps_submitTargetedTask bindingId fun binding => (hwithin binding).inRun)
  | cancelTaskHandle handle =>
    have hcancel := cancelTaskHandle_steady (steady_self h.good h.awake) hcall
    exact wlp_of_wp <| wp_mono hcancel (fun _ _ hs => hself.cancels hs)
      (fun _ _ hs => hself.cancels hs)
  | expireTask taskId reason =>
    exact wlp_of_wp <| keeps_moved (fun _ => keeps_expireTask trivial reason) rt hself
  | deadLetterTask taskId reason =>
    exact wlp_of_wp <| keeps_moved (fun _ => keeps_deadLetterTask trivial reason) rt hself
  | wakeTaskHandle handle =>
    exact wlp_of_wp <| keeps_moved (fun _ => keeps_wakeTaskHandle handle) rt hself
  | tickOnce calls =>
    exact drop_moved (tickOnce_moved hcall hwithin.1 hwithin.2 hself) fun _ _ h' => h'.2
  | runUntilIdle calls maxTicks =>
    exact drop_moved (runUntilIdle_moved hcall hwithin.1 hwithin.2 maxTicks _ hself)
      fun _ _ h' => h'
  | claimReadyDispatches decideSchedule leaseExpiresAt =>
    exact drop_moved (claimReadyDispatches_moved hself decideSchedule leaseExpiresAt)
      fun _ _ h' => h'.2
  | claimReadyDispatchesAtStep targetStep decideSchedule leaseExpiresAt =>
    exact drop_moved
      (claimReadyDispatchesAtStep_moved hself targetStep decideSchedule leaseExpiresAt)
      fun _ _ h' => h'.2
  | completeRunnerDispatch =>
    exact hroute (keeps_completeRunnerDispatch (Completes.inRun hwithin hcall))
  | deferRunnerDispatch =>
    exact hroute (keeps_deferRunnerDispatch fun _ _ => trivial)
  | cancelInvocation calls runnerId invocationId =>
    exact wlp_of_wp <| keeps_drop (keeps_cancelInvocation calls runnerId invocationId) rt hself
  | cancelRunnerInvocation =>
    exact wlp_of_wp <| (Keeps.bind .read fun _ => .lift _) rt hself
  | disposePlugins calls => exact wlp_of_wp <| keeps_drop (keeps_disposePlugins calls) rt hself
  | settleDrainingGenerations calls =>
    exact wlp_of_wp <| keeps_drop (keeps_settleDrainingGenerations calls) rt hself
  | reloadLoadPlanOnly newPlan =>
    exact wlp_of_wp <| keeps_drop (keeps_reloadLoadPlanOnly newPlan) rt hself
  | reloadWithAsyncHandlers calls order newPlan newRunners newAsyncHandlers =>
    exact wlp_of_wp <| keeps_drop
      (keeps_reloadWithAsyncHandlers calls order newPlan newRunners newAsyncHandlers) rt hself

theorem exec_state_moved (call : Call) (h : Orderly strict (fun _ => True) rt)
    (hwithin : call.Within s rt) (hcall : strict → call.Wakes rt) :
    Moved s strict call.isAdmin (fun _ => True) rt (call.exec.run rt).2 :=
  wlp_run (exec_moved call h hwithin hcall)

/-- Everything is within the widest scope. -/
def anyScope : Scope :=
  { new := fun _ => True, effects := fun _ => True, ids := fun _ => True
    completes := fun _ => True, links := fun _ => True }

theorem admits_anyScope (descriptor : RunnerDescriptor) (result : RunnerResult) :
    Admits anyScope rt descriptor result :=
  ⟨fun _ _ => trivial, fun _ _ _ _ => trivial, fun _ _ _ => trivial⟩

theorem within_anyScope (call : Call) : call.Within anyScope rt := by
  have hcalls : ∀ calls, CallsWithin anyScope rt calls :=
    fun _ _ _ _ _ _ descriptor _ _ _ _ result _ => admits_anyScope descriptor result
  have hfrees : FreesRunners anyScope rt := fun _ _ _ _ _ => trivial
  cases call with
  | submitBatch batch => exact fun _ _ _ _ => trivial
  | submitTask task => exact fun _ _ => trivial
  | submitTargetedTask => exact fun _ _ _ => trivial
  | tickOnce calls => exact ⟨hcalls calls, hfrees⟩
  | runUntilIdle calls => exact ⟨fun n => hcalls (calls n), hfrees⟩
  | completeRunnerDispatch =>
    exact ⟨fun _ _ => ⟨trivial, trivial⟩, fun descriptor _ _ _ _ _ _ result _ =>
      admits_anyScope descriptor result⟩
  | _ => exact trivial

/-! ## Runs -/

/-- A boot builds the registry and starts with nothing else. -/
theorem boot_eq_ok (h : boot loadPlan runners asyncHandlers = .ok rt) :
    ∃ registry, RunnerRegistry.build runners asyncHandlers = .ok registry ∧
      rt =
        { loadPlan
          handlerBindings := handlerBindingsOf loadPlan
          surfaces := loadPlan.contractSurfaces
          protocolClasses := protocolClassesForPlan loadPlan
          registry
          generationStates := generationStatesForPlan loadPlan .active
          events := .new loadPlan.observability.events
          traces := .new loadPlan.observability.traces } := by
  unfold boot at h
  obtain ⟨-, -, h⟩ := except_bind_eq_ok.1 h
  obtain ⟨registry, hbuild, h⟩ := except_bind_eq_ok.1 h
  cases h
  exact ⟨registry, hbuild, rfl⟩

theorem boot_orderly (h : boot loadPlan runners asyncHandlers = .ok rt) :
    Orderly strict (fun _ => True) rt := by
  obtain ⟨registry, hbuild, rfl⟩ := boot_eq_ok h
  have hnone : ∀ parent taskAwait, ¬ ({} : TaskPool).board.waits parent = some taskAwait := by
    intro parent taskAwait hw
    have hmem := (good_empty.links.waits_iff parent taskAwait).1 hw
    rw [Buckets.bucket_empty] at hmem
    cases hmem
  have htasks : ∀ id r, ¬ ({} : TaskPool).board.tasks id = some r := by simp [TaskPool.board]
  refine ⟨good_empty, ⟨⟨fun id r hr => absurd hr (htasks id r),
    fun id r hr => absurd hr (htasks id r)⟩, ?_, trivial⟩, ?_,
    RunnerRegistry.build_snapshot hbuild, fun _ parent taskAwait hw => absurd hw (hnone _ _),
    fun _ parent taskAwait hw => absurd hw (hnone _ _), fun h => by cases h⟩
  · intro id lease
    simp [Board.lease, TaskPool.board, latest]
  · intro lease hl
    cases hl

end Calls

/-- The states between the public calls of a run; each call is one that `allowed` admits in the
    state it is made in. -/
inductive Run (allowed : CoreRuntime → Call → Prop) : CoreRuntime → Prop where
  | boot {loadPlan : RuntimeLoadPlan} {runners : List Runner}
      {asyncHandlers : List AsyncBatchHandler} {rt : CoreRuntime}
      (h : CoreRuntime.boot loadPlan runners asyncHandlers = .ok rt) : Run allowed rt
  | call {rt : CoreRuntime} (h : Run allowed rt) (call : Call) (hcall : allowed rt call) :
      Run allowed (call.exec.run rt).2

variable {allowed : CoreRuntime → Call → Prop}

theorem Run.orderly {strict : Prop} {rt : CoreRuntime} (h : Run allowed rt)
    (hallowed : strict → ∀ rt call, allowed rt call → call.Wakes rt) :
    Orderly strict (fun _ => True) rt := by
  induction h with
  | boot h => exact boot_orderly h
  | @call rt _ call hcall ih =>
    exact (exec_state_moved call ih (within_anyScope call)
      fun hs => hallowed hs rt call hcall).orderly

theorem Run.inOrder {rt : CoreRuntime} (h : Run allowed rt) : InOrder rt :=
  h.orderly fun hf => hf.elim

/-! ## Fencing -/

/-- In every state of a run a leased operation takes only the lease of the latest claim of its
    task, while the task runs under it and it has not expired; taking it ends it.  The log of a
    run is fenced throughout, so no lease ends twice. -/
theorem lease_fencing {rt : CoreRuntime} (h : Run (fun _ _ => True) rt) :
    (∀ (op : LeasedOp) (lease : TaskLease),
      wp (op.exec lease rt.currentStep)
        (fun _ pool' =>
          latest rt.tasks.leaseLog lease.taskId = some (.issued lease) ∧
          (∃ r, rt.tasks.tasks[lease.taskId]? = some r ∧ r.status = .running ∧
            r.lease = some lease) ∧
          taskLeaseExpired lease rt.currentStep = false ∧
          pool'.leaseLog = .ended lease :: rt.tasks.leaseLog)
        (fun _ pool' => pool' = rt.tasks) rt.tasks) ∧
    Fenced rt.tasks.leaseLog ∧
    ∀ lease, rt.tasks.leaseLog.count (.ended lease) ≤ 1 := by
  have horderly := h.inOrder
  refine ⟨fun op lease => ?_, horderly.history.fenced, horderly.history.fenced.ended_once⟩
  refine wp_mono (exec_spends horderly.good op) ?_ (fun _ _ he => he.2)
  intro _ pool' ⟨_, _, r, hspent⟩
  obtain ⟨hrun, -, hlease, hexpired⟩ := leaseActive_iff.1 hspent.active
  refine ⟨?_, ⟨r, hspent.stored, hrun, hlease⟩, hexpired, hspent.log⟩
  refine (horderly.history.held lease.taskId lease).2 ?_
  show (rt.tasks.tasks[lease.taskId]?).bind (·.lease) = some lease
  rw [hspent.stored]
  exact hlease

/-- The state after a list of calls. -/
def after (calls : List Call) (rt : CoreRuntime) : CoreRuntime :=
  calls.foldl (fun rt call => (call.exec.run rt).2) rt

theorem Run.after (calls : List Call) {rt : CoreRuntime} (h : Run allowed rt)
    (hcalls : ∀ call ∈ calls, ∀ rt, allowed rt call) :
    Run allowed (after calls rt) := by
  induction calls generalizing rt with
  | nil => exact h
  | cons call calls ih =>
    exact ih (h.call call (hcalls call (by simp) rt)) fun c hc => hcalls c (by simp [hc])

def kernelRunner : Runner where
  descriptor :=
    { runnerId := "core.kernel", pluginId := "core", pluginGeneration := 1
      acceptedProtocolIds := ["core.commit", "core.event.append"]
      purity := .committer, executionClass := .control }

def workRunner : Runner where
  descriptor :=
    { runnerId := "work", pluginId := "plugin", pluginGeneration := 1
      acceptedProtocolIds := ["p.work"], purity := .pure, executionClass := .cpu }

/-- A plugin with one runner, all of whose protocols are of one class. -/
def pluginOf (runner : Runner) (protocolClass : ProtocolClass) : PluginManifest where
  pluginId := runner.descriptor.pluginId
  artifactSha256 := ""
  runners := [runner.descriptor]
  protocolClasses := .ofList (runner.descriptor.acceptedProtocolIds.map (·, protocolClass))
  handlerBindings := []

/-- A plan whose outlets keep nothing. -/
def planOf (registryGeneration : Nat) (plugins : List PluginManifest) : RuntimeLoadPlan where
  registryGeneration
  plugins
  observability :=
    { events := ⟨0, .dropOldest⟩, traces := ⟨0, .dropOldest⟩
      detailedSchedulerDecisions := false, dispatchSpans := false }
  contractSurfaces := []

/-- The kernel and one worker. -/
def samplePlan : RuntimeLoadPlan :=
  planOf 1 [pluginOf kernelRunner .core, pluginOf workRunner .domain]

def sampleRuntime : CoreRuntime :=
  (boot samplePlan [kernelRunner, workRunner] []).toOption.get (by decide +kernel)

theorem boot_get (h : (CoreRuntime.boot loadPlan runners asyncHandlers).toOption.isSome = true) :
    CoreRuntime.boot loadPlan runners asyncHandlers =
      .ok ((CoreRuntime.boot loadPlan runners asyncHandlers).toOption.get h) := by
  have hsome := Option.some_get h
  generalize (CoreRuntime.boot loadPlan runners asyncHandlers).toOption.get h = rt at hsome ⊢
  cases hb : CoreRuntime.boot loadPlan runners asyncHandlers with
  | error e =>
    rw [hb] at hsome
    cases hsome
  | ok rt' =>
    rw [hb] at hsome
    cases hsome
    rfl

theorem Run.of_boot (h : (CoreRuntime.boot loadPlan runners asyncHandlers).toOption.isSome = true) :
    Run allowed ((CoreRuntime.boot loadPlan runners asyncHandlers).toOption.get h) :=
  .boot (boot_get h)

theorem run_sampleRuntime : Run allowed sampleRuntime :=
  Run.of_boot _

/-- A policy that dispatches everything it can. -/
def keenPolicy : SchedulePolicy := fun _ load _ _ =>
  .ok (ScheduleDecision.new "keen" load.queuedCount "all")

/-- The order of a map that yields its records as they are stored. -/
def storedOrder : IterationOrder := ⟨id, fun l => .refl l⟩

/-- The lease of a first claim in the sample runtime. -/
def sampleLease : TaskLease where
  leaseId := "task-lease-1-t.1-1"
  taskId := "t.1"
  attemptGeneration := 1
  runnerId := "work"
  executorId := "executor:work"
  registryGeneration := 1
  acquiredAtStep := 1
  expiresAtStep := none

def claimedRuntime : CoreRuntime :=
  after [.submitTask (Task.new "t.1" "p.work" .null), .claimReadyDispatches keenPolicy none]
    sampleRuntime

/-- The lease of the claim is accepted once; completing it is what ends it. -/
theorem lease_fencing_sample :
    (((LeasedOp.complete none).exec sampleLease claimedRuntime.currentStep).run
      claimedRuntime.tasks).1 = .ok () ∧
    latest claimedRuntime.tasks.leaseLog sampleLease.taskId = some (.issued sampleLease) ∧
    Fenced claimedRuntime.tasks.leaseLog := by
  have hrun : Run (fun _ _ => True) claimedRuntime := run_sampleRuntime.after _ (by simp)
  have hok : (((LeasedOp.complete none).exec sampleLease claimedRuntime.currentStep).run
      claimedRuntime.tasks).1 = .ok () := by decide +kernel
  generalize claimedRuntime = rt at hrun hok
  obtain ⟨hops, hfenced, -⟩ := lease_fencing hrun
  have hop := wp_elim_ok (hops (.complete none) sampleLease) hok
  exact ⟨hok, hop.1, hfenced⟩

/-! ## Wake-ups -/

/-- Every link names a stored child that is not terminal. -/
def NoLostWakeup (rt : CoreRuntime) : Prop :=
  ∀ parent taskAwait, taskAwait ∈ rt.tasks.awaitsForParent parent →
    ∃ r, rt.tasks.tasks[taskAwait.child.taskId]? = some r ∧ isTerminalStatus r.status = false

/-- No wake-up is lost in a run whose cancellations only meet cascading links and whose results
    await no kernel task. -/
theorem no_lost_wakeup {rt : CoreRuntime} (h : Run (fun rt call => call.Wakes rt) rt) :
    NoLostWakeup rt := by
  have horderly : Orderly True (fun _ => True) rt := h.orderly fun _ _ _ hw => hw
  intro parent taskAwait hmem
  have hw := (mem_awaitsForParent horderly.good).1 hmem
  obtain ⟨r, hr, -, hdone⟩ := horderly.awake trivial parent taskAwait hw
  refine ⟨r, hr, ?_⟩
  cases hterm : isTerminalStatus r.status with
  | false => rfl
  | true => exact (hdone hterm).elim

/-- Runners that answer every entry with `answer`. -/
def answering (answer : TaskId → RunnerResult) : RunnerCalls where
  runBatch _ ctx batch := .ok
    { batchId := batch.batchId
      tickId := ctx.tickId
      results := batch.entries.map fun entry =>
        { entryId := entry.entryId, taskId := entry.taskId, result := some (answer entry.taskId)
          error := none } }
  cancel _ _ := .ok ()
  dispose _ := .ok ()
  disposeHandler _ := .ok ()

theorem plainCalls_answering {answer : TaskId → RunnerResult}
    (h : ∀ taskId taskAwait, (answer taskId).taskAwait = some taskAwait → PlainLink taskAwait) :
    PlainCalls (answering answer) := by
  intro runner ctx batch result hrun completion hmem r taskAwait hr ha
  cases hrun
  obtain ⟨entry, -, rfl⟩ := List.mem_map.1 hmem
  cases hr
  exact h entry.taskId taskAwait ha

/-- A link from `parent` to a child of the given protocol. -/
def awaitOn (parent child : TaskId) (protocolId : ProtocolId) (cancelPolicy : CancelPolicy) :
    TaskAwait where
  parentTaskId := parent
  child :=
    { taskId := child, protocolId, targetBindingId := none, cancelPolicy, traceId := none
      correlationId := none }
  continuation :=
    { continuation := { refId := "k", schema := "schema", generation := 1 }, wake := none
      reason := none }
  cancelPolicy

/-- A result that derives `child` and waits for it. -/
def waitFor (child : Task) (cancelPolicy : CancelPolicy) (taskId : TaskId) : RunnerResult where
  taskId
  tasks := [child]
  taskAwait := some (awaitOn taskId child.taskId child.protocolId cancelPolicy)
  status := .waiting

def plainChildRun : CoreRuntime :=
  after [.submitTask (Task.new "t.1" "p.work" .null),
    .tickOnce (answering (waitFor (Task.new "c" "p.work" .null) .cascade))] sampleRuntime

/-- A parent that waits for a task of the worker. -/
theorem no_lost_wakeup_sample :
    plainChildRun.tasks.awaitsForParent "t.1" = [awaitOn "t.1" "c" "p.work" .cascade] ∧
      NoLostWakeup plainChildRun := by
  have hrun : Run (fun rt call => call.Wakes rt) plainChildRun := by
    refine run_sampleRuntime.after _ ?_
    intro call hmem rt
    rcases List.mem_cons.1 hmem with rfl | hmem
    · exact trivial
    · rw [List.mem_singleton.1 hmem]
      refine plainCalls_answering fun taskId taskAwait ha => ?_
      cases ha
      show ¬ IsKernelProtocol "p.work"
      decide
  exact ⟨by decide +kernel, no_lost_wakeup hrun⟩

theorem not_noLostWakeup {rt : CoreRuntime} {parent : TaskId} {taskAwait : TaskAwait}
    {status : TaskStatus} (hmem : rt.tasks.awaitsForParent parent = [taskAwait])
    (hchild : rt.tasks.tasks[taskAwait.child.taskId]?.map (·.status) = some status)
    (hterm : isTerminalStatus status = true) : ¬ NoLostWakeup rt := by
  intro h
  obtain ⟨r, hr, hlive⟩ := h parent taskAwait (by simp [hmem])
  rw [hr] at hchild
  cases hchild
  rw [hterm] at hlive
  cases hlive

/-- `t.1` waits for a commit, which the kernel completes in the next tick. -/
def kernelChildRun : CoreRuntime :=
  let commit := Task.new "c" "core.commit" (StateDelta.toValue
    { targetRef := "s", expectedVersion := 0, patch := .null, conflictPolicy := .fail })
  after [.submitTask (Task.new "t.1" "p.work" .null),
    .tickOnce (answering (waitFor commit .cascade)),
    .tickOnce (answering (waitFor commit .cascade))] sampleRuntime

/-- `p` waits for `a`, `a` for `b`, and `b` for `c`, this last link without cascading. -/
def chain (taskId : TaskId) : RunnerResult :=
  if taskId = "p" then waitFor (Task.new "a" "p.work" .null) .cascade taskId
  else if taskId = "a" then waitFor (Task.new "b" "p.work" .null) .cascade taskId
  else waitFor (Task.new "c" "p.work" .null) .detach taskId

/-- Cancelling `a` ends it and fails on `b`, before the wake-up of `p`. -/
def cutChainRun : CoreRuntime :=
  after [.submitTask (Task.new "p" "p.work" .null), .tickOnce (answering chain),
    .tickOnce (answering chain), .tickOnce (answering chain),
    .cancelTaskHandle (awaitOn "p" "a" "p.work" .cascade).child] sampleRuntime

/-- Two ways to lose a wake-up. -/
theorem lost_wakeups :
    (Run (fun _ _ => True) kernelChildRun ∧ ¬ NoLostWakeup kernelChildRun) ∧
      (Run (fun _ _ => True) cutChainRun ∧ ¬ NoLostWakeup cutChainRun) := by
  refine ⟨⟨run_sampleRuntime.after _ fun _ _ _ => trivial, ?_⟩,
    run_sampleRuntime.after _ fun _ _ _ => trivial, ?_⟩
  · have hlink : kernelChildRun.tasks.awaitsForParent "t.1" =
        [awaitOn "t.1" "c" "core.commit" .cascade] := by decide +kernel
    have hchild : kernelChildRun.tasks.tasks["c"]?.map (·.status) = some .completed := by
      decide +kernel
    exact not_noLostWakeup hlink hchild rfl
  · have hlink : cutChainRun.tasks.awaitsForParent "p" =
        [awaitOn "p" "a" "p.work" .cascade] := by decide +kernel
    have hchild : cutChainRun.tasks.tasks["a"]?.map (·.status) = some .cancelled := by
      decide +kernel
    exact not_noLostWakeup hlink hchild rfl

end CoreRuntime

end MutsukiRuntime
