/-
  THE GENERATION A TASK IS BOUND TO.  A task is enqueued for the generation that is
  active then; a runner claims only tasks of the active generation.
-/
import MutsukiRuntime.Core.Runtime.FailedReloads

namespace MutsukiRuntime

open Std Board TaskPool Prog

/-! ## Records of one id -/

/-- A live record under this id is bound to the generation. -/
def BoundTo (taskId : TaskId) (generation : Nat) (b : Board) : Prop :=
  ∀ r, b.tasks taskId = some r → isTerminalStatus r.status = false →
    r.task.registryGeneration = generation

section BoundTo

variable {taskId : TaskId} {generation : Nat} {b b' : Board} {moves : Move → Prop}

theorem SameTask.registryGeneration {r r' : TaskRecord} (h : SameTask false r r') :
    r'.task.registryGeneration = r.task.registryGeneration :=
  (congrArg Task.registryGeneration h : _)

/-- Moves that rebind nothing, and submit under this id only tasks of the generation. -/
theorem BoundTo.reach (hb : BoundTo taskId generation b) (h : Reach moves b b')
    (hsubmit : ∀ task, moves (.submit task) → task.taskId = taskId →
      task.registryGeneration = generation)
    (hchange : ∀ id c, moves (.change id c) ∨ moves (.sweep c) → c.rebinds = false) :
    BoundTo taskId generation b' := by
  refine h.invariant (I := BoundTo taskId generation) ?_ hb
  intro m b b' hm hs hb v hv hlive
  rcases hs.record hv with hold | ⟨rfl, -, hid, -, -⟩ | ⟨c, r, hmove, hr, hc, -, hsame⟩
  · exact hb v hold hlive
  · exact hsubmit v.task hm hid
  · have hkeeps : c.rebinds = false := by
      rcases hmove with rfl | rfl
      · exact hchange taskId c (.inl hm)
      · exact hchange taskId c (.inr hm)
    rw [hkeeps] at hsame
    rw [hsame.registryGeneration]
    exact hb r hr hc.source_live

theorem routes_rebinds {s : Scope} {ended : TaskId → Prop} (id : TaskId) (c : Change)
    (h : Routes s ended (.change id c) ∨ Routes s ended (.sweep c)) : c.rebinds = false := by
  cases c with
  | rebind => exact h.elim False.elim False.elim
  | _ => rfl

end BoundTo

namespace CoreRuntime

section Generations

variable {s : Scope} {strict : Prop} {admin : Bool} {taskId : TaskId} {generation : Nat}
  {start rt rt' mid : CoreRuntime} {allowed : CoreRuntime → Call → Prop}

/-- A live task of this id is bound to the active generation. -/
def Bound (taskId : TaskId) (rt : CoreRuntime) : Prop :=
  BoundTo taskId rt.loadPlan.registryGeneration rt.tasks.board

/-! ## Calls that change no plan -/

theorem Hop.boundTo (h : Hop s strict false start rt)
    (hnew : ∀ task, s.new task → task.taskId = taskId → task.registryGeneration = generation)
    (hb : BoundTo taskId generation start.tasks.board) :
    BoundTo taskId generation rt.tasks.board := by
  cases h with
  | routed h => exact hb.reach h.pool.reach (fun task ht => hnew task ht.2) routes_rebinds
  | later => exact hb
  | claim hadmin descriptor hmem hp hleases =>
    refine hb.reach hp.reach ?_ ?_
    · rintro task ⟨id, lease, he, -⟩
      cases he
    · rintro id c (⟨id', lease, he, -⟩ | ⟨id', lease, he, -⟩)
      · cases he
        rfl
      · cases he
  | @kernel _ _ _ states hadmin hr hactive heffect hdone hb' =>
    have hstart : BoundTo taskId generation ({ start with states } : CoreRuntime).tasks.board := hb
    exact hstart.reach hdone.pool.reach (fun _ hn => hn.elim) routes_rebinds
  | stop hadmin | configure hadmin | plan hadmin | registry hadmin => cases hadmin

/-- The generation a task is enqueued for is the active one. -/
def BindsActive (rt : CoreRuntime) (task : Task) : Prop :=
  (rt.bindGeneration task).registryGeneration = rt.loadPlan.registryGeneration

/-- Whatever the call submits or derives under this id is enqueued for the active
    generation. -/
def EnqueuesActive (taskId : TaskId) (rt : CoreRuntime) (call : Call) : Prop :=
  (∀ task, call.Submits task → task.taskId = taskId → rt.BindsActive task) ∧
  ∀ descriptor ∈ rt.registry.descriptorSnapshot, ∀ result,
    call.Returns descriptor.runnerId result → ∀ task ∈ result.tasks, task.taskId = taskId →
      rt.BindsActive task

theorem bindsActive_of_eq {task : Task}
    (h : task.registryGeneration = rt.loadPlan.registryGeneration) : rt.BindsActive task := by
  unfold BindsActive bindGeneration
  split
  · rfl
  · exact h

/-- The tasks the core itself derives are bound to the active generation. -/
theorem outputsOf_bindsActive {descriptor : RunnerDescriptor} {result : RunnerResult} {task : Task}
    (ht : task ∈ rt.outputsOf descriptor result) : task ∈ result.tasks ∨ rt.BindsActive task := by
  unfold outputsOf pendingOutputTasks at ht
  rw [List.mem_append, List.mem_append] at ht
  rcases ht with (hpure | hevent) | htask
  · split at hpure
    · rcases List.mem_append.1 hpure with hcommit | heffect
      · obtain ⟨index, delta, -, rfl⟩ := List.mem_mapIdx.1 hcommit
        exact .inr (bindsActive_of_eq rfl)
      · obtain ⟨effect, -, rfl⟩ := List.mem_map.1 heffect
        exact .inr (bindsActive_of_eq rfl)
    · cases hpure
  · obtain ⟨event, -, rfl⟩ := List.mem_map.1 hevent
    exact .inr (bindsActive_of_eq rfl)
  · exact .inl htask

/-- What is enqueued under this id is bound to the active generation. -/
def activeScope (taskId : TaskId) (rt : CoreRuntime) : Scope :=
  { anyScope with
    new := fun task => task.taskId = taskId →
      task.registryGeneration = rt.loadPlan.registryGeneration }

theorem EnqueuesActive.within {call : Call} (h : EnqueuesActive taskId rt call) :
    call.Within (activeScope taskId rt) rt := by
  have haccepts : ∀ task, (task.taskId = taskId → rt.BindsActive task) →
      Accepts (activeScope taskId rt) rt task := by
    intro task htask _ createdSequence hid
    have hsame : (rt.bindGeneration task).taskId = task.taskId := by
      unfold bindGeneration
      split <;> rfl
    exact htask (hsame.symm.trans hid)
  refine Call.within_of_inputs (fun _ => trivial) (fun task ht => haccepts task (h.1 task ht)) ?_
  intro descriptor hmem result hreturns
  refine ⟨fun _ _ => trivial, fun task ht => haccepts task fun hid => ?_, fun _ _ _ => trivial⟩
  rcases outputsOf_bindsActive ht with hlisted | hbinds
  · exact h.2 descriptor hmem result hreturns task hlisted hid
  · exact hbinds

theorem bound_of_working {call : Call} (h : Run allowed rt) (hcall : call.isAdmin = false)
    (henqueues : EnqueuesActive taskId rt call) (hb : Bound taskId rt) :
    Bound taskId (call.exec.run rt).2 := by
  have hmoved := h.moved henqueues.within
  rw [hcall] at hmoved
  have hbound := hmoved.hops.invariant (I := fun rt' =>
    BoundTo taskId rt.loadPlan.registryGeneration rt'.tasks.board)
    (fun a b _ hhop ha => hhop.boundTo (fun task hn => hn) ha) hb
  unfold Bound
  rw [hmoved.hops.sameSetup.loadPlan]
  exact hbound

/-! ## Calls that stop the runtime -/

theorem keeps_beginDrain_bound : Keeps (Bound taskId) beginDrain := by
  refine .bind .read fun rt => ?_
  cases rt.stopState with
  | running =>
    exact .bind (.update fun _ h => h) fun _ => .bind (.update fun _ h => h) fun _ => .pure _
  | draining => exact .pure _
  | aborted => exact .fail _

theorem abort_bound (hgood : Good rt.tasks) (hb : Bound taskId rt) (reason : String) :
    wp (abort reason) (fun _ => Bound taskId) (fun _ => Bound taskId) rt := by
  have hself : Settled Aborts rt.tasks.board rt.tasks := settled_self hgood
  unfold abort
  rw [wp_bind, wp_read, wp_ite]
  refine ⟨fun _ => hb, fun _ => ?_⟩
  rw [wp_bind, wp_update, wp_bind, wp_onPool]
  refine wp_total (abortAll_ends hself trivial trivial (fun _ => trivial) rt.currentStep
    (abortFailure reason)) ?_
  intro aborted pool ⟨_, hdead⟩
  have hrest : Keeps (Bound taskId) (do
      Prog.forEach aborted fun taskId =>
        recordTaskTerminalEvent taskId "task.cancelled" (some (abortFailure reason))
      recordEvent .lifecycle "runtime.aborted" none (.ofEntries [("reason", .string reason),
          ("cancelled_tasks", .int (asI64 aborted.length))])
        (some (abortFailure reason))
      pure aborted.length) :=
    .bind (.forEach fun _ _ => .update fun _ h => h) fun _ => .bind (.update fun _ h => h)
      fun _ => .pure _
  exact hrest _ fun r hr hlive => absurd ⟨r, hr, hlive⟩ (hdead taskId)

/-! ## Reloads -/

theorem Rebinds.boundTo {oldGeneration newGeneration : Nat} {pool pool' : TaskPool}
    (h : Rebinds oldGeneration newGeneration pool pool')
    (hb : BoundTo taskId oldGeneration pool.board)
    (hover : newGeneration = oldGeneration ∨ ∀ r, pool.tasks[taskId]? = some r →
      isTerminalStatus r.status = false → r.status = .ready) :
    BoundTo taskId newGeneration pool'.board := by
  intro v hv hlive
  have hstored : pool'.tasks[taskId]? = some v := hv
  rw [h.2 taskId] at hstored
  obtain ⟨r, hr, rfl⟩ := Option.map_eq_some_iff.1 hstored
  rw [rebound_status] at hlive
  have hold : r.task.registryGeneration = oldGeneration := hb r hr hlive
  unfold rebound
  split
  · rfl
  next hkept =>
    rcases hover with hsame | hready
    · exact hold.trans hsame.symm
    · simp [isRebound, hready r hr hlive, hold] at hkept

variable {newPlan : RuntimeLoadPlan}

theorem reloadLoadPlanOnly_bound (hgood : Good rt.tasks) (hb : Bound taskId rt)
    (hover : newPlan.registryGeneration = rt.loadPlan.registryGeneration ∨
      ∀ r, rt.tasks.tasks[taskId]? = some r → isTerminalStatus r.status = false →
        r.status = .ready) :
    wp (reloadLoadPlanOnly newPlan) (fun _ => Bound taskId) (fun _ => Bound taskId) rt := by
  unfold reloadLoadPlanOnly
  rw [wp_bind, wp_read, wp_bind]
  cases rt.reloadDecision newPlan with
  | error e => exact hb
  | ok =>
    rw [wp_lift_ok, wp_bind, recordEvent, wp_update, wp_bind]
    refine wp_total (applyLoadPlan_rebinds ?_) ?_
    · exact hgood
    · intro _ rt' ⟨hrebinds, _, hframe⟩
      have hbound := hrebinds.boundTo hb hover
      show BoundTo taskId rt'.loadPlan.registryGeneration rt'.tasks.board
      have hplan : rt'.loadPlan = newPlan := by rw [hframe]
      rw [hplan]
      exact hbound

/-- Every record has the status it had, or is ready. -/
def Readied (pool pool' : TaskPool) : Prop :=
  ∀ (id : TaskId) v, pool'.tasks[id]? = some v →
    v.status = .ready ∨ ∃ r, pool.tasks[id]? = some r ∧ r.status = v.status

/-- What a full reload keeps: the pool is in order, and no task is made to wait. -/
def Requeues (start rt : CoreRuntime) : Prop := Good rt.tasks ∧ Readied start.tasks rt.tasks

theorem keeps_cancelRunningInvocation_requeues (runnerId invocationId : String)
    (currentStep : Nat) :
    Keeps (Requeues start)
      (onPool (TaskPool.cancelRunningInvocation runnerId invocationId currentStep)) := by
  refine .of_total fun rt ⟨hgood, hreadied⟩ => ?_
  have hself : Settled (Routes cancelScope noneTaken) rt.tasks.board rt.tasks := settled_self hgood
  rw [wp_onPool]
  refine wp_total (cancelRunningInvocation_releases hself (fun _ => trivial) runnerId
    invocationId currentStep) ?_
  intro _ pool ⟨hp, hreleased⟩
  refine ⟨hp.wf, fun id v hv => ?_⟩
  rcases hreleased with ⟨hsame, -⟩ | ⟨id', r, -, hr, hready, hothers⟩
  · rw [hsame] at hv
    exact hreadied id v hv
  · by_cases hid : id' = id
    · subst hid
      cases hr.symm.trans hv
      exact .inl hready
    · rw [hothers id hid] at hv
      exact hreadied id v hv

theorem keeps_applyLoadPlan_requeues (newPlan : RuntimeLoadPlan) :
    Keeps (Requeues start) (applyLoadPlan newPlan) := by
  refine .of_total fun rt ⟨hgood, hreadied⟩ => ?_
  refine wp_total (applyLoadPlan_rebinds hgood) ?_
  intro _ rt' ⟨hrebinds, _, _⟩
  refine ⟨hrebinds.1.wf, fun id v hv => ?_⟩
  rw [hrebinds.2 id] at hv
  obtain ⟨r, hr, rfl⟩ := Option.map_eq_some_iff.1 hv
  rw [rebound_status]
  exact hreadied id r hr

theorem keeps_settleDrainingGenerations_requeues (calls : RunnerCalls) :
    Keeps (Requeues start) (settleDrainingGenerations calls) := by
  intro rt h
  refine wp_mono settleDrainingGenerations_settles ?_ ?_
  · intro _ rt' ⟨_, hframe⟩
    rw [hframe]
    exact h
  · intro _ rt' ⟨_, hframe⟩
    rw [hframe]
    exact h

theorem keeps_swapGeneration_requeues (calls : RunnerCalls) (order : IterationOrder)
    (newPlan : RuntimeLoadPlan) (newRegistry : RunnerRegistry) :
    Keeps (Requeues start) (swapGeneration calls order newPlan newRegistry) := by
  refine .bind (.update fun _ h => h) fun _ => .bind .read fun _ =>
    .bind (.forEach fun _ _ => ?_) fun _ => .bind ?_ fun _ => .bind (.update fun _ h => h) fun _ =>
    .bind (keeps_applyLoadPlan_requeues newPlan) fun _ => .bind (.update fun _ h => h) fun _ =>
    .bind (keeps_settleDrainingGenerations_requeues calls) fun _ => .pure _
  · exact .ite (.update fun _ h => h) (.bind .read fun _ => .bind (.lift _) fun _ =>
      .bind (keeps_cancelRunningInvocation_requeues _ _ _) fun _ => .update fun _ h => h)
  · exact .bind .read fun _ => .bind (.update fun _ h => h) fun _ =>
      .ite (.update fun _ h => h) (.bind (.lift _) fun _ => .update fun _ h => h)

/-- The invocation a record runs in is one that a full reload cancels. -/
def RunsClean (rt : CoreRuntime) (r : TaskRecord) : Prop :=
  r.status = .running ∧ ∀ disposition, rt.dispositionOf r = some disposition →
    disposition.pollution.needsDrain = false

variable {calls : RunnerCalls} {order : IterationOrder}

theorem CancelledAll.not_running (h : CancelledAll calls order newPlan start mid)
    (hrun : Run allowed start) {r v : TaskRecord} (hr : start.tasks.tasks[taskId]? = some r)
    (hclean : RunsClean start r) (hv : mid.tasks.tasks[taskId]? = some v) :
    v.status ≠ .running := by
  intro hrunning
  obtain ⟨disposition, hd, -, hunder⟩ := dispositionOf_running hrun.good hr hclean.1
  have hmem : disposition ∈ start.classifyRunningInvocations order :=
    (mem_classify hrun.good).2 ⟨taskId, r, hr, hclean.1, hd⟩
  obtain ⟨id, hunder', hnot⟩ := h.cancelled.released disposition hmem
    (hclean.2 disposition hd) taskId hunder
  obtain rfl := hrun.runsUnder_unique hunder' hunder
  exact hnot v hv hrunning

/-- A full reload that swaps the plan binds a task it finds ready, or cancels first. -/
theorem Swapped.bound {newRegistry : RunnerRegistry} {kept : List DrainingGeneration}
    (hrun : Run allowed start) (hall : CancelledAll calls order newPlan start mid)
    (h : Swapped newPlan newRegistry kept mid rt) (hreadied : Readied start.tasks rt.tasks)
    (hb : Bound taskId start)
    (hover : newPlan.registryGeneration = start.loadPlan.registryGeneration ∨
      ∀ r, start.tasks.tasks[taskId]? = some r → isTerminalStatus r.status = false →
        r.status = .ready ∨ RunsClean start r) :
    BoundTo taskId newPlan.registryGeneration rt.tasks.board := by
  have hplan : mid.loadPlan = start.loadPlan := by rw [hall.reloading.frame]
  have hrebinds := h.tasks
  rw [hplan] at hrebinds
  have hmid : BoundTo taskId start.loadPlan.registryGeneration mid.tasks.board :=
    BoundTo.reach hb hall.cancelled.settled.reach (fun _ hn => hn.elim) routes_rebinds
  refine hrebinds.boundTo hmid (hover.imp_right fun hover v hv hlive => ?_)
  have hstored : rt.tasks.tasks[taskId]? = some (rebound start.loadPlan.registryGeneration
      newPlan.registryGeneration v) := by
    rw [hrebinds.2 taskId, hv]
    rfl
  rcases hreadied taskId _ hstored with hready | ⟨r, hr, hstatus⟩
  · rwa [rebound_status] at hready
  · rw [rebound_status] at hstatus
    rcases hover r hr (by rw [hstatus]; exact hlive) with hready | hclean
    · exact hstatus.symm.trans hready
    · exact absurd (hstatus.symm.trans hclean.1) (hall.not_running hrun hr hclean hv)

theorem reloadWithAsyncHandlers_bound {newRunners : List Runner}
    {newAsyncHandlers : List AsyncBatchHandler} (hrun : Run allowed start) (hb : Bound taskId start)
    (hover : newPlan.registryGeneration = start.loadPlan.registryGeneration ∨
      ∀ r, start.tasks.tasks[taskId]? = some r → isTerminalStatus r.status = false →
        r.status = .ready ∨ RunsClean start r) :
    wp (reloadWithAsyncHandlers calls order newPlan newRunners newAsyncHandlers)
      (fun _ => Bound taskId) (fun _ => Bound taskId) start := by
  rw [wp_reload]
  cases start.checkReload newPlan newRunners newAsyncHandlers with
  | error e => exact hb
  | ok checked =>
    have hstart : Requeues start start := ⟨hrun.good, fun id v hv => .inr ⟨v, hv, rfl⟩⟩
    -- the plan is the old one until the swap
    have hearly : ∀ {rt : CoreRuntime}, Reloading newPlan start rt → Bound taskId rt := by
      intro rt hreloading
      have hplan : rt.loadPlan = start.loadPlan := by rw [hreloading.frame]
      unfold Bound
      rw [hplan]
      exact BoundTo.reach hb hreloading.pool.reach (fun _ hn => hn.elim) routes_rebinds
    have hlate : ∀ {mid rt₁ rt : CoreRuntime}, CancelledAll calls order newPlan start mid →
        Swapped newPlan checked.2 (start.keptGenerations order) mid rt₁ →
        Readied start.tasks rt.tasks → rt.loadPlan = rt₁.loadPlan → rt.tasks = rt₁.tasks →
        Bound taskId rt := by
      intro mid rt₁ rt hall hswapped hreadied hplan htasks
      have hnew : rt₁.loadPlan = newPlan := by rw [hswapped.frame]
      rw [htasks] at hreadied
      unfold Bound
      rw [hplan, hnew, htasks]
      exact hswapped.bound hrun hall hreadied hb hover
    refine wp_mono (wp_and (swapGeneration_stages hrun.good)
      (keeps_swapGeneration_requeues calls order newPlan checked.2 start hstart)) ?_ ?_
    · rintro _ rt ⟨⟨mid, rt₁, hall, -, hswapped, -, hframe⟩, -, hreadied⟩
      exact hlate hall hswapped hreadied (by rw [hframe]) (by rw [hframe])
    · rintro e rt ⟨⟨-, hreloading, -⟩ | ⟨mid, hall, ⟨-, -, hframe⟩ | ⟨-, rt₁, hswapped, -, hframe⟩⟩,
        -, hreadied⟩
      · exact hearly hreloading
      · have hmid := hearly hall.reloading
        rw [hframe]
        exact hmid
      · exact hlate hall hswapped hreadied (by rw [hframe]) (by rw [hframe])

/-! ## Runs -/

/-- A reload that changes the generation finds the task of this id, if it is live, ready; or,
    if it is a full reload, in an invocation it cancels. -/
def CarriesOver (taskId : TaskId) (rt : CoreRuntime) : Call → Prop
  | .reloadLoadPlanOnly newPlan =>
    newPlan.registryGeneration = rt.loadPlan.registryGeneration ∨
      ∀ r, rt.tasks.tasks[taskId]? = some r → isTerminalStatus r.status = false →
        r.status = .ready
  | .reloadWithAsyncHandlers _ _ newPlan _ _ =>
    newPlan.registryGeneration = rt.loadPlan.registryGeneration ∨
      ∀ r, rt.tasks.tasks[taskId]? = some r → isTerminalStatus r.status = false →
        r.status = .ready ∨ RunsClean rt r
  | _ => True

theorem Run.bound_call (h : Run allowed rt) {call : Call}
    (henqueues : EnqueuesActive taskId rt call)
    (hover : CarriesOver taskId rt call) (hb : Bound taskId rt) :
    Bound taskId (call.exec.run rt).2 := by
  have hdrop : ∀ {α : Type} {m : CoreM α}, wp m (fun _ => Bound taskId) (fun _ => Bound taskId) rt →
        Bound taskId ((do let _ ← m : CoreM Unit).run rt).2 := by
    intro α m hm
    rw [state_discard]
    exact wp_run hm
  cases call with
  | beginDrain => exact hdrop (keeps_beginDrain_bound rt hb)
  | abort reason => exact hdrop (abort_bound h.good hb reason)
  | configureEventCapacity | configureObservability | editResources => exact hb
  | reloadLoadPlanOnly newPlan => exact hdrop (reloadLoadPlanOnly_bound h.good hb hover)
  | reloadWithAsyncHandlers =>
    exact hdrop (reloadWithAsyncHandlers_bound h hb hover)
  | _ => exact bound_of_working h rfl henqueues hb

end Generations

/-- The states a run comes to after `start`. -/
inductive Onward (allowed : CoreRuntime → Call → Prop) (start : CoreRuntime) :
    CoreRuntime → Prop where
  | here : Onward allowed start start
  | call {rt : CoreRuntime} (h : Onward allowed start rt) (call : Call) (hcall : allowed rt call) :
      Onward allowed start (call.exec.run rt).2

theorem Onward.run {allowed : CoreRuntime → Call → Prop} {start rt : CoreRuntime}
    (h : Onward allowed start rt) (hstart : Run (fun _ _ => True) start) :
    Run (fun _ _ => True) rt := by
  induction h with
  | here => exact hstart
  | call _ call _ ih => exact ih.call call trivial

/-- A task that is enqueued for the active generation, and carried over by every reload while it
    is there, is bound to the active generation whenever it is ready. -/
theorem ready_task_bound {taskId : TaskId} {start rt : CoreRuntime}
    (hstart : Run (fun _ _ => True) start) (hnew : start.tasks.tasks[taskId]? = none)
    (h : Onward (fun rt call => EnqueuesActive taskId rt call ∧ CarriesOver taskId rt call) start
      rt) :
    ∀ r, rt.tasks.tasks[taskId]? = some r → r.status = .ready →
      r.task.registryGeneration = rt.loadPlan.registryGeneration := by
  have hbound : Bound taskId rt := by
    induction h with
    | here =>
      intro r hr
      cases hnew.symm.trans hr
    | call h call hcall ih => exact (h.run hstart).bound_call hcall.1 hcall.2 ih
  exact fun r hr hready => hbound r hr (by simp [hready, isTerminalStatus])

/-- The sample plan as the next generation. -/
def nextPlan : RuntimeLoadPlan := planOf 2 samplePlan.plugins

/-- A ready task is carried over to the next generation. -/
theorem ready_task_bound_sample :
    let reloaded := after [.submitTask (Task.new "t.1" "p.work" .null),
      .reloadLoadPlanOnly nextPlan] sampleRuntime
    reloaded.taskStatus "t.1" = some .ready ∧
      ∀ r, reloaded.tasks.tasks["t.1"]? = some r → r.status = .ready →
        r.task.registryGeneration = reloaded.loadPlan.registryGeneration := by
  have hnew : sampleRuntime.tasks.tasks["t.1"]? = none :=
    Option.map_eq_none_iff.1 (show sampleRuntime.tasks.tasks["t.1"]?.map (·.status) = none by
      decide +kernel)
  let submit : Call := .submitTask (Task.new "t.1" "p.work" .null)
  have hsubmit : EnqueuesActive "t.1" sampleRuntime submit := by
    refine ⟨?_, fun _ _ _ hreturns => hreturns.elim⟩
    rintro task rfl -
    show (sampleRuntime.bindGeneration (Task.new "t.1" "p.work" .null)).registryGeneration =
      sampleRuntime.loadPlan.registryGeneration
    decide +kernel
  have hreload : CarriesOver "t.1" (submit.exec.run sampleRuntime).2
      (.reloadLoadPlanOnly nextPlan) := by
    refine .inr fun r hr _ => ?_
    have hstatus : (submit.exec.run sampleRuntime).2.tasks.tasks["t.1"]?.map (·.status) =
        some .ready := by decide +kernel
    rw [hr] at hstatus
    exact Option.some.inj hstatus
  refine ⟨by decide +kernel, ready_task_bound run_sampleRuntime hnew ?_⟩
  exact .call (.call .here submit ⟨hsubmit, trivial⟩) (.reloadLoadPlanOnly nextPlan)
    ⟨⟨fun _ hsubmits => hsubmits.elim, fun _ _ _ hreturns => hreturns.elim⟩, hreload⟩

/-- A task that waits across a reload, and is woken after it. -/
def wokenRuntime : CoreRuntime :=
  after [.submitTask (Task.new "t.1" "p.work" .null),
    .tickOnce (answering fun taskId => { taskId, status := .waiting }),
    .reloadLoadPlanOnly nextPlan,
    .wakeTaskHandle (awaitOn "p" "t.1" "p.work" .cascade).child] sampleRuntime

/-- A task that runs across a reload, and whose lease expires after it. -/
def expiredRuntime : CoreRuntime :=
  after [.submitTask (Task.new "t.1" "p.work" .null), .claimReadyDispatches keenPolicy (some 2),
    .reloadLoadPlanOnly nextPlan, .claimReadyDispatches keenPolicy none] sampleRuntime

/-- Both are ready again, bound to the generation that has been retired. -/
theorem waiting_task_left_behind :
    (Run (fun _ _ => True) wokenRuntime ∧ wokenRuntime.loadPlan.registryGeneration = 2 ∧
      (wokenRuntime.tasks.tasks["t.1"]?.map fun r => (r.status, r.task.registryGeneration)) =
        some (.ready, 1)) ∧
    Run (fun _ _ => True) expiredRuntime ∧ expiredRuntime.loadPlan.registryGeneration = 2 ∧
      (expiredRuntime.tasks.tasks["t.1"]?.map fun r => (r.status, r.task.registryGeneration)) =
        some (.ready, 1) := by
  exact ⟨⟨run_sampleRuntime.after _ fun _ _ _ => trivial, by decide +kernel, by decide +kernel⟩,
    run_sampleRuntime.after _ fun _ _ _ => trivial, by decide +kernel, by decide +kernel⟩

end CoreRuntime

end MutsukiRuntime
