/-
  THE HEAD AND THE TURNS OF A PASS: what a scheduling pass leaves behind, also when it
  fails half way.

  * `wp_beginPass`: the head gives up leases, wakes sleepers and rejects stale tasks.
  * `turns_passedBy`: turns that pass their runners over leave everything as the head left it,
    up to a refusal of the policy.
-/
import MutsukiRuntime.Core.Runtime.Handout

namespace MutsukiRuntime

open Std Board TaskPool Prog List Option

namespace CoreRuntime

/-! ## The head of a pass -/

section Head

variable {s : Scope} {ended : TaskId → Prop} {b : Board} {rt : CoreRuntime}

theorem wakeTasksWaitingOn_tracks (h : Settled (Routes s ended) b rt.tasks) (childTaskId : TaskId) :
    wp (wakeTasksWaitingOn childTaskId)
      (fun _ rt' => Settled (Routes s ended) b rt'.tasks) (fun _ _ => False) rt := by
  unfold wakeTasksWaitingOn
  rw [wp_bind, wp_onPool]
  refine wp_total (takeWaitsForChild_tracks h (fun _ => trivial) trivial childTaskId) ?_
  intro waits pool ⟨_, hpool, _⟩
  refine wp_foldEach (fun _ _ (rt' : CoreRuntime) => Settled (Routes s ended) b rt'.tasks) hpool ?_
  intro taskAwait _ woken rt' h'
  unfold wakeParent
  rw [wp_bind, wp_read, wp_ite]
  constructor
  · intro hstatus
    obtain ⟨r, hr, hs⟩ := suspended_of_taskStatus hstatus
    rw [wp_bind, wp_onPool]
    exact wp_total (wake_total h' hr hs trivial trivial rt'.currentStep) (fun _ _ hp => hp)
  · exact fun _ => h'

theorem rejectStaleTask_tracks (hgood : Good rt.tasks) {stale : TaskId × RuntimeError}
    {r : TaskRecord} (hr : rt.tasks.tasks[stale.1]? = some r) (hready : r.status = .ready)
    (rejected : Nat) :
    wp (rejectStaleTask rejected stale)
      (fun _ rt' => Settled (Routes {} (only stale.1)) rt.tasks.board rt'.tasks ∧
        ¬ rt'.tasks.board.Live stale.1)
      (fun _ _ => False) rt := by
  have hself : Settled (Routes {} (only stale.1)) rt.tasks.board rt.tasks := settled_self hgood
  unfold rejectStaleTask
  rw [wp_bind, wp_onPool]
  refine wp_mono (wp_and (rejectReady_tracks hself (fun _ => trivial) trivial rfl stale.2)
    (rejectReady_rejects hgood hr hready stale.2)) ?_ (fun _ _ hf => hf.2)
  intro _ pool ⟨hp, hrejected⟩
  have hdead : ¬ pool.board.Live stale.1 := by
    intro hlive
    obtain ⟨v, hv, hlive⟩ := hrejected.reach.live_kept (fun _ hm => hm) hlive
    rw [put_tasks, Function.update_self] at hv
    cases hv
    cases hlive
  show wp (wakeTasksWaitingOn stale.1 >>= fun _ => pure (rejected + 1)) _ _ _
  rw [wp_bind]
  have hpool : Settled (Routes {} (only stale.1)) pool.board pool := settled_self hp.wf
  refine wp_total (wakeTasksWaitingOn_tracks hpool stale.1) ?_
  exact fun _ rt' h' => ⟨⟨h'.wf, hp.reach.trans h'.reach⟩,
    fun hlive => hdead (h'.reach.live_kept (fun _ hm => hm) hlive)⟩

theorem mem_staleReadyTasks (hgood : Good rt.tasks) {stale : TaskId × RuntimeError} :
    stale ∈ rt.staleReadyTasks ↔ ∃ r, rt.tasks.tasks[stale.1]? = some r ∧ r.hasExpectations ∧
      rt.states.validateExpectations r.task.expectedVersions
        s!"task.precondition.{stale.1}" = .error stale.2 := by
  have hlisted := hgood.indexes.expectations
  unfold staleReadyTasks staleExpectationTaskIds
  rw [mem_filterMap]
  constructor
  · rintro ⟨taskId, hmem, hstale⟩
    obtain ⟨r, hr, hexpects⟩ := (hlisted taskId).1 (ExtTreeSet.mem_toList.1 hmem)
    rw [hr] at hstale
    dsimp only at hstale
    split at hstale
    · cases hstale
    next failure hinvalid =>
      cases hstale
      exact ⟨r, hr, hexpects, hinvalid⟩
  · rintro ⟨r, hr, hexpects, hinvalid⟩
    refine ⟨stale.1, ExtTreeSet.mem_toList.2 ((hlisted stale.1).2 ⟨r, hr, hexpects⟩), ?_⟩
    simp [hr, hinvalid]

/-- A filter that keeps the item itself in what it gives has no repetitions to give. -/
theorem nodup_filterMap_own {α β : Type} {f : α → Option (α × β)}
    (hown : ∀ a b, f a = some b → b.1 = a) {items : List α} (hnodup : items.Nodup) :
    ((items.filterMap f).map (·.1)).Nodup := by
  rw [map_filterMap]
  refine List.Nodup.filterMap ?_ hnodup
  intro a a' id hid hid'
  obtain ⟨b, hb, rfl⟩ := map_eq_some_iff.1 hid
  obtain ⟨b', hb', he⟩ := map_eq_some_iff.1 hid'
  rw [← hown a b hb, ← hown a' b' hb']
  exact he.symm

theorem nodup_staleReadyTasks (rt : CoreRuntime) : (rt.staleReadyTasks.map (·.1)).Nodup := by
  refine nodup_filterMap_own ?_ (Buckets.nodup_set_toList _)
  intro taskId entry hentry
  split at hentry
  · cases hentry
  · split at hentry
    · cases hentry
    · cases hentry
      rfl

/-- Rejecting the stale tasks cannot fail: each of them stays ready until its turn. -/
theorem rejectStaleReadyTasks_total (hgood : Good rt.tasks) : wp rejectStaleReadyTasks
      (fun _ rt' => Settled (Routes {} (fun _ => True)) rt.tasks.board rt'.tasks ∧
        ∀ stale ∈ rt.staleReadyTasks, ¬ rt'.tasks.board.Live stale.1)
      (fun _ _ => False) rt := by
  unfold rejectStaleReadyTasks
  rw [wp_bind, wp_read]
  refine wp_total (wp_foldEach (fun rest _ (rt' : CoreRuntime) =>
    (rest.map (·.1)).Nodup ∧
    (∀ stale ∈ rest, ∃ r, rt'.tasks.tasks[stale.1]? = some r ∧ r.status = .ready) ∧
    Settled (Routes {} (fun _ => True)) rt.tasks.board rt'.tasks ∧
    ∀ stale ∈ rt.staleReadyTasks, stale ∈ rest ∨ ¬ rt'.tasks.board.Live stale.1)
    ⟨nodup_staleReadyTasks rt, ?_, settled_self hgood, fun _ hmem => .inl hmem⟩ ?_)
    (fun _ _ h => ⟨h.2.2.1, fun stale hmem => (h.2.2.2 stale hmem).resolve_left not_mem_nil⟩)
  · intro stale hmem
    obtain ⟨r, hr, hexpects, -⟩ := (mem_staleReadyTasks hgood).1 hmem
    exact ⟨r, hr, hexpects.1⟩
  · intro stale rest rejected rt' ⟨hnodup, hready, hsettled, hended⟩
    rw [map_cons, nodup_cons] at hnodup
    obtain ⟨r, hr, hs⟩ := hready stale (by simp)
    refine wp_total (rejectStaleTask_tracks hsettled.wf hr hs rejected) ?_
    intro _ rt'' ⟨h'', hdead⟩
    refine ⟨hnodup.2, fun stale' hmem => ?_, ⟨h''.wf, hsettled.reach.trans (h''.reach.mono
      fun _ hm => hm.mono (.refl _) fun _ _ => trivial)⟩, fun stale' hmem => ?_⟩
    · obtain ⟨r', hr', hs'⟩ := hready stale' (by simp [hmem])
      have hother : stale'.1 ≠ stale.1 :=
        fun he => hnodup.1 (he ▸ List.mem_map.2 ⟨stale', hmem, rfl⟩)
      exact ⟨r', h''.reach.ready_kept hother hr' hs', hs'⟩
    · rcases hended stale' hmem with hrest | hdead'
      · rcases mem_cons.1 hrest with rfl | hrest
        · exact .inr hdead
        · exact .inl hrest
      · exact .inr fun hlive => hdead' (h''.reach.live_kept (fun _ hm => hm) hlive)

/-- The rule for the head of a pass: leases are given up and sleepers wake, then the stale tasks
    are rejected. -/
theorem wp_beginPass (hgood : Good rt.tasks) {targetStep : Nat} {Q : Nat → CoreRuntime → Prop}
    (hQ : ∀ completed rt₂ rt', Steady { ids := fun _ => True } False noneTaken
        { rt with currentStep := targetStep } rt₂ →
      Settled (Routes {} (fun _ => True)) rt₂.tasks.board rt'.tasks →
      (∀ stale ∈ rt₂.staleReadyTasks, ¬ rt'.tasks.board.Live stale.1) → Q completed rt') :
    wp (beginPass targetStep) Q (fun _ _ => False) rt := by
  have hself : Steady { ids := fun _ => True } False noneTaken
      { rt with currentStep := targetStep } { rt with currentStep := targetStep } :=
    steady_self hgood False.elim
  unfold beginPass
  rw [wp_bind, wp_update, wp_bind]
  refine wp_total (reclaimExpiredTaskLeases_steady hself fun _ _ _ _ _ _ => trivial) ?_
  intro _ rt₁ h₁
  rw [wp_bind]
  refine wp_total (wakeDueTasks_steady h₁) ?_
  intro _ rt₂ h₂
  exact wp_total (rejectStaleReadyTasks_total h₂.good)
    (fun completed rt' h₃ => hQ completed rt₂ rt' h₂ h₃.1 h₃.2)

end Head

/-! ## Turns that take nothing -/

/-- The leases tasks run under. -/
def runningLeases (rt : CoreRuntime) : Set TaskLease :=
  {lease | ∃ r, rt.tasks.tasks[lease.taskId]? = some r ∧ r.status = .running ∧
    r.lease = some lease}

/-- What the head of a pass and the turns that take nothing leave alone. -/
def setupAndStep (rt : CoreRuntime) : RunnerRegistry × RuntimeLoadPlan × Nat :=
  (rt.registry, rt.loadPlan, rt.currentStep)

section Frames

theorem leads_recordEvent_setup (kind : RuntimeEventKind) (name : String)
    (subjectId : Option String) (attributes : Attributes) (error : Option RuntimeError) :
    Leads (Same setupAndStep) (recordEvent kind name subjectId attributes error) :=
  .update fun _ => rfl

theorem leads_onPool_setup {α : Type} (m : PoolM α) : Leads (Same setupAndStep) (onPool m) :=
  fun _ => rfl

theorem wakeTasksWaitingOn_setup (childTaskId : TaskId) :
    Leads (Same setupAndStep) (wakeTasksWaitingOn childTaskId) :=
  .bind (leads_onPool_setup _) fun _ => .foldEach fun _ _ _ =>
    .bind .read fun _ => .ite (.bind (leads_onPool_setup _) fun _ =>
      .bind (leads_recordEvent_setup _ _ _ _ _) fun _ => .pure _) (.pure _)

theorem beginPass_setup (targetStep : Nat) :
    Leads (fun rt rt' : CoreRuntime =>
      rt'.setupAndStep = (rt.registry, rt.loadPlan, targetStep)) (beginPass targetStep) := by
  have hrest : Leads (Same setupAndStep) (do
      reclaimExpiredTaskLeases
      let _ ← wakeDueTasks
      rejectStaleReadyTasks) := by
    refine .bind ?_ fun _ => .bind ?_ fun _ => ?_
    · exact .bind .read fun _ => .bind (leads_onPool_setup _) fun _ =>
        .forEach fun _ _ => leads_recordEvent_setup _ _ _ _ _
    · exact .bind .read fun _ => .bind (leads_onPool_setup _) fun _ =>
        .bind (.forEach fun _ _ => leads_recordEvent_setup _ _ _ _ _) fun _ => .pure _
    · exact .bind .read fun _ => .foldEach fun _ _ _ => .bind (leads_onPool_setup _) fun _ =>
        .bind (leads_recordEvent_setup _ _ _ _ _) fun _ =>
          .bind (wakeTasksWaitingOn_setup _) fun _ => .pure _
  exact fun rt => hrest { rt with currentStep := targetStep }

end Frames

/-- No task that has not ended is one the runner accepts. -/
def NothingFor (rt : CoreRuntime) (descriptor : RunnerDescriptor) : Prop :=
  ∀ (id : TaskId) (r : TaskRecord), rt.tasks.tasks[id]? = some r →
    isTerminalStatus r.status = false → r.task.protocolId ∉ descriptor.acceptedProtocolIds

/-- Whatever the load, the runner is given nothing: it takes no dispatches, has no tasks, or the
    policy refuses it or allows it none. -/
def PassedOver (rt : CoreRuntime) (targetStep : Nat) (decideSchedule : SchedulePolicy)
    (descriptor : RunnerDescriptor) : Prop :=
  runnerCanDispatch descriptor = false ∨ rt.NothingFor descriptor ∨
    ∀ load decision, decideSchedule descriptor load targetStep rt.loadPlan.registryGeneration =
      .ok decision → (clampDecision descriptor decision).dispatchLimit = 0

/-- Whatever the load, the pass ends with the refusal of the policy. -/
def Refused (rt : CoreRuntime) (targetStep : Nat) (decideSchedule : SchedulePolicy)
    (descriptor : RunnerDescriptor) : Prop :=
  runnerCanDispatch descriptor = true ∧ ∀ load decision,
    decideSchedule descriptor load targetStep rt.loadPlan.registryGeneration ≠ .ok decision

/-- The runners are passed over, up to one that is refused. -/
def GivesNothing (rt : CoreRuntime) (targetStep : Nat) (decideSchedule : SchedulePolicy) :
    List RunnerDescriptor → Prop
  | [] => True
  | descriptor :: rest => rt.Refused targetStep decideSchedule descriptor ∨
      (rt.PassedOver targetStep decideSchedule descriptor ∧
        rt.GivesNothing targetStep decideSchedule rest)

/-- A pass at `targetStep` that has given nothing out. -/
structure PassedBy (start : CoreRuntime) (targetStep : Nat) (rt : CoreRuntime) : Prop where
  good : Good rt.tasks
  setup : rt.setupAndStep = (start.registry, start.loadPlan, targetStep)
  running : rt.runningLeases ⊆ start.runningLeases
  nothing : ∀ descriptor, start.NothingFor descriptor → rt.NothingFor descriptor

section Turns

variable {s : Scope} {ended : TaskId → Prop} {start rt rt' : CoreRuntime} {targetStep : Nat}
  {decideSchedule : SchedulePolicy} {leaseExpiresAt : Option Nat}
  {descriptor : RunnerDescriptor}

theorem runningLeases_subset {s : Scope} {ended : TaskId → Prop}
    (hp : Reach (Routes s ended) rt.tasks.board rt'.tasks.board) :
    rt'.runningLeases ⊆ rt.runningLeases := by
  intro l ⟨r, hr, hrun, hl⟩
  exact ⟨r, hp.running_before hr hrun, hrun, hl⟩

theorem nothingFor_of_reach (hp : Reach (Routes s ended) rt.tasks.board rt'.tasks.board)
    (hnew : ∀ task, ¬ s.new task) (h : rt.NothingFor descriptor) : rt'.NothingFor descriptor := by
  refine hp.invariant (I := fun b : Board => ∀ id r, b.tasks id = some r →
    isTerminalStatus r.status = false → r.task.protocolId ∉ descriptor.acceptedProtocolIds) ?_ h
  intro m b b' hm hs hb id r hr hlive
  rcases hs.record hr with hold | ⟨rfl, -⟩ | ⟨c, r₀, -, hr₀, hc, -, hsame⟩
  · exact hb id r hold hlive
  · exact absurd hm (hnew r.task)
  · rw [hsame.protocolId]
    exact hb id r₀ hr₀ hc.source_live

theorem beginPass_passedBy (hgood : Good rt.tasks) (targetStep : Nat) :
    wp (beginPass targetStep) (fun _ => PassedBy rt targetStep) (fun _ _ => False) rt := by
  have hhead : wp (beginPass targetStep) (fun _ rt' => Good rt'.tasks ∧
      rt'.runningLeases ⊆ rt.runningLeases ∧
      ∀ descriptor, rt.NothingFor descriptor → rt'.NothingFor descriptor)
      (fun _ _ => False) rt :=
    wp_beginPass hgood fun _ rt₂ rt' h₂ h₃ _ => ⟨h₃.wf,
      (runningLeases_subset h₃.reach).trans (runningLeases_subset h₂.pool.reach), fun _ hnone =>
        nothingFor_of_reach h₃.reach (fun _ hn => hn)
          (nothingFor_of_reach h₂.pool.reach (fun _ hn => hn) hnone)⟩
  exact wp_mono (wp_leads hhead (beginPass_setup targetStep))
    (fun _ _ h => ⟨h.1.1, h.2, h.1.2.1, h.1.2.2⟩) (fun _ _ h => h.1)

/-- A runner that is passed over leases nothing. -/
theorem leases_nothing {decision : ScheduleDecision} {pool : TaskPool}
    {leased : List (TaskLease × Task)} (htaken : Taken descriptor decision rt pool leased)
    (hover : rt.NothingFor descriptor ∨ (clampDecision descriptor decision).dispatchLimit = 0) :
    leased = [] := by
  rcases hover with hnone | hzero
  · refine eq_nil_iff_forall_not_mem.2 fun e he => ?_
    obtain ⟨r, hr, helig, -⟩ := htaken.leases.taken e he
    obtain ⟨hready, haccepted⟩ := eligible_accepted helig
    exact hnone _ r hr (by rw [hready]; rfl) haccepted
  · have hids : rt.claimedIds descriptor decision = [] := by
      simp [claimedIds, selectCandidateIds, budgetClosed, hzero]
    exact map_eq_nil_iff.1 (htaken.ids.trans hids)

theorem scheduleRunner_passedBy (h : PassedBy start targetStep rt)
    (haccepted : descriptor.acceptedProtocolIds.Nodup)
    (hover : start.PassedOver targetStep decideSchedule descriptor)
    (acc : RunnerLoopReport × List RunnerDispatch) :
    wlp (fun _ => True) (scheduleRunner decideSchedule leaseExpiresAt acc descriptor)
      (fun _ => PassedBy start targetStep) (fun _ => PassedBy start targetStep) rt := by
  unfold scheduleRunner
  split
  · exact h
  next hopen =>
    rw [wlp_bind, wlp_read, wlp_bind]
    refine wlp_lift (fun decision hdecision => ?_) (fun _ => h)
    obtain ⟨hplan, hstep⟩ : rt.loadPlan = start.loadPlan ∧ rt.currentStep = targetStep :=
      ⟨congrArg (·.2.1) h.setup, congrArg (·.2.2) h.setup⟩
    rw [hplan, hstep] at hdecision
    have hnothing : rt.NothingFor descriptor ∨
        (clampDecision descriptor decision).dispatchLimit = 0 := by
      rcases hover with hclosed | hnone | hzero
      · simp [hclosed] at hopen
      · exact .inl (h.nothing descriptor hnone)
      · exact .inr (hzero _ decision hdecision)
    rw [wlp_bind]
    refine wlp_mono (wlp_claimRunnerWork h.good haccepted (fun _ _ _ _ => ⟨h.1, h.2, h.3, h.4⟩) ?_
      (fun _ _ _ _ => ⟨h.1, h.2, h.3, h.4⟩)) (fun _ _ => trivial) (fun _ _ h' => h')
      (fun _ _ h' => h')
    intro _ _ _ pool leased htaken
    obtain rfl := leases_nothing htaken hnothing
    have hsame : ∀ id : TaskId, pool.tasks[id]? = rt.tasks.tasks[id]? :=
      fun id => htaken.leases.kept id fun _ he => by cases he
    refine ⟨htaken.good, h.setup, fun lease hl => ?_, fun descriptor hnone id r hr => ?_⟩
    · obtain ⟨r, hr, hrun⟩ := hl
      exact h.running ⟨r, (hsame _).symm.trans hr, hrun⟩
    · exact h.nothing descriptor hnone id r ((hsame id).symm.trans hr)

/-- By induction on the runners still to come; a refusal ends the pass before anything is
    given out. -/
theorem turns_passedBy {rest : List RunnerDescriptor}
    {acc : RunnerLoopReport × List RunnerDispatch} (h : PassedBy start targetStep rt)
    (haccepted : ∀ d ∈ rest, d.acceptedProtocolIds.Nodup)
    (hnone : start.GivesNothing targetStep decideSchedule rest) :
    wlp (fun _ => True) (Prog.foldEach rest acc (scheduleRunner decideSchedule leaseExpiresAt))
      (fun _ _ => True) (fun _ => PassedBy start targetStep) rt := by
  induction rest generalizing acc rt with
  | nil => trivial
  | cons descriptor rest ih =>
    have hself := haccepted descriptor (by simp)
    rw [Prog.foldEach, wlp_bind]
    rcases hnone with ⟨hopen, hrefused⟩ | ⟨hover, hrest⟩
    · unfold scheduleRunner
      rw [if_neg (by simp [hopen]), wlp_bind, wlp_read, wlp_bind]
      refine wlp_lift (fun decision hdecision => ?_) (fun _ => h)
      rw [show rt.loadPlan = start.loadPlan from congrArg (·.2.1) h.setup,
        show rt.currentStep = targetStep from congrArg (·.2.2) h.setup] at hdecision
      exact absurd hdecision (hrefused _ decision)
    · exact wlp_mono (scheduleRunner_passedBy h hself hover acc) (fun _ ht => ht)
        (fun _ _ h' => ih h' (fun d hd => haccepted d (by simp [hd])) hrest) (fun _ _ h' => h')

/-! ## Failed passes -/

/-- Nothing of a failed pass is left: every task that runs does so under a lease issued before
    the pass, and every instance that was idle is idle again. -/
structure Undone (rt rt' : CoreRuntime) : Prop where
  claims : ∀ lease ∈ rt'.runningLeases, LeaseEvent.issued lease ∈ rt.tasks.leaseLog
  idle : ∀ runnerId, (rt.registry.idle runnerId).Subperm (rt'.registry.idle runnerId)

/-- The pass does not begin, or it gives nothing out before the policy refuses a runner. -/
def LeavesNothing (rt : CoreRuntime) (targetStep : Nat) (decideSchedule : SchedulePolicy) : Prop :=
  rt.stopState = .aborted ∨ targetStep ≤ rt.currentStep ∨
    rt.GivesNothing targetStep decideSchedule rt.registry.descriptorSnapshot

theorem undone_of_same (ho : InOrder rt) (hrun : rt'.runningLeases ⊆ rt.runningLeases)
    (hregistry : rt'.registry = rt.registry) : Undone rt rt' := by
  refine ⟨fun lease hl => ?_, fun runnerId => by rw [hregistry]⟩
  obtain ⟨r, hr, -, hl⟩ := hrun hl
  have hheld : rt.tasks.board.lease lease.taskId = some lease := by
    simp [Board.lease, TaskPool.board, hr, hl]
  exact mem_of_find?_eq_some ((ho.history.held lease.taskId lease).2 hheld)

end Turns

/-! ## Samples -/

def refusal : RuntimeError := runtimeError "scheduler.refused" "scheduler" "work"

/-- Keen, except for one runner. -/
def refusingPolicy : SchedulePolicy := fun descriptor load step generation =>
  if descriptor.runnerId = "work" then .error refusal
  else keenPolicy descriptor load step generation

/-- A task that waits for the worker. -/
def submittedRuntime : CoreRuntime :=
  after [.submitTask (Task.new "t.1" "p.work" .null)] sampleRuntime

/-- The only instance of the worker is out with the first task when the second arrives. -/
def busyRuntime : CoreRuntime :=
  after [.submitTask (Task.new "t.1" "p.work" .null), .claimReadyDispatches keenPolicy none,
    .submitTask (Task.new "t.2" "p.work" .null)] sampleRuntime

end CoreRuntime

end MutsukiRuntime
