/-
  WHAT A SCHEDULING PASS KEEPS while it claims, runs kernel tasks and hands out work.

  * `processKernelTasks_moved`: the kernel ends commits and events without waking
    anyone, which is harmless while no link names such a task.
  * passes, inline ticks, and the sweeps of an abort or a reload.
-/
import MutsukiRuntime.Core.Runtime.Hops

namespace MutsukiRuntime

open Std Board TaskPool Prog List

namespace CoreRuntime

variable {s : Scope} {strict : Prop} {admin : Bool} {served : RunnerId → Prop}
  {start rt : CoreRuntime} {α : Type}

/-! ## The kernel -/

/-- Tasks leased in this pass: while one runs under its lease, it is the task that was leased. -/
def Holds (rt : CoreRuntime) (leased : List (TaskLease × Task)) : Prop :=
  ∀ e ∈ leased, ∀ r, rt.tasks.tasks[e.1.taskId]? = some r → r.lease = some e.1 → r.task = e.2

variable {leased : List (TaskLease × Task)}

theorem Holds.steady {done : TaskId → Prop} (h : Holds start leased)
    (hs : Steady s strict done start rt) : Holds rt leased := by
  intro e he v hv hlease
  have hrun : v.status = .running := (hs.good.records e.1.taskId v hv).running.2 (by simp [hlease])
  exact h e he v (hs.pool.reach.running_before hv hrun) hlease

variable {r : TaskRecord} {payload : Value} {Q : Unit → CoreRuntime → Prop}
  {E : RuntimeError → CoreRuntime → Prop} {e : TaskLease × Task} {result : RunnerResult}

theorem Orderly.not_awaited (h : Orderly strict served rt) (hstrict : strict) {taskId : TaskId}
    (hr : rt.tasks.tasks[taskId]? = some r)
    (hkernel : IsKernelProtocol r.task.protocolId) :
    ∀ parent taskAwait, rt.tasks.board.waits parent = some taskAwait →
      taskAwait.child.taskId ≠ taskId := by
  intro parent taskAwait hw hid
  obtain ⟨v, hv, hprotocol, -⟩ := h.awake hstrict parent taskAwait hw
  rw [hid] at hv
  cases hr.symm.trans hv
  rw [hprotocol] at hkernel
  exact h.plain hstrict parent taskAwait hw hkernel

/-- What follows a state after kernel work: its hops, and what its leased tasks hold. -/
structure Follows (s : Scope) (strict : Prop) (served : RunnerId → Prop)
    (start rt rt' : CoreRuntime) : Prop where
  moved : Moved s strict false served start rt'
  holds : ∀ leased, Holds rt leased → Holds rt' leased
  currentStep : rt'.currentStep = rt.currentStep

theorem complete_kernel {states : StateStore} (h : Moved s strict false served start rt)
    {lease : TaskLease} (hr : rt.tasks.tasks[lease.taskId]? = some r)
    (hactive : leaseActive r lease rt.currentStep = true)
    (hkernel : IsKernelProtocol r.task.protocolId) (heffect : KernelEffect rt r states)
    {a : CoreRuntime} (ha : Cancels strict noneTaken { rt with states } a)
    (htasks : a.tasks = rt.tasks) :
    wp (onPool (TaskPool.complete lease rt.currentStep none))
      (fun _ => Follows s strict served start rt) (fun _ _ => False) a := by
  have hself : Settled (Routes (kernelScope lease) (only lease.taskId)) a.tasks.board a.tasks :=
    settled_self ha.good
  rw [wp_onPool]
  refine wp_mono (exec_tracks hself (fun _ => trivial) trivial (.complete none)
    ⟨trivial, rfl, rfl⟩) ?_ ?_
  · rintro _ pool ⟨hp, -, v, hv⟩
    have hstored := hv.stored
    rw [htasks, hr] at hstored
    cases hstored
    have hdone : pool.completedLog = completedTasks (markTerminalRecord
        { r with output := none } .completed none) ++ rt.tasks.completedLog := by
      rw [hv.completed, htasks]
      rfl
    have hroutes : Steady (kernelScope lease) strict noneTaken { rt with states } a :=
      ha.mono ⟨fun _ hf => hf.elim, fun _ hf => hf.elim, fun _ hi => hi, fun _ hf => hf.elim,
        fun _ hf => hf.elim⟩
    have hb : Steady (kernelScope lease) strict noneTaken { rt with states }
        { a with tasks := pool } := by
      refine (hroutes.withPool hp fun _ hd => hd.elim).settle ?_
      intro hstrict parent taskAwait hw hd
      have hold := (hp.reach.waits_links hw).resolve_right fun hf => hf
      rw [htasks] at hold
      exact (h.orderly.not_awaited hstrict hr hkernel parent taskAwait hold hd).elim
    have hstart : Orderly strict served { rt with states } := { h.orderly with }
    have horderly := hstart.steady hb (fun _ _ hf => hf.elim) fun _ hf => hf.elim
    exact ⟨h.hop (.kernel rfl hr hactive heffect hb hdone) horderly,
      fun leased hl => (show Holds { rt with states } leased from hl).steady hb, hb.currentStep⟩
  · rintro e pool ⟨hcheck, -⟩
    have hok : a.tasks.ensureActiveLease lease.taskId lease rt.currentStep "complete" = .ok () :=
      ensureActiveLease_ok_iff.2 ⟨r, by rw [htasks]; exact hr, hactive⟩
    exact absurd (hcheck.symm.trans hok) nofun

theorem wp_commitDelta (herr : ∀ e, (∀ delta states, StateDelta.ofValue payload = .ok delta →
      rt.states.apply delta ≠ .ok states) → E e rt)
    (hok : ∀ delta states, StateDelta.ofValue payload = .ok delta →
      rt.states.apply delta = .ok states → wp (recordEvent .state "state.commit"
        (some delta.targetRef) ∅ none) Q E { rt with states }) :
    wp (commitDelta payload) Q E rt := by
  unfold commitDelta
  rw [wp_bind, wp_read]
  cases hdelta : StateDelta.ofValue payload with
  | error text => exact herr _ fun _ _ hdelta' => absurd (hdelta.symm.trans hdelta') nofun
  | ok delta =>
    dsimp only
    cases hstates : rt.states.apply delta with
    | error failure =>
      refine herr _ fun delta' states hdelta' => ?_
      cases hdelta.symm.trans hdelta'
      rw [hstates]
      exact nofun
    | ok states =>
      rw [wp_bind, wp_update]
      exact hok delta states hdelta hstates

theorem wp_appendEvent (herr : ∀ e, (∀ event, DomainEvent.ofValue payload ≠ .ok event) → E e rt)
    (hok : ∀ event, DomainEvent.ofValue payload = .ok event →
      wp (recordEvent .task event.kind (some event.eventId) ∅ none) Q E rt) :
    wp (appendEvent payload) Q E rt := by
  unfold appendEvent
  cases hevent : DomainEvent.ofValue payload with
  | error text => exact herr _ fun _ hevent' => absurd (hevent.symm.trans hevent') nofun
  | ok event => exact hok event hevent

theorem processKernelTask_follows (h : Moved s strict false served start rt)
    (hholds : Holds rt leased) (he : e ∈ leased)
    (hid : e.2.taskId = e.1.taskId) (completed : Nat) :
    wp (processKernelTask completed e) (fun _ => Follows s strict served start rt)
      (fun _ rt' => rt' = rt) rt := by
  obtain ⟨lease, task⟩ := e
  unfold processKernelTask
  rw [wp_bind, wp_read, wp_bind]
  cases hlease : rt.tasks.ensureActiveLease task.taskId lease rt.currentStep "kernel" with
  | error failure => exact rfl
  | ok _ =>
    obtain ⟨r, hr, hactive⟩ := ensureActiveLease_ok_iff.1 hlease
    rw [hid] at hr
    have htask : r.task = task := hholds (lease, task) he r hr (leaseActive_iff.1 hactive).2.2.1
    have hself : Cancels strict noneTaken rt rt := steady_self h.orderly.good h.orderly.awake
    rw [wp_lift_ok, wp_ite]
    constructor
    · intro hcommit
      rw [← htask] at hcommit ⊢
      rw [wp_bind]
      refine wp_commitDelta (fun _ _ => rfl) fun delta states hdelta hstates => ?_
      have hstart : Cancels strict noneTaken { rt with states } { rt with states } :=
        steady_self h.orderly.good h.orderly.awake
      show wp (do
        onPool (TaskPool.complete lease rt.currentStep none)
        pure (completed + 1)) _ _ _
      rw [wp_bind]
      exact wp_total (complete_kernel h hr hactive (.inl hcommit)
        (.inl ⟨hcommit, delta, hdelta, hstates⟩) { hstart with } rfl) (fun _ _ hf => hf)
    · intro hcommit
      rw [wp_ite]
      constructor
      · intro happend
        rw [← htask] at hcommit happend ⊢
        rw [wp_bind]
        refine wp_appendEvent (fun _ _ => rfl) fun event _ => ?_
        show wp (do
          onPool (TaskPool.complete lease rt.currentStep none)
          pure (completed + 1)) _ _ _
        rw [wp_bind]
        exact wp_total (complete_kernel h hr hactive (.inr happend)
          (.inr ⟨hcommit, rfl⟩) { hself with } rfl) (fun _ _ hf => hf)
      · intro _
        have hop : Settled (Routes cancelScope (only task.taskId)) rt.tasks.board rt.tasks :=
          settled_self h.orderly.good
        rw [wp_bind]
        exact wp_mono (finishTask_steady hself (leased_settles hop (fun _ => trivial) trivial
          (.fail _) ⟨trivial, hid.symm⟩) _ _)
          (fun _ _ h' => ⟨h.cancels h'.2, fun _ hl => hl.steady h'.2, h'.2.currentStep⟩)
          (fun _ _ he => he)

theorem processKernelTasks_moved (h : Moved s strict false served start rt)
    (hholds : Holds rt leased) (hids : ∀ e ∈ leased, e.2.taskId = e.1.taskId) :
    wp (processKernelTasks leased)
      (fun _ rt' => Moved s strict false served start rt' ∧ rt'.currentStep = rt.currentStep)
      (fun _ => Moved s strict false served start) rt := by
  refine wp_mono (wp_foldEach (fun rest _ rt' => Moved s strict false served start rt' ∧
    Holds rt' rest ∧ (∀ e ∈ rest, e.2.taskId = e.1.taskId) ∧ rt'.currentStep = rt.currentStep)
    ⟨h, hholds, hids, rfl⟩ ?_) (fun _ _ h' => ⟨h'.1, h'.2.2.2⟩) (fun _ _ h' => h')
  intro e rest completed rt' ⟨h', hh', hid', hstep⟩
  refine wp_mono (processKernelTask_follows h' hh' (by simp) (hid' e (by simp)) completed) ?_ ?_
  · intro _ rt'' hf
    exact ⟨hf.moved, hf.holds rest fun e he => hh' e (mem_cons_of_mem _ he),
      fun e he => hid' e (mem_cons_of_mem _ he), hf.currentStep.trans hstep⟩
  · rintro _ _ rfl
    exact h'

/-! ## Claims -/

/-- The leased tasks of a claim run under their leases. -/
structure Claimed (descriptor : RunnerDescriptor) (rt : CoreRuntime)
    (leased : List (TaskLease × Task)) : Prop where
  running : ∀ e ∈ leased, ∃ r, rt.tasks.tasks[e.1.taskId]? = some r ∧ r.status = .running ∧
    r.lease = some e.1 ∧ r.task = e.2
  runner : ∀ e ∈ leased, e.1.runnerId = descriptor.runnerId

variable {descriptor : RunnerDescriptor}

theorem Claimed.holds (h : Claimed descriptor rt leased) : Holds rt leased := by
  intro e he v hv _
  obtain ⟨r, hr, -, -, htask⟩ := h.running e he
  cases hr.symm.trans hv
  exact htask

theorem Claimed.taskId (h : Claimed descriptor rt leased) (hgood : Good rt.tasks)
    (he : e ∈ leased) : e.2.taskId = e.1.taskId := by
  obtain ⟨r, hr, -, -, htask⟩ := h.running e he
  rw [← htask]
  exact hgood.keyed e.1.taskId r hr

theorem claimSelected_moved (h : Moved s strict false served start rt)
    (hmem : descriptor ∈ rt.registry.descriptorSnapshot) (hserved : ¬ served descriptor.runnerId)
    (executorId : ExecutorId) (limit : Nat) (budget : Option DispatchBudget)
    (expiresAtStep : Option Nat) :
    wp (onPool (TaskPool.claimSelected true descriptor executorId
        rt.currentStep rt.loadPlan.registryGeneration limit budget expiresAtStep))
      (fun leased rt' => Claimed descriptor rt' leased ∧
        Moved s strict false (servedAlso served descriptor) start rt' ∧
        rt'.currentStep = rt.currentStep)
      (fun _ _ => False) rt := by
  have ho := h.orderly
  have haccepted := ho.snapshot.accepted descriptor hmem
  rw [wp_onPool]
  have hself : Settled (ClaimBy descriptor.runnerId rt.currentStep) rt.tasks.board rt.tasks :=
    settled_self ho.good
  have hclaims : wp (TaskPool.claimSelected true descriptor executorId
        rt.currentStep rt.loadPlan.registryGeneration limit budget expiresAtStep)
      (fun _ => Settled (ClaimBy descriptor.runnerId rt.currentStep) rt.tasks.board)
      (fun _ _ => False) rt.tasks :=
    claimSelected_tracks hself
      (fun id lease hr hs => ⟨id, lease, rfl, hr, hs⟩) (.inl haccepted)
  refine wp_mono (wp_and hclaims (claimSelected_leased ho.good haccepted)) ?_ (fun _ _ hf => hf.1)
  intro leased pool ⟨hp, _, hleases⟩
  have hnone : ∀ lease, LeaseEvent.issued lease ∈ rt.tasks.board.log →
      ¬ (lease.runnerId = descriptor.runnerId ∧ lease.acquiredAtStep = rt.currentStep) := by
    rintro lease hl ⟨hr, hs⟩
    rcases ho.issued lease hl with hlt | ⟨-, hsv⟩
    · omega
    · exact hserved (hr ▸ hsv)
  obtain ⟨hhistory, hissued⟩ := ho.history.claims hnone hp.reach
  refine ⟨⟨?_, ?_⟩, h.hop (.claim rfl descriptor hmem hp hleases) ?_, rfl⟩
  · intro e he
    obtain ⟨r, -, -, -, -, htask, hr⟩ := hleases.taken e he
    exact ⟨_, hr, rfl, rfl, htask.symm⟩
  · intro e he
    obtain ⟨-, -, -, hrunner, -⟩ := hleases.taken e he
    exact hrunner
  · refine ⟨hp.wf, hhistory, ?_, ho.snapshot, ?_, ?_, ?_⟩
    · intro lease hl
      rcases hissued lease hl with hold | ⟨hr, hs⟩
      · exact (ho.issued lease hold).imp_right fun ⟨hs, hsv⟩ => ⟨hs, .inl hsv⟩
      · exact .inr ⟨hs, .inr hr⟩
    · intro hstrict
      refine (ho.awake hstrict).reach hp.reach ?_ ?_
      · intro id c hends ⟨_, lease, he, _⟩
        cases he
        cases hends
      · intro c _ ⟨id, lease, he, _⟩
        cases he
    · intro hstrict parent taskAwait hw
      rw [hp.reach.claims_waits] at hw
      exact ho.plain hstrict parent taskAwait hw
    · intro haborted id hl
      exact ho.stopped haborted id (hp.reach.claims_live hl)

/-- The claim panics, before it changes anything, if it has no room for its selection. -/
theorem wlp_claimReady {T : String → Prop} {executorId : ExecutorId} {limit : Nat}
    {budget : Option DispatchBudget} {expiresAtStep : Option Nat} {step registryGeneration : Nat}
    {Q : List (TaskLease × Task) → CoreRuntime → Prop}
    (hselected : wp (onPool (TaskPool.claimSelected true descriptor executorId step
      registryGeneration limit budget expiresAtStep)) Q (fun _ _ => False) rt)
    (hroom : ¬ Reservable limit budget → T capacityOverflow ∧ ∀ e, E e rt) :
    wlp T (onPool (TaskPool.claimReadyForExecutorWithBudget true descriptor executorId step
      registryGeneration limit budget expiresAtStep)) Q E rt := by
  by_cases h : Reservable limit budget
  · rw [claimReadyForExecutorWithBudget, if_pos h]
    exact wlp_of_wp (wp_total hselected fun _ _ hq => hq)
  · unfold wlp onPool
    rw [run_zoom, claimReady_run_of_not h]
    exact hroom h

/-- A runner whose batches may hold more task ids than a `Vec` can. -/
def WideBatches (descriptor : RunnerDescriptor) : Prop :=
  isizeMax < 24 * (descriptor.batch.maxBatchEntries * descriptor.concurrency.maxInflightBatches)

theorem clampBatches_dispatchLimit_le (decision : ScheduleDecision) (batches : Nat) :
    (decision.clampBatches batches).dispatchLimit ≤ decision.dispatchLimit := by
  show (if _ = 0 then 0 else decision.dispatchLimit) ≤ _
  split
  · exact Nat.zero_le _
  · exact Nat.le_refl _

theorem wideBatches_of_not {decision : ScheduleDecision}
    (h : ¬ Reservable (clampDecision descriptor decision).dispatchLimit
      (some (clampDecision descriptor decision).budget)) : WideBatches descriptor := by
  by_contra hnarrow
  refine h (.inr ?_)
  have hlimit : (clampDecision descriptor decision).dispatchLimit ≤
      descriptor.batch.maxBatchEntries * descriptor.concurrency.maxInflightBatches := by
    calc _ ≤ min decision.dispatchLimit (min (descriptor.batch.maxBatchEntries *
          min decision.budget.maxBatches descriptor.concurrency.maxInflightBatches) usizeMax) :=
          clampBatches_dispatchLimit_le _ _
      _ ≤ descriptor.batch.maxBatchEntries *
          min decision.budget.maxBatches descriptor.concurrency.maxInflightBatches := by omega
      _ ≤ _ := Nat.mul_le_mul_left _ (Nat.min_le_right _ _)
  have hselected : maxSelected (clampDecision descriptor decision).dispatchLimit
      (some (clampDecision descriptor decision).budget) ≤
        (clampDecision descriptor decision).dispatchLimit := Nat.min_le_left _ _
  unfold WideBatches at hnarrow
  omega

/-! ## Handing out -/

/-- What a runner is handed: leases of its own, and none to the kernel. -/
def HandedBy (descriptor : RunnerDescriptor) (dispatches : List RunnerDispatch) : Prop :=
  ∀ dispatch ∈ dispatches, isKernelRunner descriptor = false ∧
    ∀ lease ∈ dispatch.taskLeases, lease.runnerId = descriptor.runnerId

theorem handedBy_nil (descriptor : RunnerDescriptor) : HandedBy descriptor [] :=
  fun _ hd => (not_mem_nil hd).elim

variable {dispatches : List RunnerDispatch}

theorem Cut.handedBy (h : Cut leased dispatches) (hkernel : isKernelRunner descriptor = false)
    (hrunner : ∀ e ∈ leased, e.1.runnerId = descriptor.runnerId) :
    HandedBy descriptor dispatches := by
  intro dispatch hd
  obtain ⟨batch, hbatch, hbuilds⟩ := h dispatch hd
  refine ⟨hkernel, fun lease hl => ?_⟩
  rw [hbuilds.taskLeases] at hl
  obtain ⟨e, he, rfl⟩ := mem_map.1 hl
  exact hrunner e (hbatch e he)

/-- The leased tasks of a runner go to the kernel, or into dispatches. -/
theorem handleLeased_moved (h : Moved s strict false served start rt)
    (descriptor : RunnerDescriptor) (executorId : ExecutorId) (maxBatches : Nat)
    (hclaimed : Claimed descriptor rt leased) :
    wp (handleLeased descriptor executorId maxBatches leased)
      (fun result rt' => HandedBy descriptor result.2 ∧ Moved s strict false served start rt' ∧
        rt'.currentStep = rt.currentStep)
      (fun _ => Moved s strict false served start) rt := by
  unfold handleLeased
  rw [wp_ite]
  constructor
  · exact fun _ => ⟨handedBy_nil descriptor, h, rfl⟩
  · intro hne
    rw [wp_ite]
    constructor
    · intro _
      rw [wp_bind]
      exact wp_mono (processKernelTasks_moved h hclaimed.holds fun e he =>
        hclaimed.taskId h.orderly.good he) (fun _ _ h' => ⟨handedBy_nil descriptor, h'⟩)
        (fun _ _ h' => h')
    · intro hkernel
      have hnil : leased ≠ [] := fun he => hne (by simp [he])
      have hrestart : Routed s strict rt rt := h.orderly.restart
      refine wp_mono (dispatchLeased_cuts hrestart descriptor executorId maxBatches hnil
        fun _ _ => trivial) ?_ (fun _ _ hs => h.routed hs)
      rintro result rt' ⟨hcut, hs⟩
      exact ⟨hcut.handedBy (by simpa using hkernel) hclaimed.runner, h.routed hs, hs.currentStep⟩

/-- The panic of a claim, and the runners it needs. -/
abbrev ClaimPanics (descriptor : RunnerDescriptor) (site : String) : Prop :=
  site = capacityOverflow ∧ WideBatches descriptor

theorem claimRunnerWork_moved (h : Moved s strict false served start rt)
    (hmem : descriptor ∈ rt.registry.descriptorSnapshot) (hserved : ¬ served descriptor.runnerId)
    (decision : ScheduleDecision) (leaseExpiresAt : Option Nat) :
    wlp (ClaimPanics descriptor) (claimRunnerWork descriptor decision leaseExpiresAt)
      (fun result rt' => HandedBy descriptor result.2 ∧
        Moved s strict false (servedAlso served descriptor) start rt' ∧
        rt'.currentStep = rt.currentStep)
      (fun _ => Moved s strict false (servedAlso served descriptor) start)
      rt := by
  have hidle : ∀ {rt' : CoreRuntime}, Moved s strict false served start rt' →
      Moved s strict false (servedAlso served descriptor) start rt' :=
    fun h' => h'.serve fun _ => Or.inl
  have hrestart : Routed s strict rt rt := h.orderly.restart
  unfold claimRunnerWork
  rw [wlp_bind]
  refine wlp_of_wp (wp_mono (keeps_withSchedulerDecision descriptor _ rt hrestart) ?_
    (fun _ _ hs => hidle (h.routed hs)))
  intro _ rt' hs
  have h' := h.routed hs
  rw [← hs.snapshot] at hmem
  by_cases hopen : (clampDecision descriptor decision).dispatchLimit = 0
  · rw [if_pos hopen]
    exact ⟨handedBy_nil descriptor, hidle h', hs.currentStep⟩
  · rw [if_neg hopen, wlp_bind]
    show wlp _ (onPool _ >>= _) _ _ rt'
    rw [wlp_bind]
    refine wlp_mono (wlp_claimReady (claimSelected_moved h' hmem hserved _ _ _ _)
      fun hroom => ⟨⟨rfl, wideBatches_of_not hroom⟩, fun _ => hidle h'⟩) (fun _ ht => ht) ?_
      (fun _ _ he => he)
    intro leased rt'' ⟨hclaimed, h'', hstep⟩
    refine wlp_of_wp (wp_mono (handleLeased_moved h'' descriptor _ _ hclaimed) ?_
      fun _ _ he => he)
    exact fun _ _ hq => ⟨hq.1, hq.2.1, hq.2.2.trans (hstep.trans hs.currentStep)⟩

/-! ## Passes -/

/-- The step of a pass is a later one, so nobody has been served yet. -/
theorem beginPass_moved (h : Moved s strict false served start rt) {targetStep : Nat}
    (hlater : rt.currentStep < targetStep) :
    wp (beginPass targetStep)
      (fun _ rt' => Moved s strict false (fun _ => False) start rt' ∧ rt'.currentStep = targetStep)
      (fun _ => Moved s strict false (fun _ => False) start) rt := by
  have hnext : Orderly strict (fun _ => False) { rt with currentStep := targetStep } :=
    { h.orderly with
      issued := fun lease hl => by
        left
        show lease.acquiredAtStep < targetStep
        rcases h.orderly.issued lease hl with hlt | ⟨he, -⟩ <;> omega }
  have hbegun := h.hop (.later rfl targetStep hlater) hnext
  have hrestart : Routed s strict { rt with currentStep := targetStep } _ := hnext.restart
  have hkeeps : Keeps (Routed s strict { rt with currentStep := targetStep }) (do
      reclaimExpiredTaskLeases
      let _ ← wakeDueTasks
      rejectStaleReadyTasks) :=
    .bind (.of_total fun _ h => reclaimExpiredTaskLeases_steady h fun _ _ _ _ _ _ => trivial)
      fun _ => .bind (.of_total fun _ h => wakeDueTasks_steady h) fun _ =>
        keeps_rejectStaleReadyTasks
  unfold beginPass
  rw [wp_bind, wp_update]
  exact wp_mono (hkeeps _ hrestart) (fun _ _ hs => ⟨hbegun.routed hs, hs.currentStep⟩)
    (fun _ _ hs => hbegun.routed hs)

/-- A pass with `rest` still to come: these runners are registered and have not been served. -/
structure Turning (s : Scope) (strict : Prop) (start : CoreRuntime)
    (rest : List RunnerDescriptor) (rt : CoreRuntime) : Prop where
  nodup : (rest.map (·.runnerId)).Nodup
  listed : ∀ d ∈ rest, d ∈ rt.registry.descriptorSnapshot
  moved : Moved s strict false (fun id => id ∉ rest.map (·.runnerId)) start rt

theorem turning_all (h : Moved s strict false (fun _ => False) start rt) :
    Turning s strict start rt.registry.descriptorSnapshot rt :=
  ⟨h.orderly.snapshot.nodup, fun _ hd => hd, h.serve fun _ hf => hf.elim⟩

theorem Turning.next {rest : List RunnerDescriptor} {rt' : CoreRuntime}
    (h : Turning s strict start (descriptor :: rest) rt)
    (h' : Moved s strict false (fun id => id ∉ (descriptor :: rest).map (·.runnerId) ∨
      id = descriptor.runnerId) start rt') : Turning s strict start rest rt' := by
  have hnodup := nodup_cons.1 h.nodup
  have hsnapshot : rt'.registry.descriptorSnapshot = rt.registry.descriptorSnapshot :=
    h'.hops.sameSetup.snapshot.trans h.moved.hops.sameSetup.snapshot.symm
  refine ⟨hnodup.2, fun d hd => ?_, h'.serve fun id hid => ?_⟩
  · rw [hsnapshot]
    exact h.listed d (by simp [hd])
  · rcases hid with hid | hid
    · exact fun hmem => hid (mem_cons_of_mem _ hmem)
    · rw [hid]
      exact hnodup.1

/-- A pass over distinct runners; those still to come have not been served. -/
theorem foldRunners_moved {β : Type} {f : β → RunnerDescriptor → CoreM β} {T : String → Prop}
    {J : β → CoreRuntime → Prop} {acc : β} (hacc : J acc rt)
    (hf : ∀ acc descriptor rt served, J acc rt → Moved s strict false served start rt →
      descriptor ∈ rt.registry.descriptorSnapshot → ¬ served descriptor.runnerId →
      wlp T (f acc descriptor) (fun acc' rt' => J acc' rt' ∧
          Moved s strict false (servedAlso served descriptor) start rt')
        (fun _ => Moved s strict false (servedAlso served descriptor) start) rt)
    (h : Moved s strict false (fun _ => False) start rt) :
    wlp T (Prog.foldEach rt.registry.descriptorSnapshot acc f)
      (fun acc' rt' => J acc' rt' ∧ Moved s strict false (fun _ => True) start rt')
      (fun _ => Moved s strict false (fun _ => True) start) rt := by
  refine wlp_mono (wlp_foldEach (fun rest acc rt' => J acc rt' ∧
    Turning s strict start rest rt') ⟨hacc, turning_all h⟩ ?_) (fun _ ht => ht)
    (fun _ _ h' => ⟨h'.1, h'.2.moved.serve fun _ _ => trivial⟩) (fun _ _ h' => h')
  intro descriptor rest acc rt' ⟨hJ, h'⟩
  exact wlp_mono (hf acc descriptor rt' _ hJ h'.moved (h'.listed descriptor (by simp)) (by simp))
    (fun _ ht => ht) (fun _ _ h'' => ⟨h''.1, h'.next h''.2⟩)
    (fun _ _ h'' => h''.serve fun _ _ => trivial)

/-- Leases of runners of the start, but not of its kernel. -/
def HandedOut (start : CoreRuntime) (dispatches : List RunnerDispatch) : Prop :=
  ∀ dispatch ∈ dispatches, ∃ descriptor ∈ start.registry.descriptorSnapshot,
    isKernelRunner descriptor = false ∧
      ∀ lease ∈ dispatch.taskLeases, lease.runnerId = descriptor.runnerId

theorem HandedOut.append {dispatches' : List RunnerDispatch} (h : HandedOut start dispatches)
    (hmem : descriptor ∈ start.registry.descriptorSnapshot) (h' : HandedBy descriptor dispatches') :
    HandedOut start (dispatches ++ dispatches') :=
  forall_mem_append.2 ⟨h, fun dispatch hd => ⟨descriptor, hmem, h' dispatch hd⟩⟩

theorem scheduleRunner_moved (decideSchedule : SchedulePolicy) (leaseExpiresAt : Option Nat)
    {acc : RunnerLoopReport × List RunnerDispatch} (hacc : HandedOut start acc.2)
    (h : Moved s strict false served start rt) (hmem : descriptor ∈ rt.registry.descriptorSnapshot)
    (hserved : ¬ served descriptor.runnerId) :
    wlp (ClaimPanics descriptor) (scheduleRunner decideSchedule leaseExpiresAt acc descriptor)
      (fun acc' rt' => HandedOut start acc'.2 ∧
        Moved s strict false (servedAlso served descriptor) start rt')
      (fun _ => Moved s strict false (servedAlso served descriptor) start)
      rt := by
  have hidle := h.serve fun id (hid : served id) => (.inl hid : servedAlso served descriptor id)
  unfold scheduleRunner
  split
  · exact ⟨hacc, hidle⟩
  · rw [wlp_bind, wlp_read, wlp_bind]
    refine wlp_lift (fun decision _ => ?_) (fun _ => hidle)
    rw [wlp_bind]
    refine wlp_mono (claimRunnerWork_moved h hmem hserved decision leaseExpiresAt)
      (fun _ ht => ht) ?_ (fun _ _ h' => h')
    rintro result rt' ⟨hhanded, h', -⟩
    rw [h.hops.sameSetup.snapshot] at hmem
    exact ⟨hacc.append hmem hhanded, h'⟩

/-- The panic of a pass, and the runners it needs. -/
def PassPanics (rt : CoreRuntime) (site : String) : Prop :=
  ∃ descriptor ∈ rt.registry.descriptorSnapshot, ClaimPanics descriptor site

theorem ClaimPanics.pass {site : String} (h : ClaimPanics descriptor site)
    (hmem : descriptor ∈ rt.registry.descriptorSnapshot)
    (hmoved : Moved s strict false served start rt) : PassPanics start site :=
  ⟨descriptor, hmoved.hops.sameSetup.snapshot ▸ hmem, h⟩

theorem claimReadyDispatchesAtStep_moved (h : Moved s strict false (fun _ => True) start rt)
    (targetStep : Nat) (decideSchedule : SchedulePolicy) (leaseExpiresAt : Option Nat) :
    wlp (PassPanics start) (claimReadyDispatchesAtStep targetStep decideSchedule leaseExpiresAt)
      (fun result rt' => HandedOut start result.2 ∧ Moved s strict false (fun _ => True) start rt')
      (fun _ => Moved s strict false (fun _ => True) start) rt := by
  unfold claimReadyDispatchesAtStep
  rw [wlp_bind, wlp_read, wlp_bind]
  refine wlp_lift (fun _ _ => ?_) (fun _ => h)
  by_cases hearly : targetStep ≤ rt.currentStep
  · rw [if_pos hearly]
    exact h
  · rw [if_neg hearly, wlp_bind]
    refine wlp_of_wp (wp_mono (beginPass_moved h (by omega)) ?_
      (fun _ _ h' => h'.serve fun _ hf => hf.elim))
    rintro completed rt' ⟨h', -⟩
    have hnone : HandedOut start [] := fun _ hd => (not_mem_nil hd).elim
    rw [wlp_bind, wlp_read]
    exact foldRunners_moved (J := fun (acc : RunnerLoopReport × List RunnerDispatch) _ =>
      HandedOut start acc.2) hnone (fun acc descriptor rt served hacc hr hm hs =>
        wlp_mono (scheduleRunner_moved decideSchedule leaseExpiresAt hacc hr hm hs)
          (fun _ ht => ht.pass hm hr) (fun _ _ hq => hq) (fun _ _ he => he)) h'

theorem claimReadyDispatches_moved (h : Moved s strict false (fun _ => True) start rt)
    (decideSchedule : SchedulePolicy) (leaseExpiresAt : Option Nat) :
    wlp (PassPanics start) (claimReadyDispatches decideSchedule leaseExpiresAt)
      (fun result rt' => HandedOut start result.2 ∧ Moved s strict false (fun _ => True) start rt')
      (fun _ => Moved s strict false (fun _ => True) start) rt := by
  unfold claimReadyDispatches
  rw [wlp_bind, wlp_read]
  exact claimReadyDispatchesAtStep_moved h _ decideSchedule leaseExpiresAt

/-! ## Inline ticks -/

/-- Runners whose results await no kernel task. -/
def PlainCalls (calls : RunnerCalls) : Prop :=
  ∀ runner ctx batch result, calls.runBatch runner ctx batch = .ok result →
    LinksOf PlainLink result.results

/-- Runners whose results stay within a scope. -/
def CallsWithin (s : Scope) (start : CoreRuntime) (calls : RunnerCalls) : Prop :=
  ∀ runner ctx batch result, calls.runBatch runner ctx batch = .ok result →
    ∀ descriptor ∈ start.registry.descriptorSnapshot,
      runner.descriptor.runnerId = descriptor.runnerId →
      AdmitsAll s start descriptor result.results

/-- The attempts of the runners of a state may be completed, except those of its kernel. -/
def FreesRunners (s : Scope) (start : CoreRuntime) : Prop :=
  ∀ descriptor ∈ start.registry.descriptorSnapshot, isKernelRunner descriptor = false →
    ∀ lease : TaskLease, lease.runnerId = descriptor.runnerId → s.completes lease

theorem Admits.of_sameSetup (h : Admits s start descriptor result) (hsetup : SameSetup start rt) :
    Admits s rt descriptor result := by
  have houtputs : rt.outputsOf descriptor result = start.outputsOf descriptor result := by
    unfold outputsOf
    rw [hsetup.loadPlan]
  have hbind : ∀ task, rt.bindGeneration task = start.bindGeneration task := by
    intro task
    unfold bindGeneration
    rw [hsetup.loadPlan]
  refine ⟨h.links, fun task hmem hopen createdSequence => ?_, fun he task hmem => ?_⟩
  · rw [houtputs] at hmem
    rw [hsetup.stopState] at hopen
    rw [hbind]
    exact h.new task hmem hopen createdSequence
  · rw [houtputs] at hmem
    exact h.effects he task hmem

/-- The scope of a run has what its scope has, if its links are plain. -/
theorem Admits.inRun (h : Admits s rt descriptor result)
    (hplain : strict → ∀ taskAwait, result.taskAwait = some taskAwait → PlainLink taskAwait) :
    Admits (inRun s strict rt) rt descriptor result :=
  ⟨fun taskAwait ha => ⟨h.links taskAwait ha, fun hs => hplain hs taskAwait ha⟩,
    fun task hmem hopen createdSequence => ⟨hopen, h.new task hmem hopen createdSequence⟩,
    h.effects⟩

theorem AdmitsAll.inRun {completions : List EntryCompletion}
    (h : AdmitsAll s start descriptor completions) (hsetup : SameSetup start rt)
    (hplain : strict → LinksOf PlainLink completions) :
    AdmitsAll (inRun s strict rt) rt descriptor completions :=
  fun completion hmem result hresult =>
    ((h completion hmem result hresult).of_sameSetup hsetup).inRun fun hs taskAwait ha =>
      hplain hs completion hmem result taskAwait hresult ha

variable {calls : RunnerCalls}

theorem completes_execute (hsetup : SameSetup start rt) (hplain : strict → PlainCalls calls)
    (hwithin : CallsWithin s start calls) (hfrees : FreesRunners s start)
    (hmem : descriptor ∈ start.registry.descriptorSnapshot)
    (hhanded : HandedBy descriptor dispatches) {dispatch : RunnerDispatch}
    (hd : dispatch ∈ dispatches) :
    Completes (inRun s strict rt) rt (calls.execute dispatch) := by
  obtain ⟨hkernel, hleases⟩ := hhanded dispatch hd
  have hends : ∀ lease ∈ dispatch.taskLeases, (inRun s strict rt).Ends lease := fun lease hl =>
    ⟨trivial, hfrees descriptor hmem hkernel lease (hleases lease hl)⟩
  unfold RunnerCalls.execute
  cases dispatch.target with
  | sync runner =>
    refine ⟨hends, fun d hdmem hid batch hbatch => ?_⟩
    rw [hsetup.snapshot] at hdmem
    exact (hwithin runner _ _ batch hbatch d hdmem (Option.some.inj hid)).inRun hsetup
      fun hs => hplain hs runner _ _ batch hbatch
  | async handler => exact ⟨hends, fun d _ _ batch hbatch => nomatch hbatch⟩

/-- The panics of ticks, and what they need: a runner with wide batches, or steps up to `lastStep`
    that are no `u64`. -/
def TickPanics (rt : CoreRuntime) (lastStep : Nat) (site : String) : Prop :=
  PassPanics rt site ∨ (site = addOverflow ∧ u64Max < lastStep + taskLeaseTtlSteps)

theorem wlp_addSteps {T : String → Prop} {step count : Nat} {Q : Nat → CoreRuntime → Prop}
    (hsum : Q (step + count) rt) (hpanic : u64Max < step + count → T addOverflow ∧ ∀ e, E e rt) :
    wlp T (addSteps step count) Q E rt := by
  unfold addSteps
  split
  · exact hsum
  · exact hpanic (by omega)

theorem tickRunner_moved (hplain : strict → PlainCalls calls) (hwithin : CallsWithin s start calls)
    (hfrees : FreesRunners s start) (acc : RunnerLoopReport)
    (h : Moved s strict false served start rt) (hmem : descriptor ∈ rt.registry.descriptorSnapshot)
    (hserved : ¬ served descriptor.runnerId) :
    wlp (TickPanics start rt.currentStep) (tickRunner calls acc descriptor)
      (fun _ rt' => rt'.currentStep = rt.currentStep ∧
        Moved s strict false (servedAlso served descriptor) start rt')
      (fun _ => Moved s strict false (servedAlso served descriptor) start)
      rt := by
  have hidle := h.serve fun id (hid : served id) => (.inl hid : servedAlso served descriptor id)
  unfold tickRunner
  split
  · exact ⟨rfl, hidle⟩
  · rw [wlp_bind, wlp_read, wlp_bind]
    refine wlp_addSteps ?_ fun hlast => ⟨.inr ⟨rfl, hlast⟩, fun _ => hidle⟩
    generalize inlineDecision _ = decision
    rw [wlp_bind]
    refine wlp_mono (claimRunnerWork_moved h hmem hserved decision _)
      (fun _ ht => .inl (ht.pass hmem h)) ?_ (fun _ _ h' => h')
    rintro ⟨report, dispatches⟩ rt' ⟨hhanded, h', hstep⟩
    rw [h.hops.sameSetup.snapshot] at hmem
    refine wlp_of_wp (wp_mono ((?_ : Keeps (fun rt'' => rt''.currentStep = rt.currentStep ∧
      Moved s strict false (servedAlso served descriptor) start rt'') _) rt' ⟨hstep, h'⟩)
      (fun _ _ hk => hk) (fun _ _ hk => hk.2))
    refine .foldEach fun acc dispatch hd => .bind (fun rt'' h'' => ?_) fun _ => .pure _
    have hcompletes : Completes (inRun s strict rt'') rt'' (calls.execute dispatch) :=
      completes_execute h''.2.hops.sameSetup hplain hwithin hfrees hmem hhanded hd
    have hrestart : Routed s strict rt'' rt'' := h''.2.orderly.restart
    exact wp_mono (keeps_completeRunnerDispatch hcompletes rt'' hrestart)
      (fun _ _ hs => ⟨hs.currentStep.trans h''.1, h''.2.routed hs⟩)
      (fun _ _ hs => ⟨hs.currentStep.trans h''.1, h''.2.routed hs⟩)

theorem tickOnce_moved (hplain : strict → PlainCalls calls) (hwithin : CallsWithin s start calls)
    (hfrees : FreesRunners s start) (h : Moved s strict false (fun _ => True) start rt) :
    wlp (TickPanics start (rt.currentStep + 1)) (tickOnce calls)
      (fun _ rt' => rt'.currentStep = rt.currentStep + 1 ∧
        Moved s strict false (fun _ => True) start rt')
      (fun _ => Moved s strict false (fun _ => True) start) rt := by
  unfold tickOnce
  rw [wlp_bind, wlp_read, wlp_bind]
  refine wlp_lift (fun _ _ => ?_) (fun _ => h)
  rw [wlp_bind]
  refine wlp_addSteps ?_ fun hlast => ⟨.inr ⟨rfl, by omega⟩, fun _ => h⟩
  rw [wlp_bind]
  refine wlp_of_wp (wp_mono (beginPass_moved h (Nat.lt_succ_self _)) ?_
    (fun _ _ h' => h'.serve fun _ hf => hf.elim))
  rintro completed rt' ⟨h', hstep⟩
  rw [wlp_bind, wlp_read]
  refine foldRunners_moved (J := fun _ rt'' => rt''.currentStep = rt.currentStep + 1) hstep
    (fun acc descriptor rt'' served hstep hr hm hs => ?_) h'
  have hturn := tickRunner_moved hplain hwithin hfrees acc hr hm hs
  rw [hstep] at hturn
  exact hturn

theorem runUntilIdle_moved {calls : Nat → RunnerCalls}
    (hplain : strict → ∀ n, PlainCalls (calls n)) (hwithin : ∀ n, CallsWithin s start (calls n))
    (hfrees : FreesRunners s start) (maxTicks : Nat) (aggregate : RunnerLoopReport)
    (h : Moved s strict false (fun _ => True) start rt) :
    wlp (TickPanics start (rt.currentStep + maxTicks)) (runUntilIdle calls maxTicks aggregate)
      (fun _ => Moved s strict false (fun _ => True) start)
      (fun _ => Moved s strict false (fun _ => True) start) rt := by
  induction maxTicks generalizing aggregate rt with
  | zero => exact h
  | succ maxTicks ih =>
    rw [runUntilIdle, wlp_bind]
    refine wlp_mono (tickOnce_moved (fun hs => hplain hs maxTicks) (hwithin maxTicks) hfrees h)
      (fun site ht => ht.imp_right fun hlast => ⟨hlast.1, by omega⟩) ?_ (fun _ _ he => he)
    rintro report rt' ⟨hstep, h'⟩
    dsimp only
    split
    · exact h'
    · have hrest := ih { claimedTasks := aggregate.claimedTasks + report.claimedTasks
                         completedTasks := aggregate.completedTasks + report.completedTasks } h'
      rw [hstep, Nat.add_assoc, Nat.add_comm 1] at hrest
      exact hrest

/-! ## Sweeps -/

/-- The plan of a reload, with the ready tasks bound to it; statuses and links are as before. -/
theorem applyLoadPlan_moved (h : Moved s strict true served start rt) (newPlan : RuntimeLoadPlan) :
    wp (applyLoadPlan newPlan) (fun _ => Moved s strict true served start)
      (fun _ _ => False) rt := by
  have ho := h.orderly
  have hself : Settled (fun m => m = .sweep .rebind) rt.tasks.board rt.tasks := settled_self ho.good
  unfold applyLoadPlan
  rw [wp_bind, wp_read, wp_bind, wp_onPool]
  refine wp_total (rebindReadyGeneration_tracks hself rfl _ _) ?_
  intro _ pool ⟨hp, hmap⟩
  have hclaim : ∀ id lease, ¬ Move.change id (.claim lease) = .sweep .rebind := by simp
  have htake : ∀ id lease, ¬ Move.change id (.takeOver lease) = .sweep .rebind := by simp
  refine h.hop (.plan rfl newPlan ⟨hp, hmap⟩) ⟨hp.wf, ho.history.reach hp.reach hclaim htake, ?_,
    ho.snapshot, ?_, ?_, ?_⟩
  · exact fun lease hl => ho.issued lease (hp.reach.issued hclaim htake hl)
  · intro hstrict
    refine (ho.awake hstrict).reach hp.reach (by simp) ?_
    intro c hends hm
    cases hm
    cases hends
  · intro hstrict
    refine hp.reach.invariant (I := fun b => ∀ parent taskAwait,
      b.waits parent = some taskAwait → PlainLink taskAwait) ?_ (ho.plain hstrict)
    rintro _ b b' rfl hs hb parent taskAwait hw
    rcases hs.waits hw with hold | ⟨he, -⟩
    · exact hb parent taskAwait hold
    · cases he
  · intro haborted id hl
    exact ho.stopped haborted id (hp.reach.live_kept (fun _ hm => Move.noConfusion hm) hl)

/-- An abort leaves no live task, so nobody is left to be woken, and the state may be stopped. -/
theorem abortAll_moved (h : Moved s strict true served start rt) (stopState : RuntimeStopState)
    (currentStep : Nat) (failure : RuntimeError) :
    wp (onPool (TaskPool.abortAll currentStep failure))
      (fun _ => Moved s strict true served start) (fun _ _ => False) { rt with stopState } := by
  have ho := h.orderly
  have hself : Settled Aborts rt.tasks.board rt.tasks := settled_self ho.good
  rw [wp_onPool]
  refine wp_total (abortAll_ends hself trivial trivial (fun _ => trivial) currentStep failure) ?_
  intro _ pool ⟨hp, hdead⟩
  have hnone : ∀ parent taskAwait, ¬ pool.board.waits parent = some taskAwait := by
    intro parent taskAwait hw
    obtain ⟨r, hr, hst⟩ := hp.wf.links.waiting parent taskAwait
      ((hp.wf.links.waits_iff parent taskAwait).1 hw) fun hf => hf
    exact hdead parent ⟨r, hr, by simp [hst, isTerminalStatus]⟩
  refine h.hop (.stop rfl stopState hp) ⟨hp.wf,
    ho.history.reach hp.reach (fun _ _ hm => hm) (fun _ _ hm => hm), ?_, ho.snapshot,
    fun _ parent taskAwait hw => absurd hw (hnone parent taskAwait),
    fun _ parent taskAwait hw => absurd hw (hnone parent taskAwait), fun _ => hdead⟩
  exact fun lease hl => ho.issued lease (hp.reach.issued (fun _ _ hm => hm) (fun _ _ hm => hm) hl)

end CoreRuntime

end MutsukiRuntime
