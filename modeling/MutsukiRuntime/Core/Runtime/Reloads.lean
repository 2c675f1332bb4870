/-
  WHAT A RELOAD LEAVES: the stages of `reloadWithAsyncHandlers`, and the state each
  of them fails in.
-/
import MutsukiRuntime.Core.Runtime.Inputs

namespace MutsukiRuntime

open Std Board TaskPool Prog List

namespace CoreRuntime

/-! ## Lease ids -/

section LeaseIds

variable {s : Scope} {strict : Prop} {admin : Bool} {a b rt : CoreRuntime}
  {allowed : CoreRuntime → Call → Prop}

/-- Every lease that is held has the id its claim gave it. -/
def LeasesNamed (rt : CoreRuntime) : Prop :=
  ∀ (id : TaskId) r lease, rt.tasks.tasks[id]? = some r → r.lease = some lease →
    lease.leaseId = leaseName lease.acquiredAtStep lease.taskId lease.attemptGeneration

theorem LeasesNamed.reach {moves : Move → Prop} (ha : LeasesNamed a)
    (h : Reach moves a.tasks.board b.tasks.board)
    (hclaims : ∀ id c lease, moves (.change id c) ∨ moves (.sweep c) →
      c ≠ .claim lease ∧ c ≠ .takeOver lease) : LeasesNamed b :=
  fun id r lease hr hl => ha id r lease (h.leased hclaims hr hl) hl

theorem routes_claims {ended : TaskId → Prop} (id : TaskId) (c : Change) (lease : TaskLease)
    (h : Routes s ended (.change id c) ∨ Routes s ended (.sweep c)) :
    c ≠ .claim lease ∧ c ≠ .takeOver lease := by
  rcases h with h | h
  · constructor
    · rintro rfl
      exact h
    · rintro rfl
      exact h
  · exact h.elim

theorem Hop.named (h : Hop s strict admin a b) (ha : LeasesNamed a) : LeasesNamed b := by
  cases h with
  | routed h => exact ha.reach h.pool.reach routes_claims
  | later => exact ha
  | @claim pool leased hadmin descriptor hmem hp hleases =>
    intro id r lease hr hl
    by_cases htaken : ∃ e ∈ leased, e.1.taskId = id
    · obtain ⟨e, he, rfl⟩ := htaken
      obtain ⟨v, -, -, -, -, -, hstored⟩ := hleases.taken e he
      cases hstored.symm.trans hr
      cases hl
      exact hleases.named e he
    · refine ha id r lease ?_ hl
      rw [← hleases.kept id fun e he hid => htaken ⟨e, he, hid⟩]
      exact hr
  | @kernel _ _ _ states hadmin hr hactive heffect hb hdone =>
    have hstart : LeasesNamed { a with states } := ha
    exact hstart.reach hb.pool.reach routes_claims
  | stop hadmin stopState hp =>
    refine ha.reach hp.reach fun id c lease hc => ?_
    cases c with
    | finish => exact ⟨Change.noConfusion, Change.noConfusion⟩
    | _ => exact hc.elim False.elim False.elim
  | configure => exact ha
  | plan hadmin newPlan hp =>
    refine ha.reach hp.1.reach fun id c lease hc => ?_
    rcases hc with hc | hc
    · cases hc
    · cases hc
      exact ⟨Change.noConfusion, Change.noConfusion⟩
  | registry => exact ha

theorem Run.leasesNamed (h : Run allowed rt) : LeasesNamed rt := by
  induction h with
  | boot hboot =>
    obtain ⟨registry, -, rfl⟩ := boot_eq_ok hboot
    intro id r lease hr
    simp at hr
  | @call rt h call hcall ih =>
    have hmoved := h.moved (within_anyScope call)
    exact hmoved.hops.invariant (fun a b _ hhop ha => hhop.named ha) ih

theorem Run.runsUnder_unique (h : Run allowed rt) {runnerId runnerId' invocationId : String}
    {id id' : TaskId} (hid : rt.tasks.RunsUnder runnerId invocationId id)
    (hid' : rt.tasks.RunsUnder runnerId' invocationId id') : id = id' := by
  have horderly := h.inOrder
  have hname : ∀ {runnerId id}, rt.tasks.RunsUnder runnerId invocationId id →
      ∃ step attempt, invocationId = leaseName step id attempt := by
    rintro runnerId id ⟨r, lease, hr, -, hl, -, rfl⟩
    have htask : lease.taskId = id :=
      ((horderly.good.records id r hr).leased lease hl).trans (horderly.good.keyed id r hr)
    exact ⟨lease.acquiredAtStep, lease.attemptGeneration, htask ▸ h.leasesNamed id r lease hr hl⟩
  obtain ⟨step, attempt, hstep⟩ := hname hid
  obtain ⟨step', attempt', hstep'⟩ := hname hid'
  exact leaseName_taskId (hstep.symm.trans hstep')

end LeaseIds

section Stages

variable {calls : RunnerCalls} {order : IterationOrder} {newPlan : RuntimeLoadPlan}
  {newRunners : List Runner} {newAsyncHandlers : List AsyncBatchHandler}
  {newRegistry : RunnerRegistry} {start rt rt' : CoreRuntime}

/-! ## The checks -/

/-- Everything a full reload checks before it changes anything. -/
def checkReload (rt : CoreRuntime) (newPlan : RuntimeLoadPlan) (newRunners : List Runner)
    (newAsyncHandlers : List AsyncBatchHandler) :
    Except RuntimeError (ReloadDecision × RunnerRegistry) := do
  validateRuntimeDescriptors newPlan (descriptorsOf newRunners newAsyncHandlers)
  let decision ← rt.reloadDecision newPlan
  let newRegistry ← RunnerRegistry.build newRunners newAsyncHandlers
  pure (decision, newRegistry)

/-- What a full reload does after its checks. -/
def swapGeneration (calls : RunnerCalls) (order : IterationOrder) (newPlan : RuntimeLoadPlan)
    (newRegistry : RunnerRegistry) : CoreM Unit := do
  Prog.update fun rt =>
    { rt with
      generationStates := addGenerationStates rt.generationStates
        (generationStatesForPlan newPlan .shadowStarting) }
  let rt ← Prog.read
  let dispositions := rt.classifyRunningInvocations order
  Prog.forEach dispositions (reloadInvocation calls)
  retireRegistry calls (dispositions.any (·.pollution.needsDrain))
    rt.loadPlan.registryGeneration rt.registry.runnerIds
  recordEvent .reload "plugin.reload.swap_generation" (some s!"{newPlan.registryGeneration}") ∅
    none
  applyLoadPlan newPlan
  Prog.update fun rt => { rt with registry := newRegistry }.setActiveGenerationStates
  let _ ← settleDrainingGenerations calls

theorem wp_reload {Q : ReloadDecision → CoreRuntime → Prop}
    {E : RuntimeError → CoreRuntime → Prop} :
    wp (reloadWithAsyncHandlers calls order newPlan newRunners newAsyncHandlers) Q E rt ↔
      match rt.checkReload newPlan newRunners newAsyncHandlers with
      | .error e => E e rt
      | .ok (decision, newRegistry) =>
        wp (swapGeneration calls order newPlan newRegistry) (fun _ => Q decision) E rt := by
  unfold reloadWithAsyncHandlers checkReload
  rw [wp_bind]
  cases validateRuntimeDescriptors newPlan (descriptorsOf newRunners newAsyncHandlers) with
  | error e => rfl
  | ok _ =>
    rw [wp_lift_ok, wp_bind, wp_read, wp_bind]
    cases rt.reloadDecision newPlan with
    | error e => rfl
    | ok decision =>
      rw [wp_lift_ok, wp_bind]
      cases RunnerRegistry.build newRunners newAsyncHandlers with
      | error e => rfl
      | ok newRegistry =>
        rw [wp_lift_ok]
        refine Iff.trans (Iff.of_eq ?_) (wp_bind
          (swapGeneration calls order newPlan newRegistry) fun _ => pure decision)
        unfold swapGeneration
        simp only [Prog.bind_bind]
        rfl

/-! ## Cancelling -/

/-- What cancelling one running invocation answers: only a clean one is cancelled, through an
    idle instance of its runner. -/
def cancelAnswer (registry : RunnerRegistry) (calls : RunnerCalls)
    (disposition : RunningInvocationDisposition) : Except RuntimeError Unit :=
  if disposition.pollution.needsDrain then .ok ()
  else registry.cancelRunner calls disposition.runnerId disposition.invocationId

/-- The new generation is announced; the pool and the events have moved on. -/
structure Reloading (newPlan : RuntimeLoadPlan) (start rt : CoreRuntime) : Prop where
  frame : rt = { start with
    generationStates := addGenerationStates start.generationStates
      (generationStatesForPlan newPlan .shadowStarting)
    tasks := rt.tasks
    events := rt.events }
  pool : Settled (Routes cancelScope noneTaken) start.tasks.board rt.tasks

/-- Each clean disposition has taken a task that ran under its invocation out of its run. -/
def Released (dispositions : List RunningInvocationDisposition) (pool pool' : TaskPool) : Prop :=
  ∀ disposition ∈ dispositions, disposition.pollution.needsDrain = false →
    ∀ id, pool.RunsUnder disposition.runnerId disposition.invocationId id →
      ∃ id', pool.RunsUnder disposition.runnerId disposition.invocationId id' ∧
        ∀ r, pool'.tasks[id']? = some r → r.status ≠ .running

/-- What cancelling the first dispositions has done to the pool. -/
structure Cancelled (dispositions : List RunningInvocationDisposition) (pool pool' : TaskPool) :
    Prop where
  settled : Settled (Routes cancelScope noneTaken) pool.board pool'
  released : Released dispositions pool pool'
  kept : ∀ (id : TaskId) r, pool.tasks[id]? = some r →
    (∀ disposition ∈ dispositions, disposition.pollution.needsDrain = false →
      ¬ pool.RunsUnder disposition.runnerId disposition.invocationId id) →
    pool'.tasks[id]? = some r
  drained : (∀ disposition ∈ dispositions, disposition.pollution.needsDrain = true) → pool' = pool

variable {pool pool' : TaskPool} {id : TaskId}

theorem cancelled_nil (h : Good pool) : Cancelled [] pool pool :=
  ⟨settled_self h, fun _ hd => (not_mem_nil hd).elim, fun _ _ hr _ => hr, fun _ => rfl⟩

/-- A task that runs after a cancellation ran before, under the same lease. -/
theorem runsUnder_before {runnerId invocationId : String}
    (h : Settled (Routes cancelScope noneTaken) pool.board pool')
    (hunder : pool'.RunsUnder runnerId invocationId id) :
    pool.RunsUnder runnerId invocationId id := by
  obtain ⟨r, lease, hr, hrun, hrest⟩ := hunder
  exact ⟨r, lease, h.reach.running_before hr hrun, hrun, hrest⟩

theorem not_running_after (h : Settled (Routes cancelScope noneTaken) pool.board pool')
    (hnot : ∀ r, pool.tasks[id]? = some r → r.status ≠ .running) :
    ∀ r, pool'.tasks[id]? = some r → r.status ≠ .running :=
  fun r hr hrun => hnot r (h.reach.running_before hr hrun) hrun

theorem Cancelled.cons {disposition : RunningInvocationDisposition}
    {dispositions : List RunningInvocationDisposition} {pool₁ : TaskPool}
    (h : Cancelled [disposition] pool pool₁) (h' : Cancelled dispositions pool₁ pool') :
    Cancelled (disposition :: dispositions) pool pool' where
  settled := ⟨h'.settled.wf, h.settled.reach.trans h'.settled.reach⟩
  released := by
    intro other hmem hclean id hunder
    rcases mem_cons.1 hmem with rfl | hmem
    · obtain ⟨id', hunder', hnot⟩ := h.released other (by simp) hclean id hunder
      exact ⟨id', hunder', not_running_after h'.settled hnot⟩
    · by_cases hstill : pool₁.RunsUnder other.runnerId other.invocationId id
      · obtain ⟨id', hunder', hnot⟩ := h'.released other hmem hclean id hstill
        exact ⟨id', runsUnder_before h.settled hunder', hnot⟩
      · refine ⟨id, hunder, not_running_after h'.settled fun r hr hrun => hstill ?_⟩
        obtain ⟨r₀, lease, hr₀, hrest⟩ := hunder
        cases hr₀.symm.trans (h.settled.reach.running_before hr hrun)
        exact ⟨r, lease, hr, hrest⟩
  kept := by
    intro id r hr hfree
    have hfirst := h.kept id r hr fun other hmem hclean =>
      hfree other (by simp [mem_singleton.1 hmem]) hclean
    refine h'.kept id r hfirst fun other hmem hclean hunder => ?_
    exact hfree other (by simp [hmem]) hclean (runsUnder_before h.settled hunder)
  drained := by
    intro hall
    have hfirst : pool₁ = pool := h.drained (by simpa using hall disposition (by simp))
    rw [← hfirst]
    exact h'.drained fun other hmem => hall other (by simp [hmem])

theorem Reloading.withPool (h : Reloading newPlan start rt) (events : EventLog)
    (hp : Settled (Routes cancelScope noneTaken) rt.tasks.board pool) :
    Reloading newPlan start { rt with tasks := pool, events } := by
  refine ⟨?_, hp.wf, h.pool.reach.trans hp.reach⟩
  rw [h.frame]

theorem Reloading.registry (h : Reloading newPlan start rt) : rt.registry = start.registry := by
  rw [h.frame]

/-- One invocation: a clean one is released if the plugin takes the cancellation. -/
theorem reloadInvocation_cancels (h : Reloading newPlan start rt)
    (disposition : RunningInvocationDisposition) :
    wp (reloadInvocation calls disposition)
      (fun _ rt' => cancelAnswer start.registry calls disposition = .ok () ∧
        Reloading newPlan start rt' ∧ Cancelled [disposition] rt.tasks rt'.tasks)
      (fun e rt' => cancelAnswer start.registry calls disposition = .error e ∧ rt' = rt) rt := by
  have hself : Settled (Routes cancelScope noneTaken) rt.tasks.board rt.tasks :=
    settled_self h.pool.wf
  unfold reloadInvocation cancelAnswer
  rw [wp_ite]
  constructor
  · intro hdrain
    refine ⟨if_pos hdrain, h.withPool _ hself, hself, ?_, fun _ _ hr _ => hr, fun _ => rfl⟩
    intro other hmem hclean
    rw [mem_singleton.1 hmem, hdrain] at hclean
    cases hclean
  · intro hclean
    rw [if_neg hclean, wp_bind, wp_read, wp_bind, h.registry]
    cases hcancel : start.registry.cancelRunner calls disposition.runnerId
        disposition.invocationId with
    | error e => exact ⟨rfl, rfl⟩
    | ok _ =>
      rw [wp_lift_ok, wp_bind, wp_onPool]
      refine wp_total (cancelRunningInvocation_releases hself (fun _ => trivial)
        disposition.runnerId disposition.invocationId rt.currentStep) ?_
      intro _ pool ⟨hp, hreleased⟩
      refine ⟨rfl, h.withPool _ hp, hp, ?_, ?_,
        fun hall => absurd (hall disposition (by simp)) hclean⟩
      · intro other hmem _ id hunder
        rw [mem_singleton.1 hmem] at hunder ⊢
        rcases hreleased with ⟨-, hnone⟩ | ⟨id', r, hunder', hr, hready, -⟩
        · exact absurd hunder (hnone id)
        · refine ⟨id', hunder', fun r' hr' hrun => ?_⟩
          cases hr.symm.trans hr'
          cases hrun.symm.trans hready
      · intro id r hr hfree
        rcases hreleased with ⟨hsame, -⟩ | ⟨id', -, hunder', -, -, hothers⟩
        · show pool.tasks[id]? = some r
          rw [hsame]
          exact hr
        · have hne : id' ≠ id := by
            rintro rfl
            exact hfree disposition (by simp) (by simpa using hclean) hunder'
          exact (hothers id hne).trans hr

/-- The dispositions whose cancellation succeeds before the first that fails. -/
def answeredOf (registry : RunnerRegistry) (calls : RunnerCalls)
    (dispositions : List RunningInvocationDisposition) : List RunningInvocationDisposition :=
  dispositions.takeWhile fun disposition => (cancelAnswer registry calls disposition).isOk

/-- All of them: the registry alone decides where the loop stops. -/
theorem reloadInvocations_cancel (h : Reloading newPlan start rt)
    (dispositions : List RunningInvocationDisposition) :
    wp (Prog.forEach dispositions (reloadInvocation calls))
      (fun _ rt' => dispositions.forM (cancelAnswer start.registry calls) = .ok () ∧
        Reloading newPlan start rt' ∧ Cancelled dispositions rt.tasks rt'.tasks)
      (fun e rt' => dispositions.forM (cancelAnswer start.registry calls) = .error e ∧
        Reloading newPlan start rt' ∧
        Cancelled (answeredOf start.registry calls dispositions) rt.tasks rt'.tasks) rt := by
  induction dispositions generalizing rt with
  | nil => exact ⟨rfl, h, cancelled_nil h.pool.wf⟩
  | cons disposition dispositions ih =>
    show wp (reloadInvocation calls disposition >>= fun _ =>
      Prog.forEach dispositions (reloadInvocation calls)) _ _ _
    rw [wp_bind]
    refine wp_mono (reloadInvocation_cancels h disposition) ?_ ?_
    · intro _ rt₁ ⟨hanswer, h₁, hfirst⟩
      have hforM : (disposition :: dispositions).forM (cancelAnswer start.registry calls) =
          dispositions.forM (cancelAnswer start.registry calls) := by
        show (cancelAnswer start.registry calls disposition >>= fun _ =>
          dispositions.forM (cancelAnswer start.registry calls)) = _
        rw [hanswer]
        rfl
      have htaken : answeredOf start.registry calls (disposition :: dispositions) =
          disposition :: answeredOf start.registry calls dispositions := by
        unfold answeredOf
        rw [takeWhile_cons_of_pos (by rw [hanswer]; rfl)]
      rw [hforM, htaken]
      refine wp_mono (ih h₁) ?_ ?_
      · intro _ rt₂ ⟨hok, h₂, hrest⟩
        exact ⟨hok, h₂, hfirst.cons hrest⟩
      · intro e rt₂ ⟨herror, h₂, hrest⟩
        exact ⟨herror, h₂, hfirst.cons hrest⟩
    · intro e rt₁ ⟨hanswer, hsame⟩
      subst hsame
      refine ⟨?_, h, ?_⟩
      · show (cancelAnswer start.registry calls disposition >>= fun _ =>
          dispositions.forM (cancelAnswer start.registry calls)) = _
        rw [hanswer]
        rfl
      · unfold answeredOf
        rw [takeWhile_cons_of_neg (by rw [hanswer]; exact Bool.false_ne_true)]
        exact cancelled_nil h.pool.wf

/-! ## Swapping -/

/-- The phases `set_active_generation_states` gives, and the states it adds. -/
def activatedStates (plan : RuntimeLoadPlan) (states : List PluginGenerationState) :
    List PluginGenerationState :=
  addGenerationStates
    (states.map fun state =>
      if state.generation = plan.registryGeneration then { state with phase := .active }
      else if state.phase = .active then { state with phase := .draining }
      else state)
    (generationStatesForPlan plan .active)

/-- The states after a retirement: the old generation may be marked. -/
def Retires (oldGeneration : Nat) (states states' : List PluginGenerationState) : Prop :=
  states' = states ∨ states' = states.map fun state =>
    if state.generation = oldGeneration then { state with phase := .disposed } else state

/-- From `mid` plan and registry have become the new ones, with the ready tasks bound to them;
    the generations `kept` drain. -/
structure Swapped (newPlan : RuntimeLoadPlan) (newRegistry : RunnerRegistry)
    (kept : List DrainingGeneration) (mid rt : CoreRuntime) : Prop where
  frame : rt = { mid with
    loadPlan := newPlan
    handlerBindings := handlerBindingsOf newPlan
    surfaces := newPlan.contractSurfaces
    protocolClasses := protocolClassesForPlan newPlan
    registry := newRegistry
    generationStates := rt.generationStates
    drainingGenerations := mid.drainingGenerations ++ kept
    tasks := rt.tasks
    events := rt.events }
  tasks : Rebinds mid.loadPlan.registryGeneration newPlan.registryGeneration mid.tasks rt.tasks
  unbound : newPlan.registryGeneration = mid.loadPlan.registryGeneration → rt.tasks = mid.tasks
  generationStates : ∃ states,
    Retires mid.loadPlan.registryGeneration mid.generationStates states ∧
      rt.generationStates = activatedStates newPlan states

theorem retireRegistry_retires (needsDrain : Bool) (oldGeneration : Nat)
    (oldRunnerIds : List RunnerId) :
    wp (retireRegistry calls needsDrain oldGeneration oldRunnerIds)
      (fun _ rt' => (needsDrain = true ∨ (rt.registry.disposeAll calls).isOk = true) ∧
        Retires oldGeneration rt.generationStates rt'.generationStates ∧
        rt' = { rt with
          registry := {}
          generationStates := rt'.generationStates
          drainingGenerations := rt.drainingGenerations ++
            if needsDrain then
              [{ registryGeneration := oldGeneration, runnerIds := oldRunnerIds
                 registry := rt.registry }]
            else [] })
      (fun e rt' => needsDrain = false ∧ rt.registry.disposeAll calls = .error e ∧
        rt' = { rt with registry := {} }) rt := by
  unfold retireRegistry
  rw [wp_bind, wp_read, wp_bind, wp_update, wp_ite]
  constructor
  · intro hdrain
    rw [hdrain]
    exact ⟨.inl rfl, .inl rfl, rfl⟩
  · intro hdispose
    rw [wp_bind, if_neg hdispose, append_nil]
    cases hall : rt.registry.disposeAll calls with
    | error e => exact ⟨by simpa using hdispose, rfl, rfl⟩
    | ok => exact ⟨.inr rfl, .inr rfl, rfl⟩

theorem markGenerations_frame (generations : List Nat) (phase : PluginGenerationPhase) :
    generations.foldl (·.markGenerationPhase · phase) rt = { rt with
        generationStates :=
          (generations.foldl (·.markGenerationPhase · phase) rt).generationStates } := by
  induction generations generalizing rt with
  | nil => rfl
  | cons generation generations ih =>
    rw [foldl_cons, ih]
    rfl

/-- The draining generations are settled, and nothing else is touched. -/
theorem settleDrainingGenerations_settles : wp (settleDrainingGenerations calls)
      (fun _ rt' => (rt.drainingGenerations.foldlM (settleGeneration calls rt.tasks) {}).isOk =
          true ∧
        rt' = { rt with
          generationStates := rt'.generationStates
          drainingGenerations := rt'.drainingGenerations })
      (fun e rt' => rt.drainingGenerations.foldlM (settleGeneration calls rt.tasks) {} = .error e ∧
        rt' = { rt with drainingGenerations := [] }) rt := by
  unfold settleDrainingGenerations
  rw [wp_bind, wp_read]
  cases hsettled : rt.drainingGenerations.foldlM (settleGeneration calls rt.tasks) {} with
  | error e => exact ⟨rfl, rfl⟩
  | ok settled =>
    refine ⟨rfl, ?_⟩
    dsimp only
    rw [markGenerations_frame]

theorem applyLoadPlan_rebinds (h : Good rt.tasks) : wp (applyLoadPlan newPlan)
      (fun _ rt' => Rebinds rt.loadPlan.registryGeneration newPlan.registryGeneration rt.tasks
          rt'.tasks ∧
        (newPlan.registryGeneration = rt.loadPlan.registryGeneration → rt'.tasks = rt.tasks) ∧
        rt' = { rt with
          tasks := rt'.tasks
          handlerBindings := handlerBindingsOf newPlan
          surfaces := newPlan.contractSurfaces
          protocolClasses := protocolClassesForPlan newPlan
          loadPlan := newPlan })
      (fun _ _ => False) rt := by
  have hself : Settled (fun m => m = .sweep .rebind) rt.tasks.board rt.tasks := settled_self h
  unfold applyLoadPlan
  rw [wp_bind, wp_read, wp_bind, wp_onPool]
  have hsame : wp (rebindReadyGeneration rt.loadPlan.registryGeneration newPlan.registryGeneration)
      (fun _ pool => newPlan.registryGeneration = rt.loadPlan.registryGeneration →
        pool = rt.tasks) (fun _ _ => True) rt.tasks := by
    by_cases he : newPlan.registryGeneration = rt.loadPlan.registryGeneration
    · rw [he]
      exact wp_mono (rebindReadyGeneration_same h _) (fun _ _ hp _ => hp) (fun _ _ _ => trivial)
    · exact wp_mono (rebindReadyGeneration_tracks hself rfl _ _) (fun _ _ _ hf => absurd hf he)
        (fun _ _ _ => trivial)
  refine wp_mono (wp_and (rebindReadyGeneration_tracks hself rfl _ _) hsame) ?_ (fun _ _ hf => hf.1)
  exact fun _ pool hp => ⟨hp.1, hp.2, rfl⟩

/-- All clean invocations are cancelled, and the pool and events are as in `mid`. -/
structure CancelledAll (calls : RunnerCalls) (order : IterationOrder) (newPlan : RuntimeLoadPlan)
    (start mid : CoreRuntime) : Prop where
  answered : (start.classifyRunningInvocations order).forM (cancelAnswer start.registry calls) =
    .ok ()
  reloading : Reloading newPlan start mid
  cancelled : Cancelled (start.classifyRunningInvocations order) start.tasks mid.tasks

/-- Some invocation keeps the old generation. -/
def needsDrain (start : CoreRuntime) (order : IterationOrder) : Bool :=
  (start.classifyRunningInvocations order).any (·.pollution.needsDrain)

/-- The old generation, if it has to drain. -/
def keptGenerations (start : CoreRuntime) (order : IterationOrder) : List DrainingGeneration :=
  if start.needsDrain order then
    [{ registryGeneration := start.loadPlan.registryGeneration
       runnerIds := start.registry.runnerIds
       registry := start.registry }]
  else []

/-- The old registry is kept, or disposed without an error. -/
def MayRetire (calls : RunnerCalls) (order : IterationOrder) (start : CoreRuntime) : Prop :=
  start.needsDrain order = true ∨ (start.registry.disposeAll calls).isOk = true

/-- The stages of a reload that has passed its checks, and the state each of them fails in. -/
theorem swapGeneration_stages (h : Good start.tasks) :
    wp (swapGeneration calls order newPlan newRegistry)
      (fun _ rt' => ∃ mid rt₁, CancelledAll calls order newPlan start mid ∧
        MayRetire calls order start ∧
        Swapped newPlan newRegistry (start.keptGenerations order) mid rt₁ ∧
        (rt₁.drainingGenerations.foldlM (settleGeneration calls rt₁.tasks) {}).isOk = true ∧
        rt' = { rt₁ with
          generationStates := rt'.generationStates
          drainingGenerations := rt'.drainingGenerations })
      (fun e rt' =>
        ((start.classifyRunningInvocations order).forM (cancelAnswer start.registry calls) =
            .error e ∧ Reloading newPlan start rt' ∧
          Cancelled (answeredOf start.registry calls (start.classifyRunningInvocations order))
            start.tasks rt'.tasks) ∨
        ∃ mid, CancelledAll calls order newPlan start mid ∧
          ((start.needsDrain order = false ∧ start.registry.disposeAll calls = .error e ∧
              rt' = { mid with registry := {} }) ∨
            (MayRetire calls order start ∧ ∃ rt₁,
              Swapped newPlan newRegistry (start.keptGenerations order) mid rt₁ ∧
              rt₁.drainingGenerations.foldlM (settleGeneration calls rt₁.tasks) {} = .error e ∧
              rt' = { rt₁ with drainingGenerations := [] }))) start := by
  let shadow : CoreRuntime := { start with
    generationStates := addGenerationStates start.generationStates
      (generationStatesForPlan newPlan .shadowStarting) }
  have hshadow : Reloading newPlan start shadow := ⟨rfl, settled_self h⟩
  unfold swapGeneration
  rw [wp_bind, wp_update, wp_bind, wp_read, wp_bind]
  refine wp_mono (reloadInvocations_cancel hshadow (start.classifyRunningInvocations order))
    ?_ (fun e rt' hfailed => .inl hfailed)
  intro _ mid ⟨hanswered, hreloading, hcancelled⟩
  have hall : CancelledAll calls order newPlan start mid := ⟨hanswered, hreloading, hcancelled⟩
  rw [wp_bind]
  refine wp_mono (retireRegistry_retires _ _ _) ?_ ?_
  · intro _ rt₁ ⟨hmay, hretires, hframe⟩
    rw [hreloading.registry] at hmay
    rw [wp_bind]
    show wp (do applyLoadPlan newPlan; _) _ _ _
    rw [wp_bind]
    have hgood : Good rt₁.tasks := by
      rw [hframe]
      exact hcancelled.settled.wf
    refine wp_total (applyLoadPlan_rebinds hgood) ?_
    intro _ rt₂ ⟨hrebinds, hunbound, hplanned⟩
    rw [wp_bind, wp_update, wp_bind]
    have hswapped : Swapped newPlan newRegistry (start.keptGenerations order) mid
        ({ rt₂ with registry := newRegistry }.setActiveGenerationStates) := by
      have hplan : rt₁.loadPlan = mid.loadPlan := by rw [hframe]
      have htasks : rt₁.tasks = mid.tasks := by rw [hframe]
      have hold : start.loadPlan = mid.loadPlan := by rw [hreloading.frame]
      refine ⟨?_, ?_, ?_, rt₁.generationStates, hold ▸ hretires, ?_⟩
      · rw [hplanned, hframe, hreloading.registry]
        rfl
      · rw [← hplan, ← htasks]
        exact hrebinds
      · rw [← hplan, ← htasks]
        exact hunbound
      · rw [hplanned]
        rfl
    refine wp_mono settleDrainingGenerations_settles ?_ ?_
    · intro _ rt₃ ⟨hok, hsettled⟩
      exact ⟨mid, _, hall, hmay, hswapped, hok, hsettled⟩
    · intro e rt₃ ⟨herror, hsettled⟩
      exact .inr ⟨mid, hall, .inr ⟨hmay, _, hswapped, herror, hsettled⟩⟩
  · intro e rt₁ ⟨hdrain, hdispose, hframe⟩
    rw [hreloading.registry] at hdispose
    exact .inr ⟨mid, hall, .inl ⟨hdrain, hdispose, hframe⟩⟩

end Stages

end CoreRuntime

end MutsukiRuntime
