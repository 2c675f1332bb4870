/-
  RELOADS THAT FAIL.  When `reloadWithAsyncHandlers` returns an error, are the pool, the
  registry, the generation states and the plan what they were?

  * `mem_classify`: the dispositions are those of the running tasks, each with the
    invocation its task runs under.
  * `settleFails_iff`: settling fails on a generation that no polluted invocation keeps
    busy and that cannot be disposed.
-/
import MutsukiRuntime.Core.Runtime.Reloads

namespace MutsukiRuntime

open Std Board TaskPool Prog List Option

namespace CoreRuntime

section FailedReloads

variable {calls : RunnerCalls} {order : IterationOrder} {newPlan : RuntimeLoadPlan}
  {newRunners : List Runner} {newAsyncHandlers : List AsyncBatchHandler}
  {newRegistry : RunnerRegistry} {start rt rt' mid : CoreRuntime}
  {allowed : CoreRuntime → Call → Prop}

/-! ## Running invocations -/

/-- The disposition of a running record names the invocation it runs under. -/
theorem dispositionOf_running (h : Good rt.tasks) {id : TaskId} {r : TaskRecord}
    (hr : rt.tasks.tasks[id]? = some r) (hrun : r.status = .running) :
    ∃ disposition, rt.dispositionOf r = some disposition ∧ disposition.taskId = id ∧
      rt.tasks.RunsUnder disposition.runnerId disposition.invocationId id := by
  have hok := h.records id r hr
  obtain ⟨lease, hl⟩ := isSome_iff_exists.1 (hok.running.1 hrun)
  have hclaimed : r.claimedBy = some lease.runnerId := by
    rw [hok.claimed, hl]
    rfl
  have hid := h.keyed id r hr
  unfold dispositionOf
  simp only [hclaimed, hl, map_some]
  cases hd : rt.registry.descriptors[lease.runnerId]? with
  | none | some => exact ⟨_, rfl, hid, r, lease, hr, hrun, hl, rfl, rfl⟩

variable {disposition : RunningInvocationDisposition} {runnerId : RunnerId}
  {state : PluginGenerationState}

theorem mem_classify (h : Good rt.tasks) : disposition ∈ rt.classifyRunningInvocations order ↔
      ∃ (id : TaskId) (r : TaskRecord), rt.tasks.tasks[id]? = some r ∧ r.status = .running ∧
        rt.dispositionOf r = some disposition := by
  unfold classifyRunningInvocations runningRecords
  rw [mem_filterMap]
  constructor
  · rintro ⟨r, hmem, hd⟩
    rw [mem_insertionSort, mem_filter, (order.2 _).mem_iff,
      mem_recordsOf rt.tasks.tasks h.keyed] at hmem
    exact ⟨r.task.taskId, r, hmem.1, by simpa using hmem.2, hd⟩
  · rintro ⟨id, r, hr, hrun, hd⟩
    refine ⟨r, ?_, hd⟩
    rw [mem_insertionSort, mem_filter, (order.2 _).mem_iff, mem_recordsOf rt.tasks.tasks h.keyed]
    refine ⟨?_, by simp [hrun]⟩
    rw [h.keyed id r hr]
    exact hr

theorem runsUnder_of_mem_classify (h : Good rt.tasks)
    (hmem : disposition ∈ rt.classifyRunningInvocations order) :
    rt.tasks.RunsUnder disposition.runnerId disposition.invocationId disposition.taskId := by
  obtain ⟨id, r, hr, hrun, hd⟩ := (mem_classify h).1 hmem
  obtain ⟨other, hother, hid, hunder⟩ := dispositionOf_running h hr hrun
  cases hd.symm.trans hother
  rw [hid]
  exact hunder

variable {pool : TaskPool}

theorem hasRunningRecords_iff (h : Good pool) : pool.hasRunningRecords runnerId = true ↔
      ∃ (id : TaskId) (r : TaskRecord), pool.tasks[id]? = some r ∧ r.status = .running ∧
        r.claimedBy = some runnerId := by
  unfold hasRunningRecords
  rw [List.any_eq_true]
  have hslot : ∀ r : TaskRecord, r.runningUnder = some runnerId ↔
      r.status = .running ∧ r.claimedBy = some runnerId := by
    intro r
    unfold TaskRecord.runningUnder
    split <;> simp_all
  constructor
  · rintro ⟨id, hid, -⟩
    obtain ⟨r, hr, hunder, -⟩ := (h.indexes.running.mem_iff runnerId id).1
      (ExtTreeSet.mem_toList.1 hid)
    exact ⟨id, r, hr, (hslot r).1 hunder⟩
  · rintro ⟨id, r, hr, hunder⟩
    refine ⟨id, ExtTreeSet.mem_toList.2 ((h.indexes.running.mem_iff runnerId id).2
      ⟨r, hr, (hslot r).2 hunder, fun hf => hf⟩), ?_⟩
    rw [ExtTreeMap.contains_iff_mem, Buckets.mem_iff_exists]
    exact ⟨r, hr⟩

/-- After the cancellations exactly the runners of polluted invocations have running tasks. -/
theorem hasRunningRecords_cancelled (h : Run allowed start)
    (hmid : CancelledAll calls order newPlan start mid)
    (hpool : Rebinds mid.loadPlan.registryGeneration newPlan.registryGeneration mid.tasks pool) :
    pool.hasRunningRecords runnerId = true ↔ ∃ disposition ∈ start.classifyRunningInvocations order,
        disposition.pollution.needsDrain = true ∧ disposition.runnerId = runnerId := by
  have hgood := h.good
  have hsettled := hmid.cancelled.settled
  rw [hasRunningRecords_iff hpool.1.wf]
  constructor
  · rintro ⟨id, v, hv, hrun, hclaimed⟩
    rw [hpool.2 id] at hv
    obtain ⟨r, hr, rfl⟩ := map_eq_some_iff.1 hv
    rw [rebound_status] at hrun
    rw [rebound_running _ _ hrun] at hclaimed
    -- the record ran at the start, so it has a disposition, and a clean one was released
    have hr₀ : start.tasks.tasks[id]? = some r := hsettled.reach.running_before hr hrun
    obtain ⟨disposition, hd, -, hunder⟩ := dispositionOf_running hgood hr₀ hrun
    have hmem : disposition ∈ start.classifyRunningInvocations order :=
      (mem_classify hgood).2 ⟨id, r, hr₀, hrun, hd⟩
    refine ⟨disposition, hmem, ?_, ?_⟩
    · by_contra hclean
      rw [Bool.not_eq_true] at hclean
      obtain ⟨id', hunder', hnot⟩ := hmid.cancelled.released disposition hmem hclean id hunder
      have hid := h.runsUnder_unique hunder' hunder
      subst hid
      exact hnot r hr hrun
    · obtain ⟨r', lease, hr', -, hl, hrunner, -⟩ := hunder
      cases hr₀.symm.trans hr'
      rw [(hgood.records id r hr₀).claimed, hl] at hclaimed
      exact hrunner.symm.trans (some.inj hclaimed)
  · rintro ⟨disposition, hmem, hdrain, rfl⟩
    obtain ⟨id, r, hr, hrun, hd⟩ := (mem_classify hgood).1 hmem
    obtain ⟨other, hother, -, hunder⟩ := dispositionOf_running hgood hr hrun
    cases hd.symm.trans hother
    -- no clean disposition is that of the same invocation
    have hkept : mid.tasks.tasks[id]? = some r := by
      refine hmid.cancelled.kept id r hr fun other hother hclean hunder' => ?_
      obtain ⟨id', r', hr', hrun', hd'⟩ := (mem_classify hgood).1 hother
      obtain ⟨same, hsame, -, hunder''⟩ := dispositionOf_running hgood hr' hrun'
      cases hd'.symm.trans hsame
      have hid := h.runsUnder_unique hunder'' hunder'
      subst hid
      cases hr'.symm.trans hr
      cases hd'.symm.trans hd
      cases hdrain.symm.trans hclean
    refine ⟨id, r, ?_, hrun, ?_⟩
    · rw [hpool.2 id, hkept, map_some, rebound_running _ _ hrun]
    · obtain ⟨r', lease, hr', -, hl, hrunner, -⟩ := hunder
      cases hr.symm.trans hr'
      rw [(hgood.records id r hr).claimed, hl, ← hrunner]
      rfl

/-! ## Settling -/

/-- A generation that is not busy and that cannot be disposed. -/
def Sticks (calls : RunnerCalls) (pool : TaskPool) (generation : DrainingGeneration) : Prop :=
  generation.runnerIds.any pool.hasRunningRecords = false ∧
    (generation.registry.disposeAll calls).isOk = false

theorem settleGeneration_error_iff {generation : DrainingGeneration} (acc : SettledGenerations) :
    (settleGeneration calls pool acc generation).isOk = false ↔ Sticks calls pool generation := by
  unfold settleGeneration Sticks
  cases generation.runnerIds.any pool.hasRunningRecords with
  | true => exact ⟨fun h => Bool.noConfusion h, fun h => Bool.noConfusion h.1⟩
  | false =>
    cases generation.registry.disposeAll calls with
    | error e => exact ⟨fun _ => ⟨rfl, rfl⟩, fun _ => rfl⟩
    | ok => exact ⟨fun h => Bool.noConfusion h, fun h => Bool.noConfusion h.2⟩

theorem settle_error_iff (generations : List DrainingGeneration) (acc : SettledGenerations) :
    (generations.foldlM (settleGeneration calls pool) acc).isOk = false ↔
      ∃ generation ∈ generations, Sticks calls pool generation := by
  induction generations generalizing acc with
  | nil => exact ⟨fun h => Bool.noConfusion h, fun ⟨_, hmem, _⟩ => (not_mem_nil hmem).elim⟩
  | cons generation generations ih =>
    rw [foldlM_cons, exists_mem_cons_iff, ← settleGeneration_error_iff acc]
    cases settleGeneration calls pool acc generation with
    | error e => exact ⟨fun _ => .inl rfl, fun _ => rfl⟩
    | ok acc' =>
      refine Iff.trans (ih acc') ⟨Or.inr, fun h => h.resolve_left fun hf => ?_⟩
      exact Bool.noConfusion hf

/-- The generations that drain once the old registry has been retired and that are not busy any
    more, one of which cannot be disposed. -/
def SettleFails (calls : RunnerCalls) (order : IterationOrder) (start : CoreRuntime) : Prop :=
  ∃ generation ∈ start.drainingGenerations ++ start.keptGenerations order,
    (∀ disposition ∈ start.classifyRunningInvocations order,
      disposition.pollution.needsDrain = true → disposition.runnerId ∉ generation.runnerIds) ∧
    (generation.registry.disposeAll calls).isOk = false

theorem settleFails_iff (h : Run allowed start) (hmid : CancelledAll calls order newPlan start mid)
    (hswapped : Swapped newPlan newRegistry (start.keptGenerations order) mid rt) :
    (rt.drainingGenerations.foldlM (settleGeneration calls rt.tasks) {}).isOk = false ↔
      SettleFails calls order start := by
  have hdraining : rt.drainingGenerations =
      start.drainingGenerations ++ start.keptGenerations order := by
    rw [hswapped.frame, hmid.reloading.frame]
  have hbusy : ∀ generation : DrainingGeneration,
      generation.runnerIds.any rt.tasks.hasRunningRecords = false ↔
        ∀ disposition ∈ start.classifyRunningInvocations order,
          disposition.pollution.needsDrain = true →
            disposition.runnerId ∉ generation.runnerIds := by
    intro generation
    rw [List.any_eq_false]
    constructor
    · intro hidle disposition hmem hdrain hrunner
      exact hidle _ hrunner
        ((hasRunningRecords_cancelled h hmid hswapped.tasks).2 ⟨disposition, hmem, hdrain, rfl⟩)
    · intro hnone runnerId hrunner hrunning
      obtain ⟨disposition, hmem, hdrain, rfl⟩ :=
        (hasRunningRecords_cancelled h hmid hswapped.tasks).1 hrunning
      exact hnone disposition hmem hdrain hrunner
  rw [settle_error_iff, hdraining]
  unfold Sticks SettleFails
  simp only [hbusy]

/-! ## Generation states -/

/-- A state of this plugin and generation is there. -/
def listsState (states : List PluginGenerationState) (state : PluginGenerationState) : Bool :=
  states.any fun s => s.pluginId == state.pluginId && s.generation == state.generation

theorem addGenerationStates_cons (states : List PluginGenerationState)
    (state : PluginGenerationState) (added : List PluginGenerationState) :
    addGenerationStates states (state :: added) =
      addGenerationStates (if listsState states state then states else states ++ [state]) added :=
  rfl

variable {states added : List PluginGenerationState}

theorem addGenerationStates_of_listed (h : ∀ state ∈ added, listsState states state = true) :
    addGenerationStates states added = states := by
  induction added with
  | nil => rfl
  | cons state added ih =>
    rw [addGenerationStates_cons, if_pos (h state (by simp))]
    exact ih fun other hmem => h other (by simp [hmem])

theorem listsState_add (h : listsState states state = true) :
    listsState (addGenerationStates states added) state = true := by
  induction added generalizing states with
  | nil => exact h
  | cons other added ih =>
    rw [addGenerationStates_cons]
    refine ih ?_
    split
    · exact h
    · unfold listsState at h ⊢
      rw [any_append, h, Bool.true_or]

theorem listsState_of_mem_added (h : state ∈ added) :
    listsState (addGenerationStates states added) state = true := by
  induction added generalizing states with
  | nil => cases h
  | cons other added ih =>
    rw [addGenerationStates_cons]
    rcases mem_cons.1 h with rfl | h
    · refine listsState_add ?_
      split
      · assumption
      · simp [listsState]
    · exact ih h

theorem addGenerationStates_twice (states added : List PluginGenerationState) :
    addGenerationStates (addGenerationStates states added) added =
      addGenerationStates states added :=
  addGenerationStates_of_listed fun _ hmem => listsState_of_mem_added hmem

theorem map_addGenerationStates {f : PluginGenerationState → PluginGenerationState}
    (hf : ∀ state, (f state).pluginId = state.pluginId ∧ (f state).generation = state.generation)
    (states added : List PluginGenerationState) :
    (addGenerationStates states added).map f =
      addGenerationStates (states.map f) (added.map f) := by
  induction added generalizing states with
  | nil => rfl
  | cons state added ih =>
    have hlists : listsState (states.map f) (f state) = listsState states state := by
      unfold listsState
      rw [List.any_map]
      simp only [Function.comp_def, hf]
    rw [map_cons, addGenerationStates_cons, addGenerationStates_cons, ih, hlists]
    split
    · rfl
    · rw [map_append]
      rfl

/-- What a generation's states become does not depend on their phases, nor on whether they have
    been announced. -/
theorem activatedStates_retired {states' : List PluginGenerationState}
    (h : Retires newPlan.registryGeneration
      (addGenerationStates states (generationStatesForPlan newPlan .shadowStarting)) states') :
    activatedStates newPlan states' = activatedStates newPlan states := by
  have hannounced : activatedStates newPlan
      (addGenerationStates states (generationStatesForPlan newPlan .shadowStarting)) =
        activatedStates newPlan states := by
    unfold activatedStates
    rw [map_addGenerationStates]
    · have hphase : (generationStatesForPlan newPlan .shadowStarting).map (fun state =>
          if state.generation = newPlan.registryGeneration then { state with phase := .active }
          else if state.phase = .active then { state with phase := .draining }
          else state) = generationStatesForPlan newPlan .active := by
        unfold generationStatesForPlan
        rw [List.map_map]
        simp only [Function.comp_def, if_true]
      rw [hphase, addGenerationStates_twice]
    · intro state
      split
      · exact ⟨rfl, rfl⟩
      · split <;> exact ⟨rfl, rfl⟩
  rcases h with rfl | rfl
  · exact hannounced
  · rw [← hannounced]
    unfold activatedStates
    rw [List.map_map]
    congr 1
    refine map_congr_left fun state _ => ?_
    dsimp only [Function.comp]
    split <;> simp_all

/-! ## Failed reloads -/

/-- The pool, the registry, the generation states and the plan are what they were. -/
structure Untouched (rt rt' : CoreRuntime) : Prop where
  tasks : rt'.tasks = rt.tasks
  registry : rt'.registry = rt.registry
  generationStates : rt'.generationStates = rt.generationStates
  loadPlan : rt'.loadPlan = rt.loadPlan

/-- Every plugin of the new plan has a state of the new generation already. -/
def Announced (newPlan : RuntimeLoadPlan) (start : CoreRuntime) : Prop :=
  addGenerationStates start.generationStates (generationStatesForPlan newPlan .shadowStarting) =
    start.generationStates

/-- The reload has no invocation to cancel, and its plan, its registry and its generation states
    are those that are there. -/
structure NothingToChange (order : IterationOrder) (newPlan : RuntimeLoadPlan)
    (newRegistry : RunnerRegistry) (start : CoreRuntime) : Prop where
  drains : ∀ disposition ∈ start.classifyRunningInvocations order,
    disposition.pollution.needsDrain = true
  loadPlan : newPlan = start.loadPlan
  registry : newRegistry = start.registry
  generationStates : activatedStates newPlan start.generationStates = start.generationStates

variable {dispositions : List RunningInvocationDisposition}

/-- A pool is the same after cancellations exactly if nothing had to be cancelled. -/
theorem Cancelled.pool_eq_iff (h : Good start.tasks)
    (hsub : ∀ disposition ∈ dispositions, disposition ∈ start.classifyRunningInvocations order)
    (hcancelled : Cancelled dispositions start.tasks pool) :
    (∀ (id : TaskId) r, start.tasks.tasks[id]? = some r → r.status = .running →
        ∃ r', pool.tasks[id]? = some r' ∧ r'.status = .running) ↔
      ∀ disposition ∈ dispositions, disposition.pollution.needsDrain = true := by
  constructor
  · intro hsame disposition hmem
    by_contra hclean
    rw [Bool.not_eq_true] at hclean
    obtain ⟨id, hunder, hnot⟩ := hcancelled.released disposition hmem hclean _
      (runsUnder_of_mem_classify h (hsub disposition hmem))
    obtain ⟨r, _, hr, hrun, -⟩ := hunder
    obtain ⟨r', hr', hrun'⟩ := hsame id r hr hrun
    exact hnot r' hr' hrun'
  · intro hall id r hr hrun
    refine ⟨r, ?_, hrun⟩
    rw [hcancelled.drained hall]
    exact hr

theorem untouched_reloading_iff (h : Good start.tasks) (hreloading : Reloading newPlan start rt)
    (hsub : ∀ disposition ∈ dispositions, disposition ∈ start.classifyRunningInvocations order)
    (hcancelled : Cancelled dispositions start.tasks rt.tasks) :
    Untouched start rt ↔ (∀ disposition ∈ dispositions, disposition.pollution.needsDrain = true) ∧
        Announced newPlan start := by
  have hstates : rt.generationStates = addGenerationStates start.generationStates
      (generationStatesForPlan newPlan .shadowStarting) := by
    rw [hreloading.frame]
  constructor
  · intro hsame
    refine ⟨(hcancelled.pool_eq_iff h hsub).1 fun id r hr hrun => ⟨r, ?_, hrun⟩, ?_⟩
    · rw [hsame.tasks]
      exact hr
    · exact hstates.symm.trans hsame.generationStates
  · rintro ⟨hall, hannounced⟩
    refine ⟨hcancelled.drained hall, hreloading.registry, hstates.trans hannounced, ?_⟩
    rw [hreloading.frame]

/-- An empty registry is disposed without an error, so one that is not cannot come back. -/
theorem not_untouched_disposed {e : RuntimeError}
    (hdispose : start.registry.disposeAll calls = .error e) :
    ¬ Untouched start { mid with registry := {} } := by
  intro hsame
  rw [← hsame.registry] at hdispose
  cases hdispose

theorem untouched_swapped_iff (h : Good start.tasks)
    (hmid : CancelledAll calls order newPlan start mid) {kept : List DrainingGeneration}
    (hswapped : Swapped newPlan newRegistry kept mid rt) :
    Untouched start { rt with drainingGenerations := [] } ↔
      NothingToChange order newPlan newRegistry start := by
  have hplan : rt.loadPlan = newPlan := by rw [hswapped.frame]
  have hregistry : rt.registry = newRegistry := by rw [hswapped.frame]
  have hmidPlan : mid.loadPlan = start.loadPlan := by rw [hmid.reloading.frame]
  have hmidStates : mid.generationStates = addGenerationStates start.generationStates
      (generationStatesForPlan newPlan .shadowStarting) := by rw [hmid.reloading.frame]
  -- with the plan that is there, the states are those of an activation
  have hstates : newPlan = start.loadPlan →
      rt.generationStates = activatedStates newPlan start.generationStates := by
    intro hsame
    obtain ⟨states, hretires, hactivated⟩ := hswapped.generationStates
    rw [hmidPlan, ← hsame, hmidStates] at hretires
    rw [hactivated, activatedStates_retired hretires]
  constructor
  · intro hsame
    have hnew : newPlan = start.loadPlan := hplan.symm.trans hsame.loadPlan
    refine ⟨?_, hnew, hregistry.symm.trans hsame.registry,
      (hstates hnew).symm.trans hsame.generationStates⟩
    refine (hmid.cancelled.pool_eq_iff h fun _ hmem => hmem).1 fun id r hr hrun => ?_
    have hkept : rt.tasks.tasks[id]? = some r := by
      have htasks : rt.tasks = start.tasks := hsame.tasks
      rw [htasks]
      exact hr
    rw [hswapped.tasks.2 id] at hkept
    obtain ⟨r', hr', rfl⟩ := map_eq_some_iff.1 hkept
    exact ⟨r', hr', by rw [← hrun, rebound_status]⟩
  · intro hnothing
    refine ⟨?_, hregistry.trans hnothing.registry,
      (hstates hnothing.loadPlan).trans hnothing.generationStates,
      hplan.trans hnothing.loadPlan⟩
    show rt.tasks = start.tasks
    rw [hswapped.unbound (by rw [hmidPlan, hnothing.loadPlan])]
    exact hmid.cancelled.drained hnothing.drains

/-- What a reload must meet to leave everything alone when it fails: it fails in its checks; or
    at the first clean invocation, with its generation announced before; or it cannot fail after
    its cancellations; or it has nothing to change. -/
def FailsCleanly (calls : RunnerCalls) (order : IterationOrder) (newPlan : RuntimeLoadPlan)
    (newRunners : List Runner) (newAsyncHandlers : List AsyncBatchHandler)
    (start : CoreRuntime) : Prop :=
  match start.checkReload newPlan newRunners newAsyncHandlers with
  | .error _ => True
  | .ok (_, newRegistry) =>
    let dispositions := start.classifyRunningInvocations order
    if (dispositions.forM (cancelAnswer start.registry calls)).isOk then
      MayRetire calls order start ∧
        (SettleFails calls order start → NothingToChange order newPlan newRegistry start)
    else
      (∀ disposition ∈ answeredOf start.registry calls dispositions,
        disposition.pollution.needsDrain = true) ∧ Announced newPlan start

theorem answeredOf_subset {registry : RunnerRegistry} :
    ∀ disposition ∈ answeredOf registry calls dispositions, disposition ∈ dispositions :=
  fun _ hmem => takeWhile_subset _ hmem

theorem swap_untouched_iff (h : Run allowed start) :
    wp (swapGeneration calls order newPlan newRegistry) (fun _ _ => True)
      (fun _ rt' => Untouched start rt') start ↔
      if ((start.classifyRunningInvocations order).forM
          (cancelAnswer start.registry calls)).isOk then
        MayRetire calls order start ∧
          (SettleFails calls order start → NothingToChange order newPlan newRegistry start)
      else
        (∀ disposition ∈ answeredOf start.registry calls (start.classifyRunningInvocations order),
          disposition.pollution.needsDrain = true) ∧ Announced newPlan start := by
  have hgood := h.good
  have hstages := @swapGeneration_stages calls order newPlan newRegistry start hgood
  constructor
  · intro huntouched
    rcases wp_outcome (wp_and hstages huntouched) with
      ⟨_, rt', -, ⟨mid, rt₁, hmid, hmay, hswapped, hsettled, -⟩, -⟩ | ⟨e, rt', -, hfailed, hsame⟩
    · rw [if_pos (by rw [hmid.answered]; rfl)]
      refine ⟨hmay, fun hfails => ?_⟩
      rw [← settleFails_iff h hmid hswapped, hsettled] at hfails
      cases hfails
    · rcases hfailed with ⟨herror, hreloading, hcancelled⟩ | ⟨mid, hmid, hlate⟩
      · rw [if_neg (by rw [herror]; exact Bool.false_ne_true)]
        exact (untouched_reloading_iff hgood hreloading answeredOf_subset hcancelled).1 hsame
      · rw [if_pos (by rw [hmid.answered]; rfl)]
        rcases hlate with ⟨-, hdispose, rfl⟩ | ⟨hmay, rt₁, hswapped, -, rfl⟩
        · exact absurd hsame (not_untouched_disposed hdispose)
        · exact ⟨hmay, fun _ => (untouched_swapped_iff hgood hmid hswapped).1 hsame⟩
  · intro hclean
    refine wp_mono hstages (fun _ _ _ => trivial) ?_
    rintro e rt' (⟨herror, hreloading, hcancelled⟩ | ⟨mid, hmid, hlate⟩)
    · rw [if_neg (by rw [herror]; exact Bool.false_ne_true)] at hclean
      exact (untouched_reloading_iff hgood hreloading answeredOf_subset hcancelled).2 hclean
    · rw [if_pos (by rw [hmid.answered]; rfl)] at hclean
      rcases hlate with ⟨hdrain, hdispose, -⟩ | ⟨-, rt₁, hswapped, herror, rfl⟩
      · rcases hclean.1 with hmay | hmay
        · cases hdrain.symm.trans hmay
        · rw [hdispose] at hmay
          cases hmay
      · have hfails : SettleFails calls order start := by
          rw [← settleFails_iff h hmid hswapped, herror]
          rfl
        exact (untouched_swapped_iff hgood hmid hswapped).2 (hclean.2 hfails)

/-- A reload that fails in a state of a run leaves the pool, the registry, the generation states
    and the plan alone exactly if it fails cleanly. -/
theorem failed_reload_untouched_iff {start : CoreRuntime} (h : Run (fun _ _ => True) start)
    (calls : RunnerCalls) (order : IterationOrder) (newPlan : RuntimeLoadPlan)
    (newRunners : List Runner) (newAsyncHandlers : List AsyncBatchHandler) :
    (∀ e rt', (reloadWithAsyncHandlers calls order newPlan newRunners newAsyncHandlers).run start =
        (.err e, rt') → Untouched start rt') ↔
      FailsCleanly calls order newPlan newRunners newAsyncHandlers start := by
  have hsafe : wp (reloadWithAsyncHandlers calls order newPlan newRunners newAsyncHandlers)
      (fun _ _ => True) (fun _ _ => True) start := by
    rw [wp_reload]
    split
    · trivial
    · exact wp_mono (swapGeneration_stages h.good) (fun _ _ _ => trivial) (fun _ _ _ => trivial)
  rw [wp_errors_iff hsafe, wp_reload]
  unfold FailsCleanly
  cases start.checkReload newPlan newRunners newAsyncHandlers with
  | error e => exact ⟨fun _ => trivial, fun _ => ⟨rfl, rfl, rfl, rfl⟩⟩
  | ok checked => exact swap_untouched_iff h

end FailedReloads

/-- Plugin code that does nothing and does not fail. -/
def obliging : RunnerCalls := answering fun taskId => { taskId, status := .completed }

/-- A plan without the runner that comes with it is refused. -/
theorem failed_reload_untouched_sample :
    ∃ e rt', (reloadWithAsyncHandlers obliging storedOrder (planOf 2 []) [workRunner] []).run
      claimedRuntime = (.err e, rt') ∧ Untouched claimedRuntime rt' := by
  have hrun : Run (fun _ _ => True) claimedRuntime := run_sampleRuntime.after _ fun _ _ _ => trivial
  have hrefused : (claimedRuntime.checkReload (planOf 2 []) [workRunner] []).isOk = false := by
    decide +kernel
  have herror : ((reloadWithAsyncHandlers obliging storedOrder (planOf 2 []) [workRunner] []).run
      claimedRuntime).1.error?.isSome = true := by
    decide +kernel
  generalize claimedRuntime = rt at hrun hrefused herror
  have hclean : FailsCleanly obliging storedOrder (planOf 2 []) [workRunner] [] rt := by
    unfold FailsCleanly
    cases hchecked : rt.checkReload (planOf 2 []) [workRunner] [] with
    | error e => trivial
    | ok checked =>
      rw [hchecked] at hrefused
      cases hrefused
  obtain ⟨e, he⟩ := isSome_iff_exists.1 herror
  have houtcome := Outcome.error?_eq_some.1 he
  refine ⟨e, _, Prod.ext houtcome rfl, ?_⟩
  exact (failed_reload_untouched_iff hrun _ _ _ _ _).2 hclean e _ (Prod.ext houtcome rfl)

/-- The plugin of `work` in its second generation. -/
def secondPlan : RuntimeLoadPlan :=
  planOf 2 [pluginOf kernelRunner .core, pluginOf workRunner .domain]

def stuckCalls : RunnerCalls :=
  { obliging with dispose := fun _ => .error (runtimeError "plugin.failed" "plugin" "dispose") }

/-- `t.1` runs on the only instance of `work`, which therefore cannot be told to cancel it: the
    reload fails with the new generation announced.  With idle runners that do not let themselves
    be disposed it fails with an empty registry. -/
theorem failed_reload_leaves_changes : (Run (fun _ _ => True) claimedRuntime ∧
      ((reloadWithAsyncHandlers obliging storedOrder secondPlan [kernelRunner, workRunner] []).run
        claimedRuntime).1.error?.isSome = true ∧
      claimedRuntime.generationStates.length = 2 ∧
      ((reloadWithAsyncHandlers obliging storedOrder secondPlan [kernelRunner, workRunner] []).run
        claimedRuntime).2.generationStates.length = 4) ∧
    (Run (fun _ _ => True) sampleRuntime ∧
      ((reloadWithAsyncHandlers stuckCalls storedOrder secondPlan [kernelRunner, workRunner] []).run
        sampleRuntime).1.error?.isSome = true ∧
      sampleRuntime.registry.runnerIds = ["core.kernel", "work"] ∧
      ((reloadWithAsyncHandlers stuckCalls storedOrder secondPlan [kernelRunner, workRunner] []).run
        sampleRuntime).2.registry.runnerIds = []) :=
  ⟨⟨run_sampleRuntime.after _ fun _ _ _ => trivial, by decide +kernel, by decide +kernel,
    by decide +kernel⟩, run_sampleRuntime, by decide +kernel, by decide +kernel,
    by decide +kernel⟩

end CoreRuntime

end MutsukiRuntime
