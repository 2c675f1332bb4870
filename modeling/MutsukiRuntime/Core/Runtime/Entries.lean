/-
  MALFORMED BATCHES: what the checks of a batch ask for, and what becomes of its leases
  when it does not pass them.
-/
import MutsukiRuntime.Core.Runtime.Completions

namespace MutsukiRuntime

open Std Board TaskPool Prog List

namespace CoreRuntime

variable {rt rt' : CoreRuntime} {descriptor : RunnerDescriptor} {lease : TaskLease}

/-! ## Failing every lease -/

/-- The event log has grown by events of these names only. -/
def Logs (names : List String) (rt rt' : CoreRuntime) : Prop :=
  LogsOnly names rt.events rt'.events

instance (names : List String) : IsPreorder CoreRuntime (Logs names) where
  refl _ := .refl
  trans _ _ _ h h' := Relation.ReflTransGen.trans h h'

/-- The runtime reports events of these names only, and enqueues nothing. -/
structure Reports (names : List String) (rt rt' : CoreRuntime) : Prop where
  events : Logs names rt rt'
  derived : Shrinks rt.tasks rt'.tasks

instance (names : List String) : IsPreorder CoreRuntime (Reports names) where
  refl rt := ⟨refl_of (Logs names) rt, refl_of Shrinks rt.tasks⟩
  trans _ _ _ h h' :=
    ⟨trans_of (Logs names) h.events h'.events, trans_of Shrinks h.derived h'.derived⟩

variable {names : List String} {failure : RuntimeError} {other : TaskLease} {r : TaskRecord}
  {leases : List TaskLease} {entries : List BatchEntry}

theorem reports_recordEvent (kind : RuntimeEventKind) {name : String}
    (hname : name ∈ names) (subjectId : Option String) (attributes : Attributes)
    (error : Option RuntimeError) :
    Leads (Reports names) (recordEvent kind name subjectId attributes error) :=
  .update fun rt => ⟨.single ⟨kind, name, subjectId, attributes, error, hname, rfl⟩,
    refl_of Shrinks rt.tasks⟩

theorem reports_onPool {α : Type} {m : PoolM α}
    (h : Leads (Revises fun _ _ => True) m) : Leads (Reports names) (onPool m) :=
  .zoom h fun rt _ hr => ⟨refl_of (Logs names) rt, hr.shrinks⟩

theorem failRunnerDispatch_reports (lease : TaskLease) (failure : RuntimeError) :
    Leads (Reports ["task.failed", "task.wake"]) (failRunnerDispatch lease failure) := by
  refine .bind .read fun rt => .bind (.attempt (reports_onPool
    (revises_leased (.fail failure) trivial rt.currentStep))) fun outcome => ?_
  cases outcome with
  | error e => exact .pure 0
  | ok _ =>
    refine .bind (reports_recordEvent _ (by simp) _ _ _) fun _ => .bind ?_ fun _ => .pure 1
    refine .bind (reports_onPool (revises_takeWaitsForChild _)) fun waits =>
      .foldEach fun woken taskAwait _ => .bind .read fun rt => .ite ?_ (.pure woken)
    exact .bind (reports_onPool (revises_wake trivial _)) fun _ =>
      .bind (reports_recordEvent _ (by simp) _ _ _) fun _ => .pure _

/-- What failing the leases of a dispatch leaves: no task enqueued, states and resources as they
    were, no event but failures and wake-ups, and every lease that was active failed. -/
structure FailsLeases (leases : List TaskLease) (failure : RuntimeError) (rt rt' : CoreRuntime) :
    Prop where
  derived : Shrinks rt.tasks rt'.tasks
  states : rt'.states = rt.states
  resources : rt'.resources = rt.resources
  events : Logs ["task.failed", "task.wake"] rt rt'
  failed : ∀ lease ∈ leases, ∀ r, rt.tasks.tasks[lease.taskId]? = some r →
    leaseActive r lease rt.currentStep = true →
      Records rt.currentStep lease r rt'.tasks (some (.fail failure))

/-- What one failure does to the records: its own lease fails if it is active, other records that
    run stay, and ended ones are at most dropped. -/
structure FailsOne (lease : TaskLease) (failure : RuntimeError) (rt rt' : CoreRuntime) :
    Prop where
  good : Good rt'.tasks
  currentStep : rt'.currentStep = rt.currentStep
  states : rt'.states = rt.states
  resources : rt'.resources = rt.resources
  failed : ∀ r, rt.tasks.tasks[lease.taskId]? = some r →
    leaseActive r lease rt.currentStep = true →
      Records rt.currentStep lease r rt'.tasks (some (.fail failure))
  running : ∀ (id : TaskId) r, rt.tasks.tasks[id]? = some r → r.status = .running →
    (id = lease.taskId → leaseActive r lease rt.currentStep = false) →
      rt'.tasks.tasks[id]? = some r
  ended : ∀ id : TaskId, ¬ rt.tasks.board.Live id →
    rt'.tasks.tasks[id]? = rt.tasks.tasks[id]? ∨ rt'.tasks.tasks[id]? = none

theorem failRunnerDispatch_fails (h : Good rt.tasks) (lease : TaskLease) (failure : RuntimeError) :
    wp (failRunnerDispatch lease failure) (fun _ => FailsOne lease failure rt)
      (fun _ _ => False) rt := by
  by_cases hactive : ∃ r, rt.tasks.tasks[lease.taskId]? = some r ∧
      leaseActive r lease rt.currentStep = true
  · have hself : Steady { ids := only lease.taskId } False noneTaken rt rt :=
      steady_self h fun hf => hf.elim
    refine wp_mono (wp_and (failRunnerDispatch_records h failure)
      (failRunnerDispatch_steady hself rfl failure)) ?_ (fun _ _ hf => hf.1)
    intro _ rt' ⟨hrecords, hs⟩
    obtain ⟨r₀, hr₀, ha₀⟩ := hactive
    refine ⟨hs.good, hs.currentStep, hs.states, hs.resources, hrecords, ?_,
      fun id hdead => hs.pool.reach.ended_kept (fun ⟨_, _, hf⟩ => hf) hdead⟩
    intro id r hr hrun hstale
    refine hs.pool.reach.running_kept (fun hid => ?_) hr hrun
    have hid : id = lease.taskId := hid
    subst hid
    cases hr₀.symm.trans hr
    rw [hstale rfl] at ha₀
    cases ha₀
  · -- a stale lease: nothing happens
    have hstale : Stale rt lease := by
      intro r hr
      cases ha : leaseActive r lease rt.currentStep with
      | false => rfl
      | true => exact absurd ⟨r, hr, ha⟩ hactive
    unfold failRunnerDispatch
    rw [wp_bind, wp_read, wp_bind, wp_attempt, wp_onPool]
    refine wp_mono (hstale.exec h (.fail failure)) (fun _ _ hf => hf.elim) ?_
    rintro _ _ rfl
    exact ⟨h, rfl, rfl, rfl, fun r hr ha => absurd ⟨r, hr, ha⟩ hactive,
      fun _ _ hr _ _ => hr, fun _ _ => .inl rfl⟩

/-- The record of an active lease fails with it, and stays if another lease fails. -/
theorem FailsOne.active (h : FailsOne lease failure rt rt')
    (hr : rt.tasks.tasks[other.taskId]? = some r)
    (hactive : leaseActive r other rt.currentStep = true) :
    (other ≠ lease ∧ rt'.tasks.tasks[other.taskId]? = some r) ∨
      Records rt.currentStep other r rt'.tasks (some (.fail failure)) := by
  by_cases he : other = lease
  · subst he
    exact .inr (h.failed r hr hactive)
  · refine .inl ⟨he, h.running other.taskId r hr (leaseActive_iff.1 hactive).1 fun _ => ?_⟩
    cases hl : leaseActive r lease rt.currentStep with
    | false => rfl
    | true =>
      have hone := (leaseActive_iff.1 hl).2.2.1
      rw [(leaseActive_iff.1 hactive).2.2.1] at hone
      exact absurd (Option.some.inj hone) he

theorem FailsOne.recorded (h : FailsOne lease failure rt rt') {currentStep : Nat}
    (hdone : Records currentStep other r rt.tasks (some (.fail failure))) :
    Records currentStep other r rt'.tasks (some (.fail failure)) := by
  have hdead : ¬ rt.tasks.board.Live other.taskId := by
    rintro ⟨v, hv, hlive⟩
    rcases hdone with hk | ⟨hk, -⟩
    · cases hk.symm.trans hv
      cases hlive
    · cases hk.symm.trans hv
  rcases h.ended other.taskId hdead with he | he
  · exact hdone.imp (fun hk => he.trans hk) fun hk => ⟨he.trans hk.1, hk.2⟩
  · exact .inr ⟨he, rfl⟩

theorem failRunnerDispatches_fails (h : Good rt.tasks) (leases : List TaskLease)
    (failure : RuntimeError) :
    wp (failRunnerDispatches leases failure)
      (fun _ => FailsLeases leases failure rt) (fun _ _ => False) rt := by
  -- the leases still to come are untouched, the others have failed
  let I (rest : List TaskLease) (_ : Nat) (rt' : CoreRuntime) : Prop :=
    Good rt'.tasks ∧ rt'.currentStep = rt.currentStep ∧ rt'.states = rt.states ∧
      rt'.resources = rt.resources ∧ Reports ["task.failed", "task.wake"] rt rt' ∧
      ∀ lease ∈ leases, ∀ r, rt.tasks.tasks[lease.taskId]? = some r →
        leaseActive r lease rt.currentStep = true →
          (lease ∈ rest ∧ rt'.tasks.tasks[lease.taskId]? = some r) ∨
            Records rt.currentStep lease r rt'.tasks (some (.fail failure))
  have hstart : I leases 0 rt :=
    ⟨h, rfl, rfl, rfl, refl_of (Reports _) rt, fun lease hmem r hr _ => .inl ⟨hmem, hr⟩⟩
  refine wp_total (wp_foldEach I hstart ?_) ?_
  · intro lease rest completed rt₁ ⟨hgood, hstep, hstates, hresources, hreports, hrecords⟩
    rw [wp_bind]
    refine wp_mono (wp_leads (failRunnerDispatch_fails hgood lease failure)
      (failRunnerDispatch_reports lease failure)) ?_ (fun _ _ hf => hf.1)
    intro count rt₂ ⟨hone, hreports'⟩
    refine ⟨hone.good, hone.currentStep.trans hstep, hone.states.trans hstates,
      hone.resources.trans hresources, trans_of (Reports _) hreports hreports', ?_⟩
    intro other hmem r hr ha
    rcases hrecords other hmem r hr ha with ⟨hrest, hr₁⟩ | hdone
    · have hactive : leaseActive r other rt₁.currentStep = true := by
        rw [hstep]
        exact ha
      rw [← hstep]
      exact (hone.active hr₁ hactive).imp_left fun ⟨hne, hkept⟩ =>
        ⟨(mem_cons.1 hrest).resolve_left hne, hkept⟩
    · exact .inr (hone.recorded hdone)
  · intro _ rt₁ ⟨_, _, hstates, hresources, hreports, hrecords⟩
    refine ⟨hreports.derived, hstates, hresources, hreports.events, fun lease hmem r hr ha => ?_⟩
    exact (hrecords lease hmem r hr ha).resolve_left fun hb => not_mem_nil hb.1

/-! ## Malformed batches -/

/-- The batch has another id, names an unknown entry, answers one twice, or pairs one with the
    wrong task. -/
def Malformed (completion : RunnerCompletion) (batch : CompletionBatch) : Prop :=
  batch.batchId ≠ completion.batchId ∨
  (∃ answer ∈ batch.results, ∀ entry ∈ completion.expectedEntries,
    entry.entryId ≠ answer.entryId) ∨
  ¬ (batch.results.map (·.entryId)).Nodup ∨
  ∃ answer ∈ batch.results, ∃ entry ∈ completion.expectedEntries,
    entry.entryId = answer.entryId ∧ entry.taskId ≠ answer.taskId

/-- The expected entries that pass their check have distinct ids and a lease each. -/
theorem badExpectedEntry_eq_none : badExpectedEntry leases [] entries = none ↔
    (∀ entry ∈ entries, (leaseOf leases entry.taskId).isNone = false) ∧
      (entries.map (·.entryId)).Nodup := by
  refine (Checks.scan_eq_none (·.entryId)
    (fun entry => (leaseOf leases entry.taskId).isNone = false)
    (fun _ => rfl) fun seen entry entries => ?_).trans (by simp)
  grind [badExpectedEntry]

/-- The answers that pass their check name expected entries, each with its task, and once. -/
theorem badCompletion_eq_none {answers : List EntryCompletion} :
    badCompletion leases entries [] answers = none ↔
      (∀ answer ∈ answers, ∃ entry, entries.find? (·.entryId == answer.entryId) = some entry ∧
        entry.taskId = answer.taskId ∧ (leaseOf leases answer.taskId).isNone = false) ∧
      (answers.map (·.entryId)).Nodup := by
  refine (Checks.scan_eq_none (·.entryId) (fun answer => ∃ entry, entries.find?
    (·.entryId == answer.entryId) = some entry ∧ entry.taskId = answer.taskId ∧
      (leaseOf leases answer.taskId).isNone = false) (fun _ => rfl)
    fun answered answer answers => ?_).trans (by simp)
  grind [badCompletion]

theorem Malformed.routeCompletion {completion : RunnerCompletion} {batch : CompletionBatch}
    (h : Malformed completion batch) (hresult : completion.result = .ok batch)
    (descriptor : RunnerDescriptor) :
    ∃ route, CoreRuntime.routeCompletion descriptor completion =
      failRunnerDispatches completion.taskLeases (batchClaimConflict route) := by
  unfold CoreRuntime.routeCompletion
  rw [hresult]
  dsimp only
  split
  · exact ⟨_, rfl⟩
  next hid =>
    unfold routeCompletionBatch
    cases hexpected : badExpectedEntry completion.taskLeases [] completion.expectedEntries with
    | some entryId => exact ⟨_, rfl⟩
    | none =>
      cases hanswers : badCompletion completion.taskLeases completion.expectedEntries []
          batch.results with
      | some entryId => exact ⟨_, rfl⟩
      | none =>
        exfalso
        obtain ⟨-, hentries⟩ := badExpectedEntry_eq_none.1 hexpected
        obtain ⟨hall, hnd⟩ := badCompletion_eq_none.1 hanswers
        rcases h with h | ⟨answer, hmem, hunknown⟩ | h | ⟨answer, hmem, entry, he, hsame, hne⟩
        · exact hid h
        · obtain ⟨entry, hfound, -⟩ := hall answer hmem
          exact hunknown entry (mem_of_find?_eq_some hfound) (by simpa using find?_some hfound)
        · exact h hnd
        · obtain ⟨found, hfound, htask, -⟩ := hall answer hmem
          have hfid : found.entryId = answer.entryId := by
            simpa using find?_some hfound
          have hsameEntry : found = entry :=
            inj_on_of_nodup_map hentries (mem_of_find?_eq_some hfound) he (hfid.trans hsame.symm)
          exact hne (hsameEntry ▸ htask)

/-- A malformed batch of a registered runner routes no output, and every lease it still holds
    fails with a claim conflict; the failed record may be dropped at once by the history.  Of a
    runner that is no longer registered nothing is routed and nothing fails. -/
theorem malformed_completion_fails {rt : CoreRuntime} (h : Run (fun _ _ => True) rt)
    {completion : RunnerCompletion} {batch : CompletionBatch}
    (hresult : completion.result = .ok batch) (hbad : Malformed completion batch) :
    ((rt.completionDescriptor completion).isSome = true →
      ∃ route, FailsLeases completion.taskLeases (batchClaimConflict route) rt
        ((completeRunnerDispatch completion).run rt).2) ∧
    ((rt.completionDescriptor completion).isSome = false →
      (completeRunnerDispatch completion).run rt =
        (.err (runtimeError errRunnerNotFound "runtime.runner_loop"
          s!"batch.{completion.batchId}.runner"), rt)) := by
  have horderly := h.inOrder
  unfold completeRunnerDispatch
  rw [run_read_bind]
  cases rt.completionDescriptor completion with
  | none => exact ⟨nofun, fun _ => rfl⟩
  | some descriptor =>
    refine ⟨fun _ => ?_, nofun⟩
    obtain ⟨route, hroute⟩ := hbad.routeCompletion hresult descriptor
    refine ⟨route, ?_⟩
    have hfails : wp (do
        returnRunner completion.runner
        let completed ← routeCompletion descriptor completion
        pure ({ claimedTasks := 0, completedTasks := completed } : RunnerLoopReport))
        (fun _ => FailsLeases completion.taskLeases (batchClaimConflict route) rt)
        (fun _ => FailsLeases completion.taskLeases (batchClaimConflict route) rt) rt := by
      rw [hroute, wp_bind]
      cases completion.runner with
      | none =>
        rw [returnRunner, wp_pure, wp_bind]
        exact wp_total (failRunnerDispatches_fails horderly.good _ _) (fun _ _ hf => hf)
      | some runner =>
        rw [returnRunner, wp_update, wp_bind]
        refine wp_total (failRunnerDispatches_fails ?_ _ _) ?_
        · exact horderly.good
        · exact fun _ _ hf => ⟨hf.derived, hf.states, hf.resources, hf.events, hf.failed⟩
    exact wp_run hfails

/-- The first answer derives a task, and the last is to an entry that was not asked for. -/
def strayAnswer : RunnerCompletion :=
  answerOf [sampleLease]
    [{ taskId := "t.1", status := .completed, tasks := [Task.new "c" "p.work" .null] },
      { taskId := "t.2", status := .completed }]

/-- The lease of the claimed task fails, and the task of the first answer is not there. -/
theorem malformed_completion_fails_sample :
    ((completeRunnerDispatch strayAnswer).run claimedRuntime).2.taskStatus "t.1" = some .failed ∧
      ((completeRunnerDispatch strayAnswer).run claimedRuntime).2.taskStatus "c" = none ∧
      ∃ route, FailsLeases [sampleLease] (batchClaimConflict route) claimedRuntime
        ((completeRunnerDispatch strayAnswer).run claimedRuntime).2 := by
  have hrun : Run (fun _ _ => True) claimedRuntime := run_sampleRuntime.after _ (by simp)
  have hregistered : (claimedRuntime.completionDescriptor strayAnswer).isSome = true := by
    decide +kernel
  refine ⟨by decide +kernel, by decide +kernel, ?_⟩
  generalize claimedRuntime = rt at hrun hregistered
  have hstray : ∀ entry ∈ strayAnswer.expectedEntries, entry.entryId ≠ "t.2" := by decide +kernel
  exact (malformed_completion_fails hrun rfl
    (.inr (.inl ⟨_, List.mem_cons_of_mem _ List.mem_cons_self, hstray⟩))).1 hregistered

def effectRunner : Runner where
  descriptor :=
    { runnerId := "effects", pluginId := "plugin", pluginGeneration := 1
      acceptedProtocolIds := ["p.effect"], purity := .effectful, executionClass := .io }

/-- The kernel and a runner of effects, which holds a task. -/
def effectRuntime : CoreRuntime :=
  after [.submitTask (Task.new "t.1" "p.effect" .null), .claimReadyDispatches keenPolicy none]
    ((boot (planOf 1 [pluginOf kernelRunner .core, pluginOf effectRunner .effect])
      [kernelRunner, effectRunner] []).toOption.get (by decide +kernel))

theorem run_effectRuntime : Run (fun _ _ => True) effectRuntime := (Run.of_boot _).after _ (by simp)

def effectLease : TaskLease :=
  { sampleLease with runnerId := "effects", executorId := "executor:effects" }

/-- An answer under the id of another batch. -/
def misnumbered : RunnerCompletion :=
  { answerOf [effectLease] [] with runner := some effectRunner, batchId := "batch" }

/-- A reload has removed the runner while it held the task. -/
def retiredRuntime : CoreRuntime :=
  after [.reloadWithAsyncHandlers (answering (waitFor (Task.new "c" "p.work" .null) .cascade))
    storedOrder (planOf 2 [pluginOf kernelRunner .core]) [kernelRunner] []] effectRuntime

/-- The malformed answer of a removed runner leaves its task running under the lease. -/
theorem malformed_answer_of_removed_runner : Run (fun _ _ => True) retiredRuntime ∧
      Malformed misnumbered
        { batchId := "b", tickId := "tick-1", results := [] } ∧
      retiredRuntime.tasks.tasks["t.1"]?.map
        (leaseActive · effectLease retiredRuntime.currentStep) = some true ∧
      ((completeRunnerDispatch misnumbered).run
        retiredRuntime).2.tasks.tasks["t.1"]?.map
          (leaseActive · effectLease retiredRuntime.currentStep) = some true :=
  ⟨run_effectRuntime.after _ (by simp), .inl (by decide), by decide +kernel, by decide +kernel⟩

end CoreRuntime

end MutsukiRuntime
