/-
  THE ENTRIES OF A BATCH, TURN BY TURN: what `completeRunnerDispatch` makes of a well
  formed batch.
-/
import MutsukiRuntime.Core.Runtime.Entries

namespace MutsukiRuntime

open Std Board TaskPool Prog List

namespace CoreRuntime

variable {rt rt' rt'' : CoreRuntime} {descriptor : RunnerDescriptor} {lease : TaskLease}

/-! ## One entry -/

/-- The answer to an entry. -/
def answerTo (answers : List EntryCompletion) (entry : BatchEntry) : Option EntryCompletion :=
  answers.find? (·.entryId == entry.entryId)

/-- The result of an answer, if it is one that is routed. -/
def routedResult (lease : TaskLease) (answer : Option EntryCompletion) : Option RunnerResult :=
  match answer with
  | none => none
  | some answer =>
    match answer.error, answer.result with
    | none, some result =>
      if result.taskId ≠ lease.taskId ∨ answer.taskId ≠ lease.taskId then none else some result
    | _, _ => none

/-- The results the loop routes, each under its lease. -/
def routedResults (leases : List TaskLease) (answers : List EntryCompletion)
    (entries : List BatchEntry) : List (TaskLease × RunnerResult) :=
  entries.filterMap fun entry => do
    let lease ← leaseOf leases entry.taskId
    let result ← routedResult lease (answerTo answers entry)
    pure (lease, result)

/-- The failure of an entry without a routed result. -/
def entryFailure (entry : BatchEntry) (answer : Option EntryCompletion) : RuntimeError :=
  match answer with
  | none => batchClaimConflict s!"batch.missing.{entry.entryId}"
  | some answer =>
    match answer.error, answer.result with
    | some error, _ => error
    | none, none => batchClaimConflict s!"batch.entry.empty.{answer.entryId}"
    | none, some result => batchClaimConflict s!"task.result.{result.taskId}"

/-- The ids of the tasks a result derives, whatever the generation. -/
def outputIds (descriptor : RunnerDescriptor) (result : RunnerResult) : List TaskId :=
  (pendingOutputTasks 0 descriptor.purity result).map (·.taskId)

theorem mem_outputIds {result : RunnerResult} {task : Task}
    (h : task ∈ rt.outputsOf descriptor result) : task.taskId ∈ outputIds descriptor result := by
  have hids : (rt.outputsOf descriptor result).map (·.taskId) = outputIds descriptor result := by
    unfold outputIds outputsOf pendingOutputTasks
    simp only [map_append, map_map, apply_ite (List.map Task.taskId), mapIdx_eq_zipIdx_map]
    rfl
  exact hids ▸ mem_map_of_mem h

/-- The leased operation an entry asks for; a `Continue` asks for none. -/
def entryOp (descriptor : RunnerDescriptor) (lease : TaskLease) (entry : BatchEntry)
    (answer : Option EntryCompletion) : Option LeasedOp :=
  match routedResult lease answer with
  | some result => resultOp descriptor result
  | none => some (.fail (entryFailure entry answer))

/-- The entry returned `Continue`. -/
def ReturnedContinue (lease : TaskLease) (answer : Option EntryCompletion) : Prop :=
  ∃ result, routedResult lease answer = some result ∧ result.status = .continue

/-- The result passes the checks of `route_result`, and awaits at most a task of its own that the
    runtime does not refuse. -/
def Routable (rt : CoreRuntime) (descriptor : RunnerDescriptor) (lease : TaskLease)
    (result : RunnerResult) : Prop :=
  rt.routeChecks descriptor lease result = .ok () ∧
    ∀ taskAwait ∈ result.taskAwait,
      ∃ child ∈ result.tasks.find? (·.taskId == taskAwait.child.taskId), ¬ rt.Refuses child

instance (result : RunnerResult) : Decidable (rt.Routable descriptor lease result) :=
  inferInstanceAs (Decidable (_ ∧ ∀ _ ∈ _, ∃ _ ∈ _, ¬ rt.Refuses _))

variable {entry : BatchEntry} {answer : Option EntryCompletion} {result : RunnerResult}

theorem routedResult_taskId (h : routedResult lease answer = some result) :
    result.taskId = lease.taskId := by
  unfold routedResult at h
  split at h
  · cases h
  · split at h
    · split at h
      · cases h
      next hids =>
        rw [not_or, not_not] at hids
        cases h
        exact hids.1
    · cases h

theorem entryOp_eq_none :
    entryOp descriptor lease entry answer = none ↔ ReturnedContinue lease answer := by
  unfold entryOp ReturnedContinue
  cases routedResult lease answer with
  | none => simp
  | some result =>
    unfold resultOp
    cases hstatus : result.status <;> simp [hstatus]

theorem routeEntry_cases (descriptor : RunnerDescriptor) (lease : TaskLease) (entry : BatchEntry)
    (answer : Option EntryCompletion) :
    (routedResult lease answer = none ∧ routeEntry descriptor lease entry answer =
      failRunnerDispatch lease (entryFailure entry answer)) ∨
    ∃ result, routedResult lease answer = some result ∧
      routeEntry descriptor lease entry answer = (do
        match ← Prog.attempt (routeResult descriptor lease result) with
        | .ok count => pure count
        | .error failure => rejectResult lease failure) := by
  cases answer with
  | none => exact .inl ⟨rfl, rfl⟩
  | some answer =>
    obtain ⟨entryId, taskId, result, error⟩ := answer
    cases error with
    | some error => exact .inl ⟨rfl, rfl⟩
    | none =>
      cases result with
      | none => exact .inl ⟨rfl, rfl⟩
      | some result =>
        unfold routeEntry routeEntryCompletion routedResult entryFailure
        dsimp only
        by_cases hids : result.taskId ≠ lease.taskId ∨ taskId ≠ lease.taskId
        · rw [if_pos hids, if_pos hids]
          exact .inl ⟨rfl, rfl⟩
        · rw [if_neg hids, if_neg hids]
          exact .inr ⟨result, rfl, rfl⟩

/-- What turns leave alone: the setup and the running records they do not touch.  No record starts
    to run. -/
structure TurnFrame (touched : List TaskId) (start rt : CoreRuntime) : Prop where
  orderly : InOrder rt
  currentStep : rt.currentStep = start.currentStep
  setup : SameSetup start rt
  running : ∀ (id : TaskId) r, id ∉ touched → start.tasks.tasks[id]? = some r →
    r.status = .running → rt.tasks.tasks[id]? = some r
  before : ∀ (id : TaskId) r, rt.tasks.tasks[id]? = some r → r.status = .running →
    start.tasks.tasks[id]? = some r

theorem TurnFrame.refl (h : InOrder rt) : TurnFrame [] rt rt :=
  ⟨h, rfl, ⟨rfl, rfl, rfl, rfl, rfl, rfl⟩, fun _ _ _ hr _ => hr, fun _ _ hr _ => hr⟩

theorem TurnFrame.trans {touched touched' : List TaskId} (h : TurnFrame touched rt rt')
    (h' : TurnFrame touched' rt' rt'') : TurnFrame (touched ++ touched') rt rt'' where
  orderly := h'.orderly
  currentStep := h'.currentStep.trans h.currentStep
  setup := h.setup.trans h'.setup
  running := fun id r hid hr hrun => by
    rw [mem_append, not_or] at hid
    exact h'.running id r hid.2 (h.running id r hid.1 hr hrun) hrun
  before := fun id r hr hrun => h.before id r (h'.before id r hr hrun) hrun

/-- What routing one entry may do. -/
def turnScope (rt : CoreRuntime) (lease : TaskLease) : Scope :=
  { new := fun _ => rt.stopState ≠ .aborted, effects := fun _ => True
    ids := only lease.taskId, completes := fun _ => True, links := fun _ => True }

theorem routeEntry_frame (h : InOrder rt) (descriptor : RunnerDescriptor) (lease : TaskLease)
    (answers : List EntryCompletion) (entry : BatchEntry) :
    TurnFrame [lease.taskId] rt
      ((routeEntry descriptor lease entry (answerTo answers entry)).run rt).2 := by
  have hadmits : AdmitsAll (turnScope rt lease) rt descriptor answers := fun _ _ _ _ =>
    ⟨fun _ _ => trivial, fun _ _ hopen _ => hopen, fun _ _ _ => trivial⟩
  have hself : Steady (turnScope rt lease) False noneTaken rt rt :=
    steady_self h.good fun hf => hf.elim
  have hs : Steady (turnScope rt lease) False noneTaken rt
      ((routeEntry descriptor lease entry (answerTo answers entry)).run rt).2 :=
    (keeps_routeEntry entry ⟨rfl, trivial⟩ hadmits).state hself
  exact ⟨h.steady hs (fun hf => hf.elim) (fun _ hopen => hopen), hs.currentStep,
    ⟨hs.loadPlan, hs.surfaces, hs.protocolClasses, hs.resources, hs.snapshot, hs.stopState⟩,
    fun _ _ hid hr hrun => hs.pool.reach.running_kept (fun h => hid (mem_singleton.2 h)) hr hrun,
    fun _ _ hr hrun => hs.pool.reach.running_before hr hrun⟩

/-- What an entry that goes through does: it records its operation, and the ids that become known
    are those of the tasks its routed result derives. -/
structure Turn (descriptor : RunnerDescriptor) (lease : TaskLease) (entry : BatchEntry)
    (answer : Option EntryCompletion) (rt rt' : CoreRuntime) : Prop where
  frame : TurnFrame [lease.taskId] rt rt'
  records : ∀ r, rt.tasks.tasks[lease.taskId]? = some r →
    leaseActive r lease rt.currentStep = true →
      Records rt.currentStep lease r rt'.tasks (entryOp descriptor lease entry answer)
  known : ∀ id, rt'.tasks.containsTaskId id = true → rt.tasks.containsTaskId id = true ∨
    ∃ result, routedResult lease answer = some result ∧ id ∈ outputIds descriptor result

theorem routeEntry_turn (h : InOrder rt) (answers : List EntryCompletion) (entry : BatchEntry)
    (hroutable : ∀ result, routedResult lease (answerTo answers entry) = some result →
      rt.Routable descriptor lease result) :
    ∃ count rt', (routeEntry descriptor lease entry (answerTo answers entry)).run rt =
        (.ok count, rt') ∧
      Turn descriptor lease entry (answerTo answers entry) rt rt' := by
  have hframe := routeEntry_frame h descriptor lease answers entry
  generalize answerTo answers entry = answer at hroutable hframe ⊢
  have hturn : wp (routeEntry descriptor lease entry answer)
      (fun _ rt' => TurnFrame [lease.taskId] rt rt' → Turn descriptor lease entry answer rt rt')
      (fun _ _ => False) rt := by
    rcases routeEntry_cases descriptor lease entry answer with ⟨hnone, he⟩ | ⟨result, hsome, he⟩
    · have hop : entryOp descriptor lease entry answer =
          some (.fail (entryFailure entry answer)) := by
        unfold entryOp
        rw [hnone]
      rw [he]
      refine wp_mono (wp_leads (failRunnerDispatch_records h.good _)
        (failRunnerDispatch_reports lease _)) ?_ (fun _ _ hf => hf.1)
      rintro _ rt' ⟨hrecords, hreports⟩ hframe
      exact ⟨hframe, hop ▸ hrecords, fun id hid => .inl (hreports.derived.known id hid)⟩
    · have hop : entryOp descriptor lease entry answer = resultOp descriptor result := by
        unfold entryOp
        rw [hsome]
      obtain ⟨hchecks, hown⟩ := hroutable result hsome
      rw [he, wp_bind, wp_attempt]
      refine wp_mono (routeResult_spec h.good h.stopped) ?_ ?_
      · rintro _ rt' ⟨-, -, hrecords, hknown⟩ hframe
        refine ⟨hframe, fun r hr _ => hop ▸ hrecords r hr, fun id hid =>
          (hknown id hid).imp_right ?_⟩
        rintro ⟨task, htask, rfl⟩
        exact ⟨result, hsome, mem_outputIds htask⟩
      · rintro e rt' (⟨herr, -⟩ | ⟨-, ⟨taskAwait, child, hawait, hfind, hrefused⟩, -⟩)
        · cases hchecks.symm.trans herr
        · obtain ⟨child', hfind', hnot⟩ := hown taskAwait hawait
          cases hfind.symm.trans hfind'
          exact absurd hrefused hnot
  obtain ⟨count, rt', hrun, hturn⟩ | ⟨_, _, -, hf⟩ := wp_outcome hturn
  · rw [hrun] at hframe
    exact ⟨count, rt', hrun, hturn hframe⟩
  · exact hf.elim

/-! ## The loop -/

variable {leases : List TaskLease} {answers : List EntryCompletion} {entries : List BatchEntry}

theorem mem_routedResults (hmem : entry ∈ entries)
    (hlease : leaseOf leases entry.taskId = some lease)
    (hresult : routedResult lease (answerTo answers entry) = some result) :
    (lease, result) ∈ routedResults leases answers entries :=
  mem_filterMap.2 ⟨entry, hmem, by simp [hlease, hresult]⟩

theorem validateWaitingResult_same {r : TaskRecord}
    (hsetup : SameSetup rt rt') (hr : rt.tasks.tasks[result.taskId]? = some r)
    (hr' : rt'.tasks.tasks[result.taskId]? = some r)
    (hown : ∀ taskAwait ∈ result.taskAwait,
      ∃ child, result.tasks.find? (·.taskId == taskAwait.child.taskId) = some child) :
    rt'.validateWaitingResult result = rt.validateWaitingResult result := by
  unfold validateWaitingResult validateAwaitChildDescriptor ensureTaskCanSuspend
  cases hawait : result.taskAwait with
  | none => rfl
  | some taskAwait =>
    obtain ⟨child, hchild⟩ := hown taskAwait (by simp [hawait])
    simp only [hchild, hr, hr', hsetup.resources]

/-- A routable result is still routable after the turn of another entry, if that one derives no
    task of an id that this one derives. -/
theorem Routable.later {touched : List TaskId}
    (h : rt.Routable descriptor lease result) (hframe : TurnFrame touched rt rt')
    (hid : result.taskId ∉ touched)
    (hfree : ∀ id ∈ outputIds descriptor result, rt'.tasks.containsTaskId id = true →
      rt.tasks.containsTaskId id = true) : rt'.Routable descriptor lease result := by
  obtain ⟨hchecks, hown⟩ := h
  obtain ⟨hlease, hwait, hstatus, hpurity, hids⟩ := routeChecks_ok_iff.1 hchecks
  obtain ⟨r, hr, ha⟩ := ensureActiveLease_ok_iff.1 hlease
  have hr' := hframe.running result.taskId r hid hr (leaseActive_iff.1 ha).1
  have hrefuses : ∀ child, rt'.Refuses child ↔ rt.Refuses child := fun child => by
    unfold Refuses deprecatedSurface isSurfaceDeprecated
    rw [hframe.setup.surfaces, hframe.setup.protocolClasses]
  refine ⟨routeChecks_ok_iff.2 ⟨ensureActiveLease_ok_iff.2 ⟨r, hr', hframe.currentStep ▸ ha⟩, ?_,
    hstatus, hpurity, ?_⟩, fun taskAwait hmem => ?_⟩
  · rw [validateWaitingResult_same hframe.setup hr hr' fun a hmem =>
      (hown a hmem).imp fun _ hchild => hchild.1]
    exact hwait
  · obtain ⟨hnew, hnd⟩ := ensureOutputTaskIdsAvailable_ok.1 hids
    have hsame : rt'.outputsOf descriptor result = rt.outputsOf descriptor result := by
      unfold outputsOf
      rw [hframe.setup.loadPlan]
    rw [hsame, ensureOutputTaskIdsAvailable_ok]
    refine ⟨fun t ht => Bool.eq_false_iff.2 fun hknown => ?_, hnd⟩
    cases (hnew t ht).symm.trans (hfree t.taskId (mem_outputIds ht) hknown)
  · obtain ⟨child, hfind, hnot⟩ := hown taskAwait hmem
    exact ⟨child, hfind, fun hrefused => hnot ((hrefuses child).1 hrefused)⟩

/-- The entry gets its turn: the loop reaches it over the entries before it, and goes on. -/
def GetsTurn (descriptor : RunnerDescriptor) (leases : List TaskLease)
    (answers : List EntryCompletion) (entries : List BatchEntry) (completed : Nat)
    (rt rt' : CoreRuntime) (entry : BatchEntry) (lease : TaskLease) : Prop :=
  ∃ pre post n rt₁ count rt₂, entries = pre ++ entry :: post ∧
    (routeEntries descriptor leases answers pre completed).run rt = (.ok n, rt₁) ∧
    (routeEntry descriptor lease entry (answerTo answers entry)).run rt₁ = (.ok count, rt₂) ∧
    TurnFrame (pre.map (·.taskId)) rt rt₁ ∧
    Turn descriptor lease entry (answerTo answers entry) rt₁ rt₂ ∧
    TurnFrame (post.map (·.taskId)) rt₂ rt'

/-- Entries whose routed results are routable, and derive tasks of different ids, all get their
    turn. -/
theorem routeEntries_turns (horderly : InOrder rt)
    (hleases : ∀ entry ∈ entries, (leaseOf leases entry.taskId).isNone = false)
    (hnodup : (entries.map (·.taskId)).Nodup)
    (hroutable : ∀ e ∈ routedResults leases answers entries, rt.Routable descriptor e.1 e.2)
    (hapart : (routedResults leases answers entries).Pairwise
      fun e e' => ∀ id ∈ outputIds descriptor e.2, id ∉ outputIds descriptor e'.2)
    (completed : Nat) :
    ∃ n rt', (routeEntries descriptor leases answers entries completed).run rt = (.ok n, rt') ∧
      TurnFrame (entries.map (·.taskId)) rt rt' ∧
      ∀ entry ∈ entries, ∀ lease, leaseOf leases entry.taskId = some lease →
        GetsTurn descriptor leases answers entries completed rt rt' entry lease := by
  induction entries generalizing rt completed with
  | nil => exact ⟨completed, rt, rfl, .refl horderly, fun _ hmem => absurd hmem not_mem_nil⟩
  | cons entry entries ih =>
    obtain ⟨lease, hlease⟩ := Option.isSome_iff_exists.1
      (Option.isNone_eq_false_iff.1 (hleases entry (by simp)))
    have htask := (leaseOf_mem hlease).2
    obtain ⟨count, rt₁, hrun, hturn⟩ := routeEntry_turn horderly answers entry fun result hresult =>
      hroutable (lease, result) (mem_routedResults (by simp) hlease hresult)
    have hstep : TurnFrame [entry.taskId] rt rt₁ := htask ▸ hturn.frame
    rw [map_cons, nodup_cons] at hnodup
    have hsplit : routedResults leases answers (entry :: entries) =
        routedResults leases answers [entry] ++ routedResults leases answers entries := by
      rw [routedResults, ← singleton_append, filterMap_append]
      rfl
    rw [hsplit, pairwise_append] at hapart
    have hlater : ∀ e ∈ routedResults leases answers entries, rt₁.Routable descriptor e.1 e.2 := by
      intro e he
      obtain ⟨other, hother, hres⟩ := mem_filterMap.1 he
      obtain ⟨lease', hlease', hres⟩ := Option.bind_eq_some_iff.1 hres
      obtain ⟨result, hresult, hpair⟩ := Option.bind_eq_some_iff.1 hres
      cases hpair
      refine (hroutable _ (hsplit ▸ mem_append_right _ he)).later hstep ?_ ?_
      · rw [routedResult_taskId hresult, (leaseOf_mem hlease').2, mem_singleton]
        exact fun heq => hnodup.1 (heq ▸ mem_map_of_mem hother)
      · intro id hid hknown
        refine (hturn.known id hknown).resolve_right ?_
        rintro ⟨first, hfirst, hmade⟩
        exact hapart.2.2 _ (mem_routedResults (by simp) hlease hfirst) _ he id hmade hid
    have hloop : ∀ more, (routeEntries descriptor leases answers (entry :: more) completed).run rt =
        (routeEntries descriptor leases answers more (completed + count)).run rt₁ := by
      intro more
      rw [routeEntries, hlease]
      exact run_bind_of_ok hrun _
    obtain ⟨n, rt', hrest, hframe, hturns⟩ := ih hturn.frame.orderly
      (fun e he => hleases e (mem_cons_of_mem _ he)) hnodup.2 hlater hapart.2.1 (completed + count)
    refine ⟨n, rt', (hloop entries).trans hrest, hstep.trans hframe, ?_⟩
    intro other hmem lease' hlease'
    rcases mem_cons.1 hmem with rfl | hmem
    · cases hlease.symm.trans hlease'
      exact ⟨[], entries, completed, rt, count, rt₁, rfl, rfl, hrun, .refl horderly, hturn, hframe⟩
    · obtain ⟨pre, post, m, rt₂, k, rt₃, rfl, hpre, hown, hbefore, hturn', hafter⟩ :=
        hturns other hmem lease' hlease'
      exact ⟨entry :: pre, post, m, rt₂, k, rt₃, rfl, (hloop pre).trans hpre, hown,
        hstep.trans hbefore, hturn', hafter⟩

/-! ## Well formed batches -/

/-- An answer that passes the checks of `route_completion_batch`, to a batch of different tasks. -/
structure WellFormed (completion : RunnerCompletion) (batch : CompletionBatch) : Prop where
  result : completion.result = .ok batch
  batchId : batch.batchId = completion.batchId
  distinct : (completion.expectedEntries.map (·.taskId)).Nodup
  expected : badExpectedEntry completion.taskLeases [] completion.expectedEntries = none
  answers : badCompletion completion.taskLeases completion.expectedEntries [] batch.results = none

variable {completion : RunnerCompletion} {batch : CompletionBatch}

/-- The runtime once the runner of a completion has been returned. -/
def returned (rt : CoreRuntime) (completion : RunnerCompletion) : CoreRuntime :=
  ((returnRunner completion.runner).run rt).2

theorem returned_frame (h : InOrder rt) (completion : RunnerCompletion) :
    TurnFrame [] rt (rt.returned completion) := by
  unfold returned
  cases completion.runner with
  | none => exact .refl h
  | some runner =>
    exact ⟨{ h with }, rfl, ⟨rfl, rfl, rfl, rfl, rfl, rfl⟩, fun _ _ _ hr _ => hr,
      fun _ _ hr _ => hr⟩

theorem completeRunnerDispatch_routes (hwf : WellFormed completion batch)
    (hfound : rt.completionDescriptor completion = some descriptor) :
    ((completeRunnerDispatch completion).run rt).2 =
      ((routeEntries descriptor completion.taskLeases batch.results completion.expectedEntries
        0).run (rt.returned completion)).2 := by
  unfold completeRunnerDispatch
  rw [run_read_bind, hfound]
  dsimp only
  have hroutes : routeCompletion descriptor completion = routeEntries descriptor
      completion.taskLeases batch.results completion.expectedEntries 0 := by
    unfold routeCompletion routeCompletionBatch
    rw [hwf.result]
    dsimp only
    rw [if_neg (not_not.2 hwf.batchId), hwf.expected]
    dsimp only
    rw [hwf.answers]
  rw [hroutes]
  have hreturn : (returnRunner completion.runner).run rt = (.ok (), rt.returned completion) := by
    unfold CoreRuntime.returned
    cases completion.runner <;> rfl
  rw [run_bind_of_ok hreturn, run_bind]
  split <;> simp_all

/-- The loop reaches the entry, finds the record it was leased with, and records the operation
    that its own answer asks for. -/
def RecordsOwn (rt : CoreRuntime) (completion : RunnerCompletion) (answers : List EntryCompletion)
    (entry : BatchEntry) (lease : TaskLease) (r : TaskRecord) : Prop :=
  ∃ descriptor op pre post n rt' count rt'',
    rt.completionDescriptor completion = some descriptor ∧
    entryOp descriptor lease entry (answerTo answers entry) = some op ∧
    completion.expectedEntries = pre ++ entry :: post ∧
    (routeEntries descriptor completion.taskLeases answers pre 0).run (rt.returned completion) =
      (.ok n, rt') ∧
    rt'.tasks.tasks[lease.taskId]? = some r ∧
    (routeEntry descriptor lease entry (answerTo answers entry)).run rt' = (.ok count, rt'') ∧
    Records rt.currentStep lease r rt''.tasks (some op)

/-- No task runs on under a lease of the batch unless its entry returned `Continue`, and every
    other entry whose lease was active has recorded the operation its own answer asks for. -/
def RecordsBatch (rt : CoreRuntime) (completion : RunnerCompletion) (batch : CompletionBatch) :
    Prop :=
  ∀ entry ∈ completion.expectedEntries, ∀ lease,
    leaseOf completion.taskLeases entry.taskId = some lease →
    (∀ v, ((completeRunnerDispatch completion).run rt).2.tasks.tasks[lease.taskId]? = some v →
      v.status = .running → v.lease = some lease →
        ReturnedContinue lease (answerTo batch.results entry)) ∧
    (∀ r, rt.tasks.tasks[lease.taskId]? = some r → leaseActive r lease rt.currentStep = true →
      ¬ ReturnedContinue lease (answerTo batch.results entry) →
        RecordsOwn rt completion batch.results entry lease r)

/-- Nothing in the batch can stop it: its runner is registered, each routed result is routable in
    the state before the call, and no two of them derive a task of the same id. -/
structure Untangled (rt : CoreRuntime) (completion : RunnerCompletion)
    (answers : List EntryCompletion) (descriptor : RunnerDescriptor) : Prop where
  registered : rt.completionDescriptor completion = some descriptor
  routable : ∀ e ∈ routedResults completion.taskLeases answers completion.expectedEntries,
    rt.Routable descriptor e.1 e.2
  apart : (routedResults completion.taskLeases answers completion.expectedEntries).Pairwise
    fun e e' => ∀ id ∈ outputIds descriptor e.2, id ∉ outputIds descriptor e'.2

theorem edit_not_running (op : LeasedOp) (currentStep : Nat) (r : TaskRecord) :
    (op.edit currentStep r).status ≠ .running := by
  cases op <;> simp [LeasedOp.edit, markTerminalRecord, clearRecordOwner, releaseRecordLease,
    suspendOn]

/-- A running record whose lease does not expire is one with an active lease. -/
theorem leaseActive_of_running (h : Good rt.tasks) {r : TaskRecord}
    (hr : rt.tasks.tasks[lease.taskId]? = some r) (hrun : r.status = .running)
    (hlease : r.lease = some lease) (hexpiry : lease.expiresAtStep = none) (currentStep : Nat) :
    leaseActive r lease currentStep = true := by
  have hclaimed := (h.records lease.taskId r hr).claimed
  rw [hlease] at hclaimed
  exact leaseActive_iff.2 ⟨hrun, hclaimed, hlease, by simp [taskLeaseExpired, hexpiry]⟩

/-- The answers of a sample batch. -/
def sampleBatch (results : List RunnerResult) : CompletionBatch where
  batchId := "b"
  tickId := "tick-1"
  results := results.map fun result =>
    { entryId := result.taskId, taskId := result.taskId, result := some result, error := none }

/-- A result that is just completed. -/
def finished (taskId : TaskId) : RunnerResult := { taskId, status := .completed }

/-- A worker that takes two tasks at a time. -/
def pairRunner : Runner where
  descriptor :=
    { workRunner.descriptor with
      batch := { maxBatchEntries := 2, preferredBatchSize := 1 } }

/-- Two tasks claimed in one batch. -/
def pairRuntime : CoreRuntime :=
  after [.submitTask (Task.new "t.1" "p.work" .null), .submitTask (Task.new "t.2" "p.work" .null),
    .claimReadyDispatches keenPolicy none]
    ((boot (planOf 1 [pluginOf kernelRunner .core, pluginOf pairRunner .domain])
      [kernelRunner, pairRunner] []).toOption.get (by decide +kernel))

def pairLease : TaskLease := { sampleLease with leaseId := "task-lease-1-t.2-1", taskId := "t.2" }

/-- A `Continue` with an output, and a completed task after it. -/
def pairAnswer (first : RunnerResult) : RunnerCompletion :=
  answerOf [sampleLease, pairLease] [first, finished "t.2"]

/-- A completed task that derives another one. -/
def branching (child : TaskId) : RunnerResult :=
  { finished "t.1" with tasks := [Task.new child "p.work" .null] }

end CoreRuntime

end MutsukiRuntime
