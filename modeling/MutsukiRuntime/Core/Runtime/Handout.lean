/-
  WHAT A CLAIM HANDS OUT.  Of the tasks a runner claims, the first group without a write
  conflict goes into batches, as far as the batches reach; the rest is given back.

  * `splitLeasedTasks_apart`: no two tasks of a group write the same ref.
  * `deferAll_gives`: a deferred task is ready again, and no other record changes.
-/
import MutsukiRuntime.Core.Runtime.Inputs

namespace MutsukiRuntime

open Board TaskPool Prog List

/-! ## Groups -/

/-- No two of these tasks write the same ref. -/
def WritesApart (tasks : List Task) : Prop :=
  tasks.Pairwise fun task other =>
    ∀ refId ∈ writeRequirementRefs task, refId ∉ writeRequirementRefs other

/-- The invariant of the split: the groups are free of conflicts, and the refs are those of the
    open one. -/
structure ConflictGroups.Free (acc : ConflictGroups) : Prop where
  groups : ∀ group ∈ acc.groups, WritesApart (group.map (·.2))
  current : WritesApart (acc.currentGroup.map (·.2))
  refs : ∀ refId, refId ∈ acc.currentWriteRefs ↔
    ∃ e ∈ acc.currentGroup, refId ∈ writeRequirementRefs e.2

theorem writesApart_append {tasks : List Task} {task : Task} (h : WritesApart tasks)
    (hfree : ∀ refId ∈ writeRequirementRefs task, ∀ other ∈ tasks,
      refId ∉ writeRequirementRefs other) : WritesApart (tasks ++ [task]) := by
  refine pairwise_append.2 ⟨h, pairwise_singleton _ _, ?_⟩
  intro other hother task' htask' refId href href'
  rw [mem_singleton.1 htask'] at href'
  exact hfree refId href' other hother href

variable {acc : ConflictGroups} {size fuel : Nat}

theorem ConflictGroups.Free.add (h : acc.Free) (e : TaskLease × Task) : (acc.add e).Free := by
  unfold ConflictGroups.add
  dsimp only
  split
  · refine ⟨?_, pairwise_singleton _ _, ?_⟩
    · exact forall_mem_append.2 ⟨h.groups, forall_mem_singleton.2 h.current⟩
    · intro refId
      simp
  next hfits =>
    refine ⟨h.groups, ?_, ?_⟩
    · rw [map_append]
      refine writesApart_append h.current fun refId href other hother hwrites => hfits ?_
      obtain ⟨member, hmember, rfl⟩ := mem_map.1 hother
      have hopen : acc.currentGroup ≠ [] := ne_nil_of_mem hmember
      have hclash : acc.currentWriteRefs.contains refId = true :=
        contains_iff_mem.2 ((h.refs refId).2 ⟨member, hmember, hwrites⟩)
      simp only [Bool.and_eq_true, Bool.not_eq_true', isEmpty_eq_false_iff, any_eq_true]
      exact ⟨hopen, refId, href, hclash⟩
    · intro refId
      simp only [mem_append, h.refs, mem_singleton]
      constructor
      · rintro (⟨member, hmember, hwrites⟩ | hwrites)
        · exact ⟨member, .inl hmember, hwrites⟩
        · exact ⟨e, .inr rfl, hwrites⟩
      · rintro ⟨member, hmember | rfl, hwrites⟩
        · exact .inl ⟨member, hmember, hwrites⟩
        · exact .inr hwrites

theorem ConflictGroups.Free.foldl (h : acc.Free)
    (leased : List (TaskLease × Task)) : (leased.foldl ConflictGroups.add acc).Free := by
  induction leased generalizing acc with
  | nil => exact h
  | cons e leased ih => exact ih (h.add e)

theorem splitLeasedTasks_apart {leased group : List (TaskLease × Task)}
    (hgroup : group ∈ splitLeasedTasksByResourceConflict leased) :
    WritesApart (group.map (·.2)) := by
  have hstart : ({} : ConflictGroups).Free :=
    ⟨fun _ hg => absurd hg not_mem_nil, List.Pairwise.nil, fun _ => by simp⟩
  have hfree := hstart.foldl leased
  unfold splitLeasedTasksByResourceConflict at hgroup
  dsimp only at hgroup
  split at hgroup
  · exact hfree.groups group hgroup
  · exact forall_mem_append.2 ⟨hfree.groups, forall_mem_singleton.2 hfree.current⟩ group hgroup

theorem chunks_flatten {α : Type} {xs : List α} (hsize : 0 < size)
    (hfuel : xs.length ≤ fuel) : (chunks size fuel xs).flatten = xs := by
  induction fuel generalizing xs with
  | zero =>
    have hnil : xs = [] := eq_nil_of_length_eq_zero (by omega)
    rw [hnil]
    rfl
  | succ fuel ih =>
    cases xs with
    | nil => rfl
    | cons x xs =>
      have hdrop : ((x :: xs).drop size).length ≤ fuel := by
        rw [length_drop]
        omega
      rw [chunks, flatten_cons, ih hdrop, take_append_drop]

theorem length_of_mem_chunks {α : Type} {xs chunk : List α}
    (h : chunk ∈ chunks size fuel xs) : chunk.length ≤ size := by
  induction fuel generalizing xs with
  | zero => cases h
  | succ fuel ih =>
    cases xs with
    | nil => cases h
    | cons x xs =>
      rcases mem_cons.1 h with hfirst | hrest
      · rw [hfirst, length_take]
        omega
      · exact ih hrest

namespace CoreRuntime

/-! ## Giving tasks back -/

/-- The leased tasks are ready again, and no other record has changed. -/
structure GivesBack (leased : List (TaskLease × Task)) (rt rt' : CoreRuntime) : Prop where
  good : Good rt'.tasks
  ready : ∀ e ∈ leased, rt'.taskStatus e.1.taskId = some .ready
  others : ∀ id : TaskId, (∀ e ∈ leased, e.1.taskId ≠ id) →
    rt'.tasks.tasks[id]? = rt.tasks.tasks[id]?

section Handout

variable {rt : CoreRuntime} {leased : List (TaskLease × Task)}

theorem deferLeased_gives (hgood : Good rt.tasks) (e : TaskLease × Task) (currentStep : Nat) :
    wp (onPool (TaskPool.deferLeased e.1 currentStep)) (fun _ => GivesBack [e] rt)
      (fun _ _ => True) rt := by
  have hedits : wp (TaskPool.deferLeased e.1 currentStep)
      (fun _ pool => ∃ r : TaskRecord, r.status = .ready ∧
        ∀ id, pool.tasks[id]? = if e.1.taskId = id then some r else rt.tasks.tasks[id]?)
      (fun _ pool => pool = rt.tasks) rt.tasks :=
    wp_endAttempt hgood (fun _ _ => rfl) fun _ r _ _ =>
      ⟨_, rfl, getElem?_attemptEnded e.1 currentStep .ready r _⟩
  rw [wp_onPool]
  refine wp_mono (wp_and (exec_spends hgood .deferLeased) hedits) ?_ (fun _ _ _ => trivial)
  rintro _ pool ⟨⟨hp, -⟩, r, hready, hget⟩
  refine ⟨hp, ?_, ?_⟩
  · intro other hother
    rw [mem_singleton.1 hother]
    exact taskStatus_eq_some.2 ⟨r, (hget _).trans (if_pos rfl), hready⟩
  · intro id hne
    exact (hget id).trans (if_neg (hne e (by simp)))

variable {rt₁ rt' : CoreRuntime} {first second : List (TaskLease × Task)}

/-- Tasks that are claimed once: those of two parts of a claim are different. -/
theorem taskIds_apart (hnodup : ((first ++ second).map (·.1.taskId)).Nodup) :
    ∀ e ∈ first, ∀ other ∈ second, e.1.taskId ≠ other.1.taskId := by
  intro e he other hother
  rw [map_append] at hnodup
  exact (nodup_append.1 hnodup).2.2 _ (mem_map_of_mem he) _ (mem_map_of_mem hother)

theorem GivesBack.append (h : GivesBack first rt rt₁) (h' : GivesBack second rt₁ rt')
    (hapart : ∀ e ∈ first, ∀ other ∈ second, e.1.taskId ≠ other.1.taskId) :
    GivesBack (first ++ second) rt rt' := by
  refine ⟨h'.good, ?_, ?_⟩
  · intro e he
    rcases mem_append.1 he with hfirst | hsecond
    · obtain ⟨r, hr, hready⟩ := taskStatus_eq_some.1 (h.ready e hfirst)
      refine taskStatus_eq_some.2 ⟨r, ?_, hready⟩
      exact (h'.others _ fun other hother => (hapart e hfirst other hother).symm).trans hr
    · exact h'.ready e hsecond
  · intro id hne
    refine (h'.others id fun e he => hne e (mem_append_right _ he)).trans ?_
    exact h.others id fun e he => hne e (mem_append_left _ he)

theorem GivesBack.congr {leased' : List (TaskLease × Task)} {rt'' : CoreRuntime}
    (h : GivesBack leased rt rt') (hmem : ∀ e, e ∈ leased' ↔ e ∈ leased)
    (htasks : rt''.tasks = rt'.tasks) : GivesBack leased' rt rt'' := by
  refine ⟨htasks ▸ h.good, ?_, ?_⟩
  · intro e he
    rw [taskStatus, htasks]
    exact h.ready e ((hmem e).1 he)
  · intro id hne
    rw [htasks]
    exact h.others id fun e he => hne e ((hmem e).2 he)

theorem deferEach_gives (hgood : Good rt.tasks) (hnodup : (leased.map (·.1.taskId)).Nodup)
    (currentStep : Nat) :
    wp (Prog.forEach leased fun e => onPool (TaskPool.deferLeased e.1 currentStep))
      (fun _ => GivesBack leased rt) (fun _ _ => True) rt := by
  induction leased generalizing rt with
  | nil => exact ⟨hgood, fun _ he => absurd he not_mem_nil, fun _ _ => rfl⟩
  | cons e leased ih =>
    have hapart := @taskIds_apart [e] leased hnodup
    rw [Prog.forEach, wp_bind]
    refine wp_mono (deferLeased_gives hgood e currentStep) ?_ (fun _ _ h => h)
    intro _ rt₁ h₁
    exact wp_mono (ih h₁.good (nodup_cons.1 hnodup).2) (fun _ _ h' => h₁.append h' hapart)
      (fun _ _ h' => h')

theorem deferAll_gives (hgood : Good rt.tasks) (hnodup : (leased.map (·.1.taskId)).Nodup) :
    wp (deferAll leased) (fun _ => GivesBack leased rt) (fun _ _ => True) rt := by
  unfold deferAll
  rw [wp_bind, wp_read]
  exact deferEach_gives hgood hnodup rt.currentStep

/-! ## Batches -/

/-- The tasks of the dispatches, in their order. -/
def dispatchedTasks (dispatches : List RunnerDispatch) : List Task :=
  dispatches.flatMap (·.batch.payload)

theorem recordEvent_tasks (kind : RuntimeEventKind) (name : String) (subjectId : Option String)
    (attributes : Attributes) (error : Option RuntimeError) :
    Leads (Same CoreRuntime.tasks) (recordEvent kind name subjectId attributes error) :=
  .update fun _ => rfl

theorem buildRunnerDispatch_tasks (descriptor : RunnerDescriptor) (executorId : ExecutorId)
    (leased : List (TaskLease × Task)) :
    Leads (Same CoreRuntime.tasks) (buildRunnerDispatch descriptor executorId leased) := by
  refine .bind .read fun rt => .bind (.bind .read fun _ => .ite (.bind (.update fun _ => rfl)
    fun _ => .pure _) (.pure _)) fun span => .bind (.bind .read fun rt => ?_) fun _ =>
    .bind (.forEach fun _ _ => recordEvent_tasks _ _ _ _ _) fun _ => .bind ?_ fun _ => .pure _
  · split
    · exact .pure _
    · split
      · exact .bind (.update fun _ => rfl) fun _ => .pure _
      · exact .fail _
  · cases span with
    | none => exact .pure ()
    | some span => exact .bind .read fun _ => .ite (recordEvent_tasks _ _ _ _ _) (.pure ())

/-- The batches of a group, each in a dispatch of its own; the pool stays as it is. -/
theorem buildDispatches_builds (hgood : Good rt.tasks) (descriptor : RunnerDescriptor)
    (executorId : ExecutorId) (batches : List (List (TaskLease × Task))) :
    wp (Prog.foldEach batches [] fun dispatches batch => do
        let dispatch ← buildRunnerDispatch descriptor executorId batch
        pure (dispatches ++ [dispatch]))
      (fun dispatches rt' => dispatches.map (·.batch.payload) = batches.map (·.map (·.2)) ∧
        rt'.tasks = rt.tasks) (fun _ _ => True) rt := by
  refine wp_mono (wp_foldEach (fun rest dispatches rt' =>
    dispatches.map (·.batch.payload) ++ rest.map (·.map (·.2)) = batches.map (·.map (·.2)) ∧
      rt'.tasks = rt.tasks) ⟨rfl, rfl⟩ ?_) ?_ (fun _ _ h => h)
  · intro batch rest dispatches rt' ⟨hpayload, htasks⟩
    have hself : Steady {} False noneTaken rt' rt' := steady_self (htasks ▸ hgood) False.elim
    rw [wp_bind]
    refine wp_mono (wp_leads (buildRunnerDispatch_builds hself descriptor executorId
      batch) (buildRunnerDispatch_tasks descriptor executorId batch)) ?_
      (fun _ _ _ => trivial)
    rintro dispatch rt'' ⟨⟨hbuilds, -⟩, hsame⟩
    refine ⟨?_, hsame.trans htasks⟩
    rw [← hpayload]
    simp [hbuilds.payload]
  · intro dispatches rt' ⟨hpayload, htasks⟩
    rw [map_nil, append_nil] at hpayload
    exact ⟨hpayload, htasks⟩

variable {maxBatches : Nat}

theorem take_chunks_flatten {size : Nat} (hsize : 0 < size) (group : List (TaskLease × Task)) :
    let batches := (chunks size group.length group).take maxBatches
    batches.flatten = group.take (batches.map List.length).sum := by
  intro batches
  have hwhole : (chunks size group.length group).flatten = group :=
    chunks_flatten hsize (Nat.le_refl _)
  have hpart : batches.flatten ++ ((chunks size group.length group).drop maxBatches).flatten =
      group := by
    rw [← flatten_append, take_append_drop, hwhole]
  have hlength : batches.flatten.length = (batches.map List.length).sum := length_flatten
  calc batches.flatten
      = (batches.flatten ++ ((chunks size group.length group).drop maxBatches).flatten).take
          batches.flatten.length := by rw [take_left']; rfl
    _ = group.take (batches.map List.length).sum := by rw [hpart, hlength]

/-- The dispatches hold a first part of the leased tasks; the others are given back. -/
structure HandsOut (entries maxBatches : Nat) (leased : List (TaskLease × Task))
    (rt rt' : CoreRuntime) (dispatches : List RunnerDispatch) : Prop where
  cut : ∃ kept rest, leased = kept ++ rest ∧
    dispatchedTasks dispatches = kept.map (·.2) ∧ WritesApart (kept.map (·.2)) ∧
    GivesBack rest rt rt'
  batches : dispatches.length ≤ maxBatches
  entries : ∀ dispatch ∈ dispatches, dispatch.batch.payload.length ≤ entries

/-- The dispatches are built of the batches, and the rest has been given back. -/
theorem handsOut_of_built {entries : Nat} {batches : List (List (TaskLease × Task))}
    {rest : List (TaskLease × Task)} {dispatches : List RunnerDispatch}
    (hparts : leased = batches.flatten ++ rest)
    (hapart : WritesApart (batches.flatten.map (·.2))) (hgiven : GivesBack rest rt rt')
    (hcount : batches.length ≤ maxBatches) (hsizes : ∀ batch ∈ batches, batch.length ≤ entries)
    (hpayload : dispatches.map (·.batch.payload) = batches.map (·.map (·.2))) :
    HandsOut entries maxBatches leased rt rt' dispatches := by
  refine ⟨⟨batches.flatten, rest, hparts, ?_, hapart, hgiven⟩, ?_, ?_⟩
  · show dispatches.flatMap (·.batch.payload) = _
    rw [flatMap_def, hpayload, map_flatten]
  · have hlength := congrArg List.length hpayload
    rw [length_map, length_map] at hlength
    exact hlength ▸ hcount
  · intro dispatch hd
    have hpart : dispatch.batch.payload ∈ batches.map (·.map (·.2)) :=
      hpayload ▸ mem_map_of_mem hd
    obtain ⟨batch, hb, he⟩ := mem_map.1 hpart
    rw [← he, length_map]
    exact hsizes batch hb

theorem dispatchLeased_hands_out (hgood : Good rt.tasks) (descriptor : RunnerDescriptor)
    (executorId : ExecutorId) (hnodup : (leased.map (·.1.taskId)).Nodup) (hne : leased ≠ [])
    (hentries : 0 < descriptor.batch.maxBatchEntries) :
    wp (dispatchLeased descriptor executorId maxBatches leased)
      (fun result rt' => HandsOut descriptor.batch.maxBatchEntries maxBatches leased rt rt'
        result.2)
      (fun _ _ => True) rt := by
  have hflat := splitLeasedTasks_flatten leased
  unfold dispatchLeased
  cases hsplit : splitLeasedTasksByResourceConflict leased with
  | nil =>
    rw [hsplit] at hflat
    exact absurd hflat.symm hne
  | cons group deferredGroups =>
    have hgroup : group ∈ splitLeasedTasksByResourceConflict leased := by simp [hsplit]
    have hapart := splitLeasedTasks_apart hgroup
    have htake := @take_chunks_flatten maxBatches _ hentries group
    have hsizes : ∀ batch ∈ (chunks descriptor.batch.maxBatchEntries group.length group).take
        maxBatches, batch.length ≤ descriptor.batch.maxBatchEntries := fun _ hb =>
      length_of_mem_chunks (mem_of_mem_take hb)
    have hcount : ((chunks descriptor.batch.maxBatchEntries group.length group).take
        maxBatches).length ≤ maxBatches := length_take_le _ _
    dsimp only at htake ⊢
    generalize (chunks descriptor.batch.maxBatchEntries group.length group).take
      maxBatches = batches at htake hsizes hcount ⊢
    generalize (batches.map List.length).sum = count at htake ⊢
    rw [hsplit, flatten_cons] at hflat
    have hkept : WritesApart (batches.flatten.map (·.2)) := by
      rw [htake, map_take]
      exact hapart.sublist (take_sublist _ _)
    -- kept, cut off and deferred tasks are three parts of the claim
    have hparts : leased = batches.flatten ++ (group.drop count ++ deferredGroups.flatten) := by
      rw [← append_assoc, htake, take_append_drop, hflat]
    rw [hparts] at hnodup
    have hrest := hnodup.sublist ((sublist_append_right _ _).map _)
    have hcut := hrest.sublist ((sublist_append_left _ _).map _)
    have hdeferred := hrest.sublist ((sublist_append_right _ _).map _)
    have hmem : ∀ e, e ∈ deferredGroups.flatten ++ group.drop count ↔
        e ∈ group.drop count ++ deferredGroups.flatten := fun e => by
      rw [mem_append, mem_append, or_comm]
    have hapart : ∀ e ∈ deferredGroups.flatten, ∀ other ∈ group.drop count,
        e.1.taskId ≠ other.1.taskId := fun e he other hother =>
      (taskIds_apart hrest other hother e he).symm
    rw [wp_bind]
    refine wp_mono (deferAll_gives hgood hdeferred) ?_ (fun _ _ h => h)
    intro _ rt₁ h₁
    rw [wp_bind]
    refine wp_mono (deferAll_gives h₁.good hcut) ?_ (fun _ _ h => h)
    intro _ rt₂ h₂
    have hgiven := h₁.append h₂ hapart
    rw [wp_bind]
    refine wp_mono (buildDispatches_builds h₂.good descriptor executorId batches) ?_
      (fun _ _ h => h)
    rintro dispatches rt₃ ⟨hpayload, htasks⟩
    exact handsOut_of_built hparts hkept (hgiven.congr (fun e => (hmem e).symm) htasks) hcount
      hsizes hpayload

/-! ## The claim -/

/-- The tasks `claim_runner_work` claims, in the order of the claim. -/
def claimedIds (rt : CoreRuntime) (descriptor : RunnerDescriptor) (decision : ScheduleDecision) :
    List TaskId :=
  let decision := clampDecision descriptor decision
  rt.tasks.selectCandidateIds descriptor rt.currentStep rt.loadPlan.registryGeneration
    decision.dispatchLimit (some decision.budget)

variable {descriptor : RunnerDescriptor} {decision : ScheduleDecision}

theorem clampDecision_open (h : (clampDecision descriptor decision).dispatchLimit ≠ 0) :
    0 < descriptor.batch.maxBatchEntries := by
  refine Nat.pos_of_ne_zero fun hzero => h ?_
  unfold clampDecision
  simp [hzero, ScheduleDecision.clampTo, ScheduleDecision.clampBatches]

theorem withSchedulerDecision_eq (rt : CoreRuntime) (descriptor : RunnerDescriptor)
    (decision : ScheduleDecision) :
    ∃ schedulerDecisions events traces, rt.withSchedulerDecision descriptor decision =
      { rt with schedulerDecisions, events, traces } := by
  unfold withSchedulerDecision
  dsimp only
  split
  · exact ⟨_, _, _, rfl⟩
  · exact ⟨_, _, _, rfl⟩

/-- What a claim has leased. -/
structure Taken (descriptor : RunnerDescriptor) (decision : ScheduleDecision) (rt : CoreRuntime)
    (pool : TaskPool) (leased : List (TaskLease × Task)) : Prop where
  ids : leased.map (·.1.taskId) = rt.claimedIds descriptor decision
  nodup : (leased.map (·.1.taskId)).Nodup
  good : Good pool
  leases : Leases descriptor rt.currentStep rt.loadPlan.registryGeneration rt.tasks pool leased
  entries : 0 < descriptor.batch.maxBatchEntries

variable {Q : RunnerLoopReport × List RunnerDispatch → CoreRuntime → Prop}
  {E : RuntimeError → CoreRuntime → Prop}

/-- The rule of `claim_runner_work`: nothing is claimed, or the leased tasks are handled. -/
theorem wlp_claimRunnerWork {leaseExpiresAt : Option Nat} (hgood : Good rt.tasks)
    (haccepted : descriptor.acceptedProtocolIds.Nodup)
    (hnone : ∀ schedulerDecisions events traces, rt.claimedIds descriptor decision = [] →
      Q ({ claimedTasks := 0, completedTasks := 0 }, [])
        { rt with schedulerDecisions, events, traces })
    (hsome : ∀ schedulerDecisions events traces tasks leased,
      Taken descriptor decision rt tasks leased →
      wp (handleLeased descriptor s!"executor:{descriptor.runnerId}"
        (min decision.budget.maxBatches descriptor.concurrency.maxInflightBatches) leased) Q E
        { rt with schedulerDecisions, events, traces, tasks })
    (hpanic : ∀ schedulerDecisions events traces e,
      E e { rt with schedulerDecisions, events, traces }) :
    wlp (ClaimPanics descriptor) (claimRunnerWork descriptor decision leaseExpiresAt) Q E rt := by
  obtain ⟨decisions, events, traces, heq⟩ :=
    withSchedulerDecision_eq rt descriptor (clampDecision descriptor decision)
  unfold claimRunnerWork
  dsimp only
  rw [wlp_bind, wlp_update, heq]
  by_cases hopen : (clampDecision descriptor decision).dispatchLimit = 0
  · rw [if_pos hopen]
    refine hnone _ _ _ ?_
    simp [claimedIds, selectCandidateIds, budgetClosed, hopen]
  · rw [if_neg hopen, wlp_bind, wlp_read, wlp_bind]
    refine wlp_claimReady ?_ fun hroom => ⟨⟨rfl, wideBatches_of_not hroom⟩, hpanic _ _ _⟩
    rw [wp_onPool]
    have hself : Settled (fun _ => True) rt.tasks.board rt.tasks := settled_self hgood
    refine wp_mono (wp_and (claimSelected_leased hgood haccepted)
      (claimSelected_tracks hself (fun _ _ _ _ => trivial) (.inl haccepted))) ?_
      (fun _ _ hf => hf.1.elim)
    rintro leased pool ⟨⟨hids, hleases⟩, hsettled⟩
    refine wlp_of_wp (hsome _ _ _ _ _ ⟨hids, ?_, hsettled.wf, hleases, clampDecision_open hopen⟩)
    rw [hids, selectCandidateIds_eq hgood haccepted]
    exact nodup_naiveSelection hgood _ _ _ _ _

theorem wp_handleLeased {executorId : ExecutorId}
    (hnone : leased = [] → Q ({ claimedTasks := 0, completedTasks := 0 }, []) rt)
    (hkernel : leased ≠ [] → isKernelRunner descriptor = true → wp (processKernelTasks leased)
      (fun completedTasks => Q ({ claimedTasks := leased.length, completedTasks }, [])) E rt)
    (hplain : leased ≠ [] → isKernelRunner descriptor = false →
      wp (dispatchLeased descriptor executorId maxBatches leased) Q E rt) :
    wp (handleLeased descriptor executorId maxBatches leased) Q E rt := by
  unfold handleLeased
  rw [wp_ite]
  refine ⟨fun hempty => hnone (List.isEmpty_iff.1 hempty), fun hsome => ?_⟩
  have hne : leased ≠ [] := fun he => hsome (List.isEmpty_iff.2 he)
  rw [wp_ite]
  refine ⟨fun hk => ?_, fun hk => hplain hne (by simpa using hk)⟩
  rw [wp_bind]
  exact hkernel hne hk

/-- What a claim that returns these dispatches has done to the tasks. -/
structure ClaimExact (descriptor : RunnerDescriptor) (decision : ScheduleDecision)
    (rt rt' : CoreRuntime) (dispatches : List RunnerDispatch) : Prop where
  running : ∀ id, (rt.taskStatus id ≠ some .running ∧ rt'.taskStatus id = some .running) ↔
    id ∈ (dispatchedTasks dispatches).map (·.taskId)
  once : ((dispatchedTasks dispatches).map (·.taskId)).Nodup
  order : (dispatchedTasks dispatches).map (·.taskId) <+: rt.claimedIds descriptor decision
  deferred : ∀ id ∈ rt.claimedIds descriptor decision,
    id ∉ (dispatchedTasks dispatches).map (·.taskId) → rt'.taskStatus id = some .ready
  batches : dispatches.length ≤
    min decision.budget.maxBatches descriptor.concurrency.maxInflightBatches
  entries : ∀ dispatch ∈ dispatches,
    dispatch.batch.payload.length ≤ descriptor.batch.maxBatchEntries
  apart : WritesApart (dispatchedTasks dispatches)

theorem claimExact_nil (hids : rt.claimedIds descriptor decision = [])
    (htasks : ∀ id : TaskId, rt'.tasks.tasks[id]? = rt.tasks.tasks[id]?) :
    ClaimExact descriptor decision rt rt' [] where
  running id := by
    have hsame : rt'.taskStatus id = rt.taskStatus id := by rw [taskStatus, htasks]; rfl
    rw [hsame]
    exact ⟨fun h => absurd h.2 h.1, fun h => absurd h not_mem_nil⟩
  once := nodup_nil
  order := nil_prefix
  deferred id hid := by
    rw [hids] at hid
    cases hid
  batches := Nat.zero_le _
  entries _ hd := absurd hd not_mem_nil
  apart := List.Pairwise.nil

/-- The tasks of a claim were ready; those of the dispatches run under their leases, the rest is
    given back. -/
theorem HandsOut.claimExact {dispatches : List RunnerDispatch}
    (h : HandsOut descriptor.batch.maxBatchEntries
      (min decision.budget.maxBatches descriptor.concurrency.maxInflightBatches) leased
      rt₁ rt' dispatches) (hgood : Good rt.tasks)
    (htaken : Taken descriptor decision rt rt₁.tasks leased) :
    ClaimExact descriptor decision rt rt' dispatches := by
  obtain ⟨kept, rest, hparts, htasks, hapart, hgiven⟩ := h.cut
  have hleases := htaken.leases
  have hnodup := htaken.nodup
  have hid : ∀ e ∈ leased, e.2.taskId = e.1.taskId := by
    intro e he
    obtain ⟨r, hr, -, -, -, htask, -⟩ := hleases.taken e he
    rw [htask]
    exact hgood.keyed e.1.taskId r hr
  have hdispatched : (dispatchedTasks dispatches).map (·.taskId) = kept.map (·.1.taskId) := by
    rw [htasks, map_map]
    exact map_congr_left fun e he => hid e (hparts ▸ mem_append_left _ he)
  have hclaimed : rt.claimedIds descriptor decision =
      kept.map (·.1.taskId) ++ rest.map (·.1.taskId) := by
    rw [← htaken.ids, hparts, map_append]
  rw [hparts, map_append] at hnodup
  obtain ⟨honce, -, hdisjoint⟩ := nodup_append.1 hnodup
  have hready : ∀ id ∈ rest.map (·.1.taskId), rt'.taskStatus id = some .ready := by
    intro id hmem
    obtain ⟨e, he, rfl⟩ := mem_map.1 hmem
    exact hgiven.ready e he
  refine ⟨?_, ?_, ?_, ?_, h.batches, h.entries, ?_⟩
  · intro id
    rw [hdispatched]
    constructor
    · rintro ⟨hbefore, hafter⟩
      by_contra hkept
      by_cases hrest : id ∈ rest.map (·.1.taskId)
      · cases (hready id hrest).symm.trans hafter
      · -- a record the claim does not touch
        have hsame : rt'.tasks.tasks[id]? = rt.tasks.tasks[id]? := by
          refine (hgiven.others id fun e he heq => hrest (mem_map.2 ⟨e, he, heq⟩)).trans ?_
          refine hleases.kept id fun e he heq => ?_
          rw [hparts] at he
          rcases mem_append.1 he with he | he
          · exact hkept (mem_map.2 ⟨e, he, heq⟩)
          · exact hrest (mem_map.2 ⟨e, he, heq⟩)
        rw [taskStatus, hsame] at hafter
        exact hbefore hafter
    · intro hmem
      obtain ⟨e, he, rfl⟩ := mem_map.1 hmem
      obtain ⟨r, hr, helig, -, -, -, hstored⟩ := hleases.taken e (hparts ▸ mem_append_left _ he)
      constructor
      · intro hrunning
        obtain ⟨v, hv, hstatus⟩ := taskStatus_eq_some.1 hrunning
        cases hr.symm.trans hv
        simp [eligible, hstatus] at helig
      · refine taskStatus_eq_some.2 ⟨leaseRecord descriptor e.1 r, ?_, rfl⟩
        refine (hgiven.others _ fun other hother heq => ?_).trans hstored
        exact hdisjoint _ hmem _ (mem_map_of_mem hother) heq.symm
  · rw [hdispatched]
    exact honce
  · rw [hdispatched, hclaimed]
    exact prefix_append _ _
  · intro id hmem hnot
    rw [hclaimed] at hmem
    rw [hdispatched] at hnot
    exact hready id ((mem_append.1 hmem).resolve_left hnot)
  · rw [htasks]
    exact hapart

/-- A claim for a runner that is not the kernel: the tasks that begin to run are those of the
    dispatches, each of them once and in the order of the claim, and every other claimed task is
    ready again; the batches keep to their limits, and no two of the tasks write the same ref. -/
theorem claim_hands_out {descriptor : RunnerDescriptor} (hgood : Good rt.tasks)
    (haccepted : descriptor.acceptedProtocolIds.Nodup)
    (hkernel : isKernelRunner descriptor = false) (decision : ScheduleDecision)
    (leaseExpiresAt : Option Nat) {report : RunnerLoopReport} {dispatches : List RunnerDispatch}
    {rt' : CoreRuntime} (hok : (claimRunnerWork descriptor decision leaseExpiresAt).run rt =
      (.ok (report, dispatches), rt')) :
    ClaimExact descriptor decision rt rt' dispatches := by
  suffices hwlp : wlp (ClaimPanics descriptor) (claimRunnerWork descriptor decision leaseExpiresAt)
      (fun result rt' => ClaimExact descriptor decision rt rt' result.2) (fun _ _ => True) rt from
    (wlp_of_run_ok hok).1 hwlp
  refine wlp_claimRunnerWork hgood haccepted (fun _ _ _ hids => claimExact_nil hids fun _ => rfl)
    ?_ (fun _ _ _ _ => trivial)
  intro _ _ _ pool leased htaken
  refine wp_handleLeased (fun hempty => ?_) (fun _ hk => ?_) fun hne _ => ?_
  · subst hempty
    exact claimExact_nil htaken.ids.symm fun id => htaken.leases.kept id fun _ he => by cases he
  · cases hk.symm.trans hkernel
  · refine wp_mono (dispatchLeased_hands_out ?_ descriptor _ htaken.nodup hne htaken.entries) ?_
      (fun _ _ h => h)
    · exact htaken.good
    · exact fun _ _ h => { h.claimExact hgood htaken with }

end Handout

/-- A worker that takes two tasks in a batch. -/
def writerRunner : Runner where
  descriptor :=
    { workRunner.descriptor with
      batch := { workRunner.descriptor.batch with maxBatchEntries := 2 } }

def writersRuntime : CoreRuntime :=
  (boot (planOf 1 [pluginOf writerRunner .domain]) [writerRunner] []).toOption.get
    (by decide +kernel)

/-- A task that writes `refId`. -/
def writer (taskId : TaskId) (refId : RefId) : Task :=
  { Task.new taskId "p.work" .null with
    resourceRequirements := [{ refId, mode := .write, expectedVersion := none }] }

/-- Two tasks that write the same ref. -/
def writersRun : CoreRuntime :=
  after [.submitTask (writer "t.1" "r"), .submitTask (writer "t.2" "r")] writersRuntime

/-- Both tasks are claimed; the first one is dispatched and the second one is ready again. -/
theorem claim_hands_out_writers :
    ∃ report dispatches rt', (claimRunnerWork writerRunner.descriptor
      (ScheduleDecision.new "keen" 2 "all") none).run writersRun =
        (.ok (report, dispatches), rt') ∧
      writersRun.claimedIds writerRunner.descriptor (ScheduleDecision.new "keen" 2 "all") =
        ["t.1", "t.2"] ∧
      ClaimExact writerRunner.descriptor (ScheduleDecision.new "keen" 2 "all") writersRun rt'
        dispatches := by
  have hrun : Run (fun _ _ => True) writersRun := (Run.of_boot _).after _ fun _ _ _ => trivial
  obtain ⟨⟨report, dispatches⟩, rt', hok⟩ : ∃ result rt', (claimRunnerWork writerRunner.descriptor
      (ScheduleDecision.new "keen" 2 "all") none).run writersRun = (.ok result, rt') :=
    Checks.exists_run_ok (by decide +kernel)
  exact ⟨report, dispatches, rt', hok, by decide +kernel,
    claim_hands_out hrun.good (by decide) (by decide) _ none hok⟩

end CoreRuntime

end MutsukiRuntime
