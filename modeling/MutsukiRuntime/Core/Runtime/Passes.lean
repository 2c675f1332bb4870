/-
  WHAT A SCHEDULING PASS KEEPS, apart from its claims: the head of a pass (reclaim,
  wake, reject), deferring, building dispatches, returning them.

  * `splitLeasedTasks_flatten`: splitting by write conflicts loses no leased task, so
    a pass never dispatches an empty group.
  * one lemma per program of `Dispatch`, in the terms of `Steady`.
-/
import MutsukiRuntime.Core.Runtime.Steady

namespace MutsukiRuntime

open Std Board TaskPool Prog List

/-! ## Splitting -/

/-- Closed groups and the open one, in order. -/
def ConflictGroups.all (acc : ConflictGroups) : List (TaskLease × Task) :=
  acc.groups.flatten ++ acc.currentGroup

theorem ConflictGroups.all_add (acc : ConflictGroups) (leasedTask : TaskLease × Task) :
    (acc.add leasedTask).all = acc.all ++ [leasedTask] := by
  unfold ConflictGroups.add ConflictGroups.all
  dsimp only
  split <;> simp

theorem splitLeasedTasks_flatten (leasedTasks : List (TaskLease × Task)) :
    (splitLeasedTasksByResourceConflict leasedTasks).flatten = leasedTasks := by
  have hall : ∀ (l : List (TaskLease × Task)) (acc : ConflictGroups),
      (l.foldl ConflictGroups.add acc).all = acc.all ++ l := by
    intro l
    induction l with
    | nil => simp
    | cons e l ih =>
      intro acc
      rw [foldl_cons, ih, ConflictGroups.all_add, append_assoc]
      rfl
  have hfold := hall leasedTasks {}
  unfold splitLeasedTasksByResourceConflict
  dsimp only
  split
  next hempty =>
    rw [List.isEmpty_iff] at hempty
    simpa [ConflictGroups.all, hempty] using hfold
  · simpa [ConflictGroups.all] using hfold

namespace CoreRuntime

variable {s : Scope} {done : TaskId → Prop} {strict : Prop} {start rt : CoreRuntime}

theorem keeps_recordEvent (kind : RuntimeEventKind) (name : String) (subjectId : Option String)
    (attributes : Attributes) (error : Option RuntimeError) :
    Keeps (Steady s strict done start) (recordEvent kind name subjectId attributes error) :=
  fun _ h => h.recordEvent kind name subjectId attributes error

/-! ## The head of a pass -/

theorem reclaimExpiredTaskLeases_steady (h : Steady s strict done start rt)
    (hids : ∀ (id : TaskId) r l, rt.tasks.tasks[id]? = some r → r.lease = some l →
      taskLeaseExpired l rt.currentStep = true → s.ids id) :
    wp reclaimExpiredTaskLeases (fun _ => Steady s strict done start) (fun _ _ => False)
      rt := by
  have hself : Settled (Routes s done) rt.tasks.board rt.tasks := settled_self h.good
  unfold reclaimExpiredTaskLeases
  rw [wp_bind, wp_read, wp_bind]
  refine wp_total (h.onPool_total (TaskPool.reclaimExpiredTaskLeases_tracks hself
    rt.currentStep hids) fun _ hd => hd) ?_
  intro reclaimed rt' h'
  exact h'.recordEvents reclaimed _ fun _ => ⟨_, _, _, _, _, rfl⟩

theorem wakeDueTasks_steady (h : Steady s strict done start rt) :
    wp wakeDueTasks (fun _ => Steady s strict done start) (fun _ _ => False) rt := by
  have hself : Settled (Routes s done) rt.tasks.board rt.tasks := settled_self h.good
  unfold wakeDueTasks
  rw [wp_bind, wp_read, wp_bind]
  refine wp_total (h.onPool_total (TaskPool.wakeDueTasks_tracks hself (fun _ => trivial)
    trivial rt.currentStep) fun _ hd => hd) ?_
  intro dueTasks rt' h'
  rw [wp_bind]
  exact h'.recordEvents dueTasks _ fun _ => ⟨_, _, _, _, _, rfl⟩

/-- A stale task ends before it was ever claimed; its parents are woken. -/
theorem rejectStaleTask_steady (h : Steady s strict noneTaken start rt)
    (rejected : Nat) (stale : TaskId × RuntimeError) :
    wp (rejectStaleTask rejected stale)
      (fun _ => Steady s strict noneTaken start) (fun _ rt' => rt' = rt) rt := by
  have hself : Settled (Routes s (only stale.1)) rt.tasks.board rt.tasks := settled_self h.good
  unfold rejectStaleTask
  rw [wp_bind]
  refine wp_mono (h.onPool (rejectReady_tracks hself (fun _ => trivial) trivial rfl stale.2)
    fun _ hd => hd.elim) ?_ (fun _ _ he => he)
  intro _ rt' h'
  exact reportFinished_steady h' stale.1 rfl _ _ fun _ _ h'' => h''

theorem keeps_rejectStaleReadyTasks :
    Keeps (Steady s strict noneTaken start) rejectStaleReadyTasks :=
  .bind .read fun _ => .foldEach fun rejected stale _ =>
    .of_restore fun _ h => rejectStaleTask_steady h rejected stale

/-! ## Deferring and dispatching -/

theorem keeps_deferLeased {lease : TaskLease} (hid : s.ids lease.taskId) (currentStep : Nat) :
    Keeps (Steady s strict done start) (onPool (TaskPool.deferLeased lease currentStep)) := by
  refine .of_restore fun rt h => ?_
  have hself : Settled (Routes s done) rt.tasks.board rt.tasks := settled_self h.good
  exact h.onPool (leased_settles hself (fun _ => trivial) trivial .deferLeased hid)
    fun _ hd => hd

theorem keeps_deferAll {leased : List (TaskLease × Task)} (hids : ∀ e ∈ leased, s.ids e.1.taskId) :
    Keeps (Steady s strict done start) (deferAll leased) :=
  .bind .read fun _ => .forEach fun e he => keeps_deferLeased (hids e he) _

theorem keeps_recordDispatchSpan (traceId : TraceId) (attributes : List (String × ScalarValue)) :
    Keeps (Steady s strict done start) (recordDispatchSpan traceId attributes) :=
  .bind .read fun _ => .ite (.bind (.update fun _ h => { h with }) fun _ => .pure _) (.pure none)

theorem takeRunner_snapshot (reg : RunnerRegistry) (runnerId : RunnerId) :
    (reg.takeRunner runnerId).2.descriptorSnapshot = reg.descriptorSnapshot := by
  unfold RunnerRegistry.takeRunner
  split <;> rfl

theorem keeps_dispatchTarget (runnerId : RunnerId) :
    Keeps (Steady s strict done start) (dispatchTarget runnerId) := by
  refine .read_bind fun rt h => ?_
  cases rt.registry.asyncHandlers[runnerId]? with
  | some handler => exact h
  | none =>
    have hsnap := takeRunner_snapshot rt.registry runnerId
    dsimp only
    split
    next runner registry htaken =>
      rw [htaken] at hsnap
      exact { h with snapshot := hsnap.trans h.snapshot }
    · exact h

/-- A dispatch of leased tasks. -/
structure Builds (leasedTasks : List (TaskLease × Task)) (dispatch : RunnerDispatch) : Prop where
  taskLeases : dispatch.taskLeases = leasedTasks.map (·.1)
  payload : dispatch.batch.payload = leasedTasks.map (·.2)

theorem keeps_recordSpanEvent (runnerId : RunnerId) (span : Option TraceSpan) :
    Keeps (Steady s strict done start) (recordSpanEvent runnerId span) := by
  cases span with
  | none => exact .pure ()
  | some span => exact .bind .read fun _ => .ite (keeps_recordEvent _ _ _ _ _) (.pure ())

theorem buildRunnerDispatch_builds (h : Steady s strict done start rt)
    (descriptor : RunnerDescriptor) (executorId : ExecutorId)
    (leasedTasks : List (TaskLease × Task)) :
    wp (buildRunnerDispatch descriptor executorId leasedTasks)
      (fun dispatch rt' => Builds leasedTasks dispatch ∧ Steady s strict done start rt')
      (fun _ => Steady s strict done start) rt := by
  refine Keeps.followed .read h fun rt₁ _ h => ?_
  refine (keeps_recordDispatchSpan _ _).followed h fun span _ h => ?_
  refine (keeps_dispatchTarget _).followed h fun target _ h => ?_
  refine (Keeps.forEach fun _ _ => keeps_recordEvent _ _ _ _ _).followed h fun _ _ h => ?_
  refine (keeps_recordSpanEvent _ span).followed h fun _ _ h => ?_
  exact ⟨⟨rfl, rfl⟩, h⟩

/-- Every dispatch has leased tasks of its own. -/
def Cut (leasedTasks : List (TaskLease × Task)) (dispatches : List RunnerDispatch) : Prop :=
  ∀ dispatch ∈ dispatches, ∃ batch, (∀ e ∈ batch, e ∈ leasedTasks) ∧ Builds batch dispatch

theorem cut_nil (leasedTasks : List (TaskLease × Task)) : Cut leasedTasks [] :=
  fun _ hd => (not_mem_nil hd).elim

theorem mem_chunks {α : Type} {size fuel : Nat} {xs chunk : List α}
    (h : chunk ∈ chunks size fuel xs) : ∀ x ∈ chunk, x ∈ xs := by
  induction fuel generalizing xs with
  | zero => cases h
  | succ fuel ih =>
    cases xs with
    | nil => cases h
    | cons x xs =>
      rcases mem_cons.1 h with rfl | h
      · exact fun y hy => mem_of_mem_take hy
      · exact fun y hy => mem_of_mem_drop (ih h y hy)

theorem dispatchLeased_cuts (h : Steady s strict done start rt) (descriptor : RunnerDescriptor)
    (executorId : ExecutorId) (maxBatches : Nat) {leasedTasks : List (TaskLease × Task)}
    (hne : leasedTasks ≠ []) (hids : ∀ e ∈ leasedTasks, s.ids e.1.taskId) :
    wp (dispatchLeased descriptor executorId maxBatches leasedTasks)
      (fun result rt' => Cut leasedTasks result.2 ∧ Steady s strict done start rt')
      (fun _ => Steady s strict done start) rt := by
  have hflat := splitLeasedTasks_flatten leasedTasks
  unfold dispatchLeased
  cases hsplit : splitLeasedTasksByResourceConflict leasedTasks with
  | nil =>
    rw [hsplit] at hflat
    exact absurd hflat.symm hne
  | cons dispatchGroup deferredGroups =>
    rw [hsplit, flatten_cons] at hflat
    have hgroup : ∀ e ∈ dispatchGroup, e ∈ leasedTasks := fun e he => hflat ▸ mem_append_left _ he
    have hdeferred : ∀ e ∈ deferredGroups.flatten, e ∈ leasedTasks := fun e he =>
      hflat ▸ mem_append_right _ he
    refine (keeps_deferAll fun e he => hids e (hdeferred e he)).followed h fun _ _ h => ?_
    refine (keeps_deferAll fun e he =>
      hids e (hgroup e (mem_of_mem_drop he))).followed h fun _ rt₁ h => ?_
    rw [wp_bind]
    refine wp_mono (wp_foldEach (fun rest dispatches rt' =>
      (∀ batch ∈ rest, ∀ e ∈ batch, e ∈ leasedTasks) ∧ Cut leasedTasks dispatches ∧
        Steady s strict done start rt') ⟨?_, cut_nil leasedTasks, h⟩ ?_)
      (fun _ _ h' => h'.2) (fun _ _ h' => h')
    · intro batch hb e he
      exact hgroup e (mem_chunks (mem_of_mem_take hb) e he)
    · intro batch rest dispatches rt' ⟨hrest, hcut, h'⟩
      rw [wp_bind]
      refine wp_mono (buildRunnerDispatch_builds h' descriptor executorId batch) ?_
        (fun _ _ h'' => h'')
      rintro dispatch rt'' ⟨hbuilds, h''⟩
      refine ⟨fun b hb => hrest b (mem_cons_of_mem _ hb), ?_, h''⟩
      exact forall_mem_append.2 ⟨hcut,
        forall_mem_singleton.2 ⟨batch, hrest batch (by simp), hbuilds⟩⟩

theorem keeps_withSchedulerDecision (descriptor : RunnerDescriptor) (decision : ScheduleDecision) :
    Keeps (Steady s strict done start)
      (Prog.update (·.withSchedulerDecision descriptor decision) : CoreM Unit) := by
  refine .update fun rt h => ?_
  unfold withSchedulerDecision
  dsimp only
  split
  · exact { h with }
  · exact { h with }

theorem keeps_deferRunnerDispatch {dispatch : RunnerDispatch}
    (hids : ∀ lease ∈ dispatch.taskLeases, s.ids lease.taskId) :
    Keeps (Steady s strict done start) (deferRunnerDispatch dispatch) := by
  refine .bind .read fun rt => .bind (.lift _) fun _ =>
    .bind (.forEach fun lease hl => keeps_deferLeased (hids lease hl) _) fun _ =>
    .bind ?_ fun _ => .pure _
  cases dispatch.target with
  | sync runner => exact keeps_returnRunner (some runner)
  | async handler => exact .pure ()

end CoreRuntime

end MutsukiRuntime
