/-
  ABORT IS FINAL.

  The invariant of a run already says that an aborted runtime has no live task, so
  what is left to show is that no public call leaves the aborted state.  The calls
  that only work on tasks keep the stop state with the rest of the setup; the others
  are shown one by one to keep it (`StaysAborted`).  Links need a waiting parent and
  leases a running task, so with no live task there are neither.
-/
import MutsukiRuntime.Core.Runtime.Inputs

namespace MutsukiRuntime

open Std Board TaskPool Prog

namespace CoreRuntime

/-! ## No call leaves the aborted state -/

/-- An aborted runtime is not set going again. -/
def StaysAborted (rt rt' : CoreRuntime) : Prop :=
  rt.stopState = .aborted → rt'.stopState = .aborted

instance : IsPreorder CoreRuntime StaysAborted where
  refl _ h := h
  trans _ _ _ hab hbc h := hbc (hab h)

section Frames

theorem leads_stop_onPool {α : Type} (m : PoolM α) : Leads StaysAborted (onPool m) := fun _ h => h

theorem leads_stop_event (kind : RuntimeEventKind) (name : String) (subjectId : Option String)
    (attributes : Attributes) (error : Option RuntimeError) :
    Leads StaysAborted (recordEvent kind name subjectId attributes error) :=
  .update fun _ h => h

theorem leads_stop_beginDrain : Leads StaysAborted beginDrain :=
  .read_bind fun rt h => by
    rw [h]
    exact h

theorem leads_stop_abort (reason : String) : Leads StaysAborted (abort reason) :=
  .bind .read fun _ => .ite (.pure 0) (.bind (.update fun _ _ => rfl) fun _ =>
    .bind (leads_stop_onPool _) fun _ =>
    .bind (.forEach fun _ _ => leads_stop_event _ _ _ _ _) fun _ =>
    .bind (leads_stop_event _ _ _ _ _) fun _ => .pure _)

theorem leads_stop_applyLoadPlan (newPlan : RuntimeLoadPlan) :
    Leads StaysAborted (applyLoadPlan newPlan) :=
  .bind .read fun _ => .bind (leads_stop_onPool _) fun _ => .update fun _ h => h

theorem leads_stop_reloadLoadPlanOnly (newPlan : RuntimeLoadPlan) :
    Leads StaysAborted (reloadLoadPlanOnly newPlan) :=
  .bind .read fun _ => .bind (.lift _) fun _ => .bind (leads_stop_event _ _ _ _ _) fun _ =>
    .bind (leads_stop_applyLoadPlan newPlan) fun _ => .pure _

theorem stopState_markGenerations (generations : List Nat) (phase : PluginGenerationPhase)
    (rt : CoreRuntime) :
    (generations.foldl (·.markGenerationPhase · phase) rt).stopState = rt.stopState := by
  induction generations generalizing rt with
  | nil => rfl
  | cons generation generations ih => exact ih (rt.markGenerationPhase generation phase)

theorem leads_stop_settleDrainingGenerations (calls : RunnerCalls) :
    Leads StaysAborted (settleDrainingGenerations calls) := by
  refine .bind .read fun rt => ?_
  cases rt.drainingGenerations.foldlM (settleGeneration calls rt.tasks) {} with
  | error failure => exact .bind (.update fun _ h => h) fun _ => .fail failure
  | ok settled =>
    refine .bind (.update fun rt h => ?_) fun _ => .pure _
    exact (stopState_markGenerations _ _ _).trans h

theorem leads_stop_reload (calls : RunnerCalls) (order : IterationOrder)
    (newPlan : RuntimeLoadPlan) (newRunners : List Runner)
    (newAsyncHandlers : List AsyncBatchHandler) :
    Leads StaysAborted
      (reloadWithAsyncHandlers calls order newPlan newRunners newAsyncHandlers) := by
  have hinvocation : ∀ disposition, Leads StaysAborted (reloadInvocation calls disposition) :=
    fun _ => .ite (leads_stop_event _ _ _ _ _) (.bind .read fun _ => .bind (.lift _) fun _ =>
      .bind (leads_stop_onPool _) fun _ => leads_stop_event _ _ _ _ _)
  have hretire : ∀ needsDrain oldGeneration oldRunnerIds, Leads StaysAborted
      (retireRegistry calls needsDrain oldGeneration oldRunnerIds) :=
    fun _ _ _ => .bind .read fun _ => .bind (.update fun _ h => h) fun _ =>
      .ite (.update fun _ h => h) (.bind (.lift _) fun _ => .update fun _ h => h)
  exact .bind (.lift _) fun _ => .bind .read fun _ => .bind (.lift _) fun _ =>
    .bind (.lift _) fun _ => .bind (.update fun _ h => h) fun _ => .bind .read fun _ =>
    .bind (.forEach fun _ _ => hinvocation _) fun _ => .bind (hretire _ _ _) fun _ =>
    .bind (leads_stop_event _ _ _ _ _) fun _ => .bind (leads_stop_applyLoadPlan newPlan) fun _ =>
    .bind (.update fun _ h => h) fun _ =>
    .bind (leads_stop_settleDrainingGenerations calls) fun _ => .pure _

end Frames

variable {allowed : CoreRuntime → Call → Prop} {rt : CoreRuntime}

theorem Run.exec_staysAborted (h : Run allowed rt) (call : Call) :
    StaysAborted rt (call.exec.run rt).2 := by
  -- a call that is not administrative keeps the whole setup
  have hwork : call.isAdmin = false → StaysAborted rt (call.exec.run rt).2 := by
    intro hadmin hstop
    have horderly := h.inOrder
    have hmoved := exec_state_moved call horderly (within_anyScope call) fun hf => hf.elim
    rw [hadmin] at hmoved
    exact hmoved.hops.sameSetup.stopState.trans hstop
  have hdrop : ∀ {α : Type} {m : CoreM α}, Leads StaysAborted m →
      StaysAborted rt ((do let _ ← m : CoreM Unit).run rt).2 := fun hm =>
    Leads.bind hm (fun _ => .pure ()) rt
  cases call with
  | beginDrain => exact hdrop leads_stop_beginDrain
  | abort reason => exact hdrop (leads_stop_abort reason)
  | configureEventCapacity | configureObservability | editResources => exact fun h => h
  | reloadLoadPlanOnly newPlan => exact hdrop (leads_stop_reloadLoadPlanOnly newPlan)
  | reloadWithAsyncHandlers calls order newPlan newRunners newAsyncHandlers =>
    exact hdrop (leads_stop_reload calls order newPlan newRunners newAsyncHandlers)
  | _ => exact hwork rfl

theorem Run.after_staysAborted (h : Run (fun _ _ => True) rt) (calls : List Call) :
    StaysAborted rt (CoreRuntime.after calls rt) := by
  induction calls generalizing rt with
  | nil => exact fun hstop => hstop
  | cons call calls ih =>
    intro hstop
    exact ih (h.call call trivial) (h.exec_staysAborted call hstop)

/-! ## What an aborted runtime holds -/

/-- Nothing is left to run: every record is terminal, nobody waits, and no lease is good for
    any operation at any step. -/
structure Stopped (rt : CoreRuntime) : Prop where
  terminal (id : TaskId) (r : TaskRecord) (h : rt.tasks.tasks[id]? = some r) :
    isTerminalStatus r.status = true
  unlinked (id : TaskId) :
    rt.tasks.awaitsForParent id = [] ∧ Buckets.bucket rt.tasks.waitsByChild id = []
  refused (op : LeasedOp) (lease : TaskLease) (step : Nat) :
    ∃ e, (op.exec lease step).run rt.tasks = (.err e, rt.tasks)

theorem Run.stopped (h : Run allowed rt) (hstop : rt.stopState = .aborted) : Stopped rt := by
  have horderly := h.inOrder
  have hgood := horderly.good
  have hterminal : ∀ (id : TaskId) (r : TaskRecord), rt.tasks.tasks[id]? = some r →
      isTerminalStatus r.status = true := by
    intro id r hr
    by_contra hlive
    exact horderly.stopped hstop id ⟨r, hr, by simpa using hlive⟩
  -- a link has a waiting parent
  have hlinks : ∀ parent taskAwait, taskAwait ∉ Buckets.bucket rt.tasks.waitsByParent parent := by
    intro parent taskAwait hmem
    obtain ⟨r, hr, hwaiting⟩ := hgood.links.waiting parent taskAwait hmem fun hf => hf
    have hdone := hterminal parent r hr
    rw [hwaiting] at hdone
    cases hdone
  refine ⟨hterminal, fun id => ⟨?_, ?_⟩, fun op lease step => ?_⟩
  · exact List.eq_nil_iff_forall_not_mem.2 (hlinks id)
  · refine List.eq_nil_iff_forall_not_mem.2 fun taskAwait hmem => ?_
    exact hlinks _ taskAwait ((hgood.links.mirror id taskAwait).1 hmem).2
  · have hspends : wp (op.exec lease step) _ _ rt.tasks := exec_spends hgood op
    rcases wp_outcome hspends with ⟨-, pool', -, -, -, r, hspent⟩ | ⟨e, pool', hrun, -, rfl⟩
    · -- an accepted lease has a running record
      have hdone := hterminal lease.taskId r hspent.stored
      rw [(leaseActive_iff.1 hspent.active).1] at hdone
      cases hdone
    · exact ⟨e, hrun⟩

/-! ## The abort itself -/

theorem abort_stops (h : InOrder rt) (reason : String) :
    wp (abort reason) (fun _ rt' => rt'.stopState = .aborted) (fun _ _ => False) rt := by
  unfold abort
  rw [wp_bind, wp_read, wp_ite]
  refine ⟨fun hstop => hstop, fun _ => ?_⟩
  rw [wp_bind, wp_update, wp_bind, wp_onPool]
  have hself : Settled Aborts rt.tasks.board rt.tasks := settled_self h.good
  refine wp_total (abortAll_ends hself trivial trivial (fun _ => trivial) rt.currentStep
    (abortFailure reason)) ?_
  intro aborted pool _
  rw [wp_bind]
  refine wp_total (wp_forEach
    (fun (_ : List TaskId) (rt' : CoreRuntime) => rt'.stopState = .aborted) rfl ?_) ?_
  · exact fun _ _ _ hstop => hstop
  exact fun _ _ hstop => hstop

/-- An abort always succeeds.  From then on, whatever is called, with whatever arguments, every
    record is terminal, no link is left, and no lease is accepted. -/
theorem abort_is_final {rt : CoreRuntime} (h : Run (fun _ _ => True) rt) (reason : String) :
    ∃ count aborted, (abort reason).run rt = (.ok count, aborted) ∧
      ∀ calls : List Call, Stopped (after calls aborted) := by
  have hwp := abort_stops (h.orderly fun hf => hf.elim) reason
  rcases wp_outcome hwp with ⟨count, aborted, hrun, hstop⟩ | ⟨_, _, _, hf⟩
  · refine ⟨count, aborted, hrun, fun calls => ?_⟩
    have hcalled : Run (fun _ _ => True) aborted := by
      have hnext := h.call (.abort reason) trivial
      rwa [Call.exec, run_bind, hrun] at hnext
    exact (hcalled.after calls fun _ _ _ => trivial).stopped
      (hcalled.after_staysAborted calls hstop)
  · exact hf.elim

/-- The task of a claim is aborted while it runs; then a task is submitted and a tick made. -/
theorem abort_is_final_sample : claimedRuntime.tasks.tasks["t.1"]?.map (·.status) = some .running ∧
    ∃ count aborted, (abort "stop").run claimedRuntime = (.ok count, aborted) ∧
      Stopped (after [.submitTask (Task.new "t.2" "p.work" .null),
        .tickOnce (answering (waitFor (Task.new "c" "p.work" .null) .cascade))] aborted) := by
  have hrun : Run (fun _ _ => True) claimedRuntime := run_sampleRuntime.after _ (by simp)
  refine ⟨by decide +kernel, ?_⟩
  generalize claimedRuntime = rt at hrun
  obtain ⟨count, aborted, habort, hstopped⟩ := abort_is_final hrun "stop"
  exact ⟨count, aborted, habort, hstopped _⟩

end CoreRuntime

end MutsukiRuntime
