/-
  THE OUTCOME OF ONE RESULT: when `routeResult` fails, what it has changed by then,
  and what a result it accepts leaves of the leased record.

  * `routeChecks`: the checks of `routeResult` and `routeResultOutputs`, in their order.
-/
import MutsukiRuntime.Core.Runtime.Outputs

namespace MutsukiRuntime

open Std Board TaskPool Prog List Option

namespace CoreRuntime

variable {rt : CoreRuntime} {runner : RunnerDescriptor} {lease : TaskLease} {result : RunnerResult}

/-! ## The checks -/

def routeChecks (rt : CoreRuntime) (runner : RunnerDescriptor) (lease : TaskLease)
    (result : RunnerResult) : Except RuntimeError Unit := do
  rt.tasks.ensureActiveLease result.taskId lease rt.currentStep "route"
  rt.validateWaitingResult result
  validateStatusOutputs result
  validatePurity runner result
  rt.ensureOutputTaskIdsAvailable
    (pendingOutputTasks rt.loadPlan.registryGeneration runner.purity result)

/-- The result awaits one of its own tasks, and the runtime refuses that task. -/
def AwaitsRefused (rt : CoreRuntime) (result : RunnerResult) : Prop :=
  ∃ taskAwait child, result.taskAwait = some taskAwait ∧
    result.tasks.find? (·.taskId == taskAwait.child.taskId) = some child ∧ rt.Refuses child

theorem routeChecks_ok_iff : rt.routeChecks runner lease result = .ok () ↔
      rt.tasks.ensureActiveLease result.taskId lease rt.currentStep "route" = .ok () ∧
      rt.validateWaitingResult result = .ok () ∧ validateStatusOutputs result = .ok () ∧
      validatePurity runner result = .ok () ∧
      rt.ensureOutputTaskIdsAvailable (rt.outputsOf runner result) = .ok () := by
  unfold routeChecks
  simp only [except_bind_eq_ok]
  constructor
  · rintro ⟨⟨⟩, h1, ⟨⟩, h2, ⟨⟩, h3, ⟨⟩, h4, h5⟩
    exact ⟨h1, h2, h3, h4, h5⟩
  · rintro ⟨h1, h2, h3, h4, h5⟩
    exact ⟨(), h1, (), h2, (), h3, (), h4, h5⟩

variable {taskAwait : TaskAwait}

theorem validateAwaitChildTask_ok_iff {parentTaskId : TaskId} {parentTask childTask : Task} :
    validateAwaitChildTask parentTaskId parentTask taskAwait childTask = .ok () ↔
      awaitChildMatches parentTask childTask taskAwait.child = true := by
  unfold validateAwaitChildTask
  split <;> simp_all

theorem validateWaitingResult_ok (h : rt.validateWaitingResult result = .ok ())
    (ha : result.taskAwait = some taskAwait) :
    result.status = .waiting ∧ taskAwait.parentTaskId = result.taskId ∧
    ∃ parent, rt.tasks.tasks[result.taskId]? = some parent ∧
      ((∃ child, result.tasks.find? (·.taskId == taskAwait.child.taskId) = some child ∧
        awaitChildMatches parent.task child taskAwait.child = true) ∨
      (result.tasks.find? (·.taskId == taskAwait.child.taskId) = none ∧
        ∃ child, rt.tasks.tasks[taskAwait.child.taskId]? = some child ∧
          isTerminalStatus child.status = false ∧
          awaitChildMatches parent.task child.task taskAwait.child = true)) := by
  unfold validateWaitingResult at h
  rw [ha] at h
  dsimp only at h
  split at h
  · cases h
  next hstatus =>
    obtain ⟨-, -, h⟩ := except_bind_eq_ok.1 h
    split at h
    · cases h
    next hparent =>
      refine ⟨not_not.1 hstatus, not_not.1 hparent, ?_⟩
      unfold validateAwaitChildDescriptor at h
      cases hr : rt.tasks.tasks[result.taskId]? with
      | none => simp [hr] at h
      | some parent =>
        refine ⟨parent, rfl, ?_⟩
        simp only [hr] at h
        cases hfind : result.tasks.find? (·.taskId == taskAwait.child.taskId) with
        | some child =>
          simp only [hfind] at h
          exact .inl ⟨child, rfl, validateAwaitChildTask_ok_iff.1 h⟩
        | none =>
          simp only [hfind] at h
          cases hchild : rt.tasks.tasks[taskAwait.child.taskId]? with
          | none => simp [hchild] at h
          | some child =>
            simp only [hchild] at h
            cases hterm : isTerminalStatus child.status with
            | true => simp [hterm] at h
            | false =>
              simp only [hterm, Bool.false_eq_true, if_false] at h
              exact .inr ⟨rfl, child, rfl, hterm, validateAwaitChildTask_ok_iff.1 h⟩

theorem ensureOutputTaskIdsAvailable_ok {tasks : List Task} :
    rt.ensureOutputTaskIdsAvailable tasks = .ok () ↔
      (∀ task ∈ tasks, rt.tasks.containsTaskId task.taskId = false) ∧
        (tasks.map (·.taskId)).Nodup := by
  rw [← duplicateTask_eq_none]
  unfold ensureOutputTaskIdsAvailable
  split <;> simp_all

/-! ## Committing -/

/-- The failure a `Failed` result records. -/
def runnerFailed (runner : RunnerDescriptor) : RuntimeError :=
  runtimeError "runner.failed" "runtime.result_router" s!"runner.{runner.runnerId}"

/-- The leased operation behind each status; a `Continue` has none. -/
def resultOp (runner : RunnerDescriptor) (result : RunnerResult) : Option LeasedOp :=
  match result.status with
  | .completed => some (.complete result.output)
  | .waiting =>
    some (match result.taskAwait with
      | some taskAwait => .waitOnTask taskAwait
      | none => .wait none)
  | .blocked => some .block
  | .failed => some (.fail (runnerFailed runner))
  | .cancelled => some .cancelTask
  | .continue => none

/-- What the routing of an entry leaves of the record `r` it was leased with: the record of the
    operation, which the history may have dropped if it is terminal. -/
def Records (currentStep : Nat) (lease : TaskLease) (r : TaskRecord) (pool : TaskPool) :
    Option LeasedOp → Prop
  | none => pool.tasks[lease.taskId]? = some r
  | some op => pool.tasks[lease.taskId]? = some (op.edit currentStep r) ∨
      (pool.tasks[lease.taskId]? = none ∧ isTerminalStatus (op.edit currentStep r).status = true)

variable {pool : TaskPool}

/-- The wake-up that follows a terminal operation leaves the record of the operation alone. -/
theorem wakeTasksWaitingOn_spent {edit : TaskRecord → TaskRecord} {r : TaskRecord}
    {currentStep : Nat} (h : Good rt.tasks) (hspent : Spends lease currentStep edit pool rt.tasks r)
    (hterm : isTerminalStatus (edit r).status = true) (taskId : TaskId) :
    wp (wakeTasksWaitingOn taskId) (fun _ rt' => rt'.tasks.tasks[lease.taskId]? = some (edit r) ∨
        (rt'.tasks.tasks[lease.taskId]? = none ∧ isTerminalStatus (edit r).status = true))
      (fun _ _ => False) rt := by
  have hdead : ¬ rt.tasks.board.Live lease.taskId := by
    rintro ⟨v, hv, hlive⟩
    rcases hspent.kept with hk | ⟨hk, -⟩
    · cases hk.symm.trans hv
      rw [hterm] at hlive
      cases hlive
    · cases hk.symm.trans hv
  have hself : Steady {} False noneTaken rt rt := steady_self h fun hf => hf.elim
  refine wp_total (wakeTasksWaitingOn_steady hself taskId) ?_
  intro _ rt' hs
  rcases hs.pool.reach.ended_kept (fun ⟨_, _, hf⟩ => hf) hdead with he | he
  · exact hspent.kept.imp (fun hk => he.trans hk) fun hk => ⟨he.trans hk.1, hterm⟩
  · exact .inr ⟨he, hterm⟩

/-- The operation has been accepted, and its record stored. -/
def Committed (rt : CoreRuntime) (lease : TaskLease) (op : Option LeasedOp) (rt' : CoreRuntime) :
    Prop :=
  (∀ leased ∈ op, leased.check rt.tasks lease rt.currentStep = .ok ()) ∧
    ∀ r, rt.tasks.tasks[lease.taskId]? = some r → Records rt.currentStep lease r rt'.tasks op

/-- The operation has been refused. -/
def Declined (rt : CoreRuntime) (lease : TaskLease) (op : Option LeasedOp) (e : RuntimeError)
    (rt' : CoreRuntime) : Prop :=
  rt' = rt ∧ ∃ leased ∈ op, leased.check rt.tasks lease rt.currentStep = .error e

/-- An operation that is followed by `rest`, which leaves its record alone. -/
theorem onPool_records (h : Good rt.tasks) (op : LeasedOp) {rest : Unit → CoreM Nat}
    (hrest : ∀ pool r, Good pool → Spends lease rt.currentStep (op.edit rt.currentStep) rt.tasks
        pool r →
      wp (rest ()) (fun _ rt' => Records rt.currentStep lease r rt'.tasks (some op))
        (fun _ _ => False) { rt with tasks := pool }) :
    wp (onPool (op.exec lease rt.currentStep) >>= rest)
      (fun _ => Committed rt lease (some op)) (Declined rt lease (some op)) rt := by
  rw [wp_bind, wp_onPool]
  refine wp_mono (exec_spends h op) ?_ ?_
  · intro _ pool ⟨hgood, hcheck, r, hspent⟩
    refine wp_total (hrest pool r hgood hspent) ?_
    intro _ rt' hrecords
    refine ⟨fun _ he => ?_, fun v hv => ?_⟩
    · cases he
      exact hcheck
    · cases hspent.stored.symm.trans hv
      exact hrecords
  · intro e pool ⟨hcheck, he⟩
    rw [he]
    exact ⟨rfl, op, rfl, hcheck⟩

theorem finishTask_records (h : Good rt.tasks) (op : LeasedOp)
    (hterm : ∀ r, isTerminalStatus (op.edit rt.currentStep r).status = true) (taskId : TaskId)
    (name : String) (failure : Option RuntimeError) :
    wp (finishTask (op.exec lease rt.currentStep) taskId name failure)
      (fun _ => Committed rt lease (some op)) (Declined rt lease (some op)) rt := by
  refine onPool_records h op fun pool r hgood hspent => ?_
  rw [wp_bind]
  show wp (wakeTasksWaitingOn taskId >>= fun _ => pure 1) _ _ _
  rw [wp_bind]
  refine wp_total (wakeTasksWaitingOn_spent ?_ hspent (hterm r) taskId) ?_
  · exact hgood
  · exact fun _ _ hkept => hkept

theorem failRunnerDispatch_records (h : Good rt.tasks) (failure : RuntimeError) :
    wp (failRunnerDispatch lease failure)
      (fun _ rt' => ∀ r, rt.tasks.tasks[lease.taskId]? = some r →
        leaseActive r lease rt.currentStep = true →
          Records rt.currentStep lease r rt'.tasks (some (.fail failure)))
      (fun _ _ => False) rt := by
  unfold failRunnerDispatch
  rw [wp_bind, wp_read, wp_bind, wp_attempt, wp_onPool]
  refine wp_mono (exec_spends h (.fail failure)) ?_ ?_
  · intro _ pool ⟨hgood, _, r, hspent⟩
    show wp (recordTaskTerminalEvent lease.taskId "task.failed" (some failure) >>= _) _ _ _
    rw [wp_bind]
    show wp (wakeTasksWaitingOn lease.taskId >>= _) _ _ _
    rw [wp_bind]
    refine wp_total (wakeTasksWaitingOn_spent ?_ hspent rfl lease.taskId) ?_
    · exact hgood
    · intro _ rt' hkept v hv _
      cases hspent.stored.symm.trans hv
      exact hkept
  · intro e pool ⟨hcheck, _⟩ r hr ha
    have hok : LeasedOp.check rt.tasks lease rt.currentStep (.fail failure) = .ok () :=
      ensureActiveLease_ok_iff.2 ⟨r, hr, ha⟩
    cases hok.symm.trans hcheck

theorem suspendTask_records (h : Good rt.tasks) (op : LeasedOp) (taskId : TaskId)
    (status : String) :
    wp (do
        onPool (op.exec lease rt.currentStep)
        progressEvent taskId status
        pure 0)
      (fun _ => Committed rt lease (some op)) (Declined rt lease (some op)) rt :=
  onPool_records h op fun _ _ _ hspent => hspent.kept

/-- `commit_result_status` succeeds exactly when the check of its operation does. -/
theorem commitResultStatus_records (h : Good rt.tasks) : wp (commitResultStatus runner lease result)
      (fun _ => Committed rt lease (resultOp runner result))
      (Declined rt lease (resultOp runner result)) rt := by
  unfold commitResultStatus resultOp
  rw [wp_bind, wp_read]
  cases result.status with
  | completed => exact finishTask_records h (.complete result.output) (fun _ => rfl) _ _ _
  | waiting =>
    cases result.taskAwait with
    | none => exact suspendTask_records h (.wait none) _ _
    | some taskAwait => exact suspendTask_records h (.waitOnTask taskAwait) _ _
  | blocked => exact suspendTask_records h .block _ _
  | failed => exact finishTask_records h (.fail (runnerFailed runner)) (fun _ => rfl) _ _ _
  | cancelled => exact finishTask_records h .cancelTask (fun _ => rfl) _ _ _
  | «continue» => exact ⟨fun op he => (not_mem_none op he).elim, fun r hr => hr⟩

section Shrinks

/-- No task has been enqueued. -/
def EnqueuesNone (rt rt' : CoreRuntime) : Prop := Shrinks rt.tasks rt'.tasks

instance : IsPreorder CoreRuntime EnqueuesNone where
  refl rt := refl_of Shrinks rt.tasks
  trans _ _ _ h h' := trans_of Shrinks h h'

theorem shrinks_onPool {α : Type} {m : PoolM α} (h : Leads (Revises fun _ _ => True) m) :
    Leads EnqueuesNone (onPool m) :=
  .zoom h fun _ _ hr => hr.shrinks

theorem shrinks_recordEvent (kind : RuntimeEventKind) (name : String) (subjectId : Option String)
    (attributes : Attributes) (error : Option RuntimeError) :
    Leads EnqueuesNone (recordEvent kind name subjectId attributes error) :=
  .update fun rt => refl_of EnqueuesNone rt

theorem shrinks_finishTask (op : LeasedOp) (currentStep : Nat) (taskId : TaskId) (name : String)
    (failure : Option RuntimeError) :
    Leads EnqueuesNone (finishTask (op.exec lease currentStep) taskId name failure) := by
  refine .bind (shrinks_onPool (revises_leased op trivial currentStep)) fun _ =>
    .bind (shrinks_recordEvent _ _ _ _ _) fun _ => .bind ?_ fun _ => .pure _
  exact .bind (shrinks_onPool (revises_takeWaitsForChild _)) fun _ => .foldEach fun _ _ _ =>
    .bind .read fun _ => .ite (.bind (shrinks_onPool (revises_wake trivial _)) fun _ =>
      .bind (shrinks_recordEvent _ _ _ _ _) fun _ => .pure _) (.pure _)

theorem commitResultStatus_shrinks (runner : RunnerDescriptor) (lease : TaskLease)
    (result : RunnerResult) : Leads EnqueuesNone (commitResultStatus runner lease result) := by
  have hsuspend : ∀ (op : LeasedOp) (currentStep : Nat) (taskId : TaskId) (status : String),
      Leads EnqueuesNone (do
        onPool (op.exec lease currentStep)
        progressEvent taskId status
        pure 0) := fun op currentStep _ _ =>
    .bind (shrinks_onPool (revises_leased op trivial currentStep)) fun _ =>
      .bind (shrinks_recordEvent _ _ _ _ _) fun _ => .pure _
  refine .bind .read fun rt => ?_
  cases result.status with
  | completed => exact shrinks_finishTask (.complete result.output) _ _ _ _
  | waiting =>
    cases result.taskAwait with
    | none => exact hsuspend (.wait none) _ _ _
    | some taskAwait => exact hsuspend (.waitOnTask taskAwait) _ _ _
  | blocked => exact hsuspend .block _ _ _
  | failed => exact shrinks_finishTask (.fail (runnerFailed runner)) _ _ _ _
  | cancelled => exact shrinks_finishTask .cancelTask _ _ _ _
  | «continue» => exact .pure 0

end Shrinks

/-! ## Routing -/

theorem routeResultOutputs_derives (h : Good rt.tasks) (hopen : rt.stopState ≠ .aborted)
    (hpurity : validatePurity runner result = .ok ())
    (hids : rt.ensureOutputTaskIdsAvailable (rt.outputsOf runner result) = .ok ()) :
    wp (routeResultOutputs runner result)
      (fun _ rt' => Derives rt.Refuses rt.tasks (rt.outputsOf runner result) rt'.tasks)
      (fun _ _ => False) rt := by
  obtain ⟨hnew, hnd⟩ := ensureOutputTaskIdsAvailable_ok.1 hids
  unfold routeResultOutputs
  rw [wp_bind, wp_read, wp_bind, hpurity, wp_lift_ok]
  show wp (Prog.lift (rt.ensureOutputTaskIdsAvailable (rt.outputsOf runner result)) >>= _) _ _ _
  rw [wp_bind, hids, wp_lift_ok, wp_bind]
  refine wp_total (wp_forEach (fun _ rt' => ∃ events, rt' = { rt with events })
    ⟨rt.events, rfl⟩ ?_) ?_
  · rintro ref _ _ ⟨events, rfl⟩
    exact ⟨_, rfl⟩
  · rintro _ _ ⟨events, rfl⟩
    rw [wp_bind]
    refine wp_total (wp_forEach (fun _ rt' => ∃ events, rt' = { rt with events })
      ⟨events, rfl⟩ ?_) ?_
    · rintro ref _ _ ⟨events, rfl⟩
      exact ⟨_, rfl⟩
    · rintro _ _ ⟨events, rfl⟩
      refine enqueueAll_derives ?_ ?_ runner ?_ hnd
      · exact h
      · exact hopen
      · exact hnew

theorem mem_outputsOf {task : Task} (h : task ∈ result.tasks) (rt : CoreRuntime)
    (runner : RunnerDescriptor) : task ∈ rt.outputsOf runner result := by
  unfold outputsOf pendingOutputTasks
  exact mem_append_right _ h

/-- What a result that passes the checks finds once its outputs are derived: its own record
    untouched, and no task of the pool among the outputs. -/
theorem routeChecks_ok_record (h : Good rt.tasks)
    (hchecks : rt.routeChecks runner lease result = .ok ())
    (hd : Derives rt.Refuses rt.tasks (rt.outputsOf runner result) pool) :
    lease.taskId = result.taskId ∧
    (∃ r, rt.tasks.tasks[lease.taskId]? = some r ∧ leaseActive r lease rt.currentStep = true) ∧
    ∀ (id : TaskId) (v : TaskRecord), rt.tasks.tasks[id]? = some v →
      isTerminalStatus v.status = false → pool.tasks[id]? = some v := by
  obtain ⟨hlease, -, -, -, hids⟩ := routeChecks_ok_iff.1 hchecks
  obtain ⟨r, hr, ha⟩ := ensureActiveLease_ok_iff.1 hlease
  have hid := leaseActive_taskId h hr ha
  refine ⟨hid, ⟨r, by rw [hid]; exact hr, ha⟩, fun id v hv hlive => ?_⟩
  refine (hd.others id fun t ht he => ?_).record hv hlive
  have hunknown := (ensureOutputTaskIdsAvailable_ok.1 hids).1 t ht
  rw [he, containsTaskId_iff.2 (.inl (mem_tasks_of_getElem? hv))] at hunknown
  cases hunknown

theorem AwaitsRefused.resultOp (h : rt.AwaitsRefused result) (runner : RunnerDescriptor)
    (hwait : rt.validateWaitingResult result = .ok ()) :
    ∃ op, CoreRuntime.resultOp runner result = some op := by
  obtain ⟨taskAwait, _, hawait, _⟩ := h
  have hstatus := (validateWaitingResult_ok hwait hawait).1
  unfold CoreRuntime.resultOp
  rw [hstatus]
  exact ⟨_, rfl⟩

/-- After the outputs, the operation of the status is accepted unless its child was refused. -/
theorem resultOp_check (h : Good rt.tasks) (hchecks : rt.routeChecks runner lease result = .ok ())
    (hd : Derives rt.Refuses rt.tasks (rt.outputsOf runner result) pool) {op : LeasedOp}
    (hop : resultOp runner result = some op) :
    op.check pool lease rt.currentStep = .ok () ↔ ¬ rt.AwaitsRefused result := by
  obtain ⟨hid, ⟨r, hr, ha⟩, hkept⟩ := routeChecks_ok_record h hchecks hd
  obtain ⟨-, hwait, -, -, -⟩ := routeChecks_ok_iff.1 hchecks
  have hrun : isTerminalStatus r.status = false := by
    rw [(leaseActive_iff.1 ha).1]
    rfl
  have hr' := hkept lease.taskId r hr hrun
  cases hawait : result.taskAwait with
  | none =>
    have hnone : ¬ rt.AwaitsRefused result := by
      rintro ⟨taskAwait, -, he, -⟩
      cases hawait.symm.trans he
    have hactive : op.check pool lease rt.currentStep = .ok () := by
      have hok : ∀ action, pool.ensureActiveLease lease.taskId lease rt.currentStep action =
          .ok () := fun action => ensureActiveLease_ok_iff.2 ⟨r, hr', ha⟩
      unfold resultOp at hop
      rw [hawait] at hop
      cases hstatus : result.status <;> rw [hstatus] at hop <;> cases hop <;> exact hok _
    exact iff_of_true hactive hnone
  | some taskAwait =>
    obtain ⟨hstatus, hparent, parent, hpr, hchild⟩ := validateWaitingResult_ok hwait hawait
    have hop' : op = .waitOnTask taskAwait := by
      unfold resultOp at hop
      rw [hstatus, hawait] at hop
      exact (some.inj hop).symm
    subst hop'
    have hparent' : taskAwait.parentTaskId = lease.taskId := hparent.trans hid.symm
    rw [← hid, hr] at hpr
    cases hpr
    refine checkWaitOnTask_ok_iff.trans ?_
    constructor
    · rintro ⟨-, _, child, -, -, hc, hlive, -⟩ ⟨a, task, he, hfind, hrefused⟩
      cases hawait.symm.trans he
      have htask : task.taskId = taskAwait.child.taskId := by simpa using find?_some hfind
      refine hd.ended task (mem_outputsOf (mem_of_find?_eq_some hfind) _ _) hrefused ?_
      rw [htask]
      exact ⟨child, hc, hlive⟩
    · intro hnot
      rcases hchild with ⟨task, hfind, hmatch⟩ | ⟨-, child, hc, hlive, hmatch⟩
      · have htask : task.taskId = taskAwait.child.taskId := by simpa using find?_some hfind
        have haccepted : ¬ rt.Refuses task := fun hrefused =>
          hnot ⟨taskAwait, task, hawait, hfind, hrefused⟩
        obtain ⟨child, hc, hlive, hsame⟩ := hd.stored task
          (mem_outputsOf (mem_of_find?_eq_some hfind) _ _) haccepted
        rw [htask] at hc
        exact ⟨hparent', r, child, hr', ha, hc, hlive, by rw [hsame]; exact hmatch⟩
      · exact ⟨hparent', r, child, hr', ha, hkept _ child hc hlive, hlive, hmatch⟩

theorem routeResult_run_error {e : RuntimeError}
    (h : rt.routeChecks runner lease result = .error e) :
    (routeResult runner lease result).run rt = (.err e, rt) := by
  unfold routeChecks at h
  unfold routeResult
  rw [run_read_bind]
  rcases except_bind_eq_error.1 h with h | ⟨⟨⟩, hlease, h⟩
  · rw [h]
    rfl
  rcases except_bind_eq_error.1 h with h | ⟨⟨⟩, hwait, h⟩
  · rw [hlease, h]
    rfl
  rcases except_bind_eq_error.1 h with h | ⟨⟨⟩, hstatus, h⟩
  · rw [hlease, hwait, h]
    rfl
  rw [hlease, hwait, hstatus]
  have houtputs : (routeResultOutputs runner result).run rt = (.err e, rt) := by
    unfold routeResultOutputs
    rw [run_read_bind]
    rcases except_bind_eq_error.1 h with h | ⟨⟨⟩, hpurity, h⟩
    · rw [h]
      rfl
    · dsimp only
      rw [hpurity, h]
      rfl
  exact run_bind_of_err houtputs _

/-- A result is refused by a check before anything changes, or after its outputs because it
    awaits one that was refused; any other result is committed. -/
theorem routeResult_spec (h : Good rt.tasks)
    (hstop : rt.stopState = .aborted → ∀ id, ¬ rt.tasks.board.Live id) :
    wp (routeResult runner lease result)
      (fun _ rt' => rt.routeChecks runner lease result = .ok () ∧ ¬ rt.AwaitsRefused result ∧
        (∀ r, rt.tasks.tasks[lease.taskId]? = some r →
          Records rt.currentStep lease r rt'.tasks (resultOp runner result)) ∧
        ∀ id, rt'.tasks.containsTaskId id = true →
          rt.tasks.containsTaskId id = true ∨ ∃ t ∈ rt.outputsOf runner result, t.taskId = id)
      (fun e rt' => (rt.routeChecks runner lease result = .error e ∧ rt' = rt) ∨
        (rt.routeChecks runner lease result = .ok () ∧ rt.AwaitsRefused result ∧
          rt.tasks.nextSequence < rt'.tasks.nextSequence)) rt := by
  cases hchecks : rt.routeChecks runner lease result with
  | error e => exact (wp_of_run_err (routeResult_run_error hchecks)).2 (.inl ⟨rfl, rfl⟩)
  | ok u =>
    obtain ⟨hlease, hwait, hstatus, hpurity, hids⟩ := routeChecks_ok_iff.1 hchecks
    obtain ⟨r, hr, ha⟩ := ensureActiveLease_ok_iff.1 hlease
    have hrun : isTerminalStatus r.status = false := by
      rw [(leaseActive_iff.1 ha).1]
      rfl
    have hopen : rt.stopState ≠ .aborted := fun he => hstop he _ ⟨r, hr, hrun⟩
    have hself : Steady deriveScope False noneTaken rt rt := steady_self h fun hf => hf.elim
    have hadmits : Admits deriveScope rt runner result :=
      ⟨fun _ _ => trivial, fun _ _ _ _ => trivial, fun _ _ _ => trivial⟩
    unfold routeResult
    rw [wp_bind, wp_read, wp_bind, hlease, wp_lift_ok, wp_bind, hwait,
      wp_lift_ok, wp_bind, hstatus, wp_lift_ok, wp_bind]
    refine wp_mono (wp_and (routeResultOutputs_derives h hopen hpurity hids)
      (routeResultOutputs_steady hself hadmits)) ?_
      (fun _ _ hf => hf.1.elim)
    intro _ rt₁ ⟨hd, hs⟩
    obtain ⟨hid, -, hkept⟩ := routeChecks_ok_record h hchecks hd
    rw [← hid] at hr
    have hr₁ := hkept lease.taskId r hr hrun
    refine wp_mono (wp_leads (commitResultStatus_records hs.good) (commitResultStatus_shrinks
      runner lease result)) ?_ ?_
    · intro _ rt₂ ⟨⟨hcheck, hrecords⟩, hshrinks⟩
      rw [hs.currentStep] at hcheck hrecords
      refine ⟨rfl, fun hrefused => ?_, fun v hv => hrecords v ?_,
        fun id hid => hd.known id (hshrinks.known id hid)⟩
      · obtain ⟨op, hop⟩ := hrefused.resultOp runner hwait
        exact (resultOp_check h hchecks hd hop).1 (hcheck op hop) hrefused
      · rw [hr₁, ← hr]
        exact hv
    · rintro e _ ⟨⟨rfl, op, hop, hcheck⟩, -⟩
      rw [hs.currentStep] at hcheck
      have hrefused : rt.AwaitsRefused result := by
        by_contra hnot
        cases hcheck.symm.trans ((resultOp_check h hchecks hd hop).2 hnot)
      have hpending : 0 < (rt.outputsOf runner result).length := by
        obtain ⟨_, child, _, hfind, _⟩ := hrefused
        exact length_pos_of_mem (mem_outputsOf (mem_of_find?_eq_some hfind) _ _)
      have hsequence := hd.sequence
      exact .inr ⟨rfl, hrefused, by omega⟩

end CoreRuntime

end MutsukiRuntime
