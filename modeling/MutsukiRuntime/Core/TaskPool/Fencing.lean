/-
  LEASED OPERATIONS: what the seven operations that need a lease do, as one table.

  `exec_tracks` is the specification of all of them: one that fails its check changes
  nothing, and any other ends the lease and leaves the record of the table.
-/
import MutsukiRuntime.Core.TaskPool.Operations

namespace MutsukiRuntime

open Std Buckets Prog

inductive LeasedOp where
  | complete (output : Option Value)
  | fail (failure : RuntimeError)
  | wait (readyAtStep : Option Nat)
  | waitOnTask (taskAwait : TaskAwait)
  | deferLeased
  | block
  | cancelTask

namespace LeasedOp

def exec (lease : TaskLease) (currentStep : Nat) : LeasedOp → PoolM Unit
  | complete output => TaskPool.complete lease currentStep output
  | fail failure => TaskPool.fail lease currentStep failure
  | wait readyAtStep => TaskPool.wait lease currentStep readyAtStep
  | waitOnTask taskAwait => TaskPool.waitOnTask lease currentStep taskAwait
  | deferLeased => TaskPool.deferLeased lease currentStep
  | block => TaskPool.block lease currentStep
  | cancelTask => TaskPool.cancelTask lease currentStep

/-- The record an accepted operation leaves. -/
def edit (currentStep : Nat) (r : TaskRecord) : LeasedOp → TaskRecord
  | complete output => TaskPool.markTerminalRecord { r with output } .completed none
  | fail failure => TaskPool.markTerminalRecord r .failed (some failure)
  | wait readyAtStep => TaskPool.releaseRecordLease
      { r with status := .waiting, task := { r.task with readyAtStep } }
  | waitOnTask taskAwait => TaskPool.suspendOn taskAwait r
  | deferLeased => TaskPool.clearRecordOwner (TaskPool.releaseRecordLease
      { r with status := .ready, readySinceStep := currentStep })
  | block => TaskPool.releaseRecordLease { r with status := .blocked }
  | cancelTask => TaskPool.markTerminalRecord r .cancelled none

/-- What an operation checks before its first edit. -/
def check (pool : TaskPool) (lease : TaskLease) (currentStep : Nat) :
    LeasedOp → Except RuntimeError Unit
  | waitOnTask taskAwait => pool.checkWaitOnTask lease currentStep taskAwait
  | complete _ => pool.ensureActiveLease lease.taskId lease currentStep "complete"
  | fail _ => pool.ensureActiveLease lease.taskId lease currentStep "fail"
  | wait _ => pool.ensureActiveLease lease.taskId lease currentStep "wait"
  | deferLeased => pool.ensureActiveLease lease.taskId lease currentStep "defer"
  | block => pool.ensureActiveLease lease.taskId lease currentStep "block"
  | cancelTask => pool.ensureActiveLease lease.taskId lease currentStep "cancel"

/-- The moves of the operation are allowed, up to the tidying that follows. -/
def AllowedBy (allowed : Move → Prop) (lease : TaskLease) : LeasedOp → Prop
  | complete _ => allowed (.change lease.taskId (.complete lease))
  | fail _ | cancelTask => allowed (.change lease.taskId .finish)
  | waitOnTask taskAwait => allowed (.change lease.taskId .release) ∧ allowed (.link taskAwait)
  | wait _ | deferLeased | block => allowed (.change lease.taskId .release)

theorem allowedBy_true (lease : TaskLease) (op : LeasedOp) :
    op.AllowedBy (fun _ => True) lease := by
  cases op <;> simp [AllowedBy]

end LeasedOp

namespace TaskPool

variable {allowed : Move → Prop} {b : Board} {pool : TaskPool} {taskId : TaskId} {r : TaskRecord}
  {l : TaskLease} {currentStep : Nat} {action : String}

theorem leaseActive_iff : leaseActive r l currentStep = true ↔
      r.status = .running ∧ r.claimedBy = some l.runnerId ∧ r.lease = some l ∧
        taskLeaseExpired l currentStep = false := by
  simp [leaseActive, and_assoc]

theorem ensureActiveLease_ok_iff : pool.ensureActiveLease taskId l currentStep action = .ok () ↔
      ∃ r, pool.tasks[taskId]? = some r ∧ leaseActive r l currentStep = true := by
  unfold ensureActiveLease TaskPool.record validateRecordLease
  cases pool.tasks[taskId]? with
  | none => simp [bind, Except.bind]
  | some r => by_cases ha : leaseActive r l currentStep = true <;> simp [bind, Except.bind, ha]

theorem leaseActive_taskId (h : Good pool) (hr : pool.tasks[taskId]? = some r)
    (ha : leaseActive r l currentStep = true) : l.taskId = taskId :=
  ((h.records taskId r hr).leased l (leaseActive_iff.1 ha).2.2.1).trans (h.keyed taskId r hr)

/-! ## The end of an attempt -/

/-- The pool after a leased operation has ended the attempt of `r`. -/
def attemptEnded (pool : TaskPool) (l : TaskLease) (currentStep : Nat) (target : TaskStatus)
    (r r' : TaskRecord) : TaskPool :=
  ((pool.replaceRecord l.taskId r r').countTransition .running target).recordAttemptFinished l
    currentStep

theorem getElem?_attemptEnded (l : TaskLease) (currentStep : Nat) (target : TaskStatus)
    (r r' : TaskRecord) (id : TaskId) :
    (pool.attemptEnded l currentStep target r r').tasks[id]? =
      if l.taskId = id then some r' else pool.tasks[id]? :=
  getElem?_replaceRecord pool l.taskId r r' id

/-- The lease is active, ends, and its record becomes `edit r`. -/
structure Spends (l : TaskLease) (currentStep : Nat) (edit : TaskRecord → TaskRecord)
    (pool pool' : TaskPool) (r : TaskRecord) : Prop where
  stored : pool.tasks[l.taskId]? = some r
  active : leaseActive r l currentStep = true
  log : pool'.leaseLog = .ended l :: pool.leaseLog
  completed : pool'.completedLog = completedTasks (edit r) ++ pool.completedLog
  kept : pool'.tasks[l.taskId]? = some (edit r) ∨
    (pool'.tasks[l.taskId]? = none ∧ isTerminalStatus (edit r).status = true)

variable {target : TaskStatus} {edit : TaskRecord → TaskRecord}

theorem spends_attemptEnded (target : TaskStatus) (hr : pool.tasks[l.taskId]? = some r)
    (ha : leaseActive r l currentStep = true) (hlease : (edit r).lease = none) :
    Spends l currentStep edit pool (pool.attemptEnded l currentStep target r (edit r)) r := by
  refine ⟨hr, ha, ?_, rfl, .inl ?_⟩
  · show leaseEvents (pool.tasks[l.taskId]?.bind (·.lease)) (edit r).lease ++ pool.leaseLog = _
    rw [hr, hlease]
    simp [leaseEvents, (leaseActive_iff.1 ha).2.2.1]
  · rw [getElem?_attemptEnded, if_pos rfl]

theorem Spends.tidied {r : TaskRecord} {pool₁ pool' : TaskPool}
    (h : Spends l currentStep edit pool pool₁ r)
    (hreach : Board.Reach Board.Tidies pool₁.board pool'.board)
    (hterm : isTerminalStatus (edit r).status = true) :
    Spends l currentStep edit pool pool' r := by
  obtain ⟨hlog, hcompleted, htasks⟩ := hreach.tidied
  refine ⟨h.stored, h.active, hlog.trans h.log, hcompleted.trans h.completed, ?_⟩
  rcases htasks l.taskId with he | ⟨he, -⟩
  · rcases h.kept with hk | ⟨hk, ht⟩
    · exact .inl (he.trans hk)
    · exact .inr ⟨he.trans hk, ht⟩
  · exact .inr ⟨he, hterm⟩

/-- A leased operation fails `ensure_active_lease` and changes nothing, or ends the attempt. -/
theorem wp_endAttempt (h : Good pool) {Q : Unit → TaskPool → Prop}
    {E : RuntimeError → TaskPool → Prop}
    (herr : ∀ e, pool.ensureActiveLease l.taskId l currentStep action = .error e → E e pool)
    (hok : pool.ensureActiveLease l.taskId l currentStep action = .ok () →
      ∀ r, pool.tasks[l.taskId]? = some r → leaseActive r l currentStep = true →
        Q () (pool.attemptEnded l currentStep target r (edit r))) :
    wp (endAttempt l currentStep action target edit) Q E pool := by
  unfold endAttempt
  rw [wp_bind]
  cases hr : pool.tasks[l.taskId]? with
  | none =>
    refine (wp_of_run_err (mutateRecordIndexed_run_missing hr)).2 (herr _ ?_)
    simp [ensureActiveLease, TaskPool.record, hr, bind, Except.bind]
  | some r =>
    cases ha : leaseActive r l currentStep with
    | false =>
      have hm : leasedEdit l currentStep action edit r =
          .error (staleLeaseError r l currentStep action) := by
        simp [leasedEdit, validateRecordLease, ha]
      refine (wp_of_run_err (mutateRecordIndexed_run_err h (fun hf => hf) (fun hf => hf) hr
        hm)).2 (herr _ ?_)
      simp [ensureActiveLease, TaskPool.record, validateRecordLease, hr, ha, bind, Except.bind]
    | true =>
      have hm : leasedEdit l currentStep action edit r = .ok ((), edit r) := by
        simp [leasedEdit, validateRecordLease, ha]
      rw [wp_of_run_ok (mutateRecordIndexed_run_ok hr hm)]
      exact hok (ensureActiveLease_ok_iff.2 ⟨r, hr, ha⟩) r hr ha

/-- Ending an attempt; a terminal record is still to be queued in the history. -/
theorem Tracks.attemptEnded (h : Settled allowed b pool) (c : Change) (target : TaskStatus)
    {r' : TaskRecord} (hr : pool.tasks[l.taskId]? = some r)
    (ha : leaseActive r l currentStep = true) (hc : c.Allows r r') (hok : RecordOk r')
    (hsame : SameTask c.rebinds r r') (hm : allowed (.change l.taskId c)) :
    Tracks noneTaken noneTaken (fun x => x = l.taskId ∧ isTerminalStatus r'.status = true)
      noneTaken allowed b (pool.attemptEnded l currentStep target r r') := by
  have hrun := (leaseActive_iff.1 ha).1
  have hchange := h.change_unlinked c r' hr hc.source_live (by simp [hrun]) hc hok hsame hm
  rw [without_noneTaken] at hchange
  exact (hchange.withStatistics _).withStatistics _

theorem Tracks.attemptEnded_release (h : Settled allowed b pool) (target : TaskStatus)
    {r' : TaskRecord} (hr : pool.tasks[l.taskId]? = some r)
    (ha : leaseActive r l currentStep = true)
    (hstatus : r'.status = .ready ∨ r'.status = .waiting ∨ r'.status = .blocked)
    (hlease : r'.lease = none) (hclaimed : r'.claimedBy = none) (hsame : SameTask false r r')
    (hm : allowed (.change l.taskId .release)) :
    Settled allowed b (pool.attemptEnded l currentStep target r r') := by
  have hc : Change.release.Allows r r' := ⟨(leaseActive_iff.1 ha).1, hstatus⟩
  have hok : RecordOk r' := by
    apply recordOk_idle hlease hclaimed <;> rcases hstatus with hs | hs | hs <;> simp [hs]
  have hended := h.attemptEnded .release target hr ha hc hok hsame hm
  rw [unlisted_of_live _ (hc.live rfl)] at hended
  exact hended

/-! ## The operations -/

/-- The operation has passed its check, kept the invariant and spent the lease. -/
def Accepted (allowed : Move → Prop) (b : Board) (l : TaskLease) (currentStep : Nat)
    (check : Except RuntimeError Unit) (edit : TaskRecord → TaskRecord)
    (pool pool' : TaskPool) : Prop :=
  Settled allowed b pool' ∧ check = .ok () ∧ ∃ r, Spends l currentStep edit pool pool' r

theorem endAttempt_release (h : Settled allowed b pool)
    (hedit : ∀ r, (edit r).status = .ready ∨ (edit r).status = .waiting ∨
      (edit r).status = .blocked)
    (hidle : ∀ r, (edit r).lease = none ∧ (edit r).claimedBy = none ∧ SameTask false r (edit r))
    (hm : allowed (.change l.taskId .release)) :
    wp (endAttempt l currentStep action target edit)
      (fun _ => Accepted allowed b l currentStep
        (pool.ensureActiveLease l.taskId l currentStep action) edit pool)
      (fun e pool' => pool.ensureActiveLease l.taskId l currentStep action = .error e ∧
        pool' = pool) pool := by
  refine wp_endAttempt h.wf (fun e he => ⟨he, rfl⟩) fun hok r hr ha => ?_
  obtain ⟨hlease, hclaimed, hsame⟩ := hidle r
  exact ⟨h.attemptEnded_release target hr ha (hedit r) hlease hclaimed hsame hm, hok, r,
    spends_attemptEnded target hr ha hlease⟩

/-- Terminal operations: the attempt, then the history; `cancel_task` drops its link in
    between. -/
theorem endAttempt_terminal (h : Settled allowed b pool) (hforget : ∀ id, allowed (.forget id))
    (hunlink : allowed .unlink) {c : Change} (hm : allowed (.change l.taskId c))
    (status : TaskStatus) (hstatus : isTerminalStatus status = true)
    (output : TaskRecord → Option Value) (failure : Option RuntimeError)
    (hc : ∀ r, leaseActive r l currentStep = true →
      c.Allows r (markTerminalRecord { r with output := output r } status failure))
    {tail : PoolM Unit}
    (htail : tail = recordTerminalTask l.taskId ∨ tail = do
      Prog.update (·.removeWaitsForParent l.taskId)
      recordTerminalTask l.taskId) :
    wp (do
        endAttempt l currentStep action target fun r =>
          markTerminalRecord { r with output := output r } status failure
        tail)
      (fun _ => Accepted allowed b l currentStep
        (pool.ensureActiveLease l.taskId l currentStep action)
        (fun r => markTerminalRecord { r with output := output r } status failure) pool)
      (fun e pool' => pool.ensureActiveLease l.taskId l currentStep action = .error e ∧
        pool' = pool) pool := by
  rw [wp_bind]
  refine wp_endAttempt h.wf (fun e he => ⟨he, rfl⟩) fun hok r hr ha => ?_
  have hspent : Spends l currentStep
      (fun r => markTerminalRecord { r with output := output r } status failure) pool _ r :=
    spends_attemptEnded target hr ha rfl
  have hsame : SameTask c.rebinds r
      (markTerminalRecord { r with output := output r } status failure) := by
    cases c.rebinds <;> rfl
  have hended := h.attemptEnded c target hr ha (hc r ha)
    (recordOk_markTerminalRecord _ failure hstatus) hsame hm
  rw [unlisted_of_terminal (r := markTerminalRecord _ status failure) _ hstatus] at hended
  generalize pool.attemptEnded l currentStep target r _ = ended at hended hspent
  -- from here on the board is only tidied
  have hstart : Tracks noneTaken noneTaken (only l.taskId) noneTaken Board.Tidies ended.board
      ended := ⟨hended.wf, Board.Reach.refl⟩
  have htidy : wp tail (fun _ => Settled Board.Tidies ended.board) (fun _ _ => False) ended := by
    rcases htail with rfl | rfl
    · have hdone := recordTerminalTask_tracks l.taskId (fun _ => trivial) hstart rfl
      rwa [without_only] at hdone
    · have hdone := recordTerminalTask_tracks l.taskId (fun _ => trivial)
        (hstart.removeWaitsForParent trivial l.taskId) rfl
      rwa [without_only, without_noneTaken] at hdone
  refine wp_total htidy fun _ pool' h' => ⟨⟨h'.wf, ?_⟩, hok, r, hspent.tidied h'.reach hstatus⟩
  exact hended.reach.trans (h'.reach.mono (Board.Tidies.routed hunlink hforget))

theorem finish_allows (ha : leaseActive r l currentStep = true) {r' : TaskRecord}
    (hterm : isTerminalStatus r'.status = true) (hne : r'.status ≠ .completed) :
    Change.finish.Allows r r' :=
  ⟨by simp [(leaseActive_iff.1 ha).1, isTerminalStatus], hterm, hne⟩

variable {taskAwait : TaskAwait}

/-- What `wait_on_task` has checked before its first edit. -/
theorem checkWaitOnTask_ok_iff :
    pool.checkWaitOnTask l currentStep taskAwait = .ok () ↔ taskAwait.parentTaskId = l.taskId ∧
      ∃ r child, pool.tasks[l.taskId]? = some r ∧ leaseActive r l currentStep = true ∧
        pool.tasks[taskAwait.child.taskId]? = some child ∧
        isTerminalStatus child.status = false ∧
        awaitChildMatches r.task child.task taskAwait.child = true := by
  unfold checkWaitOnTask
  by_cases hp : taskAwait.parentTaskId = l.taskId
  · rw [if_neg (by simp [hp])]
    simp only [record, bind, Except.bind]
    cases hr : pool.tasks[l.taskId]? with
    | none => simp
    | some r =>
      cases ha : leaseActive r l currentStep with
      | false => simp [validateRecordLease, ha]
      | true =>
        cases hc : pool.tasks[taskAwait.child.taskId]? with
        | none => simp [validateRecordLease, ha]
        | some child =>
          cases hterm : isTerminalStatus child.status <;>
            cases hmatch : awaitChildMatches r.task child.task taskAwait.child <;>
            simp [validateRecordLease, validateTaskAwaitChild, ha, hterm, hmatch, hp]
  · rw [if_pos hp]
    simp [hp]

theorem awaitChildMatches_protocol {parent child : Task} {handle : TaskHandle}
    (h : awaitChildMatches parent child handle = true) :
    child.protocolId = handle.protocolId := by
  simp only [awaitChildMatches, Bool.and_eq_true, beq_iff_eq] at h
  exact h.1.1.1.1.symm

theorem waitOnTask_tracks (h : Settled allowed b pool)
    (hm : allowed (.change l.taskId .release)) (hlink : allowed (.link taskAwait)) :
    wp (waitOnTask l currentStep taskAwait)
      (fun _ => Accepted allowed b l currentStep (pool.checkWaitOnTask l currentStep taskAwait)
        (suspendOn taskAwait) pool)
      (fun e pool' => pool.checkWaitOnTask l currentStep taskAwait = .error e ∧ pool' = pool)
      pool := by
  unfold waitOnTask
  rw [wp_bind, wp_read, wp_bind]
  cases hcheck : pool.checkWaitOnTask l currentStep taskAwait with
  | error e => exact (wp_lift_error e).2 ⟨rfl, rfl⟩
  | ok u =>
    rw [wp_lift_ok, wp_bind]
    obtain ⟨hp, r, child, hr, ha, hc, hlive, hmatch⟩ := checkWaitOnTask_ok_iff.1 hcheck
    refine wp_endAttempt h.wf ?_ fun _ r₁ hr₁ _ => ?_
    · intro e he
      cases (ensureActiveLease_ok_iff.2 ⟨r, hr, ha⟩).symm.trans he
    cases hr.symm.trans hr₁
    rw [wp_update]
    have hspent : Spends l currentStep (suspendOn taskAwait) pool _ r :=
      spends_attemptEnded .waiting hr ha rfl
    have hended : Settled allowed b (pool.attemptEnded l currentStep .waiting r
        (suspendOn taskAwait r)) :=
      h.attemptEnded_release .waiting hr ha (.inr (.inl rfl)) rfl rfl rfl hm
    -- the child is stored and live, also when the task awaits itself
    have hchild : ∃ v, (pool.attemptEnded l currentStep .waiting r
          (suspendOn taskAwait r)).tasks[taskAwait.child.taskId]? = some v ∧
        v.task.protocolId = taskAwait.child.protocolId ∧ isTerminalStatus v.status = false := by
      rw [getElem?_attemptEnded]
      split
      next he =>
        rw [← he, hr] at hc
        cases hc
        exact ⟨_, rfl, awaitChildMatches_protocol hmatch, rfl⟩
      · exact ⟨child, hc, awaitChildMatches_protocol hmatch, hlive⟩
    obtain ⟨v, hv, hprotocol, hvlive⟩ := hchild
    have hparent : (pool.attemptEnded l currentStep .waiting r
        (suspendOn taskAwait r)).tasks[taskAwait.parentTaskId]? =
        some (suspendOn taskAwait r) := by
      rw [getElem?_attemptEnded, if_pos hp.symm]
    have hrun := (leaseActive_iff.1 ha).1
    have hnone := h.wf.links.not_linked (fun hf => hf) hr (by simp [hrun])
    refine ⟨?_, rfl, r, hr, ha, hspent.log, hspent.completed, hspent.kept⟩
    rw [← hp] at hnone ⊢
    exact ⟨hended.wf.linkAwait taskAwait hnone ⟨_, hparent, rfl⟩ ⟨v, hv⟩,
      hended.reach.step hlink (step_linkAwait taskAwait hnone hv hprotocol hvlive)⟩

/-- Every leased operation keeps the invariant, by the moves of its row. -/
theorem exec_tracks (h : Settled allowed b pool) (hforget : ∀ id, allowed (.forget id))
    (hunlink : allowed .unlink) (op : LeasedOp) (hm : op.AllowedBy allowed l) :
    wp (op.exec l currentStep)
      (fun _ => Accepted allowed b l currentStep (op.check pool l currentStep)
        (op.edit currentStep) pool)
      (fun e pool' => op.check pool l currentStep = .error e ∧ pool' = pool) pool := by
  cases op with
  | complete output =>
    refine endAttempt_terminal h hforget hunlink hm .completed rfl (fun _ => output) none
      (fun r ha => ?_) (.inl rfl)
    obtain ⟨hrun, -, hlease, -⟩ := leaseActive_iff.1 ha
    exact ⟨hrun, hlease, rfl⟩
  | fail failure =>
    exact endAttempt_terminal h hforget hunlink hm .failed rfl (fun r => r.output) (some failure)
      (fun _ ha => finish_allows ha rfl nofun) (.inl rfl)
  | wait =>
    exact endAttempt_release h (fun _ => .inr (.inl rfl)) (fun _ => ⟨rfl, rfl, rfl⟩) hm
  | waitOnTask => exact waitOnTask_tracks h hm.1 hm.2
  | deferLeased => exact endAttempt_release h (fun _ => .inl rfl) (fun _ => ⟨rfl, rfl, rfl⟩) hm
  | block =>
    exact endAttempt_release h (fun _ => .inr (.inr rfl)) (fun _ => ⟨rfl, rfl, rfl⟩) hm
  | cancelTask =>
    exact endAttempt_terminal h hforget hunlink hm .cancelled rfl (fun r => r.output) none
      (fun _ ha => finish_allows ha rfl nofun) (.inr rfl)

theorem leased_settles (h : Settled allowed b pool) (hforget : ∀ id, allowed (.forget id))
    (hunlink : allowed .unlink) (op : LeasedOp) (hm : op.AllowedBy allowed l) :
    wp (op.exec l currentStep) (fun _ => Settled allowed b) (fun _ pool' => pool' = pool) pool :=
  wp_mono (exec_tracks h hforget hunlink op hm) (fun _ _ h' => h'.1) (fun _ _ he => he.2)

theorem exec_spends (h : Good pool) (op : LeasedOp) : wp (op.exec l currentStep)
      (fun _ pool' => Good pool' ∧ op.check pool l currentStep = .ok () ∧
        ∃ r, Spends l currentStep (op.edit currentStep) pool pool' r)
      (fun e pool' => op.check pool l currentStep = .error e ∧ pool' = pool) pool := by
  have hself : Settled (fun _ => True) pool.board pool := settled_self h
  exact wp_mono (exec_tracks hself (fun _ => trivial) trivial op (op.allowedBy_true l))
    (fun _ _ h' => ⟨h'.1.wf, h'.2⟩) (fun _ _ he => he)

end TaskPool

end MutsukiRuntime
