/-
  THE LIFE OF A RECORD: what holds of links, history and records in every pool that
  operations reach.
-/
import MutsukiRuntime.Core.TaskPool.Compaction
import MutsukiRuntime.Core.TaskPool.Edits
import MutsukiRuntime.Core.TaskPool.Fencing

namespace MutsukiRuntime

open Std Buckets Board Prog List Option

/-- The lease whose attempt the operation suspends, if it succeeds. -/
def PoolOp.suspends : PoolOp → Option TaskLease
  | .wait lease .. | .waitOnTask lease .. | .block lease .. => some lease
  | _ => none

namespace TaskPool

/-! ## A sample -/

/-- The lease of the n-th attempt on `t.1`, claimed by `sampleRunner` at step 1. -/
def attemptLease (attemptGeneration : Nat) : TaskLease where
  leaseId := s!"task-lease-1-t.1-{attemptGeneration}"
  taskId := "t.1"
  attemptGeneration
  runnerId := "runner.a"
  executorId := "exec"
  registryGeneration := 1
  acquiredAtStep := 1
  expiresAtStep := none

/-- `t.1` waits for `t.2`. -/
def awaitSecond : TaskAwait where
  parentTaskId := "t.1"
  child :=
    { taskId := "t.2", protocolId := "p.sms", targetBindingId := none, cancelPolicy := .cascade
      traceId := none, correlationId := none }
  continuation :=
    { continuation := { refId := "k", schema := "schema", generation := 1 }, wake := none
      reason := none }
  cancelPolicy := .cascade

/-- Two tasks; the first runs under `runner.a`. -/
def claimedRun : List PoolOp :=
  [ .enqueueAt { taskId := "t.1", protocolId := "p.mail", payload := .null } 0
  , .enqueueAt { taskId := "t.2", protocolId := "p.sms", payload := .null } 0
  , .claimReady sampleRunner "exec" 1 1 1 none none ]

/-! ## Links and history -/

/-- In every pool that operations reach the two views of the wait links mirror each other, a
    linked parent waits under exactly one link, and a linked child is stored. -/
theorem wait_links_mirrored (ops : List PoolOp) :
    let pool := runOps ops {}
    (∀ child parent taskAwait,
      (taskAwait ∈ bucket pool.waitsByChild child ∧ taskAwait.parentTaskId = parent) ↔
        (taskAwait ∈ bucket pool.waitsByParent parent ∧ taskAwait.child.taskId = child)) ∧
    (∀ parent, parent ∈ pool.waitsByParent →
      (∃ taskAwait, bucket pool.waitsByParent parent = [taskAwait]) ∧
        ∃ r, pool.tasks[parent]? = some r ∧ r.status = .waiting) ∧
    ∀ child, child ∈ pool.waitsByChild → ∃ r, pool.tasks[child]? = some r := by
  have h := (runOps_good ops good_empty).links
  generalize runOps ops {} = pool at h
  refine ⟨fun child parent taskAwait => ?_, fun parent hparent => ?_, fun child hchild => ?_⟩
  · rw [h.mirror child taskAwait]
    constructor
    · rintro ⟨⟨hchild, hmem⟩, rfl⟩
      exact ⟨hmem, hchild⟩
    · rintro ⟨hmem, hchild⟩
      have hp := h.parent parent taskAwait hmem
      exact ⟨⟨hchild, hp ▸ hmem⟩, hp⟩
  · have hne := h.prunedParent.bucket_ne_empty hparent
    obtain ⟨taskAwait, hone⟩ : ∃ taskAwait, bucket pool.waitsByParent parent = [taskAwait] := by
      refine length_eq_one_iff.1 (Nat.le_antisymm (h.single parent) ?_)
      exact length_pos_iff.2 hne
    refine ⟨⟨taskAwait, hone⟩, h.waiting parent taskAwait ?_ (fun hf => hf)⟩
    rw [hone]
    exact mem_singleton_self taskAwait
  · obtain ⟨taskAwait, hmem⟩ :=
      exists_mem_of_ne_nil _ (h.prunedChild.bucket_ne_empty hchild)
    obtain ⟨rfl, hparent⟩ := (h.mirror child taskAwait).1 hmem
    exact h.child _ taskAwait hparent

/-- The error of `enqueue_at` for an id that is taken. -/
def duplicateTaskId (taskId : TaskId) : RuntimeError :=
  runtimeError errTaskDuplicate "runtime.task_pool" s!"task.enqueue.{taskId}"

/-- In every pool that operations reach the bounded history lists exactly the terminal records,
    the evicted ids are remembered once and within the capacity, and an id is taken exactly while
    its record is stored or its eviction is remembered. -/
theorem history_exact (ops : List PoolOp) (retention : TaskHistoryRetention)
    (hretention : (runOps ops {}).historyRetention = some retention) :
    let pool := runOps ops {}
    pool.terminalOrder.Nodup ∧
    (∀ id, id ∈ pool.terminalOrder ↔
      ∃ r, pool.tasks[id]? = some r ∧ isTerminalStatus r.status = true) ∧
    (∀ id, id ∈ pool.evictedTaskIds ↔ id ∈ pool.evictedTaskOrder) ∧
    pool.evictedTaskOrder.Nodup ∧
    pool.evictedTaskOrder.length ≤ retention.maxEvictedTaskIds ∧
    ∀ task currentStep, ((enqueueAt task currentStep).run pool).1 =
      if task.taskId ∈ pool.tasks ∨ task.taskId ∈ pool.evictedTaskIds then
        .err (duplicateTaskId task.taskId)
      else .ok task.taskId := by
  have h := (runOps_good ops good_empty).history
  generalize runOps ops {} = pool at h hretention
  refine ⟨h.nodup, fun id => ?_, h.evicted.ids, h.evicted.once, h.capacity retention hretention,
    fun task currentStep => ?_⟩
  · rw [h.listed (by rw [hretention]; rfl) id]
    simp [noneTaken]
  · cases hdup : pool.containsTaskId task.taskId with
    | true =>
      rw [enqueueAt_run_duplicate task currentStep hdup]
      simp only [containsTaskId, Bool.or_eq_true, ← ExtTreeMap.mem_iff_contains,
        ← ExtTreeSet.mem_iff_contains] at hdup
      rw [if_pos hdup]
      rfl
    | false =>
      rw [enqueueAt_run_new task currentStep hdup]
      simp only [containsTaskId, Bool.or_eq_false_iff] at hdup
      rw [if_neg]
      rw [ExtTreeMap.mem_iff_contains, ExtTreeSet.mem_iff_contains, hdup.1, hdup.2]
      simp

/-- Both tasks complete under a history of one record and one remembered id. -/
def historyRun : List PoolOp :=
  .configureHistoryRetention ⟨id, fun l => .refl l⟩ (some ⟨1, 1⟩) ::
    claimedRun ++
      [ .complete (attemptLease 1) 1 none
      , .cancelByCore "t.2" 1 ]

/-- The first record has been evicted, the second is kept. -/
theorem history_exact_sample :
    let pool := runOps historyRun {}
    (pool.terminalOrder, pool.evictedTaskOrder) = (["t.2"], ["t.1"]) ∧
      (∀ id, id ∈ pool.terminalOrder ↔
        ∃ r, pool.tasks[id]? = some r ∧ isTerminalStatus r.status = true) ∧
      pool.evictedTaskOrder.length ≤ 1 := by
  have h := history_exact historyRun ⟨1, 1⟩ (by decide +kernel)
  exact ⟨by decide +kernel, h.2.1, h.2.2.2.2.1⟩

/-- In every pool that operations reach, and in every one the invariant admits in the middle of an
    operation, compaction ends and leaves at most the configured number of terminal records or
    only linked ones. -/
theorem compaction_ends (ops : List PoolOp) (retention : TaskHistoryRetention) :
    ((runOps ops {}).historyRetention = some retention →
      CompactionEnds retention noneTaken (runOps ops {})) ∧
    ∀ wake lease unlisted freed pool, Wf wake lease unlisted freed pool →
      pool.historyRetention = some retention → CompactionEnds retention unlisted pool := by
  refine ⟨fun hret => ?_, fun _ _ _ _ _ h hret => h.compactionEnds hret⟩
  exact (runOps_good ops good_empty).compactionEnds hret

/-- No terminal record is to be kept, but `t.1` still waits for the one of `t.2`. -/
def protectedRun : List PoolOp :=
  .configureHistoryRetention ⟨id, fun l => .refl l⟩ (some ⟨0, 1⟩) ::
    claimedRun ++
      [ .waitOnTask (attemptLease 1) 1 awaitSecond
      , .cancelByCore "t.2" 1 ]

theorem compaction_ends_protected :
    (runOps protectedRun {}).terminalOrder = ["t.2"] ∧
      CompactionEnds ⟨0, 1⟩ noneTaken (runOps protectedRun {}) :=
  ⟨by decide +kernel, (compaction_ends protectedRun ⟨0, 1⟩).1 (by decide +kernel)⟩

/-! ## Attempts -/

/-- The fields of a record that describe its attempt agree with its lease. -/
structure AttemptOk (r : TaskRecord) : Prop where
  bounded : r.attemptGeneration ≤ u64Max
  owner : ∀ lease, r.lease = some lease → r.ownerRunner = some lease.runnerId
  attempt : ∀ lease, r.lease = some lease → lease.attemptGeneration = r.attemptGeneration
  leaseId : ∀ lease, r.lease = some lease → r.task.leaseId = some lease.leaseId

variable {r : TaskRecord}

theorem AttemptOk.of_idle (hbound : r.attemptGeneration ≤ u64Max) (hlease : r.lease = none) :
    AttemptOk r :=
  ⟨hbound, by simp [hlease], by simp [hlease], by simp [hlease]⟩

variable {kind : EditKind} {r' : TaskRecord}

/-- An edit keeps the agreement, and the attempt generation does not go back. -/
theorem AttemptOk.edit (hedit : Edit kind r r') (h : AttemptOk r) :
    AttemptOk r' ∧ r.attemptGeneration ≤ r'.attemptGeneration := by
  cases hedit with
  | claim _ runner executorId step registryGeneration expiresAtStep _ =>
    have hnext : r.attemptGeneration ≤ satAdd r.attemptGeneration 1 := by
      have := h.bounded
      unfold satAdd
      omega
    refine ⟨⟨Nat.min_le_right _ _, ?_, ?_, ?_⟩, hnext⟩
    all_goals
      intro lease hlease
      cases hlease
      rfl
  | finish => exact ⟨.of_idle h.bounded rfl, le_rfl⟩
  | reject => exact ⟨⟨h.bounded, h.owner, h.attempt, h.leaseId⟩, le_rfl⟩
  | suspend | readyAgain | defer => exact ⟨.of_idle h.bounded rfl, le_rfl⟩
  | rebind => exact ⟨⟨h.bounded, h.owner, h.attempt, h.leaseId⟩, le_rfl⟩

variable {id : TaskId}

theorem runOps_attemptOk (ops : List PoolOp) (hr : (runOps ops {}).tasks[id]? = some r) :
    AttemptOk r :=
  runOps_records (fun _ _ _ => .of_idle (Nat.zero_le _) rfl)
    (fun _ _ _ hedit h => (h.edit hedit).1) ops good_empty (by simp) id r hr

theorem runOps_append (ops later : List PoolOp) (pool : TaskPool) :
    runOps (ops ++ later) pool = runOps later (runOps ops pool) := foldl_append

/-- In every pool that operations reach a record runs exactly while it has a lease and while it is
    claimed, and then the five fields that describe the attempt agree.  The attempt generation of
    a record never goes back while it is stored. -/
theorem attempt_fields_agree (ops : List PoolOp) :
    let pool := runOps ops {}
    (∀ (id : TaskId) r, pool.tasks[id]? = some r →
      (r.status = .running ↔ r.lease.isSome) ∧ (r.status = .running ↔ r.claimedBy.isSome) ∧
      ∀ lease, r.lease = some lease →
        r.claimedBy = some lease.runnerId ∧ r.ownerRunner = some lease.runnerId ∧
        lease.taskId = r.task.taskId ∧ r.task.taskId = id ∧
        lease.attemptGeneration = r.attemptGeneration ∧ r.task.leaseId = some lease.leaseId) ∧
    ∀ (later : List PoolOp) (id : TaskId) r r', Throughout later pool id (fun _ => True) →
      pool.tasks[id]? = some r → (runOps later pool).tasks[id]? = some r' →
      r.attemptGeneration ≤ r'.attemptGeneration := by
  have h := runOps_good ops good_empty
  refine ⟨fun id r hr => ?_, fun later id r r' hstored hr hr' => ?_⟩
  · have hok := h.records id r hr
    have hattempt := runOps_attemptOk ops hr
    refine ⟨hok.running, ?_, fun lease hlease => ⟨?_, hattempt.owner lease hlease,
      hok.leased lease hlease, h.keyed id r hr, hattempt.attempt lease hlease,
      hattempt.leaseId lease hlease⟩⟩
    · rw [hok.running, hok.claimed, isSome_map]
    · rw [hok.claimed, hlease]
      rfl
  · have hedits := edits_throughout (K := fun op => op.Makes id) (fun _ _ _ _ he => he) later h
      hstored hr hr'
    refine (hedits.preserves (P := fun v => AttemptOk v ∧ r.attemptGeneration ≤ v.attemptGeneration)
      (fun kind a b _ hedit hab => ?_) ⟨runOps_attemptOk ops hr, le_rfl⟩).2
    obtain ⟨hok, hle⟩ := hab.1.edit hedit
    exact ⟨hok, hab.2.trans hle⟩

/-! ## Terminal records -/

theorem exec_terminal (op : PoolOp) {pool : TaskPool} (h : Good pool)
    (hr : pool.tasks[id]? = some r) (hterm : isTerminalStatus r.status = true) :
    (op.exec.run pool).2.tasks[id]? = some r ∨ (op.exec.run pool).2.tasks[id]? = none := by
  by_cases henqueues : op.Enqueues id
  · -- a submission of the id is a duplicate, and leaves the record alone
    cases hkept : (op.exec.run pool).2.tasks[id]? with
    | none => exact Or.inr rfl
    | some r' =>
      left
      cases op with
      | enqueueAt =>
        rcases enqueueAt_record hkept with hsame | ⟨-, hnone, -⟩
        · exact hsame.symm.trans hr
        · rw [hnone] at hr
          cases hr
      | _ => exact henqueues.elim
  · have hreach := (exec_settled op h).reach
    have hdead : ¬ pool.board.Live id := by
      rintro ⟨v, hv, hlive⟩
      obtain rfl := some.inj (hr.symm.trans hv)
      rw [hterm] at hlive
      cases hlive
    have hsubmits : ∀ task : Task, task.taskId = id → ¬ op.Moves (.submit task) := by
      rintro task rfl
      exact henqueues
    exact (hreach.dead_kept hsubmits hdead).imp (fun he => he.trans hr) fun he => he

/-- A terminal record stays as it is, whatever operations follow, until it is evicted. -/
theorem terminal_records_final (ops later : List PoolOp) {id : TaskId} {r : TaskRecord}
    (hr : (runOps ops {}).tasks[id]? = some r) (hterm : isTerminalStatus r.status = true) :
    (runOps later (runOps ops {})).tasks[id]? = some r ∨
      ∃ done, done <+: later ∧ (runOps done (runOps ops {})).tasks[id]? = none := by
  have h := runOps_good ops good_empty
  generalize runOps ops {} = pool at h hr
  induction later generalizing pool with
  | nil => exact Or.inl hr
  | cons op later ih =>
    rcases exec_terminal op h hr hterm with hkept | hgone
    · rcases ih _ (exec_good op h) hkept with hfinal | ⟨done, hdone, hgone⟩
      · exact Or.inl hfinal
      · exact Or.inr ⟨op :: done, cons_prefix_cons.2 ⟨rfl, hdone⟩, hgone⟩
    · exact Or.inr ⟨[op], by simp, hgone⟩

/-- A completed task is woken, cancelled, expired, completed again and submitted again. -/
theorem terminal_records_final_sample :
    let ops := claimedRun ++ [.complete (attemptLease 1) 1 none]
    let later : List PoolOp :=
      [ .wake "t.1" 2, .cancelByCore "t.1" 2, .expireByCore "t.1" (recordNotFound "t.1") 2
      , .complete (attemptLease 1) 2 (some .null)
      , .enqueueAt { taskId := "t.1", protocolId := "p.sms", payload := .null } 2
      , .abortAll 2 (recordNotFound "t.1") ]
    ∃ r, (runOps ops {}).tasks["t.1"]? = some r ∧ isTerminalStatus r.status = true ∧
      ((runOps later (runOps ops {})).tasks["t.1"]? = some r ∨
        ∃ done, done <+: later ∧ (runOps done (runOps ops {})).tasks["t.1"]? = none) := by
  intro ops later
  have hstatus : (runOps ops {}).tasks["t.1"]?.map (fun r => isTerminalStatus r.status) =
      some true := by
    decide +kernel
  obtain ⟨r, hr, hterm⟩ := map_eq_some_iff.1 hstatus
  exact ⟨r, hr, hterm, terminal_records_final ops later hr hterm⟩

/-! ## Ownership -/

/-- Edits that leave a live record end no task: an operation that ends tasks makes no others. -/
theorem Edits.of_live {op : PoolOp} (h : Edits (op.Makes id) r r')
    (hlive : isTerminalStatus r'.status = false) :
    Edits (fun kind => kind ≠ .finish ∧ op.Makes id kind) r r' := by
  by_cases hfinish : op.editKind = some .finish
  · rcases Relation.ReflTransGen.cases_tail h with rfl | ⟨r₁, -, kind, hmakes, hedit⟩
    · exact .refl
    · obtain rfl := some.inj (hfinish.symm.trans hmakes.1)
      cases hedit with
      | finish _ output failure hterm => cases hterm.symm.trans hlive
      | reject => cases hlive
  · exact h.mono fun kind hmakes => ⟨fun he => hfinish (he ▸ hmakes.1), hmakes⟩

theorem Edit.runnerHint (h : Edit kind r r') :
    r'.task.runnerHint = r.task.runnerHint := by
  cases h <;> rfl

/-- The owner changes only when the task ends or is deferred: a claim is the owner's. -/
theorem Edit.owner (h : Edit kind r r') {runnerId : RunnerId}
    (howner : r.ownerRunner = some runnerId) (hfinish : kind ≠ .finish) (hdefer : kind ≠ .defer) :
    r'.ownerRunner = some runnerId := by
  cases h with
  | claim _ runner executorId step registryGeneration expiresAtStep hselector =>
    rcases ((mem_buildReadySelectors _ _).1 hselector).2 with hnone | hsome
    · rw [hnone] at howner
      cases howner
    · exact hsome.symm.trans howner
  | finish | reject => exact absurd rfl hfinish
  | suspend | readyAgain => exact howner
  | defer => exact absurd rfl hdefer
  | rebind => exact howner

/-- The owner of a task with a hint is the runner of the hint. -/
def HintOk (r : TaskRecord) : Prop :=
  ∀ hint owner, r.task.runnerHint = some hint → r.ownerRunner = some owner → owner = hint

theorem HintOk.edit (hedit : Edit kind r r') (h : HintOk r) : HintOk r' := by
  intro hint owner hhint howner
  rw [hedit.runnerHint] at hhint
  cases hedit with
  | claim _ runner executorId step registryGeneration expiresAtStep hselector =>
    cases howner
    rcases ((mem_buildReadySelectors _ _).1 hselector).1 with hnone | hsome
    · rw [hnone] at hhint
      cases hhint
    · exact some.inj (hsome.symm.trans hhint)
  | finish => cases howner
  | reject | suspend | readyAgain => exact h hint owner hhint howner
  | defer => cases howner
  | rebind => exact h hint owner hhint howner

theorem runOps_hintOk (ops : List PoolOp) (hr : (runOps ops {}).tasks[id]? = some r) : HintOk r :=
  runOps_records (fun _ _ _ _ _ _ howner => by cases howner)
    (fun _ _ _ hedit h => h.edit hedit) ops good_empty (by simp) id r hr

/-- An operation that suspends the attempt of a lease leaves the task to the lease's runner. -/
theorem exec_suspends (op : PoolOp) {pool : TaskPool} (h : Good pool) {lease : TaskLease}
    (hsuspends : op.suspends = some lease) (hok : (op.exec.run pool).1 = .ok ())
    (hattempts : ∀ r, pool.tasks[lease.taskId]? = some r → AttemptOk r) :
    ∃ r, (op.exec.run pool).2.tasks[lease.taskId]? = some r ∧
      r.ownerRunner = some lease.runnerId := by
  have hspent : ∀ {currentStep : Nat} {edit : TaskRecord → TaskRecord} {pool' : TaskPool},
      (∃ r, Spends lease currentStep edit pool pool' r) →
      (∀ r, isTerminalStatus (edit r).status = false ∧ (edit r).ownerRunner = r.ownerRunner) →
      ∃ r, pool'.tasks[lease.taskId]? = some r ∧ r.ownerRunner = some lease.runnerId := by
    intro currentStep edit pool' hspends hedit
    obtain ⟨r, hspends⟩ := hspends
    have hlease := (leaseActive_iff.1 hspends.active).2.2.1
    rcases hspends.kept with hkept | ⟨-, hterm⟩
    · exact ⟨edit r, hkept,
        (hedit r).2.trans ((hattempts r hspends.stored).owner lease hlease)⟩
    · rw [(hedit r).1] at hterm
      cases hterm
  cases op with
  | wait lease currentStep readyAtStep =>
    cases hsuspends
    exact hspent (wp_elim_ok (exec_spends h (.wait readyAtStep)) hok).2.2
      fun _ => ⟨rfl, rfl⟩
  | waitOnTask lease currentStep taskAwait =>
    cases hsuspends
    exact hspent (wp_elim_ok (exec_spends h (.waitOnTask taskAwait)) hok).2.2
      fun _ => ⟨rfl, rfl⟩
  | block =>
    cases hsuspends
    exact hspent (wp_elim_ok (exec_spends h .block) hok).2.2 fun _ => ⟨rfl, rfl⟩
  | _ => cases hsuspends

/-- A task suspended under a runner is, as long as it lives, only claimed by that runner, if it
    has a hint or is not deferred in between. -/
theorem resumed_by_owner (ops : List PoolOp) (op : PoolOp) (later : List PoolOp)
    {lease : TaskLease} (hsuspends : op.suspends = some lease)
    (hok : (op.exec.run (runOps ops {})).1 = .ok ())
    (hlive : Throughout later (runOps (ops ++ [op]) {}) lease.taskId fun r =>
      isTerminalStatus r.status = false)
    (hdefers : (∃ o ∈ later, o.Defers lease.taskId) →
      ∃ r, (runOps (ops ++ [op]) {}).tasks[lease.taskId]? = some r ∧ r.task.runnerHint ≠ none)
    (runner : RunnerDescriptor) (executorId : ExecutorId) (step registryGeneration limit : Nat)
    (budget : Option DispatchBudget) (expiresAtStep : Option Nat) {leased : List (TaskLease × Task)}
    (hclaim : ((claimReadyForExecutorWithBudget false runner executorId step registryGeneration
      limit budget expiresAtStep).run (runOps (ops ++ op :: later) {})).1 = .ok leased) :
    ∀ entry ∈ leased, entry.1.taskId = lease.taskId → runner.runnerId = lease.runnerId := by
  intro entry hentry hid
  have hgood := runOps_good (ops ++ [op]) good_empty
  obtain ⟨r, hr, howner⟩ : ∃ r, (runOps (ops ++ [op]) {}).tasks[lease.taskId]? = some r ∧
      r.ownerRunner = some lease.runnerId := by
    rw [runOps_append]
    exact exec_suspends op (runOps_good ops good_empty) hsuspends hok
      fun r hr => runOps_attemptOk ops hr
  have hsplit : ops ++ op :: later = (ops ++ [op]) ++ later := by simp
  rw [hsplit, runOps_append] at hclaim
  -- the claimed record has the runner for its hint and owner, if any
  rw [claimReady_of_ok hclaim] at hclaim
  obtain ⟨r', hr', hselector⟩ := (wp_elim_ok (claim_edits (fun _ _ => True)
    (runOps_good later hgood) (fun _ => trivial)) hclaim).2 entry hentry
  rw [hid] at hr'
  obtain ⟨hhint, howner'⟩ := (mem_buildReadySelectors _ _).1 hselector
  have hedits := edits_throughout (K := fun op kind => kind ≠ .finish ∧ op.Makes lease.taskId kind)
    (fun op r r' hP he => he.of_live hP) later hgood hlive hr hr'
  by_cases hdeferred : ∃ o ∈ later, o.Defers lease.taskId
  · obtain ⟨r₁, hr₁, hhinted⟩ := hdefers hdeferred
    obtain rfl := some.inj (hr.symm.trans hr₁)
    obtain ⟨hint, hhinted⟩ := ne_none_iff_exists'.1 hhinted
    have hkept : r'.task.runnerHint = some hint := by
      refine hedits.preserves (P := fun v => v.task.runnerHint = some hint) ?_ hhinted
      intro kind a b _ hedit ha
      exact hedit.runnerHint.trans ha
    have hlease := runOps_hintOk (ops ++ [op]) hr hint lease.runnerId hhinted howner
    rcases hhint with hnone | hsome
    · cases hnone.symm.trans hkept
    · exact (some.inj (hsome.symm.trans hkept)).trans hlease.symm
  · have hkept : r'.ownerRunner = some lease.runnerId := by
      refine hedits.preserves (P := fun v => v.ownerRunner = some lease.runnerId) ?_ howner
      rintro kind a b ⟨o, ho, hfinish, hmakes⟩ hedit ha
      exact hedit.owner ha hfinish fun he => hdeferred ⟨o, ho, hmakes.2 he⟩
    rcases howner' with hnone | hsome
    · cases hnone.symm.trans hkept
    · exact some.inj (hsome.symm.trans hkept)

/-- A second runner of the protocols of `sampleRunner`. -/
def otherRunner : RunnerDescriptor :=
  { sampleRunner with runnerId := "runner.b" }

/-- How `t.1` stands: its status, its owner, and who runs it. -/
def standing (ops : List PoolOp) : Option (TaskStatus × Option RunnerId × Option RunnerId) :=
  (runOps ops {}).tasks["t.1"]?.map fun r => (r.status, r.ownerRunner, r.lease.map (·.runnerId))

/-- A woken task that is not deferred goes back to its owner. -/
theorem resumed_by_owner_sample :
    ∃ leased, ((claimReadyForExecutorWithBudget false sampleRunner "exec" 1 1 1 none none).run
        (runOps (claimedRun ++ [.waitOnTask (attemptLease 1) 1 awaitSecond, .wake "t.1" 1]) {})).1 =
          .ok leased ∧
      leased.map (·.1.taskId) = ["t.1"] ∧
      ∀ entry ∈ leased, entry.1.taskId = "t.1" → sampleRunner.runnerId = "runner.a" := by
  have hlive : Throughout [.wake "t.1" 1]
      (runOps (claimedRun ++ [.waitOnTask (attemptLease 1) 1 awaitSecond]) {}) "t.1"
      fun r => isTerminalStatus r.status = false := by
    refine throughout_cons ?_ (throughout_nil ?_) <;> 
      exact map_eq_some_iff.1 (by decide +kernel)
  have hclaim : ((claimReadyForExecutorWithBudget false sampleRunner "exec" 1 1 1 none none).run
      (runOps (claimedRun ++ [.waitOnTask (attemptLease 1) 1 awaitSecond, .wake "t.1" 1])
        {})).1.value?.map (fun leased => leased.map (·.1.taskId)) = some ["t.1"] := by
    decide +kernel
  obtain ⟨leased, hleased, hids⟩ := map_eq_some_iff.1 hclaim
  have hleased := Outcome.value?_eq_some.1 hleased
  exact ⟨leased, hleased, hids, resumed_by_owner claimedRun
    (.waitOnTask (attemptLease 1) 1 awaitSecond) [.wake "t.1" 1] rfl (by decide +kernel) hlive
    (by simp [PoolOp.Defers]) sampleRunner "exec" 1 1 1 none none hleased⟩

/-- Between waking and resuming, a deferral drops the owner: `runner.a` suspends `t.1` with a
    continuation, claims it again, defers it, and `runner.b` resumes it. -/
theorem deferred_resumed_by_other :
    let suspended := claimedRun ++ [.waitOnTask (attemptLease 1) 1 awaitSecond]
    let woken := suspended ++ [.wake "t.1" 1]
    let claimedAgain := woken ++ [.claimReady sampleRunner "exec" 1 1 1 none none]
    let deferred := claimedAgain ++ [.deferLeased (attemptLease 2) 1]
    standing suspended = some (.waiting, some "runner.a", none) ∧
    standing claimedAgain = some (.running, some "runner.a", some "runner.a") ∧
    standing deferred = some (.ready, none, none) ∧
    standing (deferred ++ [.claimReady otherRunner "exec" 1 1 1 none none]) =
      some (.running, some "runner.b", some "runner.b") := by
  decide +kernel

end TaskPool

end MutsukiRuntime
