/-
  TERMINAL TRANSITIONS: what the Host and the drain check read off the counters.
-/
import MutsukiRuntime.Core.Runtime.State
import MutsukiRuntime.Core.TaskPool.Lifecycle
import MutsukiRuntime.Lib.Counting

namespace MutsukiRuntime

open Std Buckets List

namespace TaskPool

variable {pool : TaskPool}

/-! ## Transitions into a terminal status -/

/-- The task is stored and not terminal. -/
def isLive (pool : TaskPool) (id : TaskId) : Bool :=
  pool.tasks[id]?.any fun r => !isTerminalStatus r.status

/-- The number of tasks that an operation ends: they are live before it and not after it. -/
def endedBy (op : PoolOp) (pool : TaskPool) : Nat :=
  pool.liveRecords.countP fun r => !(op.exec.run pool).2.isLive r.task.taskId

/-- The number of transitions into a terminal status in a run. -/
def terminalTransitions : List PoolOp → TaskPool → Nat
  | [], _ => 0
  | op :: ops, pool => endedBy op pool + terminalTransitions ops (op.exec.run pool).2

theorem isLive_iff {id : TaskId} : pool.isLive id = true ↔
    ∃ r, pool.tasks[id]? = some r ∧ isTerminalStatus r.status = false := by
  unfold isLive
  cases pool.tasks[id]? <;> simp

theorem mem_liveIds (hkeyed : Keyed pool.tasks) (id : TaskId) :
    id ∈ pool.liveRecords.map (·.task.taskId) ↔ pool.isLive id = true := by
  rw [isLive_iff, ← mem_abortedIds hkeyed, abortedIds, (perm_insertionSort _ _).mem_iff]

theorem nodup_liveIds (hkeyed : Keyed pool.tasks) : (pool.liveRecords.map (·.task.taskId)).Nodup :=
  (nodup_ids_recordsOf pool.tasks hkeyed).sublist (filter_sublist.map _)

/-- A task that is live after an operation that enqueues nothing was live before it. -/
theorem exec_live_before (op : PoolOp) (h : Good pool) (henqueues : ∀ id, ¬ op.Enqueues id)
    {id : TaskId} (hlive : (op.exec.run pool).2.isLive id = true) : pool.isLive id = true := by
  obtain ⟨r', hr', hlive'⟩ := isLive_iff.1 hlive
  rcases exec_record op h hr' with ⟨r, hr, -⟩ | ⟨hid, -⟩
  · rw [isLive_iff]
    refine ⟨r, hr, ?_⟩
    by_contra hterm
    rcases exec_terminal op h hr (by simpa using hterm) with hkept | hgone
    · obtain rfl := Option.some.inj (hkept.symm.trans hr')
      exact hterm hlive'
    · rw [hgone] at hr'
      cases hr'
  · exact absurd hid (henqueues id)

/-- The live tasks before the operation are those it ends and those it leaves live. -/
theorem length_liveRecords_exec (op : PoolOp) (h : Good pool) (henqueues : ∀ id, ¬ op.Enqueues id) :
    (op.exec.run pool).2.liveRecords.length + endedBy op pool = pool.liveRecords.length := by
  have hgood := exec_good op h
  have hperm : ((op.exec.run pool).2.liveRecords.map (·.task.taskId)).Perm
      ((pool.liveRecords.map (·.task.taskId)).filter (op.exec.run pool).2.isLive) := by
    refine (perm_ext_iff_of_nodup (nodup_liveIds hgood.keyed)
      ((nodup_liveIds h.keyed).filter _)).2 fun id => ?_
    rw [mem_liveIds hgood.keyed, mem_filter, mem_liveIds h.keyed]
    exact ⟨fun hlive => ⟨exec_live_before op h henqueues hlive, hlive⟩, fun hboth => hboth.2⟩
  have hlength := hperm.length_eq
  rw [length_map, ← countP_eq_length_filter, countP_map] at hlength
  have hsplit := length_eq_countP_add_countP
    (fun r : TaskRecord => (op.exec.run pool).2.isLive r.task.taskId) (l := pool.liveRecords)
  rw [hlength, hsplit]
  unfold endedBy
  simp only [Function.comp_def, Bool.not_eq_true, ← Bool.not_eq_true', Bool.decide_eq_true]

end TaskPool

/-- `terminal_revision` of the Host actor, on the statistics it reads. -/
def TaskPoolStatistics.terminalRevision (statistics : TaskPoolStatistics) : Nat :=
  statistics.completed + statistics.failed + statistics.cancelled + statistics.expired +
    statistics.deadLetter + statistics.terminalRecordsEvicted

namespace TaskPool

variable {pool : TaskPool}

def terminalStatuses : List TaskStatus :=
  [.completed, .failed, .cancelled, .expired, .deadLetter]

theorem revision_add_live (hc : CountersOk pool) :
    pool.statistics.terminalRevision + pool.liveRecords.length =
      pool.statistics.submittedTotal := by
  have hsum : (terminalStatuses.map pool.statistics.counter).sum =
      (recordsOf pool.tasks).countP fun r => isTerminalStatus r.status := by
    have hcounters : terminalStatuses.map pool.statistics.counter = terminalStatuses.map fun k =>
        (recordsOf pool.tasks).countP fun r => true && decide (r.status = k) := by
      refine map_congr_left fun status hs => ?_
      refine (hc.status status ?_).trans ?_
      · rintro rfl
        revert hs
        decide
      · simp [statusCount]
    rw [hcounters, Counting.sum_countP_key _ _ _ (by decide)]
    refine countP_congr fun r _ => ?_
    cases r.status <;> simp [isTerminalStatus, terminalStatuses]
  have hrevision : pool.statistics.terminalRevision =
      (terminalStatuses.map pool.statistics.counter).sum +
        pool.statistics.terminalRecordsEvicted := by
    simp only [terminalStatuses, map_cons, map_nil, sum_cons, sum_nil,
      TaskPoolStatistics.counter, TaskPoolStatistics.terminalRevision]
    omega
  have hlive : pool.liveRecords.length =
      (recordsOf pool.tasks).countP fun r => decide (¬ isTerminalStatus r.status = true) := by
    unfold liveRecords
    rw [← countP_eq_length_filter]
    refine countP_congr fun r _ => ?_
    simp
  rw [hrevision, hsum, hc.submitted, hlive, length_eq_countP_add_countP
    (fun r : TaskRecord => isTerminalStatus r.status)]
  omega

theorem enqueueAt_revision (h : Good pool) (task : Task) (currentStep : Nat) :
    ((PoolOp.enqueueAt task currentStep).exec.run pool).2.statistics.terminalRevision =
        pool.statistics.terminalRevision ∧
      endedBy (.enqueueAt task currentStep) pool = 0 := by
  unfold endedBy PoolOp.exec
  dsimp only
  rw [Prog.state_discard, countP_eq_zero]
  cases hdup : pool.containsTaskId task.taskId with
  | true =>
    rw [enqueueAt_run_duplicate task currentStep hdup]
    refine ⟨rfl, fun r hr => ?_⟩
    simp [isLive_iff.2 ⟨r, (mem_liveRecords h.keyed r).1 hr⟩]
  | false =>
    rw [enqueueAt_run_new task currentStep hdup]
    refine ⟨rfl, fun r hr => ?_⟩
    obtain ⟨hstored, hlive⟩ := (mem_liveRecords h.keyed r).1 hr
    have hkept : (pool.enqueued (pool.newRecord task currentStep)).isLive r.task.taskId =
        true := by
      refine isLive_iff.2 ⟨r, ?_, hlive⟩
      show (pool.tasks.insert (pool.newRecord task currentStep).task.taskId _)[r.task.taskId]? = _
      rw [newRecord_taskId, getElem?_insert_ite, if_neg]
      · exact hstored
      · intro he
        rw [← he, (not_stored_of_new hdup).1] at hstored
        cases hstored
    simp [hkept]

/-- An operation raises the revision by the number of tasks it ends. -/
theorem exec_revision (op : PoolOp) (h : Good pool) (hproper : op.Proper) (hc : Counted pool)
    (hroom : (op.exec.run pool).2.statistics.submittedTotal < u64Max) :
    (op.exec.run pool).2.statistics.terminalRevision =
      pool.statistics.terminalRevision + endedBy op pool := by
  obtain ⟨hcounted, hbefore⟩ := exec_counted op h hproper
  have hold := revision_add_live (hc.counters (hbefore hroom))
  have hnew := revision_add_live ((hcounted hc).counters hroom)
  by_cases henqueues : ∃ id, op.Enqueues id
  · cases op with
    | enqueueAt task currentStep =>
      obtain ⟨hsame, hended⟩ := enqueueAt_revision h task currentStep
      rw [hsame, hended, Nat.add_zero]
    | _ =>
      obtain ⟨id, hf⟩ := henqueues
      exact hf.elim
  · have hnone : ∀ id, ¬ op.Enqueues id := fun id hid => henqueues ⟨id, hid⟩
    have hsubmitted := (exec_counts op h hproper hnone).1
    have hlength := length_liveRecords_exec op h hnone
    omega

theorem runOps_revision (ops : List PoolOp) (hproper : ∀ op ∈ ops, op.Proper) (h : Good pool)
    (hc : Counted pool) (hroom : (runOps ops pool).statistics.submittedTotal < u64Max) :
    (runOps ops pool).statistics.terminalRevision =
      pool.statistics.terminalRevision + terminalTransitions ops pool := by
  induction ops generalizing pool with
  | nil => rfl
  | cons op ops ih =>
    have hgood := exec_good op h
    have hfirst : op.Proper := hproper op mem_cons_self
    have hrest : ∀ o ∈ ops, o.Proper := fun o ho => hproper o (mem_cons_of_mem op ho)
    have hcounted := (exec_counted op h hfirst).1 hc
    have hmid := (runOps_counted ops hrest hgood hcounted).2 hroom
    have hstep := exec_revision op h hfirst hc hmid
    have hlater := ih hrest hgood hcounted hroom
    show (runOps ops (op.exec.run pool).2).statistics.terminalRevision = _
    rw [hlater, hstep, terminalTransitions, Nat.add_assoc]

end TaskPool

namespace CoreRuntime

/-- `is_drained`. -/
def isDrained (rt : CoreRuntime) : Bool :=
  let statistics := rt.tasks.statistics
  decide (rt.stopState = .draining) && statistics.ready == 0 && statistics.running == 0 &&
    statistics.waiting == 0 && statistics.blocked == 0

/-- `terminal_revision` of the Host actor. -/
def terminalRevision (rt : CoreRuntime) : Nat := rt.tasks.statistics.terminalRevision

/-- `publish_terminal_changes`: the revision the Host publishes, if it has grown. -/
def publishTerminalChanges (rt : CoreRuntime) (previousRevision : Nat) : Option Nat :=
  if previousRevision < rt.terminalRevision then some rt.terminalRevision else none

end CoreRuntime

namespace TaskPool

variable {pool : TaskPool}

theorem mem_recordsOf_of_getElem? {tasks : TaskMap} {id : TaskId} {r : TaskRecord}
    (hr : tasks[id]? = some r) : r ∈ recordsOf tasks :=
  mem_map.2 ⟨(id, r), ExtTreeMap.mem_toList_iff_getElem?_eq_some.2 hr, rfl⟩

/-- No live record exists exactly when the four counters of live statuses are zero. -/
theorem counters_zero_iff (h : Counted pool) (hc : CountersOk pool) :
    (∀ status, status ≠ .created → isTerminalStatus status = false →
      pool.statistics.counter status = 0) ↔
      ∀ (id : TaskId) r, pool.tasks[id]? = some r → isTerminalStatus r.status = true := by
  constructor
  · intro hzero id r hr
    by_contra hlive
    have hcreated := (h.records id r hr).created
    have hnone := hzero r.status hcreated (by simpa using hlive)
    rw [hc.status r.status hcreated] at hnone
    exact countP_eq_zero.1 hnone r (mem_recordsOf_of_getElem? hr) (by simp)
  · intro hterm status hs hlive
    rw [hc.status status hs]
    refine countP_eq_zero.2 fun r hr hstatus => ?_
    rw [decide_eq_true_eq] at hstatus
    obtain ⟨id, hid⟩ := exists_of_mem_recordsOf hr
    have := hterm id r hid
    rw [hstatus, hlive] at this
    cases this

end TaskPool

theorem CoreRuntime.isDrained_iff {rt : CoreRuntime} (hdraining : rt.stopState = .draining) :
    rt.isDrained = true ↔ ∀ status, status ≠ .created → isTerminalStatus status = false →
      rt.tasks.statistics.counter status = 0 := by
  unfold isDrained
  rw [hdraining]
  simp only [decide_true, Bool.true_and, Bool.and_eq_true, beq_iff_eq]
  constructor
  · rintro ⟨⟨⟨hready, hrunning⟩, hwaiting⟩, hblocked⟩ status hs hlive
    cases status with
    | created => exact absurd rfl hs
    | ready => exact hready
    | running => exact hrunning
    | waiting => exact hwaiting
    | blocked => exact hblocked
    | _ => cases hlive
  · intro hzero
    exact ⟨⟨⟨hzero .ready (by decide) rfl, hzero .running (by decide) rfl⟩,
      hzero .waiting (by decide) rfl⟩, hzero .blocked (by decide) rfl⟩

open TaskPool in
/-- The counters after every run of operations in which runners accept each protocol once and
    fewer than `u64Max` tasks are submitted: each status counter is the number of records with the
    status; the terminal revision is the number of terminal transitions, so the Host publishes
    whatever ended since it looked; a draining runtime is drained exactly when nothing is live. -/
theorem counters_exact (ops later : List PoolOp) (hproper : ∀ op ∈ ops ++ later, op.Proper)
    (rt rt' : CoreRuntime) (hrt : rt.tasks = runOps ops {})
    (hrt' : rt'.tasks = runOps later rt.tasks)
    (hroom : rt'.tasks.statistics.submittedTotal < u64Max) :
    (∀ status, status ≠ .created →
      rt'.tasks.statistics.counter status = rt'.tasks.statusCount status) ∧
    rt'.terminalRevision = terminalTransitions (ops ++ later) {} ∧
    (rt'.publishTerminalChanges rt.terminalRevision =
      if terminalTransitions later rt.tasks = 0 then none else some rt'.terminalRevision) ∧
    (rt'.stopState = .draining → (rt'.isDrained = true ↔
      ∀ (id : TaskId) r, rt'.tasks.tasks[id]? = some r → isTerminalStatus r.status = true)) := by
  have hfirst : ∀ op ∈ ops, op.Proper := fun op hop => hproper op (mem_append_left later hop)
  have hsecond : ∀ op ∈ later, op.Proper := fun op hop => hproper op (mem_append_right ops hop)
  have hall : rt'.tasks = runOps (ops ++ later) {} := by rw [runOps_append, hrt', hrt]
  have hgood : Good rt.tasks := hrt ▸ runOps_good ops good_empty
  have hcounted : Counted rt.tasks := hrt ▸ (runOps_counted ops hfirst good_empty counted_empty).1
  have hcounted' : Counted rt'.tasks :=
    hall ▸ (runOps_counted (ops ++ later) hproper good_empty counted_empty).1
  have hc := hcounted'.counters hroom
  have hrevision : rt'.terminalRevision =
      rt.terminalRevision + terminalTransitions later rt.tasks := by
    unfold CoreRuntime.terminalRevision
    rw [hrt'] at hroom ⊢
    exact runOps_revision later hsecond hgood hcounted hroom
  refine ⟨hc.status, ?_, ?_, fun hdraining => ?_⟩
  · unfold CoreRuntime.terminalRevision
    rw [hall] at hroom ⊢
    rw [runOps_revision (ops ++ later) hproper good_empty counted_empty hroom]
    exact Nat.zero_add _
  · unfold CoreRuntime.publishTerminalChanges
    by_cases hzero : terminalTransitions later rt.tasks = 0
    · rw [if_pos hzero, if_neg]
      omega
    · rw [if_neg hzero, if_pos]
      omega
  · rw [CoreRuntime.isDrained_iff hdraining]
    exact counters_zero_iff hcounted' hc

/-- A runtime without plugins that drains a pool. -/
def drainingRuntime (tasks : TaskPool) : CoreRuntime where
  loadPlan :=
    { registryGeneration := 1, plugins := [], contractSurfaces := []
      observability :=
        { events := ⟨0, .dropOldest⟩, traces := ⟨0, .dropOldest⟩
          detailedSchedulerDecisions := false, dispatchSpans := false } }
  handlerBindings := []
  surfaces := []
  protocolClasses := ∅
  registry := {}
  generationStates := []
  events := .new ⟨0, .dropOldest⟩
  traces := .new ⟨0, .dropOldest⟩
  tasks
  stopState := .draining

open TaskPool in
/-- Two tasks: one completes, then the other is cancelled and the runtime is drained. -/
theorem counters_exact_sample :
    let ops := claimedRun ++ [.complete (attemptLease 1) 1 none]
    let later : List PoolOp := [.cancelByCore "t.2" 2]
    let rt := drainingRuntime (runOps ops {})
    let rt' := drainingRuntime (runOps later rt.tasks)
    (rt.terminalRevision, rt'.terminalRevision, rt'.isDrained) = (1, 2, true) ∧
    rt'.terminalRevision = terminalTransitions (ops ++ later) {} ∧
    rt'.publishTerminalChanges rt.terminalRevision =
      (if terminalTransitions later rt.tasks = 0 then none else some rt'.terminalRevision) ∧
    (rt'.isDrained = true ↔
      ∀ (id : TaskId) r, rt'.tasks.tasks[id]? = some r → isTerminalStatus r.status = true) := by
  intro ops later rt rt'
  have hproper : ∀ op ∈ ops ++ later, op.Proper := by
    simp [ops, later, claimedRun, PoolOp.Proper, sampleRunner]
  have h := counters_exact ops later hproper rt rt' rfl rfl (by decide +kernel)
  exact ⟨by decide +kernel, h.2.1, h.2.2.1, h.2.2.2 rfl⟩

open TaskPool in
/-- A runner that names a protocol twice claims the one task of it twice.  A debug build panics at
    its own assertion; in a release build the counters say that two tasks run, and after it has
    completed that one still does. -/
theorem repeated_protocol_miscounted :
    let runner : RunnerDescriptor :=
      { sampleRunner with acceptedProtocolIds := ["p.mail", "p.mail"] }
    let queued := runOps
      [.enqueueAt { taskId := "t.1", protocolId := "p.mail", payload := .null } 0] {}
    let claimed := runOps [.claimReady runner "exec" 1 1 2 none none] queued
    let completed := runOps [.complete (attemptLease 2) 1 none] claimed
    ((claimReadyForExecutorWithBudget true runner "exec" 1 1 2 none none).run queued).1.site? =
      some "assertion failed: record.status == TaskStatus::Ready" ∧
    (claimed.statistics.counter .running, claimed.statusCount .running) = (2, 1) ∧
    (drainingRuntime completed).isDrained = false ∧
      completed.tasks["t.1"]?.map (·.status) = some .completed ∧ completed.tasks.size = 1 := by
  decide +kernel

end MutsukiRuntime
