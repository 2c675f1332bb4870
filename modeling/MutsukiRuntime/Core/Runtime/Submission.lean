/-
  SUBMITTING A BATCH: all of it or nothing.

  `submit_batch` checks the stop state and the ids of the batch before it stores
  anything, and storing a task of a checked batch cannot fail.  What can fail is the
  last stage, which looks the stored tasks up again: a task that needs a deprecated
  surface is rejected at once, and a rejected task is terminal, so a bounded history
  may have evicted it by then.
-/
import MutsukiRuntime.Core.Runtime.History
import MutsukiRuntime.Core.Runtime.Outputs
import MutsukiRuntime.Core.TaskPool.Compaction

namespace MutsukiRuntime

open Std Board TaskPool Buckets Prog List

variable {id : TaskId} {r : TaskRecord}

namespace TaskPool

/-! ## The history of a batch -/

/-- New tasks have been stored in the pool `start`, and those of `failed` rejected. -/
structure Admitted (start pool : TaskPool) (failed : List TaskId) : Prop where
  good : Good pool
  isLinked : pool.isLinked = start.isLinked
  historyRetention : pool.historyRetention = start.historyRetention
  linkedHistory : pool.linkedHistory = start.linkedHistory
  unbounded (h : start.historyRetention = none) (id : TaskId) (hid : id ∈ failed) :
    ∃ r, pool.tasks[id]? = some r
  recent (retention : TaskHistoryRetention) (h : start.historyRetention = some retention)
    (hroom : start.linkedHistory + failed.length ≤ retention.maxTerminalRecords) :
    ∃ older, pool.unlinkedHistory = older ++ failed

/-- The history fits, unless nothing of it may go. -/
def Fits (pool : TaskPool) : Prop :=
  ∀ retention, pool.historyRetention = some retention →
    pool.terminalOrder.length ≤ retention.maxTerminalRecords ∨ pool.unlinkedHistory = []

variable {start pool : TaskPool} {failed : List TaskId}

theorem admitted_nil (h : Good pool) : Admitted pool pool [] where
  good := h
  isLinked := rfl
  historyRetention := rfl
  linkedHistory := rfl
  unbounded _ _ hid := by cases hid
  recent _ _ _ := ⟨pool.unlinkedHistory, (append_nil _).symm⟩

theorem Good.isLinked_of_new (h : Good pool) (hnew : pool.containsTaskId id = false) :
    pool.isLinked id = false := by
  have hnone : ∀ r, pool.tasks[id]? ≠ some r := by
    intro r hr
    have hmem : pool.tasks.contains id = true := by
      rw [ExtTreeMap.contains_iff_mem, mem_iff_exists]
      exact ⟨r, hr⟩
    simp [containsTaskId, hmem] at hnew
  -- a linked parent is stored, and so is a linked child
  have hparent : pool.waitsByParent[id]? = none := by
    cases hw : pool.waitsByParent[id]? with
    | none => rfl
    | some links =>
      obtain ⟨taskAwait, hmem⟩ := exists_mem_of_ne_nil links (h.links.prunedParent id links hw).1
      rw [← bucket_of_some _ _ _ hw] at hmem
      obtain ⟨r, hr, -⟩ := h.links.waiting id taskAwait hmem fun hf => hf
      exact absurd hr (hnone r)
  have hchild : pool.waitsByChild[id]? = none := by
    cases hw : pool.waitsByChild[id]? with
    | none => rfl
    | some links =>
      obtain ⟨taskAwait, hmem⟩ := exists_mem_of_ne_nil links (h.links.prunedChild id links hw).1
      rw [← bucket_of_some _ _ _ hw] at hmem
      obtain ⟨rfl, hlink⟩ := (h.links.mirror id taskAwait).1 hmem
      obtain ⟨r, hr⟩ := h.links.child _ taskAwait hlink
      exact absurd hr (hnone r)
  unfold isLinked
  rw [Bool.or_eq_false_iff]
  constructor
  · simpa [← ExtTreeMap.isSome_getElem?_eq_contains] using hchild
  · simpa [← ExtTreeMap.isSome_getElem?_eq_contains] using hparent

theorem Admitted.store (h : Admitted start pool failed) (hgood : Good (pool.enqueued r)) :
    Admitted start (pool.enqueued r) failed := by
  refine ⟨hgood, h.isLinked, h.historyRetention, h.linkedHistory, ?_, h.recent⟩
  intro hnone id hid
  rw [getElem?_enqueued]
  split
  · exact ⟨r, rfl⟩
  · exact h.unbounded hnone id hid

theorem Admitted.fail_unbounded (h : Admitted start pool failed)
    (hret : pool.historyRetention = none) {r' : TaskRecord}
    (hgood : Good ((pool.replaceRecord id r r').countTransition .ready .failed)) :
    Admitted start ((pool.replaceRecord id r r').countTransition .ready .failed)
      (failed ++ [id]) := by
  refine ⟨hgood, h.isLinked, h.historyRetention, h.linkedHistory, fun hnone x hx => ?_, ?_⟩
  · show ∃ v, (pool.replaceRecord id r r').tasks[x]? = some v
    rw [getElem?_replaceRecord]
    split
    · exact ⟨r', rfl⟩
    next hne =>
      rcases mem_append.1 hx with hin | hin
      · exact h.unbounded hnone x hin
      · exact absurd (mem_singleton.1 hin).symm hne
  · intro retention hsome
    rw [← h.historyRetention, hret] at hsome
    cases hsome

theorem Admitted.fail_bounded (h : Admitted start pool failed) {retention : TaskHistoryRetention}
    (hret : start.historyRetention = some retention) {failure : RuntimeError}
    (hl : pool.isLinked id = false) {pool' : TaskPool} (hgood : Good pool')
    (hc : Compacted retention.maxTerminalRecords (pool.queuedRejection id failure r) pool') :
    Admitted start pool' (failed ++ [id]) := by
  refine ⟨hgood, hc.isLinked.trans h.isLinked, hc.historyRetention.trans h.historyRetention,
    hc.linked.trans ((linkedHistory_queuedRejection hl).trans h.linkedHistory), ?_, ?_⟩
  · intro hnone
    rw [hret] at hnone
    cases hnone
  · intro retention' hret' hroom
    rw [hret] at hret'
    cases hret'
    rw [length_append, length_singleton] at hroom
    obtain ⟨older, holder⟩ := h.recent retention hret (by omega)
    have hqueue : (pool.queuedRejection id failure r).terminalOrder.length =
        pool.terminalOrder.length + 1 := by
      show (pool.terminalOrder ++ [id]).length = _
      rw [length_append, length_singleton]
    have hlength := pool.length_terminalOrder
    rw [h.linkedHistory, holder, length_append] at hlength
    -- what goes is older than the batch
    refine ⟨older.drop (pool.terminalOrder.length + 1 - retention.maxTerminalRecords), ?_⟩
    rw [hc.unlinked, unlinkedHistory_queuedRejection hl, hqueue, holder, append_assoc]
    exact drop_append_of_le_length (by omega)

theorem Admitted.reject (h : Admitted start pool failed) (hr : pool.tasks[id]? = some r)
    (hs : r.status = .ready) (hl : start.isLinked id = false) (failure : RuntimeError) :
    wp (rejectReady id failure) (fun _ pool' => Admitted start pool' (failed ++ [id]) ∧ Fits pool')
      (fun _ _ => False) pool := by
  cases hret : pool.historyRetention with
  | none =>
    refine wp_total (rejectReady_keeps hret h.good hr hs failure) ?_
    intro _ pool' ⟨hgood, hpool⟩
    subst hpool
    refine ⟨h.fail_unbounded hret hgood, fun retention hsome => ?_⟩
    cases hret.symm.trans hsome
  | some retention =>
    refine wp_total (rejectReady_compacts hret h.good hr hs failure) ?_
    intro _ pool' ⟨hgood, hc⟩
    refine ⟨h.fail_bounded (h.historyRetention.symm.trans hret) (by rw [h.isLinked]; exact hl)
      hgood hc, fun retention' hret' => ?_⟩
    rw [hc.historyRetention, show (pool.queuedRejection id failure r).historyRetention =
      some retention from hret] at hret'
    cases hret'
    exact hc.fits

/-- Rejected tasks are all still there exactly if the history has room for them. -/
theorem Admitted.stored_iff (h : Admitted start pool failed) (hfits : failed ≠ [] → Fits pool)
    (honce : failed.Nodup) (hlinked : ∀ id ∈ failed, start.isLinked id = false)
    (hended : ∀ id ∈ failed, ¬ pool.board.Live id) :
    (∀ id ∈ failed, ∃ r, pool.tasks[id]? = some r) ↔
      ∀ retention, start.historyRetention = some retention →
        failed = [] ∨ start.linkedHistory + failed.length ≤ retention.maxTerminalRecords := by
  constructor
  · intro hall retention hret
    by_cases hne : failed = []
    · exact .inl hne
    · right
      have hbounded := h.historyRetention.trans hret
      have hsub : failed ⊆ pool.unlinkedHistory := by
        intro id hid
        obtain ⟨r, hr⟩ := hall id hid
        have hterm : isTerminalStatus r.status = true := by
          by_contra hlive
          exact hended id hid ⟨r, hr, by simpa using hlive⟩
        refine mem_filter.2 ⟨(h.good.history.listed (by rw [hbounded]; rfl) id).2
          ⟨fun hf => hf, r, hr, hterm⟩, ?_⟩
        rw [h.isLinked, hlinked id hid]
        rfl
      have hcount := (honce.subperm hsub).length_le
      have hlength := pool.length_terminalOrder
      rw [h.linkedHistory] at hlength
      rcases hfits hne retention hbounded with hfit | hnil
      · omega
      · rw [hnil] at hsub
        exact absurd (eq_nil_of_subset_nil hsub) hne
  · intro hroom id hid
    cases hret : start.historyRetention with
    | none => exact h.unbounded hret id hid
    | some retention =>
      rcases hroom retention hret with hnil | hfit
      · rw [hnil] at hid
        cases hid
      · obtain ⟨older, holder⟩ := h.recent retention hret hfit
        have hmem : id ∈ pool.unlinkedHistory := by
          rw [holder]
          exact mem_append_right _ hid
        obtain ⟨-, r, hr, -⟩ := (h.good.history.listed
          (by rw [h.historyRetention, hret]; rfl) id).1 (mem_of_mem_filter hmem)
        exact ⟨r, hr⟩

end TaskPool

namespace CoreRuntime

variable {start rt : CoreRuntime}

/-! ## Storing a batch -/

/-- The ids of the tasks that are rejected as soon as they are stored. -/
def refusedIds (rt : CoreRuntime) (tasks : List Task) : List TaskId :=
  (tasks.filter (rt.Refuses ·)).map (·.taskId)

/-- `done` of a batch has been stored. -/
structure Submitting (start rt : CoreRuntime) (done : List Task) : Prop where
  frame : rt = { start with tasks := rt.tasks, events := rt.events }
  derives : Derives start.Refuses start.tasks done rt.tasks
  admitted : Admitted start.tasks rt.tasks (start.refusedIds done)
  fits : start.refusedIds done ≠ [] → Fits rt.tasks

variable {done tasks : List Task} {task : Task} {ids : List TaskId} {batch : TaskBatch}

theorem rejectDeprecated_admits (h : Admitted start.tasks rt.tasks (start.refusedIds done))
    (hfits : start.refusedIds done ≠ [] → Fits rt.tasks)
    (hr : rt.tasks.tasks[task.taskId]? = some r) (hs : r.status = .ready)
    (hl : start.tasks.isLinked task.taskId = false) :
    wp (rejectDeprecated task.taskId (start.deprecatedSurface task))
      (fun _ rt' => rt' = { rt with tasks := rt'.tasks } ∧
        Admitted start.tasks rt'.tasks (start.refusedIds (done ++ [task])) ∧
        (start.refusedIds (done ++ [task]) ≠ [] → Fits rt'.tasks)) (fun _ _ => False) rt := by
  cases hsurface : start.deprecatedSurface task with
  | none =>
    have hnot : ¬ start.Refuses task := by simp [Refuses, hsurface]
    have hids : start.refusedIds (done ++ [task]) = start.refusedIds done := by
      simp [refusedIds, hnot]
    rw [hids]
    exact ⟨rfl, h, hfits⟩
  | some surfaceId =>
    have hyes : start.Refuses task := by simp [Refuses, hsurface]
    have hids : start.refusedIds (done ++ [task]) = start.refusedIds done ++ [task.taskId] := by
      simp [refusedIds, hyes]
    rw [hids]
    unfold rejectDeprecated
    rw [wp_bind, wp_attempt, wp_onPool]
    refine wp_total (h.reject hr hs hl (deprecatedSurfaceError surfaceId)) ?_
    exact fun _ pool hp => ⟨rfl, hp.1, fun _ => hp.2⟩

theorem enqueueTask_submits (h : Submitting start rt done)
    (hgood : Good start.tasks) (hrunning : start.stopState = .running)
    (hnew : start.tasks.containsTaskId task.taskId = false)
    (hid : ∀ t ∈ done, t.taskId ≠ task.taskId) :
    wp (enqueueTask task)
      (fun taskId rt' => taskId = task.taskId ∧ Submitting start rt' (done ++ [task]))
      (fun _ _ => False) rt := by
  have hopen : rt.stopState ≠ .aborted := by
    rw [h.frame]
    simp [hrunning]
  have hsurface : rt.deprecatedSurface task = start.deprecatedSurface task := by
    rw [h.frame]
    rfl
  have hrefuses : rt.Refuses = start.Refuses := by
    rw [h.frame]
    rfl
  have hfresh : rt.tasks.containsTaskId task.taskId = false := by
    by_contra hknown
    rcases h.derives.known _ (by simpa using hknown) with hold | ⟨t, ht, he⟩
    · rw [hnew] at hold
      cases hold
    · exact hid t ht he
  have hderives := enqueueTask_derives h.admitted.good hopen hfresh
  rw [hrefuses] at hderives
  have hadmits : wp (enqueueTask task) (fun taskId rt' => taskId = task.taskId ∧
      rt' = { start with tasks := rt'.tasks, events := rt'.events } ∧
      Admitted start.tasks rt'.tasks (start.refusedIds (done ++ [task])) ∧
      (start.refusedIds (done ++ [task]) ≠ [] → Fits rt'.tasks)) (fun _ _ => False) rt := by
    have hbound : (rt.bindGeneration task).taskId = task.taskId :=
      (bindGeneration_sameHandle task).1
    have hstored := (newRecord_taskId rt.tasks (rt.bindGeneration task) rt.currentStep).trans hbound
    have hok : RecordOk (rt.tasks.newRecord (rt.bindGeneration task) rt.currentStep) :=
      recordOk_idle rfl rfl (by simp [newRecord]) (by simp [newRecord])
    have hready : (rt.tasks.newRecord (rt.bindGeneration task) rt.currentStep).status =
      .ready := rfl
    unfold enqueueTask
    rw [wp_bind, wp_read, wp_bind, ensureNotAborted_ok_iff.2 hopen,
      wp_lift_ok, wp_bind, wp_onPool, wp_of_run_ok (enqueueAt_run_new _
        rt.currentStep (by rw [hbound]; exact hfresh)), deprecatedSurface_bindGeneration,
      hsurface, hbound, wp_bind]
    generalize rt.tasks.newRecord (rt.bindGeneration task) rt.currentStep = r at *
    refine wp_total (rejectDeprecated_admits (h.admitted.store
      (h.admitted.good.enqueued hready hok (by rw [hstored]; exact hfresh))) h.fits ?_ hready
      (hgood.isLinked_of_new hnew)) ?_
    · rw [getElem?_enqueued, if_pos hstored]
    · intro _ rt' hdone
      obtain ⟨hframe, hadmitted, hfits⟩ := hdone
      refine ⟨rfl, ?_, hadmitted, hfits⟩
      show ({ rt' with events := _ } : CoreRuntime) = _
      rw [hframe, h.frame]
  refine wp_mono (wp_and hderives hadmits) ?_ (fun _ _ hf => hf.1)
  intro taskId rt' hdone
  obtain ⟨hd, htask, hframe, hadmitted, hfits⟩ := hdone
  refine ⟨htask, hframe, h.derives.append hd fun t ht t' ht' => ?_, hadmitted, hfits⟩
  rw [mem_singleton.1 ht']
  exact fun he => hid t ht he.symm

theorem enqueueBatch_submits (hgood : Good rt.tasks) (hrunning : rt.stopState = .running)
    (hnew : ∀ t ∈ tasks, rt.tasks.containsTaskId t.taskId = false)
    (honce : (tasks.map (·.taskId)).Nodup) :
    wp (Prog.foldEach tasks [] fun taskIds task => do
        let taskId ← enqueueTask task
        pure (taskIds ++ [taskId]))
      (fun taskIds rt' => taskIds = tasks.map (·.taskId) ∧ Submitting rt rt' tasks)
      (fun _ _ => False) rt := by
  have hstart : Submitting rt rt [] := ⟨rfl, .nil, admitted_nil hgood, fun hne => absurd rfl hne⟩
  refine wp_total (wp_foldEach (fun rest taskIds rt' => ∃ done, done ++ rest = tasks ∧
    taskIds = done.map (·.taskId) ∧ Submitting rt rt' done) ⟨[], rfl, rfl, hstart⟩ ?_) ?_
  · intro task rest taskIds rt' ⟨done, hsplit, hids, h⟩
    have hmem : task ∈ tasks := by
      rw [← hsplit]
      simp
    have hother : ∀ t ∈ done, t.taskId ≠ task.taskId := by
      rw [← hsplit, map_append, nodup_append] at honce
      exact fun t ht => honce.2.2 _ (mem_map_of_mem ht) _ (by simp)
    rw [wp_bind]
    refine wp_total (enqueueTask_submits h hgood hrunning (hnew task hmem) hother) ?_
    intro taskId rt'' ⟨htask, h'⟩
    refine ⟨done ++ [task], by simp [hsplit], ?_, h'⟩
    rw [hids, htask, map_append]
    rfl
  · intro taskIds rt' ⟨done, hsplit, hids, h⟩
    rw [append_nil] at hsplit
    rw [← hsplit]
    exact ⟨hids, h⟩

/-! ## The handles -/

theorem taskHandleForId_of_stored (hkeyed : Keyed rt.tasks.tasks)
    (hr : rt.tasks.tasks[id]? = some r) :
    ∃ handle, rt.taskHandleForId id = .ok handle ∧ handle.taskId = id := by
  unfold taskHandleForId
  rw [hr]
  exact ⟨_, rfl, hkeyed id r hr⟩

theorem mapM_taskHandleForId_of_stored (hkeyed : Keyed rt.tasks.tasks)
    (h : ∀ id ∈ ids, ∃ r, rt.tasks.tasks[id]? = some r) :
    ∃ handles, ids.mapM rt.taskHandleForId = .ok handles ∧ handles.map (·.taskId) = ids := by
  induction ids with
  | nil => exact ⟨[], rfl, rfl⟩
  | cons id ids ih =>
    obtain ⟨r, hr⟩ := h id (by simp)
    obtain ⟨handle, hhandle, hid⟩ := taskHandleForId_of_stored hkeyed hr
    obtain ⟨handles, hhandles, hids⟩ := ih fun x hx => h x (by simp [hx])
    refine ⟨handle :: handles, ?_, by simp [hid, hids]⟩
    rw [mapM_cons, hhandle, hhandles]
    rfl

theorem mapM_taskHandleForId_of_missing (hmem : id ∈ ids)
    (h : rt.tasks.tasks[id]? = none) : ∃ e, ids.mapM rt.taskHandleForId = .error e := by
  induction ids with
  | nil => cases hmem
  | cons x ids ih =>
    rw [mapM_cons]
    cases hx : rt.taskHandleForId x with
    | error e => exact ⟨e, rfl⟩
    | ok handle =>
      rcases mem_cons.1 hmem with rfl | hmem
      · unfold taskHandleForId at hx
        rw [h] at hx
        cases hx
      · obtain ⟨e, he⟩ := ih hmem
        rw [he]
        exact ⟨e, rfl⟩

/-! ## All or nothing -/

/-- Every task of the batch is stored and has its handle, or nothing has happened. -/
def AllOrNothing (rt : CoreRuntime) (batch : TaskBatch) : Prop :=
  wp (submitBatch batch)
    (fun handles rt' => (handles.map (·.taskId)).Nodup ∧ ∀ handle ∈ handles,
      ∃ task ∈ batch.tasks, handle.taskId = task.taskId ∧
        rt.tasks.containsTaskId task.taskId = false ∧
        ∃ r, rt'.tasks.tasks[task.taskId]? = some r)
    (fun _ rt' => rt'.tasks = rt.tasks ∧ rt'.events = rt.events) rt

/-- What `submit_batch` checks first. -/
structure Acceptable (rt : CoreRuntime) (tasks : List Task) : Prop where
  running : rt.stopState = .running
  new : ∀ t ∈ tasks, rt.tasks.containsTaskId t.taskId = false
  once : (tasks.map (·.taskId)).Nodup

/-- The history has room for the rejected tasks, beside the terminal ones it must keep. -/
def HasRoom (rt : CoreRuntime) (tasks : List Task) : Prop :=
  ∀ retention, rt.tasks.historyRetention = some retention → rt.refusedIds tasks = [] ∨
    rt.tasks.linkedHistory + (rt.refusedIds tasks).length ≤ retention.maxTerminalRecords

/-- The tasks of a stored batch are all still there exactly if the history had room. -/
theorem Submitting.stored_iff (h : Submitting start rt tasks)
    (hgood : Good start.tasks) (hacceptable : Acceptable start tasks) :
    (∀ id ∈ tasks.map (·.taskId), ∃ r, rt.tasks.tasks[id]? = some r) ↔ HasRoom start tasks := by
  have hrefused : ∀ id ∈ start.refusedIds tasks,
      ∃ task ∈ tasks, start.Refuses task ∧ task.taskId = id := by
    intro id hid
    obtain ⟨task, hmem, rfl⟩ := mem_map.1 hid
    obtain ⟨hin, hrefuses⟩ := mem_filter.1 hmem
    exact ⟨task, hin, by simpa using hrefuses, rfl⟩
  have hiff := h.admitted.stored_iff h.fits (hacceptable.once.sublist (filter_sublist.map _))
    (fun id hid => by
      obtain ⟨task, hin, -, rfl⟩ := hrefused id hid
      exact hgood.isLinked_of_new (hacceptable.new task hin))
    (fun id hid => by
      obtain ⟨task, hin, hrefuses, rfl⟩ := hrefused id hid
      exact h.derives.ended task hin hrefuses)
  refine Iff.trans ⟨fun hall id hid => ?_, fun hall id hid => ?_⟩ hiff
  · obtain ⟨task, hin, -, rfl⟩ := hrefused id hid
    exact hall _ (mem_map_of_mem hin)
  · obtain ⟨task, hin, rfl⟩ := mem_map.1 hid
    by_cases hrefuses : start.Refuses task
    · exact hall _ (mem_map_of_mem (mem_filter.2 ⟨hin, by simpa using hrefuses⟩))
    · obtain ⟨r, hr, -⟩ := h.derives.stored task hin hrefuses
      exact ⟨r, hr⟩

/-- `submit_batch` on a batch that passes its checks: it fails, with everything stored, exactly
    if the history has no room for the rejected tasks. -/
theorem submitBatch_checked (hgood : Good rt.tasks) (h : Acceptable rt batch.tasks) :
    wp (submitBatch batch)
      (fun handles rt' => HasRoom rt batch.tasks ∧ Submitting rt rt' batch.tasks ∧
        handles.map (·.taskId) = batch.tasks.map (·.taskId))
      (fun _ rt' => ¬ HasRoom rt batch.tasks ∧ Submitting rt rt' batch.tasks) rt := by
  have hopen : rt.ensureAcceptingExternalTasks = .ok () := by
    simp [ensureAcceptingExternalTasks, h.running]
  have hfree := duplicateTask_eq_none.2 ⟨h.new, h.once⟩
  unfold submitBatch
  rw [wp_bind, wp_read, wp_bind, hopen, wp_lift_ok]
  simp only [hfree]
  rw [wp_bind]
  refine wp_total (enqueueBatch_submits hgood h.running h.new h.once) ?_
  intro taskIds rt' ⟨hids, hsubmitted⟩
  have hiff := hsubmitted.stored_iff hgood h
  rw [wp_bind, wp_read, hids]
  by_cases hroom : HasRoom rt batch.tasks
  · obtain ⟨handles, hhandles, hnames⟩ :=
      mapM_taskHandleForId_of_stored hsubmitted.admitted.good.keyed (hiff.2 hroom)
    rw [hhandles, wp_lift_ok]
    exact ⟨hroom, hsubmitted, hnames⟩
  · have hmissing : ∃ id ∈ batch.tasks.map (·.taskId), rt'.tasks.tasks[id]? = none := by
      by_contra hall
      refine hroom (hiff.1 fun id hid => Option.ne_none_iff_exists'.1 fun hnone => hall ?_)
      exact ⟨id, hid, hnone⟩
    obtain ⟨id, hid, hnone⟩ := hmissing
    obtain ⟨e, he⟩ := mapM_taskHandleForId_of_missing hid hnone
    rw [he, wp_lift_error]
    exact ⟨hroom, hsubmitted⟩

/-- A batch that fails the checks is refused before anything is done. -/
theorem submitBatch_refused (h : ¬ Acceptable rt batch.tasks) :
    ∃ e, (submitBatch batch).run rt = (.err e, rt) := by
  unfold submitBatch
  rw [run_read_bind, run_bind]
  cases hstop : rt.stopState with
  | draining | aborted => exact ⟨_, by simp [ensureAcceptingExternalTasks, hstop]; rfl⟩
  | running =>
    cases hdup : duplicateTask rt.tasks [] batch.tasks with
    | some taskId => exact ⟨_, by simp [ensureAcceptingExternalTasks, hstop]; rfl⟩
    | none =>
      obtain ⟨hnew, honce⟩ := duplicateTask_eq_none.1 hdup
      exact absurd ⟨hstop, hnew, honce⟩ h

/-- In every state of a run, a batch is stored whole or not at all exactly if it fails the
    checks or the history has room for its rejected tasks. -/
theorem submitBatch_all_or_nothing_iff {rt : CoreRuntime} (h : Run (fun _ _ => True) rt)
    (batch : TaskBatch) :
    AllOrNothing rt batch ↔ (Acceptable rt batch.tasks → HasRoom rt batch.tasks) := by
  have horderly := h.inOrder
  have hgood := horderly.good
  by_cases hacceptable : Acceptable rt batch.tasks
  · have hchecked := submitBatch_checked hgood hacceptable
    constructor
    · intro hwhole _
      rcases wp_outcome hchecked with ⟨_, _, _, hroom, _⟩ | ⟨e, rt', hrun, hno, hstored⟩
      · exact hroom
      · -- the failed call has counted the tasks of the batch
        have hcount := hstored.derives.sequence
        rw [((wp_of_run_err hrun).1 hwhole).1] at hcount
        have hnil : batch.tasks = [] := length_eq_zero_iff.1 (by omega)
        refine absurd (fun _ _ => .inl ?_) hno
        rw [hnil]
        rfl
    · intro hroom
      refine wp_mono hchecked ?_ (fun _ _ herr => absurd (hroom hacceptable) herr.1)
      intro handles rt' ⟨_, hstored, hids⟩
      refine ⟨by rw [hids]; exact hacceptable.once, fun handle hmem => ?_⟩
      have hin : handle.taskId ∈ batch.tasks.map (·.taskId) := by
        rw [← hids]
        exact mem_map_of_mem hmem
      obtain ⟨task, htask, hid⟩ := mem_map.1 hin
      exact ⟨task, htask, hid.symm, hacceptable.new task htask,
        (hstored.stored_iff hgood hacceptable).2 (hroom hacceptable) _ (mem_map_of_mem htask)⟩
  · obtain ⟨e, hrun⟩ := submitBatch_refused hacceptable
    exact ⟨fun _ hf => absurd hf hacceptable, fun _ => (wp_of_run_err hrun).2 ⟨rfl, rfl⟩⟩

/-- A plan that has deprecated the protocol of the worker. -/
def retiringPlan : RuntimeLoadPlan :=
  { samplePlan with
    contractSurfaces :=
      [{ surfaceId := "task_protocol:p.work", kind := .taskProtocol, fingerprint := ""
         deprecated := true }] }

/-- A runtime with this plan and a history of `keep` terminal tasks. -/
def retiringRuntime (keep : Nat) : CoreRuntime :=
  after [.configureTaskHistoryRetention storedOrder (some ⟨keep, 0⟩)]
    ((boot retiringPlan [kernelRunner, workRunner] []).toOption.get (by decide +kernel))

def oneTask : TaskBatch := { batchId := "b", tasks := [Task.new "t.1" "p.work" .null] }

def twoTasks : TaskBatch :=
  { oneTask with tasks := oneTask.tasks ++ [Task.new "t.2" "p.work" .null] }

theorem run_retiringRuntime (keep : Nat) : Run (fun _ _ => True) (retiringRuntime keep) :=
  (Run.of_boot _).after _ fun _ _ _ => trivial

/-- With room for two terminal tasks, a batch of two tasks that are rejected is stored whole. -/
theorem submitBatch_all_or_nothing_sample : AllOrNothing (retiringRuntime 2) twoTasks := by
  have hretention : (retiringRuntime 2).tasks.historyRetention = some ⟨2, 0⟩ := by decide +kernel
  have hlinked : (retiringRuntime 2).tasks.linkedHistory = 0 := by decide +kernel
  have hrefused : ((retiringRuntime 2).refusedIds twoTasks.tasks).length = 2 := by decide +kernel
  have hrun := run_retiringRuntime 2
  generalize retiringRuntime 2 = rt at *
  refine (submitBatch_all_or_nothing_iff hrun twoTasks).2 fun _ retention hret => .inr ?_
  rw [hretention] at hret
  cases hret
  rw [hlinked, hrefused]

theorem not_allOrNothing {rt : CoreRuntime}
    (herr : ((submitBatch batch).run rt).1.error?.isSome = true)
    (hcount : ((submitBatch batch).run rt).2.tasks.nextSequence ≠ rt.tasks.nextSequence) :
    ¬ AllOrNothing rt batch := by
  intro h
  rcases wp_outcome h with ⟨_, _, hrun, -⟩ | ⟨e, rt', hrun, htasks, -⟩
  · rw [hrun] at herr
    cases herr
  · rw [hrun] at hcount
    exact hcount (by rw [htasks])

/-- Without room the call fails, although the task has been stored, rejected and evicted. -/
theorem submitBatch_fails_after_storing :
    Run (fun _ _ => True) (retiringRuntime 0) ∧ ¬ AllOrNothing (retiringRuntime 0) oneTask :=
  ⟨run_retiringRuntime 0, not_allOrNothing (by decide +kernel) (by decide +kernel)⟩

end CoreRuntime

end MutsukiRuntime
