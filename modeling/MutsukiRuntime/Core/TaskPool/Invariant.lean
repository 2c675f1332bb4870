/-
  INVARIANT OF THE TASK POOL, and the board it represents.

  * `Wf wake lease unlisted freed pool`: the records, indexes, wire sizes, bounded
    history and wait links of a pool agree.  The four parameters are what an
    operation has still to do: ids cut out of the wake and lease indexes, terminal
    records not yet queued in the history, and parents whose link is still to be
    removed.  Between operations all four are empty (`Good`).
  * `board`: the abstract board of a pool.
  * One lemma for each edit of the pool: what it does to the invariant and which
    move of the board it is.
-/
import MutsukiRuntime.Core.TaskPool.Board
import MutsukiRuntime.Core.TaskPool.Claiming
import MutsukiRuntime.Core.TaskPool.IndexInvariant

namespace MutsukiRuntime

open Std Buckets Prog List

/-! ## Sets of task ids still to be dealt with -/

def only (taskId : TaskId) : TaskId → Prop := fun x => x = taskId

def without (s : TaskId → Prop) (taskId : TaskId) : TaskId → Prop := fun x => s x ∧ x ≠ taskId

@[simp] theorem without_noneTaken (taskId : TaskId) : without noneTaken taskId = noneTaken :=
  noneTaken_and _

@[simp] theorem without_only (taskId : TaskId) : without (only taskId) taskId = noneTaken := by
  funext x
  simp [without, only, noneTaken]

namespace TaskPool

/-! ## The invariant -/

/-- The two views of the wait links agree; a linked parent is waiting, unless it is `freed`. -/
structure LinksOk (freed : TaskId → Prop) (pool : TaskPool) : Prop where
  prunedChild : Pruned (fun _ => True) pool.waitsByChild
  prunedParent : Pruned (fun _ => True) pool.waitsByParent
  parent : ∀ parent taskAwait, taskAwait ∈ bucket pool.waitsByParent parent →
    taskAwait.parentTaskId = parent
  single : ∀ parent, (bucket pool.waitsByParent parent).length ≤ 1
  waiting : ∀ parent taskAwait, taskAwait ∈ bucket pool.waitsByParent parent →
    ¬ freed parent → ∃ r, pool.tasks[parent]? = some r ∧ r.status = .waiting
  child : ∀ parent taskAwait, taskAwait ∈ bucket pool.waitsByParent parent →
    ∃ r, pool.tasks[taskAwait.child.taskId]? = some r
  mirror : ∀ child taskAwait, taskAwait ∈ bucket pool.waitsByChild child ↔
    taskAwait.child.taskId = child ∧
      taskAwait ∈ bucket pool.waitsByParent taskAwait.parentTaskId
  nodup : ∀ child, (bucket pool.waitsByChild child).Nodup

/-- The set and the order of evicted ids agree, and none of them is stored. -/
structure EvictedOk (pool : TaskPool) : Prop where
  once : pool.evictedTaskOrder.Nodup
  ids : ∀ id, id ∈ pool.evictedTaskIds ↔ id ∈ pool.evictedTaskOrder
  gone : ∀ id ∈ pool.evictedTaskOrder, pool.tasks[id]? = none

/-- The bounded history lists the terminal records, except the `unlisted` ones, and remembers
    evicted ids within its capacity. -/
structure HistoryOk (unlisted : TaskId → Prop) (pool : TaskPool) : Prop where
  nodup : pool.terminalOrder.Nodup
  listed : pool.historyRetention.isSome → ∀ id, id ∈ pool.terminalOrder ↔
    ¬ unlisted id ∧ ∃ r, pool.tasks[id]? = some r ∧ isTerminalStatus r.status = true
  stored : ∀ id, unlisted id →
    ∃ r, pool.tasks[id]? = some r ∧ isTerminalStatus r.status = true
  unbounded : pool.historyRetention = none → pool.terminalOrder = [] ∧ pool.evictedTaskOrder = []
  evicted : EvictedOk pool
  capacity : ∀ retention, pool.historyRetention = some retention →
    pool.evictedTaskOrder.length ≤ retention.maxEvictedTaskIds

structure Wf (wake lease unlisted freed : TaskId → Prop) (pool : TaskPool) : Prop where
  keyed : Keyed pool.tasks
  records : ∀ (id : TaskId) r, pool.tasks[id]? = some r → RecordOk r
  indexes : Describes pool.indexes pool.tasks wake lease
  wireBytes : ∀ id, id ∈ pool.payloadWireBytes ↔ id ∈ pool.tasks
  history : HistoryOk unlisted pool
  links : LinksOk freed pool

/-- The invariant between operations. -/
def Good (pool : TaskPool) : Prop :=
  Wf noneTaken noneTaken noneTaken noneTaken pool

theorem good_empty : Good {} where
  keyed := by intro id r h; simp at h
  records := by intro id r h; simp at h
  indexes := Describes.empty
  wireBytes := by simp
  history :=
    { nodup := nodup_nil
      listed := by intro h; cases h
      stored := by intro id h; exact h.elim
      unbounded := fun _ => ⟨rfl, rfl⟩
      evicted := ⟨nodup_nil, by simp, by simp⟩
      capacity := by intro _ h; cases h }
  links :=
    { prunedChild := Pruned.empty
      prunedParent := Pruned.empty
      parent := by simp [Bucket.empty]
      single := by simp [Bucket.empty]
      waiting := by simp [Bucket.empty]
      child := by simp [Bucket.empty]
      mirror := by simp [Bucket.empty]
      nodup := by simp [Bucket.empty] }

/-! ## The board -/

def board (pool : TaskPool) : Board where
  tasks id := pool.tasks[id]?
  waits id := (bucket pool.waitsByParent id).head?
  log := pool.leaseLog
  completed := pool.completedLog

theorem board_setRecord (pool : TaskPool) (taskId : TaskId) (r : TaskRecord) :
    (pool.setRecord taskId r).board = pool.board.put taskId r := by
  unfold board setRecord Board.put Board.lease
  simp only [getElem?_insert_update]

section Edits

variable {wake lease unlisted freed : TaskId → Prop} {pool : TaskPool}

theorem LinksOk.waits_iff (h : LinksOk freed pool) (parent : TaskId) (taskAwait : TaskAwait) :
    pool.board.waits parent = some taskAwait ↔ taskAwait ∈ bucket pool.waitsByParent parent := by
  have hlen := h.single parent
  show (bucket pool.waitsByParent parent).head? = some taskAwait ↔ _
  cases hb : bucket pool.waitsByParent parent with
  | nil => simp
  | cons a rest =>
    rw [hb] at hlen
    have hrest : rest = [] := by
      cases rest with
      | nil => rfl
      | cons _ _ => simp at hlen
    subst hrest
    simp [eq_comm]

variable {pool' : TaskPool}

theorem Wf.withStatistics (h : Wf wake lease unlisted freed pool)
    (statistics : TaskPoolStatistics) : Wf wake lease unlisted freed { pool with statistics } :=
  { h with history := { h.history with evicted := { h.history.evicted with } }
           links := { h.links with } }

theorem Wf.withIndexes {wake' lease' : TaskId → Prop} {indexes : TaskIndexes}
    (h : Wf wake lease unlisted freed pool)
    (hindexes : Describes indexes pool.tasks wake' lease') :
    Wf wake' lease' unlisted freed { pool with indexes } :=
  { h with indexes := hindexes
           history := { h.history with evicted := { h.history.evicted with } }
           links := { h.links with } }

/-! ## Replacing a record -/

/-- The pool after `mutate_record_indexed` has turned `r` into `r'`. -/
def replaceRecord (pool : TaskPool) (taskId : TaskId) (r r' : TaskRecord) : TaskPool :=
  { pool.setRecord taskId r' with
    indexes := (pool.indexes.updateRecord r false).updateRecord r' true }

variable {taskId : TaskId}

theorem mutateRecordIndexed_run_missing {α : Type}
    {mutate : TaskRecord → Except RuntimeError (α × TaskRecord)} (hr : pool.tasks[taskId]? = none) :
    (mutateRecordIndexed taskId mutate).run pool = (.err (recordNotFound taskId), pool) := by
  simp [mutateRecordIndexed, hr]

variable {r : TaskRecord}

variable {r' : TaskRecord} {retention : TaskHistoryRetention}

theorem mutateRecordIndexed_run_ok {α : Type}
    {mutate : TaskRecord → Except RuntimeError (α × TaskRecord)} {value : α}
    (hr : pool.tasks[taskId]? = some r) (hm : mutate r = .ok (value, r')) :
    (mutateRecordIndexed taskId mutate).run pool = (.ok value, pool.replaceRecord taskId r r') := by
  simp [mutateRecordIndexed, updateRecordIndexes, replaceRecord, setRecord, hr, hm]

theorem mutateRecordIndexed_run_err {α : Type}
    {mutate : TaskRecord → Except RuntimeError (α × TaskRecord)} {e : RuntimeError}
    (h : Wf wake lease unlisted freed pool) (hwake : ¬ wake taskId) (hlease : ¬ lease taskId)
    (hr : pool.tasks[taskId]? = some r) (hm : mutate r = .error e) :
    (mutateRecordIndexed taskId mutate).run pool = (.err e, pool) := by
  have hid := h.keyed taskId r hr
  subst hid
  have hrestore := h.indexes.restore hr hwake hlease
  simp [mutateRecordIndexed, updateRecordIndexes, hr, hm, hrestore]

theorem getElem?_replaceRecord (pool : TaskPool) (taskId : TaskId) (r r' : TaskRecord)
    (id : TaskId) :
    (pool.replaceRecord taskId r r').tasks[id]? =
      if taskId = id then some r' else pool.tasks[id]? :=
  getElem?_insert_ite _ _ _ _

/-- The records of the ids still to come are not touched. -/
theorem getElem?_replaceRecord_tail {id : TaskId} {rest : List TaskId}
    (hnd : (taskId :: rest).Nodup) (hid : id ∈ rest) (r r' : TaskRecord) :
    (pool.replaceRecord taskId r r').tasks[id]? = pool.tasks[id]? := by
  rw [getElem?_replaceRecord, if_neg]
  rintro rfl
  exact (nodup_cons.1 hnd).1 hid

theorem board_replaceRecord (taskId : TaskId) (r r' : TaskRecord) :
    (pool.replaceRecord taskId r r').board = pool.board.put taskId r' :=
  board_setRecord pool taskId r'

/-- Replacing a live record.  A terminal `r'` is still to be queued in the history, and a link
    of the record is still to be removed. -/
theorem Wf.replace (h : Wf wake lease noneTaken noneTaken pool)
    (hr : pool.tasks[taskId]? = some r) (hlive : isTerminalStatus r.status = false)
    (hid : r'.task.taskId = r.task.taskId) (hok : RecordOk r') :
    Wf (without wake taskId) (without lease taskId)
      (fun x => x = taskId ∧ isTerminalStatus r'.status = true) (only taskId)
      (pool.replaceRecord taskId r r') := by
  have hkey := h.keyed taskId r hr
  have hget := getElem?_replaceRecord pool taskId r r'
  refine ⟨forall_insert h.keyed (hid.trans hkey), forall_insert h.records hok, ?_, ?_, ?_, ?_⟩
  · subst hkey
    exact h.indexes.replace hr hid
  · intro id
    have hmem : id ∈ pool.tasks.insert taskId r' ↔ id ∈ pool.tasks := by
      rw [ExtTreeMap.mem_insert, Std.compare_eq_iff_eq]
      constructor
      · rintro (rfl | hm)
        · exact mem_iff_exists _ _ |>.2 ⟨r, hr⟩
        · exact hm
      · exact Or.inr
    exact (h.wireBytes id).trans hmem.symm
  · refine { h.history with
      listed := ?_, stored := ?_, evicted := { h.history.evicted with gone := ?_ } }
    · intro hret id
      refine (h.history.listed hret id).trans ?_
      rw [hget]
      by_cases he : taskId = id
      · subst he
        simp [hr, hlive]
      · have hne : id ≠ taskId := fun hx => he hx.symm
        simp [he, hne, noneTaken]
    · rintro id ⟨rfl, hterm⟩
      exact ⟨r', by rw [hget, if_pos rfl], hterm⟩
    · intro id hmem
      have hgone := h.history.evicted.gone id hmem
      rw [hget, if_neg, hgone]
      rintro rfl
      rw [hr] at hgone
      cases hgone
  · refine { h.links with waiting := ?_, child := ?_ }
    · intro parent taskAwait hmem hne
      obtain ⟨v, hv, hw⟩ := h.links.waiting parent taskAwait hmem (fun hf => hf)
      refine ⟨v, ?_, hw⟩
      rw [hget, if_neg fun he => hne he.symm]
      exact hv
    · intro parent taskAwait hmem
      obtain ⟨v, hv⟩ := h.links.child parent taskAwait hmem
      rw [hget]
      split
      · exact ⟨r', rfl⟩
      · exact ⟨v, hv⟩

/-! ## Wait links -/

theorem Wf.unfree (h : Wf wake lease unlisted freed pool)
    (hnone : bucket pool.waitsByParent taskId = []) :
    Wf wake lease unlisted (without freed taskId) pool := by
  refine { h with links := { h.links with waiting := ?_ } }
  intro parent taskAwait hmem hne
  refine h.links.waiting parent taskAwait hmem fun hf => hne ⟨hf, ?_⟩
  rintro rfl
  rw [hnone] at hmem
  cases hmem

theorem LinksOk.not_linked (h : LinksOk freed pool) (hfree : ¬ freed taskId)
    (hr : pool.tasks[taskId]? = some r) (hs : r.status ≠ .waiting) :
    bucket pool.waitsByParent taskId = [] := by
  apply eq_nil_iff_forall_not_mem.2
  intro taskAwait hmem
  obtain ⟨v, hv, hw⟩ := h.waiting taskId taskAwait hmem hfree
  rw [hr] at hv
  cases hv
  exact hs hw

theorem LinksOk.bucket_removeWaitsForParent (h : LinksOk freed pool) (taskId child : TaskId) :
    bucket (pool.removeWaitsForParent taskId).waitsByChild child =
      (bucket pool.waitsByChild child).filter fun item => item.parentTaskId != taskId := by
  unfold removeWaitsForParent
  rw [bucket_foldl_shrink (fun taskAwait : TaskAwait => taskAwait.child.taskId)
    (fun b : List TaskAwait => b.filter fun item => item.parentTaskId != taskId) rfl
    (fun b => by simp [filter_filter])]
  split
  · rfl
  next hnot =>
    -- a child none of the removed links names has no link of this parent
    symm
    apply filter_eq_self.2
    intro item hitem
    obtain ⟨hchild, hpar⟩ := (h.mirror child item).1 hitem
    rw [bne_iff_ne]
    rintro rfl
    exact hnot (mem_map.2 ⟨item, hpar, hchild⟩)

theorem mem_removeWaitsForParent (pool : TaskPool) (taskId parent : TaskId)
    (taskAwait : TaskAwait) :
    taskAwait ∈ bucket (pool.removeWaitsForParent taskId).waitsByParent parent ↔
      taskId ≠ parent ∧ taskAwait ∈ bucket pool.waitsByParent parent := by
  show taskAwait ∈ bucket (pool.waitsByParent.erase taskId) parent ↔ _
  rw [bucket_erase]
  split <;> simp_all [Bucket.empty]

theorem board_removeWaitsForParent (pool : TaskPool) (taskId : TaskId) :
    (pool.removeWaitsForParent taskId).board =
      { pool.board with waits := Function.update pool.board.waits taskId none } := by
  have hwaits : (pool.removeWaitsForParent taskId).board.waits =
      Function.update pool.board.waits taskId none := by
    funext parent
    show (bucket (pool.waitsByParent.erase taskId) parent).head? = _
    rw [bucket_erase, Function.update_apply]
    by_cases hp : taskId = parent
    · rw [if_pos hp, if_pos hp.symm]
      rfl
    · rw [if_neg hp, if_neg fun he => hp he.symm]
      rfl
  rw [← hwaits]
  rfl

theorem Wf.removeWaitsForParent (h : Wf wake lease unlisted freed pool) (taskId : TaskId) :
    Wf wake lease unlisted (without freed taskId) (pool.removeWaitsForParent taskId) := by
  have hsub := mem_removeWaitsForParent pool taskId
  refine { h with
    history := { h.history with evicted := { h.history.evicted with } }
    links := ⟨?_, ?_, ?_, ?_, ?_, ?_, ?_, ?_⟩ }
  · exact h.links.prunedChild.foldl_shrink _ _ (fun _ _ => trivial) _
  · exact h.links.prunedParent.erase taskId
  · intro parent taskAwait hmem
    exact h.links.parent parent taskAwait ((hsub _ _).1 hmem).2
  · intro parent
    show (bucket (pool.waitsByParent.erase taskId) parent).length ≤ 1
    rw [bucket_erase]
    split
    · exact Nat.zero_le 1
    · exact h.links.single parent
  · intro parent taskAwait hmem hne
    obtain ⟨hp, hmem⟩ := (hsub _ _).1 hmem
    exact h.links.waiting parent taskAwait hmem fun hf => hne ⟨hf, fun he => hp he.symm⟩
  · intro parent taskAwait hmem
    exact h.links.child parent taskAwait ((hsub _ _).1 hmem).2
  · intro child taskAwait
    rw [h.links.bucket_removeWaitsForParent, mem_filter, h.links.mirror, hsub, bne_iff_ne]
    constructor
    · rintro ⟨⟨hc, hp⟩, hne⟩
      exact ⟨hc, fun he => hne he.symm, hp⟩
    · rintro ⟨hc, hne, hp⟩
      exact ⟨⟨hc, hp⟩, fun he => hne he.symm⟩
  · intro child
    rw [h.links.bucket_removeWaitsForParent]
    exact (h.links.nodup child).filter _

theorem LinksOk.step_unlink {freed' : TaskId → Prop} (h : LinksOk freed pool)
    (h' : LinksOk freed' pool') (keep : TaskAwait → Bool) (htasks : pool'.tasks = pool.tasks)
    (hlog : pool'.leaseLog = pool.leaseLog) (hcompleted : pool'.completedLog = pool.completedLog)
    (hsub : ∀ parent taskAwait, taskAwait ∈ bucket pool'.waitsByParent parent ↔
      taskAwait ∈ bucket pool.waitsByParent parent ∧ keep taskAwait = true) :
    Board.Step .unlink pool.board pool'.board := by
  have hboard : pool'.board =
      { pool.board with waits := fun id => (pool.board.waits id).filter keep } := by
    have hwaits : pool'.board.waits = fun id => (pool.board.waits id).filter keep := by
      funext id
      ext taskAwait
      rw [h'.waits_iff, hsub, Option.filter_eq_some_iff, h.waits_iff]
    unfold board at hwaits ⊢
    simp only at hwaits
    simp only [hwaits, htasks, hlog, hcompleted]
  rw [hboard]
  exact Board.Step.unlink keep

theorem Wf.step_removeWaitsForParent (h : Wf wake lease unlisted freed pool)
    (taskId : TaskId) : Board.Step .unlink pool.board (pool.removeWaitsForParent taskId).board := by
  refine h.links.step_unlink (h.removeWaitsForParent taskId).links
    (fun item => item.parentTaskId != taskId) rfl rfl rfl ?_
  intro parent taskAwait
  rw [mem_removeWaitsForParent, bne_iff_ne]
  constructor
  · rintro ⟨hne, hmem⟩
    exact ⟨hmem, by rw [h.links.parent parent taskAwait hmem]; exact fun he => hne he.symm⟩
  · rintro ⟨hmem, hne⟩
    rw [h.links.parent parent taskAwait hmem] at hne
    exact ⟨fun he => hne he.symm, hmem⟩

theorem LinksOk.bucket_unlinkChild (h : LinksOk freed pool) (childTaskId parent : TaskId) :
    bucket (pool.unlinkChild childTaskId).2.waitsByParent parent =
      (bucket pool.waitsByParent parent).filter fun item => item.child.taskId != childTaskId := by
  unfold unlinkChild
  rw [bucket_foldl_shrink (fun taskAwait : TaskAwait => taskAwait.parentTaskId)
    (fun b : List TaskAwait => b.filter fun item => item.child.taskId != childTaskId) rfl
    (fun b => by simp [filter_filter])]
  split
  · rfl
  next hnot =>
    symm
    apply filter_eq_self.2
    intro item hitem
    have hpar := h.parent parent item hitem
    rw [bne_iff_ne]
    rintro rfl
    refine hnot (mem_map.2 ⟨item, (h.mirror _ item).2 ⟨rfl, ?_⟩, hpar⟩)
    rw [hpar]
    exact hitem

theorem LinksOk.mem_unlinkChild (h : LinksOk freed pool) (childTaskId parent : TaskId)
    (taskAwait : TaskAwait) :
    taskAwait ∈ bucket (pool.unlinkChild childTaskId).2.waitsByParent parent ↔
      taskAwait ∈ bucket pool.waitsByParent parent ∧ taskAwait.child.taskId ≠ childTaskId := by
  rw [h.bucket_unlinkChild, mem_filter, bne_iff_ne]

theorem Wf.unlinkChild (h : Wf wake lease unlisted freed pool) (childTaskId : TaskId) :
    Wf wake lease unlisted freed (pool.unlinkChild childTaskId).2 := by
  have hsub := h.links.mem_unlinkChild childTaskId
  refine { h with
    history := { h.history with evicted := { h.history.evicted with } }
    links := ⟨?_, ?_, ?_, ?_, ?_, ?_, ?_, ?_⟩ }
  · exact h.links.prunedChild.erase childTaskId
  · exact h.links.prunedParent.foldl_shrink _ _ (fun _ _ => trivial) _
  · intro parent taskAwait hmem
    exact h.links.parent parent taskAwait ((hsub _ _).1 hmem).1
  · intro parent
    rw [h.links.bucket_unlinkChild]
    exact (length_filter_le _ _).trans (h.links.single parent)
  · intro parent taskAwait hmem
    exact h.links.waiting parent taskAwait ((hsub _ _).1 hmem).1
  · intro parent taskAwait hmem
    exact h.links.child parent taskAwait ((hsub _ _).1 hmem).1
  · intro child taskAwait
    have hchild : taskAwait ∈ bucket (pool.unlinkChild childTaskId).2.waitsByChild child ↔
        childTaskId ≠ child ∧ taskAwait ∈ bucket pool.waitsByChild child := by
      show taskAwait ∈ bucket (pool.waitsByChild.erase childTaskId) child ↔ _
      rw [bucket_erase]
      split <;> simp_all [Bucket.empty]
    rw [hchild, h.links.mirror, hsub]
    constructor
    · rintro ⟨hne, rfl, hp⟩
      exact ⟨rfl, hp, fun he => hne he.symm⟩
    · rintro ⟨rfl, hp, hne⟩
      exact ⟨fun he => hne he.symm, rfl, hp⟩
  · intro child
    show (bucket (pool.waitsByChild.erase childTaskId) child).Nodup
    rw [bucket_erase]
    split
    · exact nodup_nil
    · exact h.links.nodup child

theorem Wf.step_unlinkChild (h : Wf wake lease unlisted freed pool) (childTaskId : TaskId) :
    Board.Step .unlink pool.board (pool.unlinkChild childTaskId).2.board := by
  refine h.links.step_unlink (h.unlinkChild childTaskId).links
    (fun item => item.child.taskId != childTaskId) rfl rfl rfl ?_
  intro parent taskAwait
  rw [h.links.mem_unlinkChild, bne_iff_ne]

theorem mem_linkAwait_parent (pool : TaskPool) (parentTaskId parent : TaskId)
    (taskAwait item : TaskAwait) :
    item ∈ bucket (pool.linkAwait parentTaskId taskAwait).waitsByParent parent ↔
      item ∈ bucket pool.waitsByParent parent ∨ (parentTaskId = parent ∧ item = taskAwait) := by
  show item ∈ bucket (upsert pool.waitsByParent parentTaskId (· ++ [taskAwait])) parent ↔ _
  rw [bucket_upsert]
  split <;> simp_all

theorem Wf.linkAwait (h : Wf wake lease unlisted freed pool) (taskAwait : TaskAwait)
    (hnone : bucket pool.waitsByParent taskAwait.parentTaskId = [])
    (hwaiting : ∃ r, pool.tasks[taskAwait.parentTaskId]? = some r ∧ r.status = .waiting)
    (hchild : ∃ r, pool.tasks[taskAwait.child.taskId]? = some r) :
    Wf wake lease unlisted freed (pool.linkAwait taskAwait.parentTaskId taskAwait) := by
  have hsub := mem_linkAwait_parent pool taskAwait.parentTaskId
  have hfresh : ∀ child, taskAwait ∉ bucket pool.waitsByChild child := by
    intro child hmem
    have hp := ((h.links.mirror child taskAwait).1 hmem).2
    rw [hnone] at hp
    cases hp
  refine { h with
    history := { h.history with evicted := { h.history.evicted with } }
    links := ⟨?_, ?_, ?_, ?_, ?_, ?_, ?_, ?_⟩ }
  · exact h.links.prunedChild.upsert _ _ (by simp [Bucket.empty]) trivial
  · exact h.links.prunedParent.upsert _ _ (by simp [Bucket.empty]) trivial
  · intro parent item hmem
    rcases (hsub _ _ _).1 hmem with hmem | ⟨rfl, rfl⟩
    · exact h.links.parent parent item hmem
    · rfl
  · intro parent
    show (bucket (upsert pool.waitsByParent taskAwait.parentTaskId (· ++ [taskAwait]))
      parent).length ≤ 1
    rw [bucket_upsert]
    split
    · next he => subst he; simp [hnone]
    · exact h.links.single parent
  · intro parent item hmem hne
    rcases (hsub _ _ _).1 hmem with hmem | ⟨rfl, -⟩
    · exact h.links.waiting parent item hmem hne
    · exact hwaiting
  · intro parent item hmem
    rcases (hsub _ _ _).1 hmem with hmem | ⟨-, rfl⟩
    · exact h.links.child parent item hmem
    · exact hchild
  · intro child item
    have hmem : item ∈ bucket (pool.linkAwait taskAwait.parentTaskId taskAwait).waitsByChild
        child ↔ item ∈ bucket pool.waitsByChild child ∨
          (taskAwait.child.taskId = child ∧ item = taskAwait) := by
      show item ∈ bucket (upsert pool.waitsByChild taskAwait.child.taskId (· ++ [taskAwait]))
        child ↔ _
      rw [bucket_upsert]
      split <;> simp_all
    rw [hmem, h.links.mirror, hsub]
    constructor
    · rintro (⟨hc, hp⟩ | ⟨hc, rfl⟩)
      · exact ⟨hc, .inl hp⟩
      · exact ⟨hc, .inr ⟨rfl, rfl⟩⟩
    · rintro ⟨hc, hp | ⟨-, rfl⟩⟩
      · exact .inl ⟨hc, hp⟩
      · exact .inr ⟨hc, rfl⟩
  · intro child
    show (bucket (upsert pool.waitsByChild taskAwait.child.taskId (· ++ [taskAwait])) child).Nodup
    rw [bucket_upsert]
    split
    · refine nodup_append.2 ⟨h.links.nodup _, nodup_singleton _, ?_⟩
      rintro item hitem _ hmem rfl
      rw [mem_singleton] at hmem
      subst hmem
      exact hfresh _ hitem
    · exact h.links.nodup child

theorem step_linkAwait (taskAwait : TaskAwait) {child : TaskRecord}
    (hnone : bucket pool.waitsByParent taskAwait.parentTaskId = [])
    (hchild : pool.tasks[taskAwait.child.taskId]? = some child)
    (hprotocol : child.task.protocolId = taskAwait.child.protocolId)
    (hlive : isTerminalStatus child.status = false) :
    Board.Step (.link taskAwait) pool.board
      (pool.linkAwait taskAwait.parentTaskId taskAwait).board := by
  have hboard : (pool.linkAwait taskAwait.parentTaskId taskAwait).board = { pool.board with
        waits := Function.update pool.board.waits taskAwait.parentTaskId (some taskAwait) } := by
    have hwaits : (fun id => (bucket (upsert pool.waitsByParent taskAwait.parentTaskId
        (· ++ [taskAwait])) id).head?) = Function.update
          (fun id => (bucket pool.waitsByParent id).head?) taskAwait.parentTaskId
          (some taskAwait) := by
      funext id
      rw [bucket_upsert, Function.update_apply]
      by_cases he : taskAwait.parentTaskId = id
      · rw [if_pos he, if_pos he.symm, hnone]
        rfl
      · rw [if_neg he, if_neg fun he' => he he'.symm]
    unfold board linkAwait
    simp only [hwaits]
  rw [hboard]
  exact Board.Step.link taskAwait hchild hprotocol hlive

/-! ## Bounded history -/

theorem mem_foldl_erase (xs : List TaskId) (ids : ExtTreeSet TaskId) (id : TaskId) :
    id ∈ xs.foldl (·.erase ·) ids ↔ id ∈ ids ∧ id ∉ xs := by
  induction xs generalizing ids with
  | nil => simp
  | cons x xs ih =>
    rw [foldl_cons, ih, ExtTreeSet.mem_erase, ne_eq, Std.compare_eq_iff_eq, mem_cons]
    constructor
    · rintro ⟨⟨hne, hmem⟩, hxs⟩
      exact ⟨hmem, fun h => h.elim (fun he => hne he.symm) hxs⟩
    · rintro ⟨hmem, hnot⟩
      exact ⟨⟨fun he => hnot (.inl he.symm), hmem⟩, fun h => hnot (.inr h)⟩

/-- Trimming keeps the newest evicted ids, in the set as in the order. -/
theorem EvictedOk.trim (h : EvictedOk pool) (capacity : Nat) :
    EvictedOk (pool.trimEvictedTaskIds capacity) := by
  have hsplit := take_append_drop (pool.evictedTaskOrder.length - capacity) pool.evictedTaskOrder
  refine ⟨h.once.sublist (drop_sublist _ _), ?_, fun id hmem => h.gone id (mem_of_mem_drop hmem)⟩
  intro id
  show id ∈ (pool.evictedTaskOrder.take _).foldl (·.erase ·) pool.evictedTaskIds ↔
    id ∈ pool.evictedTaskOrder.drop _
  rw [mem_foldl_erase, h.ids]
  have hnd := h.once
  rw [← hsplit, nodup_append] at hnd
  constructor
  · rintro ⟨hmem, hnot⟩
    rw [← hsplit, mem_append] at hmem
    exact hmem.resolve_left hnot
  · intro hmem
    exact ⟨mem_of_mem_drop hmem, fun htake => hnd.2.2 id htake id hmem rfl⟩

theorem length_trimEvictedTaskIds (capacity : Nat) :
    (pool.trimEvictedTaskIds capacity).evictedTaskOrder.length ≤ capacity := by
  show (pool.evictedTaskOrder.drop _).length ≤ _
  rw [length_drop]
  omega

theorem EvictedOk.remember (h : EvictedOk pool) (capacity : Nat)
    (hgone : pool.tasks[taskId]? = none) (hnew : taskId ∉ pool.evictedTaskOrder) :
    EvictedOk (pool.rememberEvictedTaskId taskId capacity) := by
  unfold rememberEvictedTaskId
  split
  · exact h
  · apply EvictedOk.trim
    refine ⟨?_, ?_, ?_⟩
    · refine nodup_append.2 ⟨h.once, nodup_singleton _, ?_⟩
      rintro id hid _ hmem rfl
      rw [mem_singleton] at hmem
      exact hnew (hmem ▸ hid)
    · intro id
      rw [ExtTreeSet.mem_insert, Std.compare_eq_iff_eq, h.ids, mem_append,
        mem_singleton, eq_comm, or_comm]
    · exact forall_mem_append.2 ⟨h.gone, forall_mem_singleton.2 hgone⟩

theorem length_rememberEvictedTaskId (taskId : TaskId) (capacity : Nat)
    (h : pool.evictedTaskOrder.length ≤ capacity) :
    (pool.rememberEvictedTaskId taskId capacity).evictedTaskOrder.length ≤ capacity := by
  unfold rememberEvictedTaskId
  split
  · exact h
  · exact length_trimEvictedTaskIds capacity

/-- The pool after the head of the history has been evicted. -/
def evictHead (pool : TaskPool) (taskId : TaskId) (rest : List TaskId) (r : TaskRecord)
    (retention : TaskHistoryRetention) : TaskPool :=
  { pool with terminalOrder := rest }.evictRecord taskId r.status retention

theorem evictHead_fields (rest : List TaskId) (retention : TaskHistoryRetention)
    (hr : pool.tasks[taskId]? = some r) :
    let pool' := pool.evictHead taskId rest r retention
    pool'.tasks = pool.tasks.erase taskId ∧ pool'.indexes = pool.indexes.updateRecord r false ∧
      pool'.payloadWireBytes = pool.payloadWireBytes.erase taskId ∧
      pool'.terminalOrder = rest ∧ pool'.historyRetention = pool.historyRetention ∧
      pool'.waitsByChild = pool.waitsByChild ∧ pool'.waitsByParent = pool.waitsByParent ∧
      pool'.leaseLog = pool.leaseLog ∧ pool'.completedLog = pool.completedLog := by
  unfold evictHead evictRecord rememberEvictedTaskId updateRecordIndexes
  simp only [hr]
  split <;> exact ⟨rfl, rfl, rfl, rfl, rfl, rfl, rfl, rfl, rfl⟩

theorem evictHead_evicted (rest : List TaskId) (retention : TaskHistoryRetention)
    (hr : pool.tasks[taskId]? = some r) (h : EvictedOk pool) :
    EvictedOk (pool.evictHead taskId rest r retention) := by
  unfold evictHead evictRecord
  apply EvictedOk.remember
  · simp only [updateRecordIndexes, hr]
    refine ⟨h.once, h.ids, fun id hmem => ?_⟩
    rw [getElem?_erase_ite]
    split
    · rfl
    · exact h.gone id hmem
  · simp [updateRecordIndexes, hr]
  · simp only [updateRecordIndexes, hr]
    intro hmem
    have hgone := h.gone taskId hmem
    rw [hr] at hgone
    cases hgone

theorem length_evictHead (rest : List TaskId) (hr : pool.tasks[taskId]? = some r)
    (h : pool.evictedTaskOrder.length ≤ retention.maxEvictedTaskIds) :
    (pool.evictHead taskId rest r retention).evictedTaskOrder.length ≤
      retention.maxEvictedTaskIds := by
  unfold evictHead evictRecord
  apply length_rememberEvictedTaskId
  simpa [updateRecordIndexes, hr] using h

theorem LinksOk.of_not_isLinked (h : LinksOk freed pool) (hl : pool.isLinked taskId = false) :
    bucket pool.waitsByParent taskId = [] ∧
      ∀ parent taskAwait, taskAwait ∈ bucket pool.waitsByParent parent →
        taskAwait.child.taskId ≠ taskId := by
  unfold isLinked at hl
  rw [Bool.or_eq_false_iff] at hl
  have hbucket : ∀ {m : ExtTreeMap TaskId (List TaskAwait)} {id : TaskId},
      m.contains id = false → bucket m id = [] := by
    intro m id hid
    refine bucket_of_none m id (ExtTreeMap.getElem?_eq_none ?_)
    rw [ExtTreeMap.mem_iff_contains, hid]
    simp
  refine ⟨hbucket hl.2, ?_⟩
  rintro parent taskAwait hmem rfl
  have hchild := (h.mirror _ taskAwait).2 ⟨rfl, by
    rw [h.parent parent taskAwait hmem]; exact hmem⟩
  rw [hbucket hl.1] at hchild
  cases hchild

theorem Wf.evictHead (h : Wf wake lease unlisted freed pool) {rest : List TaskId}
    (hret : pool.historyRetention = some retention)
    (horder : pool.terminalOrder = taskId :: rest) (hl : pool.isLinked taskId = false)
    (hr : pool.tasks[taskId]? = some r) :
    Wf wake lease unlisted freed (pool.evictHead taskId rest r retention) := by
  obtain ⟨ht, hi, hp, ho, hh, hc, hw, -⟩ := evictHead_fields rest retention hr
  obtain ⟨hnone, hfree⟩ := h.links.of_not_isLinked hl
  have hid := h.keyed taskId r hr
  have hnd := h.history.nodup
  rw [horder, nodup_cons] at hnd
  have hget : ∀ id : TaskId, (pool.evictHead taskId rest r retention).tasks[id]? =
      if taskId = id then none else pool.tasks[id]? := by
    intro id
    rw [ht, getElem?_erase_ite]
  refine ⟨?_, ?_, ?_, ?_, ⟨?_, ?_, ?_, ?_, ?_, ?_⟩, ⟨?_, ?_, ?_, ?_, ?_, ?_, ?_, ?_⟩⟩
  · intro id v hv
    rw [hget] at hv
    split at hv
    · cases hv
    · exact h.keyed id v hv
  · intro id v hv
    rw [hget] at hv
    split at hv
    · cases hv
    · exact h.records id v hv
  · rw [hi, ht]
    subst hid
    exact h.indexes.remove hr
  · intro id
    rw [hp, ht, ExtTreeMap.mem_erase, ExtTreeMap.mem_erase, h.wireBytes]
  · rw [ho]; exact hnd.2
  · intro hsome id
    rw [hh] at hsome
    have hiff := h.history.listed hsome id
    rw [horder, mem_cons] at hiff
    rw [ho, hget]
    by_cases he : taskId = id
    · subst he
      simp [hnd.1]
    · rw [if_neg he, ← hiff]
      constructor
      · exact Or.inr
      · rintro (he' | hmem)
        · exact absurd he'.symm he
        · exact hmem
  · intro id hun
    rw [hget, if_neg]
    · exact h.history.stored id hun
    · rintro rfl
      exact ((h.history.listed (by simp [hret]) taskId).1 (by simp [horder])).1 hun
  · intro hn
    rw [hh, hret] at hn
    cases hn
  · exact evictHead_evicted rest retention hr h.history.evicted
  · intro retention' hret'
    rw [hh, hret] at hret'
    cases hret'
    exact length_evictHead rest hr (h.history.capacity retention hret)
  · rw [hc]; exact h.links.prunedChild
  · rw [hw]; exact h.links.prunedParent
  · rw [hw]; exact h.links.parent
  · rw [hw]; exact h.links.single
  · intro parent taskAwait hmem hne
    rw [hw] at hmem
    rw [hget, if_neg]
    · exact h.links.waiting parent taskAwait hmem hne
    · rintro rfl
      rw [hnone] at hmem
      cases hmem
  · intro parent taskAwait hmem
    rw [hw] at hmem
    rw [hget, if_neg fun he => hfree parent taskAwait hmem he.symm]
    exact h.links.child parent taskAwait hmem
  · rw [hc, hw]; exact h.links.mirror
  · rw [hc]; exact h.links.nodup

theorem Wf.step_evictHead (h : Wf wake lease unlisted freed pool) (rest : List TaskId)
    (retention : TaskHistoryRetention) (hl : pool.isLinked taskId = false)
    (hr : pool.tasks[taskId]? = some r) (hterm : isTerminalStatus r.status = true) :
    Board.Step (.forget taskId) pool.board (pool.evictHead taskId rest r retention).board := by
  obtain ⟨ht, -, -, -, -, -, hw, hlog, hcompleted⟩ := evictHead_fields rest retention hr
  obtain ⟨hnone, hfree⟩ := h.links.of_not_isLinked hl
  have hboard : (pool.evictHead taskId rest r retention).board =
      { pool.board with tasks := Function.update pool.board.tasks taskId none } := by
    have htasks : (fun id => (pool.tasks.erase taskId)[id]?) =
        Function.update (fun id => pool.tasks[id]?) taskId none := by
      funext id
      rw [getElem?_erase_ite, Function.update_apply]
      by_cases he : taskId = id
      · simp [he]
      · rw [if_neg he, if_neg fun he' => he he'.symm]
    unfold board
    simp only [ht, hw, hlog, hcompleted, htasks]
  rw [hboard]
  refine Board.Step.forget hr hterm ?_ ?_
  · show (bucket pool.waitsByParent taskId).head? = none
    rw [hnone]; rfl
  · intro parent taskAwait hmem
    exact hfree parent taskAwait ((h.links.waits_iff parent taskAwait).1 hmem)

theorem Wf.reorder (h : Wf wake lease unlisted freed pool) {order : List TaskId}
    (hperm : order.Perm pool.terminalOrder) :
    Wf wake lease unlisted freed { pool with terminalOrder := order } := by
  refine ⟨h.keyed, h.records, h.indexes, h.wireBytes,
    ⟨hperm.nodup_iff.2 h.history.nodup, ?_, h.history.stored, ?_,
      { h.history.evicted with },
      h.history.capacity⟩, { h.links with }⟩
  · intro hsome id
    exact hperm.mem_iff.trans (h.history.listed hsome id)
  · intro hnone
    obtain ⟨ho, he⟩ := h.history.unbounded hnone
    rw [ho] at hperm
    exact ⟨hperm.eq_nil, he⟩

theorem Wf.queue (h : Wf wake lease unlisted freed pool) (hsome : pool.historyRetention.isSome)
    (hun : unlisted taskId) :
    Wf wake lease (without unlisted taskId) freed
      { pool with terminalOrder := pool.terminalOrder ++ [taskId] } := by
  have hnot : taskId ∉ pool.terminalOrder := fun hmem =>
    ((h.history.listed hsome taskId).1 hmem).1 hun
  refine ⟨h.keyed, h.records, h.indexes, h.wireBytes,
    ⟨?_, ?_, fun id hid => h.history.stored id hid.1, ?_, { h.history.evicted with },
      h.history.capacity⟩,
    { h.links with }⟩
  · refine nodup_append.2 ⟨h.history.nodup, nodup_singleton _, ?_⟩
    rintro id hid _ hmem rfl
    rw [mem_singleton] at hmem
    exact hnot (hmem ▸ hid)
  · intro _ id
    show id ∈ pool.terminalOrder ++ [taskId] ↔ _
    rw [mem_append, mem_singleton, h.history.listed hsome]
    constructor
    · rintro (⟨hnu, hv⟩ | rfl)
      · exact ⟨fun hw => hnu hw.1, hv⟩
      · exact ⟨fun hw => hw.2 rfl, h.history.stored id hun⟩
    · rintro ⟨hnw, hv⟩
      by_cases he : id = taskId
      · exact .inr he
      · exact .inl ⟨fun hu => hnw ⟨hu, he⟩, hv⟩
  · intro hnone
    rw [show pool.historyRetention = none from hnone] at hsome
    cases hsome

theorem Wf.unqueued (h : Wf wake lease unlisted freed pool) (taskId : TaskId)
    (hnone : pool.historyRetention = none) :
    Wf wake lease (without unlisted taskId) freed pool := by
  refine ⟨h.keyed, h.records, h.indexes, h.wireBytes,
    ⟨h.history.nodup, ?_, fun id hid => h.history.stored id hid.1, h.history.unbounded,
      h.history.evicted, h.history.capacity⟩, h.links⟩
  intro hsome
  rw [hnone] at hsome
  cases hsome

/-! ## Runs -/

/-- The invariant, and a run of allowed moves from a starting board. -/
structure Tracks (wake lease unlisted freed : TaskId → Prop) (allowed : Move → Prop) (b : Board)
    (pool : TaskPool) : Prop where
  wf : Wf wake lease unlisted freed pool
  reach : Board.Reach allowed b pool.board

variable {allowed : Move → Prop} {b : Board}

theorem Tracks.withStatistics (h : Tracks wake lease unlisted freed allowed b pool)
    (statistics : TaskPoolStatistics) :
    Tracks wake lease unlisted freed allowed b { pool with statistics } :=
  ⟨h.wf.withStatistics statistics, h.reach⟩

/-- The runs of the `while` loop that end because its condition fails, without fuel. -/
inductive LoopEnds (retention : TaskHistoryRetention) : Nat → TaskPool → TaskPool → Prop where
  | stop {examined pool}
      (hstop : ¬(retention.maxTerminalRecords < pool.terminalOrder.length ∧
        examined < pool.terminalOrder.length)) :
      LoopEnds retention examined pool pool
  | rotate {examined pool pool' taskId rest}
      (hgo : retention.maxTerminalRecords < pool.terminalOrder.length ∧
        examined < pool.terminalOrder.length)
      (horder : pool.terminalOrder = taskId :: rest) (hl : pool.isLinked taskId = true)
      (h : LoopEnds retention (examined + 1)
        { pool with terminalOrder := rest ++ [taskId] } pool') :
      LoopEnds retention examined pool pool'
  | evict {examined pool pool' taskId rest r}
      (hgo : retention.maxTerminalRecords < pool.terminalOrder.length ∧
        examined < pool.terminalOrder.length)
      (horder : pool.terminalOrder = taskId :: rest) (hl : pool.isLinked taskId = false)
      (hr : pool.tasks[taskId]? = some r)
      (h : LoopEnds retention 0 (pool.evictHead taskId rest r retention) pool') :
      LoopEnds retention examined pool pool'

variable {retention : TaskHistoryRetention}

/-- With fuel for a whole turn of the queue per eviction the loop ends on its own. -/
theorem compactLoop_ends (fuel examined : Nat) (hret : pool.historyRetention = some retention)
    (h : Wf wake lease unlisted freed pool)
    (hfuel : pool.terminalOrder.length * pool.terminalOrder.length +
      (pool.terminalOrder.length - examined) ≤ fuel) :
    wp (compactLoop retention fuel examined) (fun _ => LoopEnds retention examined pool)
      (fun _ _ => False) pool := by
  induction fuel generalizing examined pool with
  | zero =>
    have hzero : pool.terminalOrder.length * pool.terminalOrder.length = 0 := by omega
    have hempty : pool.terminalOrder.length = 0 := by simpa using hzero
    exact .stop (by omega)
  | succ fuel ih =>
    unfold compactLoop
    rw [wp_bind, wp_read, wp_ite]
    refine ⟨fun hgo => ?_, fun hstop => .stop hstop⟩
    cases horder : pool.terminalOrder with
    | nil => simp [horder] at hgo
    | cons taskId rest =>
      obtain ⟨-, r, hr, -⟩ := (h.history.listed (by simp [hret]) taskId).1 (by simp [horder])
      have hlength : rest.length + 1 = pool.terminalOrder.length := by rw [horder, length_cons]
      simp only [hr]
      rw [wp_ite]
      refine ⟨fun hl => ?_, fun hl => ?_⟩
      · rw [wp_bind, wp_update]
        have hperm : (rest ++ [taskId]).Perm pool.terminalOrder := by
          rw [horder]
          exact perm_append_comm
        refine wp_total (ih (examined + 1) hret (h.reorder hperm) ?_)
          fun _ _ hends => .rotate hgo horder hl hends
        rw [hperm.length_eq]
        omega
      · rw [Bool.not_eq_true] at hl
        rw [wp_bind, wp_update, wp_bind, wp_update]
        obtain ⟨-, -, -, ho, hh, -⟩ := evictHead_fields rest retention hr
        -- the fuel of a turn has paid for the eviction
        have hless : (pool.evictHead taskId rest r retention).terminalOrder.length *
            (pool.evictHead taskId rest r retention).terminalOrder.length +
              (pool.evictHead taskId rest r retention).terminalOrder.length ≤ fuel := by
          have hsquare : (rest.length + 1) * (rest.length + 1) =
            rest.length * rest.length + rest.length + rest.length + 1 := by ring
          have hturn := hgo.2
          rw [← hlength] at hfuel hturn
          rw [ho]
          omega
        exact wp_total (ih 0 (hh.trans hret) (h.evictHead hret horder hl hr) hless)
          fun _ _ hends => .evict hgo horder hl hr hends

theorem compactTerminalHistory_ends (hret : pool.historyRetention = some retention)
    (h : Wf wake lease unlisted freed pool) :
    wp compactTerminalHistory (fun _ => LoopEnds retention 0 pool) (fun _ _ => False) pool := by
  unfold compactTerminalHistory
  rw [wp_bind, wp_read, hret]
  refine compactLoop_ends _ 0 hret h ?_
  unfold compactFuel
  rw [Nat.mul_add]
  omega

theorem LoopEnds.tracks {examined : Nat} (hends : LoopEnds retention examined pool pool')
    (hforget : ∀ id, allowed (.forget id)) (hret : pool.historyRetention = some retention)
    (h : Tracks wake lease unlisted freed allowed b pool) :
    Tracks wake lease unlisted freed allowed b pool' := by
  induction hends with
  | stop => exact h
  | rotate _ horder _ _ ih =>
    refine ih hret ⟨h.wf.reorder ?_, h.reach⟩
    rw [horder]
    exact perm_append_comm
  | @evict _ pool _ taskId rest r _ horder hl hr _ ih =>
    have hlisted := (h.wf.history.listed (by simp [hret]) taskId).1 (by simp [horder])
    obtain ⟨-, -, -, -, hh, -⟩ := evictHead_fields rest retention hr
    have hterm : isTerminalStatus r.status = true := by simpa [hr] using hlisted.2
    exact ih (hh.trans hret) ⟨h.wf.evictHead hret horder hl hr,
      h.reach.step (hforget taskId) (h.wf.step_evictHead rest retention hl hr hterm)⟩

theorem compactTerminalHistory_tracks (hforget : ∀ id, allowed (.forget id))
    (h : Tracks wake lease unlisted freed allowed b pool) :
    wp compactTerminalHistory
      (fun _ => Tracks wake lease unlisted freed allowed b) (fun _ _ => False) pool := by
  cases hret : pool.historyRetention with
  | none =>
    unfold compactTerminalHistory
    rw [wp_bind, wp_read, hret]
    exact h
  | some retention =>
    exact wp_total (compactTerminalHistory_ends hret h.wf)
      fun _ _ hends => hends.tracks hforget hret h

theorem recordTerminalTask_tracks (taskId : TaskId) (hforget : ∀ id, allowed (.forget id))
    (h : Tracks wake lease unlisted freed allowed b pool) (hun : unlisted taskId) :
    wp (recordTerminalTask taskId)
      (fun _ => Tracks wake lease (without unlisted taskId) freed allowed b) (fun _ _ => False)
      pool := by
  unfold recordTerminalTask
  rw [wp_bind, wp_read, wp_ite]
  constructor
  · intro hsome
    rw [wp_bind, wp_update]
    exact compactTerminalHistory_tracks hforget ⟨h.wf.queue hsome hun, h.reach⟩
  · intro hnone
    exact ⟨h.wf.unqueued taskId (by simpa using hnone), h.reach⟩

end Edits

end TaskPool

end MutsukiRuntime
