/-
  WHAT COMPACTION EVICTS.

  `compact_terminal_history` turns the queue of terminal records until it fits, and
  puts a record that is still linked back at its end.  `Compacted`: the records that go
  are the oldest unlinked ones, as many as the queue is too long by, and all others
  stay.  The loop ends on its own (`compactLoop_ends`), and all the while the last
  `examined` entries of the queue are linked.
-/
import MutsukiRuntime.Core.TaskPool.Operations

namespace MutsukiRuntime

open Std Buckets Prog List

namespace TaskPool

variable {wake lease unlisted freed : TaskId → Prop} {pool pool' : TaskPool}

/-- The terminal records that may be evicted, oldest first. -/
def unlinkedHistory (pool : TaskPool) : List TaskId :=
  pool.terminalOrder.filter fun id => !pool.isLinked id

/-- How many terminal records must stay because they are linked. -/
def linkedHistory (pool : TaskPool) : Nat := pool.terminalOrder.countP pool.isLinked

theorem length_terminalOrder (pool : TaskPool) :
    pool.terminalOrder.length = pool.linkedHistory + pool.unlinkedHistory.length := by
  unfold linkedHistory unlinkedHistory
  rw [← countP_eq_length_filter]
  have hsplit := length_eq_countP_add_countP pool.isLinked (l := pool.terminalOrder)
  simpa using hsplit

/-- The records a history of `keep` entries is too long by. -/
def evicts (keep : Nat) (pool : TaskPool) : List TaskId :=
  pool.unlinkedHistory.take (pool.terminalOrder.length - keep)

/-- What compaction to `keep` entries makes of a pool. -/
structure Compacted (keep : Nat) (pool pool' : TaskPool) : Prop where
  tasks (id : TaskId) :
    pool'.tasks[id]? = if id ∈ pool.evicts keep then none else pool.tasks[id]?
  unlinked :
    pool'.unlinkedHistory = pool.unlinkedHistory.drop (pool.terminalOrder.length - keep)
  linked : pool'.linkedHistory = pool.linkedHistory
  isLinked : pool'.isLinked = pool.isLinked
  historyRetention : pool'.historyRetention = pool.historyRetention

/-- A queue that fits, or holds only linked records, is left alone. -/
theorem Compacted.refl {keep : Nat}
    (h : pool.terminalOrder.length ≤ keep ∨ pool.unlinkedHistory = []) :
    Compacted keep pool pool := by
  have hnone : pool.evicts keep = [] ∧
      pool.unlinkedHistory.drop (pool.terminalOrder.length - keep) = pool.unlinkedHistory := by
    unfold evicts
    rcases h with hfits | hlinked
    · simp [Nat.sub_eq_zero_of_le hfits]
    · simp [hlinked]
  exact ⟨fun id => by simp [hnone.1], hnone.2.symm, rfl, rfl, rfl⟩

theorem Compacted.fits {keep : Nat} (h : Compacted keep pool pool') :
    pool'.terminalOrder.length ≤ keep ∨ pool'.unlinkedHistory = [] := by
  have hbefore := pool.length_terminalOrder
  have hafter := pool'.length_terminalOrder
  rw [h.linked, h.unlinked, length_drop] at hafter
  by_cases hroom : pool.linkedHistory ≤ keep
  · left
    omega
  · right
    rw [h.unlinked]
    exact drop_eq_nil_of_le (by omega)

variable {taskId : TaskId}

/-- A linked record that goes to the back changes nothing that matters. -/
theorem Compacted.of_rotate {keep : Nat} {rest : List TaskId}
    (horder : pool.terminalOrder = taskId :: rest) (hl : pool.isLinked taskId = true)
    (h : Compacted keep { pool with terminalOrder := rest ++ [taskId] } pool') :
    Compacted keep pool pool' := by
  have hlength : (rest ++ [taskId]).length = pool.terminalOrder.length := by
    rw [horder]
    simp
  have hunlinked : ({ pool with terminalOrder := rest ++ [taskId] } : TaskPool).unlinkedHistory =
      pool.unlinkedHistory := by
    show (rest ++ [taskId]).filter (fun id => !pool.isLinked id) = pool.terminalOrder.filter _
    rw [horder, filter_append]
    simp [hl]
  have hlinked : ({ pool with terminalOrder := rest ++ [taskId] } : TaskPool).linkedHistory =
      pool.linkedHistory := by
    show (rest ++ [taskId]).countP pool.isLinked = pool.terminalOrder.countP _
    rw [horder, countP_append]
    simp [hl]
  refine ⟨fun id => ?_, ?_, h.linked.trans hlinked, h.isLinked, h.historyRetention⟩
  · rw [h.tasks id]
    unfold evicts
    rw [hunlinked, hlength]
  · rw [h.unlinked, hunlinked, hlength]

variable {retention : TaskHistoryRetention} {r : TaskRecord}

theorem Compacted.of_evict {rest : List TaskId} (horder : pool.terminalOrder = taskId :: rest)
    (hlong : retention.maxTerminalRecords < pool.terminalOrder.length)
    (hl : pool.isLinked taskId = false) (hr : pool.tasks[taskId]? = some r)
    (h : Compacted retention.maxTerminalRecords (pool.evictHead taskId rest r retention) pool') :
    Compacted retention.maxTerminalRecords pool pool' := by
  obtain ⟨ht, -, -, ho, hh, hc, hw, -⟩ := evictHead_fields rest retention hr
  have hisLinked : (pool.evictHead taskId rest r retention).isLinked = pool.isLinked := by
    funext id
    unfold TaskPool.isLinked
    rw [hc, hw]
  have hunlinked : pool.unlinkedHistory =
      taskId :: (pool.evictHead taskId rest r retention).unlinkedHistory := by
    unfold unlinkedHistory
    rw [hisLinked, ho, horder]
    simp [hl]
  have hexcess : pool.terminalOrder.length - retention.maxTerminalRecords =
      (pool.evictHead taskId rest r retention).terminalOrder.length -
        retention.maxTerminalRecords + 1 := by
    rw [horder] at hlong ⊢
    rw [ho, length_cons] at *
    omega
  refine ⟨fun id => ?_, ?_, h.linked.trans ?_, h.isLinked.trans hisLinked,
    h.historyRetention.trans hh⟩
  · rw [h.tasks id, ht, getElem?_erase_ite]
    unfold evicts
    rw [hunlinked, hexcess, take_succ_cons]
    simp only [mem_cons]
    by_cases he : taskId = id
    · subst he
      simp
    · have hne : id ≠ taskId := fun h => he h.symm
      simp [he, hne]
  · rw [h.unlinked, hunlinked, hexcess, drop_succ_cons]
  · unfold linkedHistory
    rw [hisLinked, ho, horder]
    simp [hl]

/-- What a run of the loop evicts, if it has just met `examined` linked records. -/
theorem LoopEnds.compacted {examined : Nat} (h : LoopEnds retention examined pool pool')
    (hexamined : ∀ id ∈ pool.terminalOrder.drop (pool.terminalOrder.length - examined),
      pool.isLinked id = true) :
    Compacted retention.maxTerminalRecords pool pool' := by
  induction h with
  | @stop examined pool hstop =>
    -- the queue fits, or a whole turn met only linked records
    rw [not_and_or, Nat.not_lt, Nat.not_lt] at hstop
    refine .refl (hstop.imp_right fun hall => ?_)
    rw [Nat.sub_eq_zero_of_le hall, drop_zero] at hexamined
    refine filter_eq_nil_iff.2 fun id hmem => ?_
    simp [hexamined id hmem]
  | @rotate examined pool pool' taskId rest hgo horder hl _ ih =>
    -- the entries examined and this one are now the last of the queue
    refine .of_rotate horder hl (ih fun id hmem => ?_)
    rw [horder, length_cons] at hexamined hgo
    rw [length_append, length_singleton, Nat.add_sub_add_right,
      drop_append_of_le_length (Nat.sub_le _ _), mem_append, mem_singleton] at hmem
    rcases hmem with hmem | rfl
    · refine hexamined id ?_
      rwa [show rest.length + 1 - examined = rest.length - examined + 1 by omega, drop_succ_cons]
    · exact hl
  | evict hgo horder hl hr _ ih => exact .of_evict horder hgo.1 hl hr (ih (by simp))

theorem compactTerminalHistory_compacts (hret : pool.historyRetention = some retention)
    (h : Wf wake lease unlisted freed pool) :
    wp compactTerminalHistory
      (fun _ pool' => Compacted retention.maxTerminalRecords pool pool' ∧
        Wf wake lease unlisted freed pool' ∧ LoopEnds retention 0 pool pool')
      (fun _ _ => False) pool := by
  refine wp_total (compactTerminalHistory_ends hret h) fun _ pool' hends => ?_
  have hstart : Tracks wake lease unlisted freed (fun _ => True) pool.board pool := ⟨h, .refl⟩
  exact ⟨hends.compacted (by simp), (hends.tracks (fun _ => trivial) hret hstart).wf, hends⟩

/-- Compaction ends, and then the queue, which lists every terminal record but those `unlisted`
    once, fits or holds only linked records. -/
def CompactionEnds (retention : TaskHistoryRetention) (unlisted : TaskId → Prop)
    (pool : TaskPool) : Prop :=
  ∃ pool', compactTerminalHistory.run pool = (.ok (), pool') ∧ LoopEnds retention 0 pool pool' ∧
    pool'.terminalOrder.Nodup ∧
    (∀ id, id ∈ pool'.terminalOrder ↔
      ¬ unlisted id ∧ ∃ r, pool'.tasks[id]? = some r ∧ isTerminalStatus r.status = true) ∧
    (pool'.terminalOrder.length ≤ retention.maxTerminalRecords ∨
      ∀ id ∈ pool'.terminalOrder, pool'.isLinked id = true)

theorem Wf.compactionEnds (h : Wf wake lease unlisted freed pool)
    (hret : pool.historyRetention = some retention) : CompactionEnds retention unlisted pool := by
  rcases wp_outcome (compactTerminalHistory_compacts hret h) with
    ⟨⟨⟩, pool', hrun, hc, hwf, hends⟩ | ⟨_, _, _, hf⟩
  · have hsome : pool'.historyRetention.isSome = true := by rw [hc.historyRetention, hret]; rfl
    refine ⟨pool', hrun, hends, hwf.history.nodup, hwf.history.listed hsome, ?_⟩
    refine hc.fits.imp_right fun hnone id hid => ?_
    have hall := filter_eq_nil_iff.1 hnone id hid
    simpa using hall
  · exact hf.elim

/-- The pool of which `reject_ready` compacts the history. -/
def queuedRejection (pool : TaskPool) (taskId : TaskId) (failure : RuntimeError)
    (r : TaskRecord) : TaskPool :=
  { (pool.replaceRecord taskId r (rejected failure r)).countTransition .ready .failed with
    terminalOrder := pool.terminalOrder ++ [taskId] }

section Queued

variable {taskId : TaskId} {r : TaskRecord} {failure : RuntimeError}

theorem unlinkedHistory_queuedRejection (hl : pool.isLinked taskId = false) :
    (pool.queuedRejection taskId failure r).unlinkedHistory = pool.unlinkedHistory ++ [taskId] := by
  show (pool.terminalOrder ++ [taskId]).filter (fun id => !pool.isLinked id) = _
  rw [filter_append]
  simp [unlinkedHistory, hl]

theorem linkedHistory_queuedRejection (hl : pool.isLinked taskId = false) :
    (pool.queuedRejection taskId failure r).linkedHistory = pool.linkedHistory := by
  show (pool.terminalOrder ++ [taskId]).countP pool.isLinked = _
  rw [countP_append]
  simp [linkedHistory, hl]

end Queued

theorem Good.queuedRejection (h : Good pool) (hr : pool.tasks[taskId]? = some r)
    (hs : r.status = .ready) (failure : RuntimeError)
    (hsome : pool.historyRetention.isSome = true) :
    Good (pool.queuedRejection taskId failure r) := by
  have hqueued : Wf noneTaken noneTaken (without (only taskId) taskId) noneTaken
      (pool.queuedRejection taskId failure r) := (h.rejected hr hs failure).queue hsome rfl
  rw [without_only] at hqueued
  exact hqueued

theorem rejectReady_compacts (hret : pool.historyRetention = some retention) (h : Good pool)
    (hr : pool.tasks[taskId]? = some r) (hs : r.status = .ready) (failure : RuntimeError) :
    wp (rejectReady taskId failure)
      (fun _ pool' => Good pool' ∧ Compacted retention.maxTerminalRecords
        (pool.queuedRejection taskId failure r) pool')
      (fun _ _ => False) pool := by
  have hsome : pool.historyRetention.isSome = true := by
    rw [hret]
    rfl
  have hbounded : (pool.queuedRejection taskId failure r).historyRetention = some retention := hret
  rw [wp_rejectReady hr hs]
  unfold recordTerminalTask
  rw [wp_bind, wp_read, wp_ite]
  refine ⟨fun _ => ?_, fun hnone => absurd hsome hnone⟩
  rw [wp_bind, wp_update]
  exact wp_total (compactTerminalHistory_compacts hbounded (h.queuedRejection hr hs failure hsome))
    (fun _ _ hc => ⟨hc.2.1, hc.1⟩)

theorem rejectReady_keeps (hret : pool.historyRetention = none) (h : Good pool)
    (hr : pool.tasks[taskId]? = some r) (hs : r.status = .ready) (failure : RuntimeError) :
    wp (rejectReady taskId failure) (fun _ pool' => Good pool' ∧ pool' =
        (pool.replaceRecord taskId r (rejected failure r)).countTransition .ready .failed)
      (fun _ _ => False) pool := by
  have hgood := (h.rejected hr hs failure).unqueued taskId hret
  rw [without_only] at hgood
  rw [wp_rejectReady hr hs]
  unfold recordTerminalTask
  rw [wp_bind, wp_read, wp_ite]
  refine ⟨fun hsome => ?_, fun _ => ⟨hgood, rfl⟩⟩
  have hnone : pool.historyRetention.isSome = true := hsome
  rw [hret] at hnone
  cases hnone

end TaskPool

end MutsukiRuntime
