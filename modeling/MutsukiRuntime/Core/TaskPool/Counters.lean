/-
  COUNTERS: the statistics of the pool against its records.

  * `CountersOk`: each status counter is the number of records with that status, and every
    submitted task is stored or has been evicted.
-/
import MutsukiRuntime.Core.TaskPool.Runs

namespace MutsukiRuntime

open Std Buckets List

/-! ## Status counters -/

namespace TaskPoolStatistics

/-- The counter of a status. -/
def counter (s : TaskPoolStatistics) : TaskStatus → Nat
  | .created => 0
  | .ready => s.ready
  | .running => s.running
  | .waiting => s.waiting
  | .blocked => s.blocked
  | .completed => s.completed
  | .failed => s.failed
  | .cancelled => s.cancelled
  | .expired => s.expired
  | .deadLetter => s.deadLetter

theorem counter_editCounter (s : TaskPoolStatistics) (edited status : TaskStatus) (f : Nat → Nat)
    (hedited : edited ≠ .created) :
    (s.editCounter edited f).counter status =
      if edited = status then f (s.counter status) else s.counter status := by
  cases edited with
  | created => exact absurd rfl hedited
  | _ => cases status <;> rfl

theorem totals_editCounter (s : TaskPoolStatistics) (edited : TaskStatus) (f : Nat → Nat) :
    (s.editCounter edited f).submittedTotal = s.submittedTotal ∧
      (s.editCounter edited f).terminalRecordsEvicted = s.terminalRecordsEvicted := by
  cases edited <;> exact ⟨rfl, rfl⟩

theorem counter_transition (s : TaskPoolStatistics) {source target : TaskStatus}
    (hsource : source ≠ .created) (htarget : target ≠ .created) (status : TaskStatus) :
    (s.recordStatusTransition (some source) (some target)).counter status =
      if target = status then
        satAdd (if source = status then s.counter status - 1 else s.counter status) 1
      else if source = status then s.counter status - 1 else s.counter status := by
  unfold recordStatusTransition
  dsimp only
  rw [counter_editCounter _ _ _ _ htarget, counter_editCounter _ _ _ _ hsource]

theorem totals_transition (s : TaskPoolStatistics) (source target : TaskStatus) :
    (s.recordStatusTransition (some source) (some target)).submittedTotal = s.submittedTotal ∧
      (s.recordStatusTransition (some source) (some target)).terminalRecordsEvicted =
        s.terminalRecordsEvicted := by
  unfold recordStatusTransition
  dsimp only
  obtain ⟨hsubmitted, hevicted⟩ := totals_editCounter (s.editCounter source (· - 1)) target
    (satAdd · 1)
  exact ⟨hsubmitted.trans (totals_editCounter s source _).1,
    hevicted.trans (totals_editCounter s source _).2⟩

/-- The same status counters, submissions and evictions. -/
structure SameCounts (s s' : TaskPoolStatistics) : Prop where
  counter : ∀ status, s'.counter status = s.counter status
  submitted : s'.submittedTotal = s.submittedTotal
  evicted : s'.terminalRecordsEvicted = s.terminalRecordsEvicted

theorem sameCounts_refl (s : TaskPoolStatistics) : SameCounts s s := ⟨fun _ => rfl, rfl, rfl⟩

theorem sameCounts_recordAttemptFinished (s : TaskPoolStatistics) (lease : TaskLease)
    (currentStep : Nat) : SameCounts s (s.recordAttemptFinished lease currentStep) :=
  ⟨fun status => by cases status <;> rfl, rfl, rfl⟩

end TaskPoolStatistics

namespace TaskPool

/-- The number of records with a status. -/
def statusCount (pool : TaskPool) (status : TaskStatus) : Nat :=
  (recordsOf pool.tasks).countP fun r => decide (r.status = status)

structure CountersOk (pool : TaskPool) : Prop where
  status : ∀ status, status ≠ .created →
    pool.statistics.counter status = pool.statusCount status
  submitted : pool.statistics.submittedTotal =
    (recordsOf pool.tasks).length + pool.statistics.terminalRecordsEvicted

/-- The counters are right unless the number of submissions is at its maximum. -/
structure Counted (pool : TaskPool) : Prop where
  records : ∀ (id : TaskId) r, pool.tasks[id]? = some r → RecordOk r
  counters : pool.statistics.submittedTotal < u64Max → CountersOk pool

/-- Nothing is submitted, and the counters stay right. -/
def Counts (pool pool' : TaskPool) : Prop :=
  pool'.statistics.submittedTotal = pool.statistics.submittedTotal ∧
    (Counted pool → Counted pool')

section Counts

variable {pool pool' : TaskPool}

theorem counts_of_same (htasks : pool'.tasks = pool.tasks)
    (hstatistics : pool.statistics.SameCounts pool'.statistics) : Counts pool pool' := by
  refine ⟨hstatistics.submitted, fun h => ⟨?_, fun hroom => ?_⟩⟩
  · rw [htasks]
    exact h.records
  · rw [hstatistics.submitted] at hroom
    refine ⟨fun status hs => ?_, ?_⟩
    · unfold statusCount
      rw [hstatistics.counter, htasks]
      exact (h.counters hroom).status status hs
    · rw [hstatistics.submitted, htasks, hstatistics.evicted]
      exact (h.counters hroom).submitted

instance : IsPreorder TaskPool Counts where
  refl _ := counts_of_same rfl (TaskPoolStatistics.sameCounts_refl _)
  trans _ _ _ h h' := ⟨h'.1.trans h.1, fun hc => h'.2 (h.2 hc)⟩

variable {tasks : TaskMap} {id : TaskId} {r : TaskRecord}

theorem recordsOf_insert_of_stored (r' : TaskRecord) :
    (recordsOf (tasks.insert id r')).Perm (r' :: recordsOf (tasks.erase id)) := by
  have hself : (tasks.insert id r')[id]? = some r' := by simp
  have herase : (tasks.insert id r').erase id = tasks.erase id := by
    apply ExtTreeMap.ext_getElem?
    intro a
    rw [getElem?_erase_ite, getElem?_erase_ite, getElem?_insert_ite]
    split <;> rfl
  have hperm := recordsOf_perm_erase hself
  rwa [herase] at hperm

theorem counts_replace {r' : TaskRecord} {source target : TaskStatus}
    (hr : pool.tasks[id]? = some r) (hok : RecordOk r → RecordOk r' ∧ r.status = source)
    (htarget : r'.status = target) (htasks : pool'.tasks = pool.tasks.insert id r')
    (hstatistics : (pool.statistics.recordStatusTransition (some source) (some target)).SameCounts
      pool'.statistics) : Counts pool pool' := by
  obtain ⟨hsubmitted, hevicted⟩ := pool.statistics.totals_transition source target
  have hsame := hstatistics.submitted.trans hsubmitted
  refine ⟨hsame, fun h => ?_⟩
  obtain ⟨hok', hsource⟩ := hok (h.records id r hr)
  have hbefore := recordsOf_perm_erase hr
  have hafter : (recordsOf pool'.tasks).Perm (r' :: recordsOf (pool.tasks.erase id)) := by
    rw [htasks]
    exact recordsOf_insert_of_stored r'
  refine ⟨htasks ▸ forall_insert h.records hok', fun hroom => ?_⟩
  · rw [hsame] at hroom
    have hc := h.counters hroom
    have htotal := hc.submitted
    rw [hbefore.length_eq, length_cons] at htotal
    refine ⟨fun status hs => ?_, ?_⟩
    · have hold := hc.status status hs
      have hle : (recordsOf (pool.tasks.erase id)).countP (fun r => decide (r.status = status)) ≤
          (recordsOf (pool.tasks.erase id)).length := countP_le_length
      unfold statusCount at hold ⊢
      rw [hbefore.countP_eq, countP_cons, hsource] at hold
      rw [hafter.countP_eq, countP_cons, htarget, hstatistics.counter,
        TaskPoolStatistics.counter_transition _ (hsource ▸ (h.records id r hr).created)
          (htarget ▸ hok'.created), hold]
      unfold satAdd
      generalize u64Max = bound at hroom ⊢
      by_cases hst : source = status <;> by_cases htt : target = status <;>
        simp only [hst, htt, decide_true, decide_false, if_true, if_false, Bool.false_eq_true] <;>
        omega
    · rw [hsame, htotal, hafter.length_eq, length_cons, hstatistics.evicted, hevicted]

/-! ## The bounded history -/

/-- `update_record_indexes` edits the indexes only. -/
theorem exists_updateRecordIndexes (pool : TaskPool) (taskId : TaskId) (present : Bool) :
    ∃ indexes, pool.updateRecordIndexes taskId present = { pool with indexes } := by
  unfold updateRecordIndexes
  split
  · exact ⟨_, rfl⟩
  · exact ⟨pool.indexes, rfl⟩

/-- What trimming leaves of the evicted ids was there before, or is the id just added. -/
theorem exists_rememberEvictedTaskId (pool : TaskPool) (taskId : TaskId) (capacity : Nat) :
    ∃ evictedTaskIds evictedTaskOrder, pool.rememberEvictedTaskId taskId capacity =
        { pool with evictedTaskIds, evictedTaskOrder } ∧
      ∀ id ∈ evictedTaskIds, id = taskId ∨ id ∈ pool.evictedTaskIds := by
  unfold rememberEvictedTaskId
  split
  · exact ⟨_, _, rfl, fun id hid => .inr hid⟩
  · refine ⟨_, _, rfl, fun id hid => ?_⟩
    have hmem := (mem_foldl_erase _ _ id).1 hid
    rw [ExtTreeSet.mem_insert, Std.compare_eq_iff_eq] at hmem
    exact hmem.1.imp_left Eq.symm

theorem evictRecord_fields (pool : TaskPool) (taskId : TaskId) (status : TaskStatus)
    (retention : TaskHistoryRetention) :
    let pool' := pool.evictRecord taskId status retention
    pool'.tasks = pool.tasks.erase taskId ∧ pool'.nextSequence = pool.nextSequence ∧
      (∀ id ∈ pool'.evictedTaskIds, id = taskId ∨ id ∈ pool.evictedTaskIds) ∧
      pool'.statistics = { pool.statistics.editCounter status (· - 1) with
          terminalRecordsEvicted := satAdd pool.statistics.terminalRecordsEvicted 1 } := by
  obtain ⟨indexes, hindexes⟩ := exists_updateRecordIndexes pool taskId false
  unfold evictRecord
  rw [hindexes]
  dsimp only [TaskPoolStatistics.recordStatusTransition]
  obtain ⟨ids, order, hremember, hids⟩ := exists_rememberEvictedTaskId _ taskId
    retention.maxEvictedTaskIds
  rw [hremember, (TaskPoolStatistics.totals_editCounter _ _ _).2]
  exact ⟨rfl, rfl, hids, rfl⟩

theorem counts_evictRecord {taskId : TaskId} (hr : pool.tasks[taskId]? = some r)
    (retention : TaskHistoryRetention) :
    Counts pool (pool.evictRecord taskId r.status retention) := by
  obtain ⟨htasks, -, -, hstatistics⟩ := evictRecord_fields pool taskId r.status retention
  have hsubmitted : (pool.evictRecord taskId r.status retention).statistics.submittedTotal =
      pool.statistics.submittedTotal := by
    rw [hstatistics]
    exact (TaskPoolStatistics.totals_editCounter _ _ _).1
  refine ⟨hsubmitted, fun h => ⟨fun id v hv => ?_, fun hroom => ?_⟩⟩
  · rw [htasks, getElem?_erase_ite] at hv
    split at hv
    · cases hv
    · exact h.records id v hv
  · rw [hsubmitted] at hroom
    have hc := h.counters hroom
    have hperm := recordsOf_perm_erase hr
    have htotal := hc.submitted
    rw [hperm.length_eq, length_cons] at htotal
    refine ⟨fun status hs => ?_, ?_⟩
    · have hold := hc.status status hs
      have hcounter : (pool.evictRecord taskId r.status retention).statistics.counter status =
          (pool.statistics.editCounter r.status (· - 1)).counter status := by
        rw [hstatistics]
        cases status <;> rfl
      unfold statusCount at hold ⊢
      rw [hperm.countP_eq, countP_cons] at hold
      rw [hcounter, TaskPoolStatistics.counter_editCounter _ _ _ _ (h.records _ r hr).created,
        htasks, hold]
      by_cases hst : r.status = status <;> simp [hst]
    · rw [hsubmitted, htotal, htasks, hstatistics]
      unfold satAdd
      generalize u64Max = bound at hroom ⊢
      dsimp only
      omega

/-! ## All records at once -/

theorem exists_of_mem_recordsOf (h : r ∈ recordsOf tasks) : ∃ id : TaskId, tasks[id]? = some r := by
  obtain ⟨entry, hentry, rfl⟩ := mem_map.1 h
  exact ⟨entry.1, ExtTreeMap.mem_toList_iff_getElem?_eq_some.1 hentry⟩

theorem recordsOf_map (tasks : TaskMap) (f : TaskRecord → TaskRecord) :
    recordsOf (tasks.map fun _ r => f r) = (recordsOf tasks).map f := by
  unfold recordsOf
  rw [ExtTreeMap.toList_map, map_map, map_map]
  rfl

theorem counts_map {f : TaskRecord → TaskRecord} (hok : ∀ r, RecordOk r → RecordOk (f r))
    (htasks : pool'.tasks = pool.tasks.map fun _ r => f r)
    (hsubmitted : pool'.statistics.submittedTotal = pool.statistics.submittedTotal)
    (hevicted : pool'.statistics.terminalRecordsEvicted = pool.statistics.terminalRecordsEvicted)
    (hcounter : Counted pool → pool.statistics.submittedTotal < u64Max → ∀ status,
      status ≠ .created → pool'.statistics.counter status =
        (recordsOf pool.tasks).countP fun r => decide ((f r).status = status)) :
    Counts pool pool' := by
  refine ⟨hsubmitted, fun h => ⟨fun id v hv => ?_, fun hroom => ?_⟩⟩
  · rw [htasks, ExtTreeMap.getElem?_map] at hv
    obtain ⟨r, hr, rfl⟩ := Option.map_eq_some_iff.1 hv
    exact hok r (h.records id r hr)
  · rw [hsubmitted] at hroom
    refine ⟨fun status hs => ?_, ?_⟩
    · rw [hcounter h hroom status hs]
      unfold statusCount
      rw [htasks, recordsOf_map, countP_map]
      rfl
    · rw [hsubmitted, (h.counters hroom).submitted, htasks, recordsOf_map, length_map, hevicted]

/-- `rebind_ready_generation` edits no status. -/
theorem counts_rebound {oldGeneration newGeneration : Nat}
    (htasks : pool'.tasks = pool.tasks.map fun _ r => rebound oldGeneration newGeneration r)
    (hstatistics : pool'.statistics = pool.statistics) : Counts pool pool' := by
  refine counts_map (fun r hr => ?_) htasks (by rw [hstatistics]) (by rw [hstatistics])
    fun h hroom status hs => ?_
  · rcases rebound_cases oldGeneration newGeneration r with he | ⟨-, -, he⟩ <;> rw [he]
    · exact hr
    · exact ⟨hr.created, hr.running, hr.claimed, hr.leased⟩
  · simp only [rebound_status, hstatistics]
    exact (h.counters hroom).status status hs

theorem counter_cancelled (records : List TaskRecord) (s : TaskPoolStatistics)
    (hlive : ∀ r ∈ records, isTerminalStatus r.status = false ∧ r.status ≠ .created)
    {status : TaskStatus}
    (henough : records.countP (fun r => decide (r.status = status)) ≤ s.counter status)
    (hroom : s.counter .cancelled + records.length ≤ u64Max) :
    (records.foldl (fun s r => s.recordStatusTransition (some r.status) (some .cancelled))
        s).counter status + records.countP (fun r => decide (r.status = status)) =
      s.counter status + if .cancelled = status then records.length else 0 := by
  generalize hbound : u64Max = bound at hroom
  induction records generalizing s with
  | nil => simp
  | cons r records ih =>
    obtain ⟨hterm, hcreated⟩ := hlive r mem_cons_self
    have hne : r.status ≠ .cancelled := by
      intro he
      rw [he] at hterm
      cases hterm
    have hcounter := s.counter_transition hcreated (by decide : TaskStatus.cancelled ≠ .created)
    have hcancelled := hcounter .cancelled
    rw [if_pos rfl, if_neg hne] at hcancelled
    rw [countP_cons] at henough
    rw [length_cons] at hroom
    have hstatus := hcounter status
    unfold satAdd at hcancelled hstatus
    rw [hbound] at hcancelled hstatus
    have hrest := ih (s.recordStatusTransition (some r.status) (some .cancelled))
      (fun v hv => hlive v (mem_cons_of_mem r hv))
    rw [foldl_cons, countP_cons, length_cons]
    by_cases hcan : TaskStatus.cancelled = status
    · subst hcan
      simp only [hne, decide_false, if_false, if_true, Bool.false_eq_true] at henough hrest ⊢
      have := hrest (by omega) (by omega)
      omega
    · rw [if_neg hcan] at hstatus hrest ⊢
      by_cases hr : r.status = status
      · simp only [hr, decide_true, if_true] at henough hcancelled hstatus hrest ⊢
        have := hrest (by omega) (by omega)
        omega
      · simp only [hr, decide_false, if_false, Bool.false_eq_true] at henough hstatus hrest ⊢
        have := hrest (by omega) (by omega)
        omega

theorem totals_cancelled (records : List TaskRecord) (s : TaskPoolStatistics) :
    (records.foldl (fun s r => s.recordStatusTransition (some r.status) (some .cancelled))
        s).submittedTotal = s.submittedTotal ∧
      (records.foldl (fun s r => s.recordStatusTransition (some r.status) (some .cancelled))
        s).terminalRecordsEvicted = s.terminalRecordsEvicted := by
  induction records generalizing s with
  | nil => exact ⟨rfl, rfl⟩
  | cons r records ih =>
    obtain ⟨hsubmitted, hevicted⟩ := s.totals_transition r.status .cancelled
    exact ⟨(ih _).1.trans hsubmitted, (ih _).2.trans hevicted⟩

/-- What `abort_all` does to the number of records with a status. -/
theorem countP_aborted (failure : RuntimeError) (records : List TaskRecord) (status : TaskStatus) :
    records.countP (fun r => decide ((aborted failure r).status = status)) +
        (records.filter fun r => !isTerminalStatus r.status).countP
          (fun r => decide (r.status = status)) =
      records.countP (fun r => decide (r.status = status)) +
        if .cancelled = status then
          (records.filter fun r => !isTerminalStatus r.status).length
        else 0 := by
  induction records with
  | nil => simp
  | cons r records ih =>
    rcases aborted_cases failure r with ⟨hterm, he⟩ | ⟨hlive, he⟩
    · rw [countP_cons, countP_cons, he, filter_cons_of_neg (by simp [hterm])]
      omega
    · have hcancelled : (aborted failure r).status = .cancelled := by
        rw [he]
        rfl
      rw [countP_cons, countP_cons, hcancelled,
        filter_cons_of_pos (by simp [hlive]), countP_cons, length_cons]
      by_cases hc : TaskStatus.cancelled = status <;> simp only [hc, if_true, if_false,
        decide_true, decide_false, Bool.false_eq_true] at ih ⊢ <;> omega

theorem counts_abortRecords (failure : RuntimeError) : Counts pool (pool.abortRecords failure) := by
  have htotals := totals_cancelled pool.liveRecords pool.statistics
  refine counts_map (f := aborted failure) (fun r hok => ?_) rfl htotals.1 htotals.2
    fun h hroom status hs => ?_
  · rcases aborted_cases failure r with ⟨-, he⟩ | ⟨-, he⟩ <;> rw [he]
    · exact hok
    · exact recordOk_markTerminalRecord r _ rfl
  · have hc := h.counters hroom
    have hlive : ∀ r ∈ pool.liveRecords, isTerminalStatus r.status = false ∧
        r.status ≠ .created := by
      intro r hr
      obtain ⟨hmem, hterm⟩ := mem_filter.1 hr
      obtain ⟨id, hid⟩ := exists_of_mem_recordsOf hmem
      exact ⟨by simpa using hterm, (h.records id r hid).created⟩
    have hnone : pool.liveRecords.countP (fun r => decide (r.status = .cancelled)) = 0 := by
      rw [countP_eq_zero]
      intro r hr hcancelled
      rw [decide_eq_true_eq] at hcancelled
      have := (hlive r hr).1
      rw [hcancelled] at this
      cases this
    have hcounts := countP_aborted failure (recordsOf pool.tasks)
    have hfits : pool.statistics.counter .cancelled + pool.liveRecords.length ≤ u64Max := by
      have hall := hcounts .cancelled
      have hle := (recordsOf pool.tasks).countP_le_length
        (p := fun r => decide ((aborted failure r).status = .cancelled))
      have htotal := hc.submitted
      rw [if_pos rfl] at hall
      rw [hc.status .cancelled (by decide)]
      unfold statusCount
      unfold liveRecords at hnone ⊢
      omega
    have henough : pool.liveRecords.countP (fun r => decide (r.status = status)) ≤
        pool.statistics.counter status := by
      rw [hc.status status hs]
      exact filter_sublist.countP_le
    have hafter := counter_cancelled pool.liveRecords pool.statistics hlive henough hfits
    have hall := hcounts status
    have hold := hc.status status hs
    show TaskPoolStatistics.counter (pool.liveRecords.foldl _ _) status = _
    unfold statusCount at hold
    unfold liveRecords at hafter ⊢
    omega

/-! ## New records -/

theorem counted_enqueued (h : Counted pool) (hok : RecordOk r)
    (hready : r.status = .ready) (hnew : pool.tasks[r.task.taskId]? = none) :
    Counted (pool.enqueued r) := by
  have hperm := recordsOf_insert_perm r hnew
  refine ⟨forall_insert h.records hok, fun hroom => ?_⟩
  · have hsubmitted : satAdd pool.statistics.submittedTotal 1 < u64Max := hroom
    have hcounter : ∀ status, (pool.enqueued r).statistics.counter status =
        if .ready = status then satAdd (pool.statistics.counter status) 1
        else pool.statistics.counter status := by
      intro status
      cases status <;> rfl
    unfold satAdd at hsubmitted hcounter
    have hc := h.counters (by omega)
    have htotal := hc.submitted
    refine ⟨fun status hs => ?_, ?_⟩
    · have hold := hc.status status hs
      have hle : pool.statusCount status ≤ (recordsOf pool.tasks).length := countP_le_length
      rw [hcounter, hold]
      show _ = (recordsOf (pool.tasks.insert r.task.taskId r)).countP _
      rw [hperm.countP_eq, countP_cons, hready]
      unfold statusCount at hle ⊢
      generalize u64Max = bound at hsubmitted ⊢
      by_cases hst : TaskStatus.ready = status <;>
        simp only [hst, if_true, if_false, decide_true, decide_false, Bool.false_eq_true] <;> omega
    · show satAdd pool.statistics.submittedTotal 1 =
        (recordsOf (pool.tasks.insert r.task.taskId r)).length + _
      have hevicted : (pool.enqueued r).statistics.terminalRecordsEvicted =
          pool.statistics.terminalRecordsEvicted := rfl
      rw [hperm.length_eq, length_cons, hevicted]
      unfold satAdd
      generalize u64Max = bound at hsubmitted ⊢
      omega

end Counts

theorem counted_empty : Counted {} where
  records := by simp
  counters _ := ⟨fun status _ => by cases status <;> rfl, rfl⟩

end TaskPool

end MutsukiRuntime
