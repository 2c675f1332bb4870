/-
  SWEEPS OF THE TASK POOL: the operations that rewrite many records at once and
  rebuild the indexes (`abort_all`, `rebind_ready_generation`), and the change of
  history retention.

  `mapRecords` is what the two sweeps share; on the board each is one move.
-/
import MutsukiRuntime.Core.TaskPool.Operations

namespace MutsukiRuntime

open Std Buckets Prog List Option

namespace TaskPool

variable {wake lease unlisted freed : TaskId → Prop} {allowed : Move → Prop} {b : Board}
  {pool : TaskPool}

/-- Every record rewritten by `f`, the leases `ended` given up, the indexes rebuilt. -/
def mapRecords (pool : TaskPool) (f : TaskRecord → TaskRecord) (ended : List TaskLease) :
    TaskPool :=
  { pool with
    tasks := pool.tasks.map fun _ r => f r
    indexes := rebuildIndexes (pool.tasks.map fun _ r => f r)
    leaseLog := ended.map .ended ++ pool.leaseLog }

theorem getElem?_mapRecords (pool : TaskPool) (f : TaskRecord → TaskRecord) (ended : List TaskLease)
    (id : TaskId) : (pool.mapRecords f ended).tasks[id]? = pool.tasks[id]?.map f := by
  show (pool.tasks.map fun _ r => f r)[id]? = _
  rw [ExtTreeMap.getElem?_map]

/-- A sweep that keeps ids keeps the invariant, up to the records it makes terminal and the
    parents it stops waiting. -/
theorem Wf.mapRecords (h : Good pool) (f : TaskRecord → TaskRecord) (ended : List TaskLease)
    (hid : ∀ r, (f r).task.taskId = r.task.taskId) (hok : ∀ r, RecordOk r → RecordOk (f r))
    (hlisted : ∀ (id : TaskId) r, pool.tasks[id]? = some r →
      ((¬ unlisted id ∧ isTerminalStatus (f r).status = true) ↔ isTerminalStatus r.status = true))
    (hstored : ∀ id, unlisted id →
      ∃ r, pool.tasks[id]? = some r ∧ isTerminalStatus (f r).status = true)
    (hfreed : ∀ (id : TaskId) r, pool.tasks[id]? = some r → ¬ freed id → r.status = .waiting →
      (f r).status = .waiting) :
    Wf noneTaken noneTaken unlisted freed (pool.mapRecords f ended) := by
  have hget := getElem?_mapRecords pool f ended
  have hkeyed : Keyed (pool.mapRecords f ended).tasks := by
    intro id v hv
    rw [hget] at hv
    obtain ⟨r, hr, rfl⟩ := map_eq_some_iff.1 hv
    rw [hid, h.keyed id r hr]
  refine ⟨hkeyed, ?_, ?_, ?_, ⟨h.history.nodup, ?_, ?_, h.history.unbounded,
    ⟨h.history.evicted.once, h.history.evicted.ids, ?_⟩, h.history.capacity⟩,
    ⟨h.links.prunedChild, h.links.prunedParent, h.links.parent, h.links.single, ?_, ?_,
      h.links.mirror, h.links.nodup⟩⟩
  · intro id v hv
    rw [hget] at hv
    obtain ⟨r, hr, rfl⟩ := map_eq_some_iff.1 hv
    exact hok r (h.records id r hr)
  · exact describes_indexesOf _ hkeyed _ (List.Perm.refl _)
  · intro id
    refine (h.wireBytes id).trans ?_
    rw [mem_iff_exists, mem_iff_exists]
    constructor
    · rintro ⟨r, hr⟩
      exact ⟨f r, by rw [hget, hr]; rfl⟩
    · rintro ⟨v, hv⟩
      rw [hget] at hv
      obtain ⟨r, hr, -⟩ := map_eq_some_iff.1 hv
      exact ⟨r, hr⟩
  · intro hsome id
    refine (h.history.listed hsome id).trans ?_
    constructor
    · rintro ⟨-, r, hr, hterm⟩
      obtain ⟨hun, hterm'⟩ := (hlisted id r hr).2 hterm
      exact ⟨hun, f r, by rw [hget, hr]; rfl, hterm'⟩
    · rintro ⟨hun, v, hv, hterm⟩
      rw [hget] at hv
      obtain ⟨r, hr, rfl⟩ := map_eq_some_iff.1 hv
      exact ⟨fun hf => hf, r, hr, (hlisted id r hr).1 ⟨hun, hterm⟩⟩
  · intro id hun
    obtain ⟨r, hr, hterm⟩ := hstored id hun
    exact ⟨f r, by rw [hget, hr]; rfl, hterm⟩
  · intro id hmem
    rw [hget, h.history.evicted.gone id hmem]
    rfl
  · intro parent taskAwait hmem hfr
    obtain ⟨r, hr, hw⟩ := h.links.waiting parent taskAwait hmem (fun hf => hf)
    exact ⟨f r, by rw [hget, hr]; rfl, hfreed parent r hr hfr hw⟩
  · intro parent taskAwait hmem
    obtain ⟨r, hr⟩ := h.links.child parent taskAwait hmem
    exact ⟨f r, by rw [hget, hr]; rfl⟩

theorem board_mapRecords (f : TaskRecord → TaskRecord) (ended : List TaskLease) :
    (pool.mapRecords f ended).board = { pool.board with
        tasks := fun id => (pool.board.tasks id).map f
        log := ended.map .ended ++ pool.board.log } := by
  have htasks : (fun id => (pool.mapRecords f ended).tasks[id]?) =
      fun id => pool.tasks[id]?.map f := funext fun id => getElem?_mapRecords pool f ended id
  unfold board
  simp only [htasks]
  rfl

/-! ## Rebinding -/

/-- The record edit of `rebind_ready_generation`. -/
def rebound (oldGeneration newGeneration : Nat) (r : TaskRecord) : TaskRecord :=
  if isRebound oldGeneration r then
    { r with task := { r.task with registryGeneration := newGeneration } }
  else r

theorem rebound_cases (oldGeneration newGeneration : Nat) (r : TaskRecord) :
    rebound oldGeneration newGeneration r = r ∨
      (r.status = .ready ∧ r.task.registryGeneration = oldGeneration ∧
        rebound oldGeneration newGeneration r =
          { r with task := { r.task with registryGeneration := newGeneration } }) := by
  unfold rebound
  split
  next hc =>
    simp only [isRebound, Bool.and_eq_true, beq_iff_eq] at hc
    exact .inr ⟨hc.1, hc.2, rfl⟩
  · exact .inl rfl

theorem rebound_status (oldGeneration newGeneration : Nat) (r : TaskRecord) :
    (rebound oldGeneration newGeneration r).status = r.status := by
  rcases rebound_cases oldGeneration newGeneration r with he | ⟨-, -, he⟩ <;> rw [he]

theorem rebound_running (oldGeneration newGeneration : Nat) {r : TaskRecord}
    (h : r.status = .running) : rebound oldGeneration newGeneration r = r := by
  rcases rebound_cases oldGeneration newGeneration r with he | ⟨hready, -⟩
  · exact he
  · cases h.symm.trans hready

theorem rebindReadyGeneration_tracks (h : Settled allowed b pool) (hm : allowed (.sweep .rebind))
    (oldGeneration newGeneration : Nat) :
    wp (rebindReadyGeneration oldGeneration newGeneration)
      (fun _ pool' => Settled allowed b pool' ∧ ∀ id : TaskId,
        pool'.tasks[id]? = pool.tasks[id]?.map (rebound oldGeneration newGeneration))
      (fun _ _ => False) pool := by
  have hrebound := rebound_cases oldGeneration newGeneration
  have hstatus := rebound_status oldGeneration newGeneration
  have hid : ∀ r, (rebound oldGeneration newGeneration r).task.taskId = r.task.taskId := by
    intro r
    rcases hrebound r with he | ⟨-, -, he⟩ <;> rw [he]
  have hok : ∀ r, RecordOk r → RecordOk (rebound oldGeneration newGeneration r) := by
    intro r hr
    rcases hrebound r with he | ⟨-, -, he⟩ <;> rw [he]
    · exact hr
    · exact ⟨hr.created, hr.running, hr.claimed, hr.leased⟩
  have hwf : Good (pool.mapRecords (rebound oldGeneration newGeneration) []) := by
    refine Wf.mapRecords h.wf _ [] hid hok ?_ (fun _ hf => hf.elim) ?_
    · intro id r _
      rw [hstatus]
      exact ⟨fun hc => hc.2, fun ht => ⟨fun hf => hf, ht⟩⟩
    · intro id r _ _ hw
      rw [hstatus]
      exact hw
  have hstep : Board.Step (.sweep .rebind) pool.board
      (pool.mapRecords (rebound oldGeneration newGeneration) []).board := by
    rw [board_mapRecords]
    refine Board.Step.sweep .rebind _ [] ?_ (.inl rfl) nodup_nil ?_
    · intro id r hr
      rcases hrebound r with he | ⟨hready, -, he⟩
      · exact .inl he
      · have hr' := h.wf.records id r hr
        refine .inr ⟨⟨hready, by rw [hstatus]; exact hready⟩, hok r hr', ?_, ?_⟩
        · rw [he]; rfl
        · rw [he]; exact hr'.lease_none (by simp [hready])
    · intro l
      simp only [not_mem_nil, false_iff]
      rintro ⟨id, r, hr, hl, hnone⟩
      rcases hrebound r with he | ⟨-, -, he⟩ <;> rw [he] at hnone <;> simp_all
  exact ⟨⟨hwf, h.reach.step hm hstep⟩, getElem?_mapRecords pool _ []⟩

theorem rebindReadyGeneration_same (h : Good pool) (generation : Nat) :
    wp (rebindReadyGeneration generation generation) (fun _ pool' => pool' = pool)
      (fun _ _ => False) pool := by
  have htasks : (pool.tasks.map fun _ r => rebound generation generation r) = pool.tasks := by
    apply ExtTreeMap.ext_getElem?
    intro id
    rw [ExtTreeMap.getElem?_map]
    cases pool.tasks[id]? with
    | none => rfl
    | some r =>
      have hsame : rebound generation generation r = r := by
        rcases rebound_cases generation generation r with he | ⟨-, hgeneration, he⟩
        · exact he
        · rw [he, ← hgeneration]
      rw [map_some, hsame]
  have hindexes : rebuildIndexes pool.tasks = pool.indexes :=
    (describes_indexesOf pool.tasks h.keyed _ (List.Perm.refl _)).ext h.indexes
  unfold rebindReadyGeneration
  rw [wp_bind, wp_read, wp_bind, wp_update, wp_bind, wp_update]
  show { pool with
    tasks := pool.tasks.map fun _ r => rebound generation generation r
    indexes := rebuildIndexes (pool.tasks.map fun _ r => rebound generation generation r) } = pool
  rw [htasks, hindexes]

/-! ## Aborting -/

/-- The record edit of `abort_all`. -/
def aborted (failure : RuntimeError) (r : TaskRecord) : TaskRecord :=
  if isTerminalStatus r.status then r else markTerminalRecord r .cancelled (some failure)

/-- The records `abort_all` cancels. -/
def liveRecords (pool : TaskPool) : List TaskRecord :=
  (recordsOf pool.tasks).filter fun r => !isTerminalStatus r.status

def abortedIds (pool : TaskPool) : List TaskId :=
  (pool.liveRecords.map (·.task.taskId)).insertionSort (· ≤ ·)

theorem mem_liveRecords (h : Keyed pool.tasks) (r : TaskRecord) : r ∈ pool.liveRecords ↔
      pool.tasks[r.task.taskId]? = some r ∧ isTerminalStatus r.status = false := by
  unfold liveRecords
  rw [mem_filter, mem_recordsOf pool.tasks h]
  simp

theorem mem_abortedIds (h : Keyed pool.tasks) (id : TaskId) : id ∈ pool.abortedIds ↔
      ∃ r, pool.tasks[id]? = some r ∧ isTerminalStatus r.status = false := by
  unfold abortedIds
  rw [(perm_insertionSort _ _).mem_iff, List.mem_map]
  constructor
  · rintro ⟨r, hr, rfl⟩
    exact ⟨r, (mem_liveRecords h r).1 hr⟩
  · rintro ⟨r, hr, hlive⟩
    have hid := h id r hr
    exact ⟨r, (mem_liveRecords h r).2 ⟨by rw [hid]; exact hr, hlive⟩, hid⟩

theorem nodup_abortedIds (h : Keyed pool.tasks) : pool.abortedIds.Nodup := by
  unfold abortedIds liveRecords
  rw [(perm_insertionSort _ _).nodup_iff]
  exact (nodup_ids_recordsOf pool.tasks h).sublist (filter_sublist.map _)

/-- The leases given up are distinct, since each belongs to its own task. -/
theorem nodup_abortedLeases (h : Good pool) : (pool.liveRecords.filterMap (·.lease)).Nodup := by
  have hnd : pool.liveRecords.Pairwise fun r r' => r.task.taskId ≠ r'.task.taskId := by
    have := (nodup_ids_recordsOf pool.tasks h.keyed).sublist
      ((filter_sublist (p := fun r : TaskRecord => !isTerminalStatus r.status)).map (·.task.taskId))
    exact pairwise_map.1 this
  refine List.Pairwise.filterMap _ ?_ (hnd.imp_of_mem (S := fun r r' =>
    RecordOk r ∧ RecordOk r' ∧ r.task.taskId ≠ r'.task.taskId) ?_)
  · rintro r r' ⟨hok, hok', hne⟩ l hl l' hl' rfl
    exact hne ((hok.leased l hl).symm.trans (hok'.leased l hl'))
  · intro r r' hr hr' hne
    exact ⟨h.records _ r ((mem_liveRecords h.keyed r).1 hr).1,
      h.records _ r' ((mem_liveRecords h.keyed r').1 hr').1, hne⟩

theorem aborted_cases (failure : RuntimeError) (r : TaskRecord) :
    (isTerminalStatus r.status = true ∧ aborted failure r = r) ∨
    (isTerminalStatus r.status = false ∧
      aborted failure r = markTerminalRecord r .cancelled (some failure)) := by
  unfold aborted
  cases isTerminalStatus r.status <;> simp

/-- After the pass over the records all are terminal; the cancelled ones are still to be
    unlinked and queued. -/
theorem Tracks.abort (h : Settled allowed b pool) (hm : allowed (.sweep .finish))
    (failure : RuntimeError) :
    Tracks noneTaken noneTaken (fun id => id ∈ pool.abortedIds) (fun id => id ∈ pool.abortedIds)
      allowed b (pool.mapRecords (aborted failure) (pool.liveRecords.filterMap (·.lease))) := by
  have hkeyed := h.wf.keyed
  constructor
  · refine Wf.mapRecords h.wf _ _ ?_ ?_ ?_ ?_ ?_
    · intro r
      rcases aborted_cases failure r with ⟨-, he⟩ | ⟨-, he⟩
      · rw [he]
      · rw [he]; rfl
    · intro r hok
      rcases aborted_cases failure r with ⟨-, he⟩ | ⟨-, he⟩ <;> rw [he]
      · exact hok
      · exact recordOk_markTerminalRecord r _ rfl
    · intro id r hr
      rw [mem_abortedIds hkeyed]
      rcases aborted_cases failure r with ⟨ht, he⟩ | ⟨ht, he⟩ <;> rw [he]
      · constructor
        · exact fun _ => ht
        · refine fun _ => ⟨?_, ht⟩
          rintro ⟨v, hv, hlive⟩
          rw [hr] at hv
          cases hv
          rw [ht] at hlive
          cases hlive
      · constructor
        · rintro ⟨hnot, -⟩
          exact absurd ⟨r, hr, ht⟩ hnot
        · intro hterm
          rw [ht] at hterm
          cases hterm
    · intro id hid
      obtain ⟨r, hr, hlive⟩ := (mem_abortedIds hkeyed id).1 hid
      refine ⟨r, hr, ?_⟩
      rcases aborted_cases failure r with ⟨ht, -⟩ | ⟨-, he⟩
      · rw [ht] at hlive
        cases hlive
      · rw [he]; rfl
    · intro id r hr hnot hw
      exact absurd ((mem_abortedIds hkeyed id).2 ⟨r, hr, by simp [hw, isTerminalStatus]⟩) hnot
  · refine h.reach.step hm ?_
    rw [board_mapRecords]
    refine Board.Step.sweep .finish _ _ ?_ (.inr rfl) (nodup_abortedLeases h.wf) ?_
    · intro id r hr
      rcases aborted_cases failure r with ⟨-, he⟩ | ⟨hlive, he⟩ <;> rw [he]
      · exact .inl rfl
      · exact .inr ⟨⟨hlive, rfl, fun h => by cases h⟩, recordOk_markTerminalRecord r _ rfl, rfl,
          rfl⟩
    · intro l
      rw [mem_filterMap]
      constructor
      · rintro ⟨r, hr, hl⟩
        obtain ⟨hstored, hlive⟩ := (mem_liveRecords hkeyed r).1 hr
        refine ⟨_, r, hstored, hl, ?_⟩
        rcases aborted_cases failure r with ⟨ht, -⟩ | ⟨-, he⟩
        · rw [ht] at hlive
          cases hlive
        · rw [he]; rfl
      · rintro ⟨id, r, hr, hl, -⟩
        have hid := hkeyed id r hr
        have hrun := (h.wf.records id r hr).running.2 (by simp [hl])
        refine ⟨r, (mem_liveRecords hkeyed r).2 ⟨by rw [hid]; exact hr, ?_⟩, hl⟩
        simp [hrun, isTerminalStatus]

/-- `abort_all` cancels every live record. -/
theorem abortAll_ends (h : Settled allowed b pool) (hm : allowed (.sweep .finish))
    (hunlink : allowed .unlink) (hforget : ∀ id, allowed (.forget id)) (currentStep : Nat)
    (failure : RuntimeError) :
    wp (abortAll currentStep failure)
      (fun _ pool' => Settled allowed b pool' ∧ ∀ id, ¬ pool'.board.Live id) (fun _ _ => False)
      pool := by
  unfold abortAll
  rw [wp_bind, wp_read, wp_bind, wp_update, wp_bind, wp_update, wp_bind]
  have habort := h.abort hm failure
  have hdead : ∀ id, ¬ (pool.mapRecords (aborted failure)
      (pool.liveRecords.filterMap (·.lease))).board.Live id := by
    rintro id ⟨v, hv, hlive⟩
    have hv' := (getElem?_mapRecords pool _ _ id).symm.trans hv
    obtain ⟨r, -, rfl⟩ := map_eq_some_iff.1 hv'
    rcases aborted_cases failure r with ⟨ht, he⟩ | ⟨-, he⟩
    · rw [he, ht] at hlive
      cases hlive
    · rw [he] at hlive
      cases hlive
  -- from here on the board is only tidied
  have htidy : Tracks noneTaken noneTaken (fun id => id ∈ pool.abortedIds)
      (fun id => id ∈ pool.abortedIds) Board.Tidies
      (pool.mapRecords (aborted failure) (pool.liveRecords.filterMap (·.lease))).board
      (pool.mapRecords (aborted failure) (pool.liveRecords.filterMap (·.lease))) :=
    ⟨habort.wf, Board.Reach.refl⟩
  refine wp_total (wp_forEach (fun _ p =>
      Tracks noneTaken noneTaken (fun id => id ∈ pool.abortedIds)
        (fun id => id ∈ pool.abortedIds) Board.Tidies _ p)
      (htidy.withStatistics (pool.abortRecords failure).statistics) ?_) ?_
  · intro l rest p hp
    exact hp.withStatistics _
  · intro _ p hp
    rw [wp_bind]
    refine wp_total (wp_forEach (fun rest p => rest.Nodup ∧
        Tracks noneTaken noneTaken (fun id => id ∈ rest) (fun id => id ∈ rest) Board.Tidies _ p)
      ⟨nodup_abortedIds h.wf.keyed, hp⟩ ?_) ?_
    · intro id rest p ⟨hnd, hp⟩
      rw [wp_bind, wp_update]
      refine wp_total (recordTerminalTask_tracks id (fun _ => trivial)
        (hp.removeWaitsForParent trivial id) (by simp)) ?_
      intro _ p' hp'
      rw [without_cons hnd] at hp'
      exact ⟨(nodup_cons.1 hnd).2, hp'⟩
    · intro _ p ⟨_, hp⟩
      rw [mem_nil_eq] at hp
      exact ⟨⟨hp.wf, habort.reach.trans (hp.reach.mono (Board.Tidies.routed hunlink hforget))⟩,
        fun id => hp.reach.not_live (hdead id)⟩

theorem abortAll_tracks (h : Settled allowed b pool) (hm : allowed (.sweep .finish))
    (hunlink : allowed .unlink) (hforget : ∀ id, allowed (.forget id)) (currentStep : Nat)
    (failure : RuntimeError) :
    wp (abortAll currentStep failure) (fun _ => Settled allowed b) (fun _ _ => False)
      pool :=
  wp_total (abortAll_ends h hm hunlink hforget currentStep failure) (fun _ _ h' => h'.1)

/-! ## History retention -/

theorem terminalIds_perm (records : List TaskRecord) : (terminalIds records).Perm
      ((records.filter fun r => isTerminalStatus r.status).map (·.task.taskId)) :=
  (perm_insertionSort _ _).map _

theorem mem_terminalIds (h : Keyed pool.tasks) (order : IterationOrder) (id : TaskId) :
    id ∈ terminalIds (order.1 (recordsOf pool.tasks)) ↔
      ∃ r, pool.tasks[id]? = some r ∧ isTerminalStatus r.status = true := by
  rw [(terminalIds_perm _).mem_iff, List.mem_map]
  constructor
  · rintro ⟨r, hr, rfl⟩
    rw [mem_filter, (order.2 _).mem_iff, mem_recordsOf pool.tasks h] at hr
    exact ⟨r, hr⟩
  · rintro ⟨r, hr, hterm⟩
    have hid := h id r hr
    refine ⟨r, mem_filter.2 ⟨(order.2 _).mem_iff.2 ?_, hterm⟩, hid⟩
    rw [mem_recordsOf pool.tasks h, hid]
    exact hr

theorem nodup_terminalIds (h : Keyed pool.tasks) (order : IterationOrder) :
    (terminalIds (order.1 (recordsOf pool.tasks))).Nodup := by
  rw [(terminalIds_perm _).nodup_iff]
  refine Nodup.sublist (filter_sublist.map _) ?_
  exact ((order.2 _).map _).nodup_iff.2 (nodup_ids_recordsOf pool.tasks h)

theorem configureHistoryRetention_tracks (h : Settled allowed b pool)
    (hforget : ∀ id, allowed (.forget id)) (order : IterationOrder)
    (retention : Option TaskHistoryRetention) :
    wp (configureHistoryRetention order retention) (fun _ => Settled allowed b)
      (fun _ _ => False) pool := by
  unfold configureHistoryRetention
  rw [wp_bind, wp_update]
  cases retention with
  | none =>
    refine ⟨⟨h.wf.keyed, h.wf.records, h.wf.indexes, h.wf.wireBytes,
      ⟨nodup_nil, ?_, fun _ hf => hf.elim, fun _ => ⟨rfl, rfl⟩,
        ⟨nodup_nil, ?_, ?_⟩, ?_⟩, { h.wf.links with }⟩, h.reach⟩
    · intro hsome; cases hsome
    · simp
    · simp
    · intro _ hsome; cases hsome
  | some =>
    dsimp only
    rw [wp_bind, wp_update, wp_bind, wp_update]
    have hkeyed := h.wf.keyed
    refine compactTerminalHistory_tracks hforget ⟨⟨hkeyed, h.wf.records, h.wf.indexes,
      h.wf.wireBytes, ⟨nodup_terminalIds hkeyed order, ?_, fun _ hf => hf.elim, ?_, ?_, ?_⟩,
      { h.wf.links with }⟩, h.reach⟩
    · intro _ id
      refine (mem_terminalIds hkeyed order id).trans ?_
      exact ⟨fun hr => ⟨fun hf => hf, hr⟩, fun hr => hr.2⟩
    · intro hnone; cases hnone
    · apply EvictedOk.trim
      exact { h.wf.history.evicted with }
    · intro _ hsome
      cases hsome
      exact length_trimEvictedTaskIds _

end TaskPool

end MutsukiRuntime
