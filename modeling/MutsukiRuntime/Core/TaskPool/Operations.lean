/-
  OPERATIONS OF THE TASK POOL: each keeps the invariant, does not panic, and is a
  run of the board moves its lemma names (`*_tracks`).

  * The due loops (`wakeDueTasks`, `reclaimExpiredTaskLeases`) carry the part of
    the list still to come as the ids missing from the index they cut.
-/
import MutsukiRuntime.Core.TaskPool.Invariant

namespace MutsukiRuntime

open Std Buckets Prog List Option

namespace TaskPool

/-- The invariant between operations, and the run so far. -/
abbrev Settled (allowed : Move → Prop) (b : Board) (pool : TaskPool) : Prop :=
  Tracks noneTaken noneTaken noneTaken noneTaken allowed b pool

section Operations

variable {wake lease unlisted freed : TaskId → Prop} {allowed : Move → Prop} {b : Board}
  {pool : TaskPool}

theorem settled_self (h : Good pool) : Settled allowed pool.board pool := ⟨h, Board.Reach.refl⟩

/-! ## One transition -/

variable {r : TaskRecord}

theorem unlisted_of_live (taskId : TaskId) (h : isTerminalStatus r.status = false) :
    (fun x => x = taskId ∧ isTerminalStatus r.status = true) = noneTaken := by
  funext x
  simp [h, noneTaken]

theorem unlisted_of_terminal (taskId : TaskId) (h : isTerminalStatus r.status = true) :
    (fun x => x = taskId ∧ isTerminalStatus r.status = true) = only taskId := by
  funext x
  simp [h, only]

variable {taskId : TaskId}

/-- A transition of a live record; its link, if it has one, is still to be removed. -/
theorem Tracks.change (h : Tracks wake lease noneTaken noneTaken allowed b pool) (c : Change)
    (r' : TaskRecord) (hr : pool.tasks[taskId]? = some r)
    (hlive : isTerminalStatus r.status = false) (hc : c.Allows r r') (hok : RecordOk r')
    (hsame : SameTask c.rebinds r r') (hm : allowed (.change taskId c)) :
    Tracks (without wake taskId) (without lease taskId)
      (fun x => x = taskId ∧ isTerminalStatus r'.status = true) (only taskId) allowed b
      (pool.replaceRecord taskId r r') := by
  refine ⟨h.wf.replace hr hlive hsame.taskId hok, h.reach.step hm ?_⟩
  rw [board_replaceRecord]
  exact Board.Step.change c hr hc hok hsame

theorem Tracks.change_unlinked (h : Tracks wake lease noneTaken noneTaken allowed b pool)
    (c : Change) (r' : TaskRecord) (hr : pool.tasks[taskId]? = some r)
    (hlive : isTerminalStatus r.status = false) (hwait : r.status ≠ .waiting) (hc : c.Allows r r')
    (hok : RecordOk r') (hsame : SameTask c.rebinds r r') (hm : allowed (.change taskId c)) :
    Tracks (without wake taskId) (without lease taskId)
      (fun x => x = taskId ∧ isTerminalStatus r'.status = true) noneTaken allowed b
      (pool.replaceRecord taskId r r') := by
  have hchange := h.change c r' hr hlive hc hok hsame hm
  have hnone : bucket (pool.replaceRecord taskId r r').waitsByParent taskId = [] :=
    h.wf.links.not_linked (fun hf => hf) hr hwait
  refine ⟨?_, hchange.reach⟩
  rw [← without_only taskId]
  exact hchange.wf.unfree hnone

theorem Tracks.removeWaitsForParent (h : Tracks wake lease unlisted freed allowed b pool)
    (hunlink : allowed .unlink) (taskId : TaskId) :
    Tracks wake lease unlisted (without freed taskId) allowed b
      (pool.removeWaitsForParent taskId) :=
  ⟨h.wf.removeWaitsForParent taskId, h.reach.step hunlink (h.wf.step_removeWaitsForParent taskId)⟩

/-! ## Records -/

theorem recordOk_idle (hlease : r.lease = none) (hclaimed : r.claimedBy = none)
    (hcreated : r.status ≠ .created) (hrun : r.status ≠ .running) : RecordOk r where
  created := hcreated
  running := by simp [hlease, hrun]
  claimed := by simp [hlease, hclaimed]
  leased := by simp [hlease]

variable {status : TaskStatus}

theorem recordOk_markTerminalRecord (r : TaskRecord) (failure : Option RuntimeError)
    (h : isTerminalStatus status = true) :
    RecordOk (markTerminalRecord r status failure) := by
  apply recordOk_idle rfl rfl
  · show status ≠ .created
    rintro rfl; cases h
  · show status ≠ .running
    rintro rfl; cases h

theorem recordOk_readyAgain (currentStep : Nat) (r : TaskRecord) :
    RecordOk (readyAgain currentStep r) := by
  apply recordOk_idle rfl rfl <;> exact TaskStatus.noConfusion

variable {currentStep : Nat} {E : RuntimeError → TaskPool → Prop} {runnerId invocationId : String}

/-! ## Core transitions -/

/-- `mutate_record_indexed` either fails and changes nothing, or replaces the record. -/
theorem wp_mutateRecordIndexed {α : Type}
    {mutate : TaskRecord → Except RuntimeError (α × TaskRecord)} (h : Good pool)
    {Q : α → TaskPool → Prop} (herr : ∀ e, E e pool)
    (hok : ∀ r value r', pool.tasks[taskId]? = some r → mutate r = .ok (value, r') →
      Q value (pool.replaceRecord taskId r r')) :
    wp (mutateRecordIndexed taskId mutate) Q E pool := by
  cases hr : pool.tasks[taskId]? with
  | none => exact (wp_of_run_err (mutateRecordIndexed_run_missing hr)).2 (herr _)
  | some r =>
    cases hm : mutate r with
    | error e =>
      exact (wp_of_run_err
        (mutateRecordIndexed_run_err h (fun hf => hf) (fun hf => hf) hr hm)).2 (herr _)
    | ok p =>
      obtain ⟨value, r'⟩ := p
      exact (wp_of_run_ok (mutateRecordIndexed_run_ok hr hm)).2 (hok r value r' hr hm)

theorem wp_mutateOrCrash {α : Type} {site : String} {mutate : TaskRecord → α × TaskRecord}
    {Q : α → TaskPool → Prop} (hr : pool.tasks[taskId]? = some r)
    (hok : Q (mutate r).1 (pool.replaceRecord taskId r (mutate r).2)) :
    wp (mutateOrCrash taskId site mutate) Q E pool := by
  have hrun : (mutateRecordIndexed taskId fun r => .ok (mutate r)).run pool =
      (.ok (mutate r).1, pool.replaceRecord taskId r (mutate r).2) :=
    mutateRecordIndexed_run_ok hr rfl
  unfold mutateOrCrash
  rw [wp_bind, wp_attempt, wp_of_run_ok hrun]
  exact hok

theorem Tracks.readyAgain (h : Tracks wake lease noneTaken noneTaken allowed b pool)
    (hr : pool.tasks[taskId]? = some r) (hs : r.status = .waiting ∨ r.status = .blocked)
    (hm : allowed (.change taskId .wake)) (hunlink : allowed .unlink) (currentStep : Nat)
    (source : TaskStatus) :
    Tracks (without wake taskId) (without lease taskId) noneTaken noneTaken allowed b
      (((pool.replaceRecord taskId r (readyAgain currentStep r)).countTransition source
        .ready).removeWaitsForParent taskId) := by
  have hlive : isTerminalStatus r.status = false := by
    rcases hs with hs | hs <;> simp [hs, isTerminalStatus]
  have hchange := h.change .wake (TaskPool.readyAgain currentStep r) hr hlive ⟨hs, rfl⟩
    (recordOk_readyAgain currentStep r) rfl hm
  rw [unlisted_of_live (r := TaskPool.readyAgain currentStep r) _ rfl] at hchange
  have hremoved := (hchange.withStatistics
    ((pool.replaceRecord taskId r (TaskPool.readyAgain currentStep r)).countTransition source
      .ready).statistics).removeWaitsForParent hunlink taskId
  rw [without_only] at hremoved
  exact hremoved

theorem wake_total (h : Settled allowed b pool) (hr : pool.tasks[taskId]? = some r)
    (hs : r.status = .waiting ∨ r.status = .blocked) (hm : allowed (.change taskId .wake))
    (hunlink : allowed .unlink) (currentStep : Nat) :
    wp (TaskPool.wake taskId currentStep) (fun _ => Settled allowed b) (fun _ _ => False) pool := by
  unfold TaskPool.wake
  rw [wp_bind, wp_of_run_ok (mutateRecordIndexed_run_ok hr (if_pos hs)), wp_bind,
    wp_update, wp_update]
  have hready := h.readyAgain hr hs hm hunlink currentStep r.status
  rw [without_noneTaken] at hready
  exact hready

theorem wake_tracks (h : Settled allowed b pool) (hm : allowed (.change taskId .wake))
    (hunlink : allowed .unlink) (currentStep : Nat) :
    wp (TaskPool.wake taskId currentStep) (fun _ => Settled allowed b)
      (fun _ pool' => pool' = pool) pool := by
  by_cases hs : ∃ r, pool.tasks[taskId]? = some r ∧ (r.status = .waiting ∨ r.status = .blocked)
  · obtain ⟨r, hr, hs⟩ := hs
    exact wp_total (wake_total h hr hs hm hunlink currentStep) (fun _ _ h' => h')
  · unfold TaskPool.wake
    rw [wp_bind]
    refine wp_mutateRecordIndexed h.wf (fun _ => rfl) fun r value r' hr hmut => ?_
    rw [if_neg fun hst => hs ⟨r, hr, hst⟩] at hmut
    cases hmut

theorem without_cons {x : TaskId} {xs : List TaskId} (hnd : (x :: xs).Nodup) :
    without (fun id => id ∈ x :: xs) x = fun id => id ∈ xs := by
  funext id
  have hx := (nodup_cons.1 hnd).1
  simp only [without, mem_cons, eq_iff_iff]
  constructor
  · rintro ⟨rfl | hmem, hne⟩
    · exact absurd rfl hne
    · exact hmem
  · intro hmem
    exact ⟨.inr hmem, fun he => hx (he ▸ hmem)⟩

theorem mem_nil_eq : (fun id : TaskId => id ∈ ([] : List TaskId)) = noneTaken := by
  funext id
  simp [noneTaken]

theorem wakeDueTasks_tracks (h : Settled allowed b pool)
    (hm : ∀ id, allowed (.change id .wake)) (hunlink : allowed .unlink) (currentStep : Nat) :
    wp (wakeDueTasks currentStep) (fun _ => Settled allowed b) (fun _ _ => False) pool := by
  unfold wakeDueTasks
  rw [wp_bind, wp_read, wp_bind, wp_update, wp_bind]
  have hnd := h.wf.indexes.wake.nodup_takeDueBuckets currentStep
  have hcut := h.wf.indexes.wake.takeDueBuckets currentStep
  -- the ids still to come are suspended and missing from the wake index
  refine wp_total (wp_forEach (fun rest p =>
      (rest.map (·.1)).Nodup ∧
      (∀ id ∈ rest.map (·.1), ∃ r, p.tasks[id]? = some r ∧
        (r.status = .waiting ∨ r.status = .blocked)) ∧
      Tracks (fun id => id ∈ rest.map (·.1)) noneTaken noneTaken noneTaken allowed b p)
    ⟨hnd, ?_, ?_, h.reach⟩ ?_) ?_
  · intro id hid
    obtain ⟨⟨id, step⟩, hmem, rfl⟩ := List.mem_map.1 hid
    obtain ⟨-, hbucket⟩ := (mem_takeDueBuckets _ _ _ _).1 hmem
    obtain ⟨r, hr, hslot, -⟩ := (h.wf.indexes.wake.mem_iff step id).1 hbucket
    refine ⟨r, hr, ?_⟩
    unfold TaskRecord.wakeStep at hslot
    split at hslot
    · assumption
    · cases hslot
  · exact h.wf.withIndexes { h.wf.indexes with wake := hcut }
  · rintro ⟨id, step⟩ rest p ⟨hnd, hsusp, ht⟩
    obtain ⟨r, hr, hs⟩ := hsusp id (by simp)
    unfold wakeDueTask
    rw [wp_bind]
    refine wp_mutateOrCrash hr ?_
    rw [wp_bind, wp_update, wp_update]
    have hready := ht.readyAgain hr hs (hm id) hunlink currentStep r.status
    rw [map_cons] at hready hnd
    rw [without_cons hnd, without_noneTaken] at hready
    refine ⟨(nodup_cons.1 hnd).2, ?_, hready⟩
    intro id' hid'
    obtain ⟨r', hr', hs'⟩ := hsusp id' (by simp [hid'])
    exact ⟨r', (getElem?_replaceRecord_tail hnd hid' r _).trans hr', hs'⟩
  · rintro _ p ⟨-, -, ht⟩
    rw [map_nil, mem_nil_eq] at ht
    exact ht

/-- The record `reject_ready` leaves. -/
def rejected (failure : RuntimeError) (r : TaskRecord) : TaskRecord :=
  { r with status := .failed, failure := some failure }

theorem recordOk_rejected (failure : RuntimeError) (h : RecordOk r) (hs : r.status = .ready) :
    RecordOk (rejected failure r) := by
  have hlease := h.lease_none (by simp [hs])
  have hclaimed : r.claimedBy = none := by
    rw [h.claimed, hlease]
    rfl
  exact recordOk_idle hlease hclaimed (by simp [rejected]) (by simp [rejected])

theorem wp_rejectReady (hr : pool.tasks[taskId]? = some r) (hs : r.status = .ready)
    {failure : RuntimeError} {Q : Unit → TaskPool → Prop} :
    wp (rejectReady taskId failure) Q E pool ↔ wp (recordTerminalTask taskId) Q E
      ((pool.replaceRecord taskId r (rejected failure r)).countTransition .ready .failed) := by
  unfold rejectReady
  rw [wp_bind, wp_of_run_ok (mutateRecordIndexed_run_ok hr (if_neg (by simp [hs]))),
    wp_bind, wp_update]
  rfl

theorem Good.rejected (h : Good pool) (hr : pool.tasks[taskId]? = some r) (hs : r.status = .ready)
    (failure : RuntimeError) :
    Wf noneTaken noneTaken (only taskId) noneTaken
      ((pool.replaceRecord taskId r (TaskPool.rejected failure r)).countTransition .ready
        .failed) := by
  have hself : Settled (fun _ => True) pool.board pool := settled_self h
  have hchange := (hself.change_unlinked .reject (TaskPool.rejected failure r) hr
    (by simp [hs, isTerminalStatus]) (by simp [hs]) ⟨hs, rfl, nofun⟩
    (recordOk_rejected failure (h.records taskId r hr) hs) rfl trivial).wf
  rw [without_noneTaken, unlisted_of_terminal (r := TaskPool.rejected failure r) _ rfl] at hchange
  exact hchange.withStatistics _

/-- A ready task becomes a failed one; then the history is tidied. -/
theorem rejectReady_rejects (h : Good pool) (hr : pool.tasks[taskId]? = some r)
    (hs : r.status = .ready) (failure : RuntimeError) :
    wp (rejectReady taskId failure)
      (fun _ => Settled Board.Tidies (pool.board.put taskId (rejected failure r)))
      (fun _ _ => False) pool := by
  rw [wp_rejectReady hr hs, ← board_replaceRecord taskId r]
  have htidy : Tracks noneTaken noneTaken (only taskId) noneTaken Board.Tidies _ _ :=
    ⟨h.rejected hr hs failure, Board.Reach.refl⟩
  have hdone := recordTerminalTask_tracks taskId (fun _ => trivial) htidy rfl
  rw [without_only] at hdone
  exact hdone

theorem rejectReady_tracks (h : Settled allowed b pool) (hforget : ∀ id, allowed (.forget id))
    (hunlink : allowed .unlink) (hm : allowed (.change taskId .reject)) (failure : RuntimeError) :
    wp (rejectReady taskId failure) (fun _ => Settled allowed b)
      (fun _ pool' => pool' = pool) pool := by
  cases hr : pool.tasks[taskId]? with
  | none =>
    unfold rejectReady
    rw [wp_bind]
    exact (wp_of_run_err (mutateRecordIndexed_run_missing hr)).2 rfl
  | some r =>
    by_cases hs : r.status = .ready
    · have hstep : Board.Step (.change taskId .reject) pool.board
          (pool.board.put taskId (rejected failure r)) :=
        .change .reject hr ⟨hs, rfl, nofun⟩
          (recordOk_rejected failure (h.wf.records taskId r hr) hs) rfl
      refine wp_total (rejectReady_rejects h.wf hr hs failure) ?_
      intro _ pool' h'
      exact ⟨h'.wf, (h.reach.step hm hstep).trans
        (h'.reach.mono (Board.Tidies.routed hunlink hforget))⟩
    · unfold rejectReady
      rw [wp_bind]
      exact (wp_of_run_err (mutateRecordIndexed_run_err h.wf (fun hw => hw)
        (fun hl => hl) hr (if_pos hs))).2 rfl

/-- On a task that is not live it fails. -/
theorem terminalByCore_refused (h : Good pool) (hdead : ¬ pool.board.Live taskId)
    (failure : Option RuntimeError) (action : String) (currentStep : Nat) :
    wp (terminalByCore taskId status failure action currentStep) (fun _ _ => False)
      (fun _ pool' => pool' = pool) pool := by
  unfold terminalByCore
  rw [wp_bind]
  refine wp_mutateRecordIndexed h (fun _ => rfl) fun r value r' hr hmut => ?_
  rw [if_pos (by simpa using fun hlive => hdead ⟨r, hr, hlive⟩)] at hmut
  cases hmut

section Terminal

variable (h : Settled allowed b pool) (hforget : ∀ id, allowed (.forget id))
  (hunlink : allowed .unlink) (hm : allowed (.change taskId .finish))
  (hstatus : isTerminalStatus status = true) (hne : status ≠ .completed)

include h hforget hunlink hm hstatus hne

/-- It overwrites the record of a live task and drops its link; after that only compaction moves
    the board. -/
theorem terminalByCore_closes (hr : pool.tasks[taskId]? = some r)
    (hlive : isTerminalStatus r.status = false) (failure : Option RuntimeError) (action : String)
    (currentStep : Nat) :
    wp (terminalByCore taskId status failure action currentStep)
      (fun _ pool' => Settled allowed b pool' ∧ Board.Reach (fun m => ∃ id, m = .forget id)
        (pool.board.close taskId (markTerminalRecord r status failure)) pool'.board)
      (fun _ _ => False) pool := by
  have hchange := h.change .finish (markTerminalRecord r status failure) hr hlive
    ⟨hlive, hstatus, hne⟩ (recordOk_markTerminalRecord r failure hstatus) rfl hm
  rw [without_noneTaken,
    unlisted_of_terminal (r := markTerminalRecord r status failure) _ hstatus] at hchange
  have hclosed := hchange.removeWaitsForParent hunlink taskId
  rw [without_only] at hclosed
  have hreach := hclosed.reach
  have hboard : ((pool.replaceRecord taskId r
      (markTerminalRecord r status failure)).removeWaitsForParent taskId).board =
        pool.board.close taskId (markTerminalRecord r status failure) := by
    rw [board_removeWaitsForParent, board_replaceRecord]
    rfl
  rw [hboard] at hreach
  have hstart : ∀ statistics, Tracks noneTaken noneTaken (only taskId) noneTaken
      (fun m => ∃ id, m = .forget id)
      (pool.board.close taskId (markTerminalRecord r status failure)) _ := fun statistics =>
    ⟨hclosed.wf.withStatistics statistics, hboard ▸ Board.Reach.refl⟩
  unfold terminalByCore
  rw [wp_bind, wp_of_run_ok (mutateRecordIndexed_run_ok hr (if_neg (by simp [hlive]))),
    wp_bind, wp_update]
  cases r.lease with
  | none | some =>
    simp only [wp_bind, wp_update]
    refine wp_total (recordTerminalTask_tracks taskId (fun id => ⟨id, rfl⟩) (hstart _) rfl) ?_
    intro _ pool' h'
    rw [without_only] at h'
    refine ⟨⟨h'.wf, hreach.trans (h'.reach.mono ?_)⟩, h'.reach⟩
    rintro _ ⟨id, rfl⟩
    exact hforget id

theorem terminalByCore_ends (failure : Option RuntimeError) (action : String)
    (currentStep : Nat) :
    wp (terminalByCore taskId status failure action currentStep)
      (fun _ pool' => Settled allowed b pool' ∧ pool.board.Live taskId ∧ ¬ pool'.board.Live taskId)
      (fun _ pool' => pool' = pool ∧ ¬ pool.board.Live taskId) pool := by
  by_cases hlive : pool.board.Live taskId
  · obtain ⟨r, hr, hterm⟩ := id hlive
    refine wp_total (terminalByCore_closes h hforget hunlink hm hstatus hne hr hterm failure action
      currentStep) ?_
    rintro _ pool' ⟨h', hforgotten⟩
    refine ⟨h', hlive, fun hl => ?_⟩
    obtain ⟨v, hv, hl⟩ := hforgotten.live_kept (by rintro _ ⟨_, hm⟩; cases hm) hl
    rw [Board.close_tasks, Function.update_self] at hv
    cases hv
    cases hstatus.symm.trans hl
  · exact wp_mono (terminalByCore_refused h.wf hlive failure action currentStep)
      (fun _ _ hf => hf.elim) (fun _ _ he => ⟨he, hlive⟩)

theorem terminalByCore_tracks (failure : Option RuntimeError) (action : String)
    (currentStep : Nat) :
    wp (terminalByCore taskId status failure action currentStep)
      (fun _ => Settled allowed b) (fun _ pool' => pool' = pool) pool :=
  wp_mono (terminalByCore_ends h hforget hunlink hm hstatus hne failure action currentStep)
    (fun _ _ h' => h'.1) (fun _ _ he => he.1)

end Terminal

/-- A running record that gives up its lease and is ready again. -/
theorem Tracks.rerun (h : Tracks wake lease noneTaken noneTaken allowed b pool)
    (hr : pool.tasks[taskId]? = some r) (hrun : r.status = .running)
    (hm : allowed (.change taskId .release)) (currentStep : Nat) :
    Tracks (without wake taskId) (without lease taskId) noneTaken noneTaken allowed b
      (pool.replaceRecord taskId r (TaskPool.readyAgain currentStep r)) := by
  have hchange := h.change_unlinked .release (TaskPool.readyAgain currentStep r) hr
    (by simp [hrun, isTerminalStatus]) (by simp [hrun]) ⟨hrun, .inl rfl⟩
    (recordOk_readyAgain currentStep r) rfl hm
  rwa [unlisted_of_live (r := TaskPool.readyAgain currentStep r) _ rfl] at hchange

/-- A record that runs under the given invocation of a runner. -/
def RunsUnder (pool : TaskPool) (runnerId invocationId : String) (id : TaskId) : Prop :=
  ∃ r lease, pool.tasks[id]? = some r ∧ r.status = .running ∧ r.lease = some lease ∧
    lease.runnerId = runnerId ∧ lease.leaseId = invocationId

/-- The running index finds a record of the invocation, if there is one. -/
theorem runningInvocation_eq_some (h : Good pool)
    (hfound : pool.runningInvocation runnerId invocationId = some taskId) :
    pool.RunsUnder runnerId invocationId taskId := by
  obtain ⟨id, hid, hsome⟩ := exists_of_findSome?_eq_some hfound
  obtain ⟨r, hr, hslot, -⟩ := (h.indexes.running.mem_iff runnerId id).1
    (ExtTreeSet.mem_toList.1 hid)
  rw [hr] at hsome
  simp only [ite_none_right_eq_some, some.injEq] at hsome
  have htask : taskId = id := hsome.2.symm.trans (h.keyed id r hr)
  subst htask
  unfold TaskRecord.runningUnder at hslot
  split at hslot
  next hrun =>
    cases hl : r.lease with
    | none => simp [hl] at hsome
    | some lease =>
      have hclaimed := (h.records _ r hr).claimed
      rw [hslot, hl] at hclaimed
      exact ⟨r, lease, hr, hrun, hl, (some.inj hclaimed).symm, by simpa [hl] using hsome.1⟩
  · cases hslot

theorem runningInvocation_ne_none (h : Good pool) {id : TaskId}
    (hunder : pool.RunsUnder runnerId invocationId id) :
    pool.runningInvocation runnerId invocationId ≠ none := by
  obtain ⟨r, lease, hr, hrun, hl, hrunner, hinvocation⟩ := hunder
  intro hnone
  have hslot : r.runningUnder = some runnerId := by
    unfold TaskRecord.runningUnder
    rw [if_pos hrun, (h.records id r hr).claimed, hl, ← hrunner]
    rfl
  have hmem := (h.indexes.running.mem_iff runnerId id).2 ⟨r, hr, hslot, fun hf => hf⟩
  have hskipped := findSome?_eq_none_iff.1 hnone id (ExtTreeSet.mem_toList.2 hmem)
  simp [hr, hl, hinvocation] at hskipped

/-- A cancelled invocation is one record less that runs under it, if there was any. -/
theorem cancelRunningInvocation_releases (h : Settled allowed b pool)
    (hm : ∀ id, allowed (.change id .release)) (runnerId invocationId : String)
    (currentStep : Nat) :
    wp (cancelRunningInvocation runnerId invocationId currentStep)
      (fun _ pool' => Settled allowed b pool' ∧
        ((pool' = pool ∧ ∀ id, ¬ pool.RunsUnder runnerId invocationId id) ∨
          ∃ id r, pool.RunsUnder runnerId invocationId id ∧ pool'.tasks[id]? = some r ∧
            r.status = .ready ∧ ∀ other, id ≠ other → pool'.tasks[other]? = pool.tasks[other]?))
      (fun _ _ => False) pool := by
  unfold cancelRunningInvocation
  rw [wp_bind, wp_read]
  cases hinv : pool.runningInvocation runnerId invocationId with
  | none => exact ⟨h, .inl ⟨rfl, fun id hid => runningInvocation_ne_none h.wf hid hinv⟩⟩
  | some taskId =>
    have hunder := runningInvocation_eq_some h.wf hinv
    have ⟨r, lease, hr, hrun, hl, _⟩ := hunder
    have hchange := h.rerun hr hrun (hm taskId) currentStep
    rw [without_noneTaken] at hchange
    simp only [hr, bind_some, hl]
    rw [wp_bind]
    refine wp_mutateOrCrash hr ⟨(hchange.withStatistics _).withStatistics _, .inr ?_⟩
    refine ⟨taskId, TaskPool.readyAgain currentStep r, hunder, ?_, rfl, fun other hne => ?_⟩
    · show (pool.replaceRecord taskId r _).tasks[taskId]? = _
      rw [getElem?_replaceRecord, if_pos rfl]
    · show (pool.replaceRecord taskId r _).tasks[other]? = _
      rw [getElem?_replaceRecord, if_neg hne]

theorem cancelRunningInvocation_tracks (h : Settled allowed b pool)
    (hm : ∀ id, allowed (.change id .release)) (runnerId invocationId : String)
    (currentStep : Nat) :
    wp (cancelRunningInvocation runnerId invocationId currentStep)
      (fun _ => Settled allowed b) (fun _ _ => False) pool :=
  wp_total (cancelRunningInvocation_releases h hm runnerId invocationId currentStep)
    (fun _ _ hp => hp.1)

theorem reclaimExpiredTaskLeases_tracks (h : Settled allowed b pool) (currentStep : Nat)
    (hm : ∀ (id : TaskId) r l, pool.tasks[id]? = some r → r.lease = some l →
      taskLeaseExpired l currentStep = true → allowed (.change id .release)) :
    wp (reclaimExpiredTaskLeases currentStep) (fun _ => Settled allowed b)
      (fun _ _ => False) pool := by
  unfold reclaimExpiredTaskLeases
  rw [wp_bind, wp_read, wp_bind, wp_update, wp_bind]
  have hnd := h.wf.indexes.leases.nodup_takeDueBuckets currentStep
  have hcut := h.wf.indexes.leases.takeDueBuckets currentStep
  -- the ids still to come run under an expired lease and are missing from the lease index
  refine wp_total (wp_foldEach (fun rest _ p =>
      rest.Nodup ∧
      (∀ id ∈ rest, ∃ r l, p.tasks[id]? = some r ∧ r.status = .running ∧ r.lease = some l ∧
        taskLeaseExpired l currentStep = true ∧ allowed (.change id .release)) ∧
      Tracks noneTaken (fun id => id ∈ rest) noneTaken noneTaken allowed b p)
    ⟨hnd, ?_, ?_, h.reach⟩ ?_) ?_
  · intro id hid
    obtain ⟨⟨id, step⟩, hmem, rfl⟩ := List.mem_map.1 hid
    obtain ⟨hle, hbucket⟩ := (mem_takeDueBuckets _ _ _ _).1 hmem
    obtain ⟨r, hr, hslot, -⟩ := (h.wf.indexes.leases.mem_iff step id).1 hbucket
    unfold TaskRecord.leaseExpiry at hslot
    split at hslot
    next hrun =>
      obtain ⟨l, hl, hexp⟩ := bind_eq_some_iff.1 hslot
      have hexpired : taskLeaseExpired l currentStep = true := by
        simp [taskLeaseExpired, hexp, hle]
      exact ⟨r, l, hr, hrun, hl, hexpired, hm id r l hr hl hexpired⟩
    · cases hslot
  · exact h.wf.withIndexes { h.wf.indexes with leases := hcut }
  · rintro id rest reclaimed p ⟨hnd, hrunning, ht⟩
    obtain ⟨r, l, hr, hrun, hl, hexp, hallowed⟩ := hrunning id (by simp)
    have hchange := ht.rerun hr hrun hallowed currentStep
    rw [without_noneTaken, without_cons hnd] at hchange
    unfold reclaimTask
    simp only [wp_bind, wp_read, hr, bind_some, hl, hexp, if_true]
    refine wp_mutateOrCrash hr ?_
    refine ⟨(nodup_cons.1 hnd).2, ?_, hchange.withStatistics _⟩
    intro id' hid'
    obtain ⟨r', l', hr', hrest⟩ := hrunning id' (by simp [hid'])
    exact ⟨r', l', (getElem?_replaceRecord_tail hnd hid' r _).trans hr', hrest⟩
  · rintro reclaimed p ⟨-, -, ht⟩
    rw [mem_nil_eq] at ht
    rw [wp_bind]
    refine wp_total (wp_forEach (fun _ p => Settled allowed b p) ht ?_) (fun _ _ h' => h')
    intro l rest p h'
    exact h'.withStatistics _

/-! ## Links on a child, new tasks -/

theorem takeWaitsForChild_tracks (h : Settled allowed b pool)
    (hforget : ∀ id, allowed (.forget id)) (hunlink : allowed .unlink) (childTaskId : TaskId) :
    wp (takeWaitsForChild childTaskId)
      (fun waits pool' => waits = bucket pool.waitsByChild childTaskId ∧ Settled allowed b pool' ∧
        Board.Reach (fun m => ∃ id, m = .forget id) (pool.unlinkChild childTaskId).2.board
          pool'.board)
      (fun _ _ => False) pool := by
  unfold takeWaitsForChild
  rw [wp_bind, wp_read]
  show wp (do
      Prog.update fun _ => (pool.unlinkChild childTaskId).2
      compactTerminalHistory
      pure (bucket pool.waitsByChild childTaskId)) _ _ pool
  rw [wp_bind, wp_update, wp_bind]
  have hcut := h.wf.unlinkChild childTaskId
  have hreach := h.reach.step hunlink (h.wf.step_unlinkChild childTaskId)
  have hstart : Settled (fun m => ∃ id, m = .forget id) (pool.unlinkChild childTaskId).2.board
      (pool.unlinkChild childTaskId).2 := settled_self hcut
  refine wp_total (compactTerminalHistory_tracks (fun id => ⟨id, rfl⟩) hstart) ?_
  intro _ pool' h'
  refine ⟨rfl, ⟨h'.wf, hreach.trans (h'.reach.mono ?_)⟩, h'.reach⟩
  rintro _ ⟨id, rfl⟩
  exact hforget id

/-- The record `enqueue_at` stores. -/
def newRecord (pool : TaskPool) (task : Task) (currentStep : Nat) : TaskRecord :=
  { task := if task.createdSequence = 0 then
      { task with createdSequence := pool.nextSequence + 1 } else task
    status := .ready
    readySinceStep := currentStep }

/-- The stored task differs from the submitted one in the sequence number at most. -/
theorem newRecord_task (pool : TaskPool) (task : Task) (currentStep : Nat) :
    (pool.newRecord task currentStep).task =
      { task with createdSequence := (pool.newRecord task currentStep).task.createdSequence } := by
  unfold newRecord
  split <;> rfl

theorem newRecord_taskId (pool : TaskPool) (task : Task) (currentStep : Nat) :
    (pool.newRecord task currentStep).task.taskId = task.taskId := by
  unfold newRecord
  split <;> rfl

/-- The pool after a successful `enqueue_at`. -/
def enqueued (pool : TaskPool) (r : TaskRecord) : TaskPool :=
  { pool with
    nextSequence := pool.nextSequence + 1
    tasks := pool.tasks.insert r.task.taskId r
    payloadWireBytes := pool.payloadWireBytes.insert r.task.taskId (compactJsonLen r.task.payload)
    indexes := pool.indexes.updateRecord r true
    statistics :=
      { pool.statistics with
        submittedTotal := satAdd pool.statistics.submittedTotal 1
      }.recordStatusTransition none (some .ready) }

theorem enqueueAt_run_duplicate (task : Task) (currentStep : Nat)
    (hdup : pool.containsTaskId task.taskId = true) :
    (enqueueAt task currentStep).run pool =
      (.err (runtimeError errTaskDuplicate "runtime.task_pool" s!"task.enqueue.{task.taskId}"),
        pool) := by
  simp [enqueueAt, hdup]

theorem enqueueAt_run_new (task : Task) (currentStep : Nat)
    (hnew : pool.containsTaskId task.taskId = false) :
    (enqueueAt task currentStep).run pool =
      (.ok task.taskId, pool.enqueued (pool.newRecord task currentStep)) := by
  unfold enqueueAt
  simp only [run_read_bind, hnew, Bool.false_eq_true, if_false, run_update_bind]
  by_cases hseq : task.createdSequence = 0 <;>
    simp [hseq, updateRecordIndexes, enqueued, newRecord]

theorem not_stored_of_new (h : pool.containsTaskId taskId = false) :
    pool.tasks[taskId]? = none ∧ taskId ∉ pool.evictedTaskIds := by
  rw [containsTaskId, Bool.or_eq_false_iff] at h
  constructor
  · simpa [← ExtTreeMap.contains_iff_mem] using h.1
  · simpa [← ExtTreeSet.contains_iff_mem] using h.2

theorem Good.enqueued (h : Good pool) (hready : r.status = .ready) (hok : RecordOk r)
    (hnew : pool.containsTaskId r.task.taskId = false) :
    Good (pool.enqueued r) := by
  obtain ⟨hnone, hev⟩ := not_stored_of_new hnew
  have hget : ∀ id : TaskId, (pool.enqueued r).tasks[id]? =
      if r.task.taskId = id then some r else pool.tasks[id]? :=
    fun id => getElem?_insert_ite _ _ _ _
  have hlive : isTerminalStatus r.status = false := by simp [hready, isTerminalStatus]
  refine ⟨forall_insert h.keyed rfl, forall_insert h.records hok, ?_, ?_,
    { h.history with
      listed := ?_, stored := fun _ hun => hun.elim
      evicted := { h.history.evicted with gone := ?_ } },
    { h.links with waiting := ?_, child := ?_ }⟩
  · have hins := h.indexes.insert hnone
    rw [noneTaken_and] at hins
    exact hins
  · intro id
    show id ∈ pool.payloadWireBytes.insert _ _ ↔ id ∈ pool.tasks.insert _ _
    rw [ExtTreeMap.mem_insert, ExtTreeMap.mem_insert, h.wireBytes]
  · intro hsome id
    rw [hget]
    refine (h.history.listed hsome id).trans ?_
    by_cases he : r.task.taskId = id
    · subst he
      simp [hnone, hlive]
    · simp [he]
  · intro id hmem
    rw [hget, if_neg]
    · exact h.history.evicted.gone id hmem
    · rintro rfl
      exact hev ((h.history.evicted.ids _).2 hmem)
  · intro parent taskAwait hmem hne
    obtain ⟨v, hv, hw⟩ := h.links.waiting parent taskAwait hmem hne
    refine ⟨v, ?_, hw⟩
    rw [hget, if_neg]
    · exact hv
    · rintro rfl
      rw [hnone] at hv
      cases hv
  · intro parent taskAwait hmem
    obtain ⟨v, hv⟩ := h.links.child parent taskAwait hmem
    rw [hget]
    split
    · exact ⟨r, rfl⟩
    · exact ⟨v, hv⟩

theorem step_enqueued (hready : r.status = .ready) (hok : RecordOk r)
    (hnew : pool.tasks[r.task.taskId]? = none) :
    Board.Step (.submit r.task) pool.board (pool.enqueued r).board := by
  have hboard : (pool.enqueued r).board = { pool.board with
        tasks := Function.update pool.board.tasks r.task.taskId (some r) } := by
    unfold board TaskPool.enqueued
    simp only [getElem?_insert_update]
  rw [hboard]
  exact Board.Step.submit r hnew hready hok

theorem enqueueAt_tracks (h : Settled allowed b pool) {task : Task}
    (hm : ∀ createdSequence, allowed (.submit { task with createdSequence })) (currentStep : Nat) :
    wp (enqueueAt task currentStep)
      (fun id pool' => id = task.taskId ∧ pool.tasks[task.taskId]? = none ∧
        Settled allowed b pool' ∧ pool' = pool.enqueued (pool.newRecord task currentStep))
      (fun _ pool' => pool' = pool) pool := by
  cases hdup : pool.containsTaskId task.taskId with
  | true => exact (wp_of_run_err (enqueueAt_run_duplicate task currentStep hdup)).2 rfl
  | false =>
    rw [wp_of_run_ok (enqueueAt_run_new task currentStep hdup)]
    have hnone := (not_stored_of_new hdup).1
    refine ⟨rfl, hnone, ?_, rfl⟩
    have hid := newRecord_taskId pool task currentStep
    rw [← hid] at hdup hnone
    have hok : RecordOk (pool.newRecord task currentStep) :=
      recordOk_idle rfl rfl (by simp [newRecord]) (by simp [newRecord])
    have hsubmit := hm (pool.newRecord task currentStep).task.createdSequence
    rw [← newRecord_task] at hsubmit
    exact ⟨Good.enqueued h.wf rfl hok hdup, h.reach.step hsubmit (step_enqueued rfl hok hnone)⟩

end Operations

end TaskPool

end MutsukiRuntime
