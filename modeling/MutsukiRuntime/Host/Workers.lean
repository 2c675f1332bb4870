/-
  WORKER THREADS OF A POOL (`worker.rs`): the actor isolates workers that hang, an isolated one
  leaves when it has finished its dispatch, and the actor then starts another in its place.

  Only the actor changes the set of isolated workers; a worker looks into it after each dispatch.
  An isolated worker sends `WorkerExited` and returns after that, and nobody joins it: the actor
  may handle the message while the thread still lives.  What a worker does with its dispatches
  and the count `active_threads` are left out; a worker is named by its place among the threads
  started.  `replaced` is a ghost: the workers another was started for.
-/
import MutsukiRuntime.Lib.Interleaving

namespace MutsukiRuntime

/-- Where a worker thread is: in `worker_loop`, out of its loop, behind the message that an
    isolated one sends, or at its end. -/
inductive WorkerAt where
  | looping
  | leaving (isolated : Bool)
  | announced
  | ended
  deriving DecidableEq

/-- The thread counts: it has not come to its end and, if `early`, has not announced it. -/
def WorkerAt.counts (early : Bool) : WorkerAt → Bool
  | .looping | .leaving _ => true
  | .announced => !early
  | .ended => false

structure WorkerThreads where
  threads : List WorkerAt
  isolated : Finset Nat := ∅
  degraded : Bool := false
  /-- The messages `WorkerExited` that the actor has not handled. -/
  mailbox : List Nat := []
  replaced : List Nat := []

inductive WorkerEvent where
  | isolate (worker : Nat)
  /-- A worker has finished a dispatch and looks whether it is isolated. -/
  | check (worker : Nat)
  /-- The queue is closed or the actor is gone. -/
  | quit (worker : Nat)
  /-- An isolated worker sends `WorkerExited`. -/
  | announce (worker : Nat)
  | finish (worker : Nat)
  /-- The actor handles the message; `spawned` if the system starts the new thread. -/
  | replaceExited (worker : Nat) (spawned : Bool)

namespace WorkerThreads

variable (maxIsolated : Nat)

def isolate (workers : WorkerThreads) (worker : Nat) : WorkerThreads :=
  if worker ∈ workers.isolated then workers
  else if workers.isolated.card ≥ maxIsolated then { workers with degraded := true }
  else
    let isolated := insert worker workers.isolated
    { workers with isolated, degraded := workers.degraded || isolated.card ≥ maxIsolated }

/-- `replace_exited_worker`. -/
def replaceExited (workers : WorkerThreads) (worker : Nat) (spawned : Bool) : WorkerThreads :=
  if worker ∉ workers.isolated then workers
  else
    let isolated := workers.isolated.erase worker
    let workers := { workers with isolated, degraded := isolated.card ≥ maxIsolated }
    if spawned then
      { workers with
        threads := workers.threads ++ [.looping]
        replaced := workers.replaced ++ [worker] }
    else workers

def goOn (workers : WorkerThreads) (worker : Nat) (thread : WorkerAt) : WorkerThreads :=
  { workers with threads := workers.threads.set worker thread }

def step (workers : WorkerThreads) : WorkerEvent → Option WorkerThreads
  | .isolate worker => some (workers.isolate maxIsolated worker)
  | .check worker =>
    if workers.threads[worker]? ≠ some .looping then none
    else if worker ∈ workers.isolated then some (workers.goOn worker (.leaving true))
    else some workers
  | .quit worker =>
    if workers.threads[worker]? ≠ some .looping then none
    else some (workers.goOn worker (.leaving false))
  | .announce worker =>
    if workers.threads[worker]? ≠ some (.leaving true) then none
    else some { workers.goOn worker .announced with mailbox := workers.mailbox ++ [worker] }
  | .finish worker =>
    if workers.threads[worker]? ∉ [some .announced, some (.leaving false)] then none
    else some (workers.goOn worker .ended)
  | .replaceExited worker spawned =>
    if workers.mailbox.head? ≠ some worker then none
    else some ({ workers with mailbox := workers.mailbox.tail }.replaceExited maxIsolated worker
      spawned)

/-- The threads that have not announced their exit. -/
def active (workers : WorkerThreads) : Nat := workers.threads.countP (·.counts true)

/-- The threads that have not come to their end. -/
def live (workers : WorkerThreads) : Nat := workers.threads.countP (·.counts false)

variable (early : Bool)

/-- The places of the threads that count, and of those whose message waits. -/
def occupied (workers : WorkerThreads) : Finset Nat :=
  (workers.threads.findIdxs (·.counts early)).toFinset ∪ workers.mailbox.toFinset

/-- The thread is there and does not count. -/
def Out (workers : WorkerThreads) (worker : Nat) : Prop :=
  ∃ thread, workers.threads[worker]? = some thread ∧ thread.counts early = false

structure Ok (configured : Nat) (workers : WorkerThreads) : Prop where
  bound : (workers.occupied early).card ≤ configured
  degraded : workers.degraded = decide (maxIsolated ≤ workers.isolated.card)
  announced : ∀ worker ∈ workers.mailbox ++ workers.replaced, workers.Out true worker
  replaced : ∀ worker ∈ workers.replaced, workers.Out early worker
  once : (workers.mailbox ++ workers.replaced).Nodup
  started : workers.threads.length = configured + workers.replaced.length

variable {maxIsolated early} {configured worker other : Nat} {workers after : WorkerThreads}
  {before thread : WorkerAt} {mailbox : List Nat} {spawned : Bool} {event : WorkerEvent}
  {past events : List WorkerEvent}

theorem mem_occupied : worker ∈ workers.occupied early ↔
    (∃ thread, workers.threads[worker]? = some thread ∧ thread.counts early = true) ∨
      worker ∈ workers.mailbox := by
  simp only [occupied, Finset.mem_union, List.mem_toFinset,
    List.mem_findIdxs_iff_exists_getElem_pos, List.getElem?_eq_some_iff]
  grind

theorem countP_le_occupied (workers : WorkerThreads) :
    workers.threads.countP (·.counts early) ≤ (workers.occupied early).card := by
  rw [← List.length_findIdxs, ← List.toFinset_card_of_nodup List.nodup_findIdxs]
  exact Finset.card_le_card Finset.subset_union_left

theorem threads_goOn (hworker : workers.threads[worker]? = some before) (other : Nat) :
    (workers.goOn worker thread).threads[other]? =
      if worker = other then some thread else workers.threads[other]? := by
  rw [goOn, List.getElem?_set, if_pos (List.getElem?_eq_some_iff.1 hworker).1]

/-- A thread that does not count never counts again. -/
theorem Out.goOn (h : workers.Out early other) (hworker : workers.threads[worker]? = some before)
    (hback : before.counts early = false → thread.counts early = false) :
    (workers.goOn worker thread).Out early other := by
  obtain ⟨found, hfound, hout⟩ := h
  unfold Out
  rw [threads_goOn hworker]
  split
  next heq =>
    cases heq
    cases hworker.symm.trans hfound
    exact ⟨thread, rfl, hback hout⟩
  next => exact ⟨found, hfound, hout⟩

theorem occupied_goOn (hworker : workers.threads[worker]? = some before)
    (hback : before.counts early = false → thread.counts early = false)
    (hmailbox : ∀ other ∈ mailbox,
      other ∈ workers.mailbox ∨ (other = worker ∧ before.counts early = true)) :
    { workers.goOn worker thread with mailbox }.occupied early ⊆ workers.occupied early := by
  intro other hother
  rw [mem_occupied]
  obtain ⟨found, hfound, hin⟩ | hwaits := mem_occupied.1 hother
  · change (workers.goOn worker thread).threads[other]? = some found at hfound
    rw [threads_goOn hworker] at hfound
    split at hfound
    next heq =>
      cases hfound
      refine .inl ⟨before, heq ▸ hworker, ?_⟩
      rw [← Bool.not_eq_false]
      exact fun hout => absurd hin (by simp [hback hout])
    next => exact .inl ⟨found, hfound, hin⟩
  · obtain hold | ⟨rfl, hin⟩ := hmailbox other hwaits
    · exact .inr hold
    · exact .inl ⟨before, hworker, hin⟩

theorem occupied_append (workers : WorkerThreads) :
    { workers with threads := workers.threads ++ [WorkerAt.looping] }.occupied early ⊆
      insert workers.threads.length (workers.occupied early) := by
  intro other hother
  rw [Finset.mem_insert, mem_occupied]
  obtain ⟨found, hfound, hin⟩ | hwaits := mem_occupied.1 hother
  · obtain hlt | hge := lt_or_ge other workers.threads.length
    · exact .inr (.inl ⟨found, (List.getElem?_append_left hlt).symm.trans hfound, hin⟩)
    · have hlt := (List.getElem?_eq_some_iff.1 hfound).1
      rw [List.length_append, List.length_singleton] at hlt
      exact .inl (by omega)
  · exact .inr (.inr hwaits)

/-- A thread goes on. -/
theorem Ok.goOn (h : Ok maxIsolated early configured workers)
    (hworker : workers.threads[worker]? = some before)
    (hback : ∀ early, before.counts early = false → thread.counts early = false) :
    Ok maxIsolated early configured (workers.goOn worker thread) :=
  ⟨(Finset.card_le_card (occupied_goOn hworker (hback _) fun _ hw => .inl hw)).trans h.bound,
    h.degraded, fun other hother => (h.announced other hother).goOn hworker (hback _),
    fun other hother => (h.replaced other hother).goOn hworker (hback _), h.once,
    (List.length_set ..).trans h.started⟩

/-- An isolated worker tells the actor that it exits, once. -/
theorem Ok.announce (h : Ok maxIsolated early configured workers)
    (hworker : workers.threads[worker]? = some (.leaving true)) :
    Ok maxIsolated early configured
      { workers.goOn worker .announced with mailbox := workers.mailbox ++ [worker] } := by
  have hgone : Ok maxIsolated early configured (workers.goOn worker .announced) :=
    h.goOn hworker (by decide)
  have hperm : ((workers.mailbox ++ [worker]) ++ workers.replaced).Perm
      (worker :: (workers.mailbox ++ workers.replaced)) := by
    rw [List.append_assoc]
    exact List.perm_middle
  refine ⟨(Finset.card_le_card (occupied_goOn hworker (fun hout => by cases hout)
    fun other hother => ?_)).trans h.bound, h.degraded, fun other hother => ?_, hgone.replaced, ?_,
    hgone.started⟩
  · exact (List.mem_append.1 hother).imp_right fun hlast => ⟨List.mem_singleton.1 hlast, rfl⟩
  · obtain rfl | hother := List.mem_cons.1 (hperm.mem_iff.1 hother)
    · exact ⟨.announced, (threads_goOn hworker _).trans (if_pos rfl), rfl⟩
    · exact hgone.announced other hother
  · refine hperm.nodup_iff.2 (List.nodup_cons.2 ⟨fun hmem => ?_, h.once⟩)
    obtain ⟨found, hfound, hout⟩ := h.announced worker hmem
    cases hworker.symm.trans hfound
    cases hout

theorem Ok.isolate (h : Ok maxIsolated early configured workers) (worker : Nat) :
    Ok maxIsolated early configured (workers.isolate maxIsolated worker) := by
  have hdegraded := h.degraded
  unfold WorkerThreads.isolate
  split
  · exact h
  · split
    next hfull => exact { h with degraded := (decide_eq_true hfull).symm }
    next hroom =>
      refine { h with degraded := ?_ }
      rw [hdegraded]
      simp [hroom]

/-- The message of an exit pays for the thread that is started, if its own does not count. -/
theorem Ok.replaceExited (h : Ok maxIsolated early configured workers)
    (hmailbox : workers.mailbox = worker :: mailbox) (hout : workers.Out early worker)
    (spawned : Bool) : Ok maxIsolated early configured
      ({ workers with mailbox }.replaceExited maxIsolated worker spawned) := by
  obtain ⟨hbound, hdegraded, hannounced, hreplaced, honce, hstarted⟩ := h
  rw [hmailbox] at hannounced honce
  obtain ⟨hnew, hrest⟩ := List.nodup_cons.1 honce
  have hfree : { workers with mailbox }.occupied early ⊆ (workers.occupied early).erase worker := by
    obtain ⟨thread, hthread, hout⟩ := hout
    intro other hother
    rw [Finset.mem_erase, mem_occupied, hmailbox]
    obtain ⟨found, hfound, hin⟩ | hwaits := mem_occupied.1 hother
    · refine ⟨?_, .inl ⟨found, hfound, hin⟩⟩
      rintro rfl
      cases hthread.symm.trans hfound
      cases hout.symm.trans hin
    · exact ⟨fun heq => hnew (List.mem_append_left _ (heq ▸ hwaits)),
        .inr (List.mem_cons_of_mem _ hwaits)⟩
  have hless : ({ workers with mailbox }.occupied early).card < configured := by
    refine (Finset.card_le_card hfree).trans_lt ((Finset.card_erase_lt_of_mem ?_).trans_le hbound)
    exact mem_occupied.2 (.inr (hmailbox ▸ List.mem_cons_self ..))
  have hothers := fun other hother => hannounced other (List.mem_cons_of_mem worker hother)
  unfold WorkerThreads.replaceExited
  split
  · exact ⟨hless.le, hdegraded, hothers, hreplaced, hrest, hstarted⟩
  · split
    · have hperm : (mailbox ++ (workers.replaced ++ [worker])).Perm
          (worker :: (mailbox ++ workers.replaced)) := by
        rw [← List.append_assoc]
        exact List.perm_append_singleton ..
      have hgrown : ∀ {early other}, workers.Out early other → Out early { workers with
          threads := workers.threads ++ [.looping] } other := by
        rintro early other ⟨found, hfound, hout⟩
        exact ⟨found, (List.getElem?_append_left (List.getElem?_eq_some_iff.1 hfound).1).trans
          hfound, hout⟩
      refine ⟨?_, rfl, fun other hother => hgrown (hannounced other (hperm.mem_iff.1 hother)),
        fun other hother => ?_, hperm.nodup_iff.2 honce, by simp [hstarted, Nat.add_assoc]⟩
      · exact (Finset.card_le_card (occupied_append { workers with mailbox })).trans
          ((Finset.card_insert_le _ _).trans hless)
      · obtain hold | hlast := List.mem_append.1 hother
        · exact hgrown (hreplaced other hold)
        · exact hgrown (List.mem_singleton.1 hlast ▸ hout)
    · exact ⟨hless.le, rfl, hothers, hreplaced, hrest, hstarted⟩

theorem replaceExited_eq_some (hstep : workers.step maxIsolated (.replaceExited worker spawned) =
    some after) : ∃ mailbox, workers.mailbox = worker :: mailbox ∧
      { workers with mailbox }.replaceExited maxIsolated worker spawned = after := by
  obtain ⟨hhead, hstep⟩ := Option.ite_none_left_eq_some.1 hstep
  obtain ⟨rest, hrest⟩ := List.head?_eq_some_iff.1 (not_not.1 hhead)
  rw [hrest] at hstep
  exact ⟨rest, hrest, Option.some.inj hstep⟩

theorem finish_eq_some (hstep : workers.step maxIsolated (.finish worker) = some after) :
    ∃ before, workers.threads[worker]? = some before ∧ before ≠ .ended ∧
      workers.goOn worker .ended = after := by
  obtain ⟨hready, hstep⟩ := Option.ite_none_left_eq_some.1 hstep
  rw [not_not, List.mem_pair] at hready
  obtain hready | hready := hready
  · exact ⟨_, hready, by decide, Option.some.inj hstep⟩
  · exact ⟨_, hready, by decide, Option.some.inj hstep⟩

/-- A step keeps the invariant if it handles no exit whose thread counts. -/
theorem Ok.step (h : Ok maxIsolated early configured workers)
    (hout : ∀ worker spawned, event = .replaceExited worker spawned → workers.Out early worker)
    (hstep : workers.step maxIsolated event = some after) :
    Ok maxIsolated early configured after := by
  cases event with
  | isolate worker =>
    cases hstep
    exact h.isolate worker
  | check worker =>
    obtain ⟨hlooping, hstep⟩ := Option.ite_none_left_eq_some.1 hstep
    split at hstep <;> cases hstep
    · exact h.goOn (not_not.1 hlooping) (by decide)
    · exact h
  | quit worker =>
    obtain ⟨hlooping, hstep⟩ := Option.ite_none_left_eq_some.1 hstep
    cases hstep
    exact h.goOn (not_not.1 hlooping) (by decide)
  | announce worker =>
    obtain ⟨hleaving, hstep⟩ := Option.ite_none_left_eq_some.1 hstep
    cases hstep
    exact h.announce (not_not.1 hleaving)
  | finish worker =>
    obtain ⟨before, hworker, -, rfl⟩ := finish_eq_some hstep
    exact h.goOn hworker fun _ _ => rfl
  | replaceExited worker spawned =>
    obtain ⟨mailbox, hmailbox, rfl⟩ := replaceExited_eq_some hstep
    exact h.replaceExited hmailbox (hout worker spawned rfl) spawned

/-- The threads of a new pool. -/
def new (configured : Nat) : WorkerThreads := { threads := List.replicate configured .looping }

theorem Ok.new (hmax : 0 < maxIsolated) : Ok maxIsolated early configured (new configured) := by
  refine ⟨?_, by simp [WorkerThreads.new, hmax.ne'], by simp [WorkerThreads.new],
    by simp [WorkerThreads.new], by simp [WorkerThreads.new], by simp [WorkerThreads.new]⟩
  refine (Finset.card_le_card (t := Finset.range configured) fun worker hworker => ?_).trans
    (Finset.card_range configured).le
  obtain ⟨thread, hthread, -⟩ | hf := mem_occupied.1 hworker
  · simpa [WorkerThreads.new] using (List.getElem?_eq_some_iff.1 hthread).1
  · cases hf

/-- Over every interleaving of the actor and the workers: no more threads than were configured
    have not announced their exit, the pool is degraded exactly while as many workers are isolated
    as may be, and a thread is started for a worker that has announced its exit, and for no worker
    twice. -/
theorem workers_replaced (hmax : 0 < maxIsolated)
    (hrun : Interleaving.run (step maxIsolated) (new configured) events = some workers) :
    workers.active ≤ configured ∧
    (workers.degraded ↔ maxIsolated ≤ workers.isolated.card) ∧
    workers.threads.length = configured + workers.replaced.length ∧ workers.replaced.Nodup ∧
    ∀ worker ∈ workers.replaced, workers.threads[worker]? = some .announced ∨
      workers.threads[worker]? = some .ended := by
  have h : Ok maxIsolated true configured workers := by
    refine Interleaving.run_invariant (fun before _ _ h hstep => h.step ?_ hstep) hrun (.new hmax)
    rintro worker spawned rfl
    obtain ⟨mailbox, hmailbox, -⟩ := replaceExited_eq_some hstep
    exact h.announced worker (by simp [hmailbox])
  refine ⟨(countP_le_occupied workers).trans h.bound, by rw [h.degraded, decide_eq_true_iff],
    h.started, (List.nodup_append.1 h.once).2.1, fun worker hworker => ?_⟩
  obtain ⟨thread, hthread, hout⟩ := h.replaced worker hworker
  rw [hthread]
  cases thread with
  | announced => exact .inl rfl
  | ended => exact .inr rfl
  | looping | leaving => cases hout

/-- One of two workers is isolated, announces its exit and is replaced. -/
theorem workers_replaced_sample :
    ∃ workers, Interleaving.run (step 1) (new 2)
        [.isolate 1, .check 1, .announce 1, .replaceExited 1 true] = some workers ∧
      workers.replaced = [1] ∧ workers.active ≤ 2 := by
  have hrun : Interleaving.run (step 1) (new 2)
    [.isolate 1, .check 1, .announce 1, .replaceExited 1 true] = some _ := rfl
  exact ⟨_, hrun, rfl, (workers_replaced Nat.one_pos hrun).1⟩

/-! ## Threads that end before they are replaced -/

/-- No exit is handled before the thread that sent it has come to its end. -/
def EndsFirst (events : List WorkerEvent) : Prop :=
  ∀ earlier later worker spawned,
    events = earlier ++ .replaceExited worker spawned :: later → .finish worker ∈ earlier

theorem EndsFirst.of_append {earlier later : List WorkerEvent}
    (h : EndsFirst (earlier ++ later)) : EndsFirst earlier := by
  rintro first rest worker spawned rfl
  exact h first (rest ++ later) worker spawned (by simp)

theorem ended_goOn (hworker : workers.threads[worker]? = some before) (hbefore : before ≠ .ended)
    (hended : workers.threads[other]? = some .ended) :
    (workers.goOn worker thread).threads[other]? = some .ended := by
  rw [threads_goOn hworker, if_neg]
  · exact hended
  · rintro rfl
    exact hbefore (Option.some.inj (hworker.symm.trans hended))

/-- A thread at its end stays there. -/
theorem ended_step (hstep : workers.step maxIsolated event = some after)
    (hended : workers.threads[other]? = some .ended) : after.threads[other]? = some .ended := by
  cases event with
  | isolate worker =>
    cases hstep
    unfold isolate
    split
    · exact hended
    · split <;> exact hended
  | check worker =>
    obtain ⟨hlooping, hstep⟩ := Option.ite_none_left_eq_some.1 hstep
    split at hstep <;> cases hstep
    · exact ended_goOn (not_not.1 hlooping) (by decide) hended
    · exact hended
  | quit worker =>
    obtain ⟨hlooping, hstep⟩ := Option.ite_none_left_eq_some.1 hstep
    cases hstep
    exact ended_goOn (not_not.1 hlooping) (by decide) hended
  | announce worker =>
    obtain ⟨hleaving, hstep⟩ := Option.ite_none_left_eq_some.1 hstep
    cases hstep
    exact ended_goOn (not_not.1 hleaving) (by decide) hended
  | finish worker =>
    obtain ⟨before, hworker, hbefore, rfl⟩ := finish_eq_some hstep
    exact ended_goOn hworker hbefore hended
  | replaceExited worker spawned =>
    obtain ⟨mailbox, -, rfl⟩ := replaceExited_eq_some hstep
    unfold replaceExited
    split
    · exact hended
    · split
      · exact (List.getElem?_append_left (List.getElem?_eq_some_iff.1 hended).1).trans hended
      · exact hended

/-- Over every interleaving in which no exit is handled before its thread has come to its end, no
    more threads live than were configured, and a thread is started for a worker whose own thread
    has come to its end, and for no worker twice. -/
theorem exited_workers_replaced (hmax : 0 < maxIsolated) (hends : EndsFirst events)
    (hrun : Interleaving.run (step maxIsolated) (new configured) events = some workers) :
    workers.live ≤ configured ∧
    (workers.degraded ↔ maxIsolated ≤ workers.isolated.card) ∧
    workers.threads.length = configured + workers.replaced.length ∧ workers.replaced.Nodup ∧
    ∀ worker ∈ workers.replaced, workers.threads[worker]? = some .ended := by
  have hhistory : (∀ worker, .finish worker ∈ events → workers.threads[worker]? = some .ended) ∧
      (EndsFirst events → Ok maxIsolated false configured workers) := by
    refine Interleaving.run_history (P := fun past workers => (∀ worker, .finish worker ∈ past →
      workers.threads[worker]? = some .ended) ∧
      (EndsFirst past → Ok maxIsolated false configured workers)) ?_ [] hrun
      ⟨by simp, fun _ => .new hmax⟩
    rintro past before after event ⟨hended, hok⟩ hstep
    refine ⟨fun worker hfinish => ?_, fun hends => (hok hends.of_append).step ?_ hstep⟩
    · obtain hpast | hlast := List.mem_append.1 hfinish
      · exact ended_step hstep (hended worker hpast)
      · obtain rfl := List.mem_singleton.1 hlast
        obtain ⟨_, hworker, -, rfl⟩ := finish_eq_some hstep
        exact (threads_goOn hworker _).trans (if_pos rfl)
    · rintro worker spawned rfl
      exact ⟨.ended, hended worker (hends past [] worker spawned rfl), rfl⟩
  have h := hhistory.2 hends
  refine ⟨(countP_le_occupied workers).trans h.bound, by rw [h.degraded, decide_eq_true_iff],
    h.started, (List.nodup_append.1 h.once).2.1, fun worker hworker => ?_⟩
  obtain ⟨thread, hthread, hout⟩ := h.replaced worker hworker
  rw [hthread]
  cases thread with
  | ended => rfl
  | looping | leaving | announced => cases hout

/-- One of two workers is isolated and returns, and then it is replaced. -/
theorem exited_workers_replaced_sample :
    ∃ workers, Interleaving.run (step 1) (new 2)
        [.isolate 1, .check 1, .announce 1, .finish 1, .replaceExited 1 true] = some workers ∧
      workers.replaced = [1] ∧ workers.live ≤ 2 := by
  have hrun : Interleaving.run (step 1) (new 2)
    [.isolate 1, .check 1, .announce 1, .finish 1, .replaceExited 1 true] = some _ := rfl
  have hends : EndsFirst [.isolate 1, .check 1, .announce 1, .finish 1, .replaceExited 1 true] := by
    intro earlier later worker spawned h
    simp [List.cons_eq_append_iff] at h
    grind
  exact ⟨_, hrun, rfl, (exited_workers_replaced Nat.one_pos hends hrun).1⟩

/-- The actor replaces a worker whose thread has sent its message and has not returned: two
    threads live where one was configured. -/
theorem announced_worker_lives_on :
    ∃ workers, Interleaving.run (step 1) (new 1)
        [.isolate 0, .check 0, .announce 0, .replaceExited 0 true] = some workers ∧
      workers.live = 2 ∧ workers.replaced = [0] ∧ workers.threads[0]? = some .announced :=
  ⟨_, rfl, rfl, rfl, rfl⟩

end WorkerThreads

end MutsukiRuntime
