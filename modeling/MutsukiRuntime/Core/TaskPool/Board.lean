/-
  THE TASK BOARD: what the task pool is for, without its indexes, counters and
  bounded histories.  A board holds a record for each stored task, at most one
  wait link for each parent, and the log of the leases taken up and given up.

  * `Board.Step` lists the moves of the board; `Change.Allows` is the status
    machine of one record.
  * `LeaseHistory`: the stored leases are the ones whose issue is the latest event of
    their task, and the whole log is `Fenced`: a lease is only ever given up while its
    own issue is the latest event of the task.

  `TaskPool.board` (in `Invariant`) maps a pool to its board, and every pool
  operation is shown to be a run of moves there.
-/
import Mathlib.Logic.Relation
import MutsukiRuntime.Core.TaskPool.Indexes

namespace MutsukiRuntime

open List Option

/-- A record at rest: it runs exactly while it holds a lease, and the lease is its own. -/
structure RecordOk (r : TaskRecord) : Prop where
  created : r.status ≠ .created
  running : r.status = .running ↔ r.lease.isSome
  claimed : r.claimedBy = r.lease.map (·.runnerId)
  leased : ∀ lease, r.lease = some lease → lease.taskId = r.task.taskId

variable {r : TaskRecord}

theorem RecordOk.lease_none (h : RecordOk r) (hs : r.status ≠ .running) : r.lease = none := by
  cases hl : r.lease with
  | none => rfl
  | some lease => exact absurd (h.running.2 (by simp [hl])) hs

/-- The same task: all that the transitions of a record touch is the lease it shows, its timer,
    its continuation and, if it is rebound, its generation. -/
def SameTask (rebound : Bool) (r r' : TaskRecord) : Prop :=
  r'.task =
    { r.task with
      leaseId := r'.task.leaseId
      readyAtStep := r'.task.readyAtStep
      continuationRef := r'.task.continuationRef
      registryGeneration := cond rebound r'.task.registryGeneration r.task.registryGeneration }

section SameTask

variable {rebound : Bool} {r r' : TaskRecord}

theorem SameTask.taskId (h : SameTask rebound r r') : r'.task.taskId = r.task.taskId :=
  (congrArg Task.taskId h : _)

theorem SameTask.protocolId (h : SameTask rebound r r') : r'.task.protocolId = r.task.protocolId :=
  (congrArg Task.protocolId h : _)

end SameTask

structure Board where
  tasks : TaskId → Option TaskRecord
  waits : TaskId → Option TaskAwait
  log : List LeaseEvent
  completed : List Task

/-! ## Moves -/

/-- The transitions of one record.  `takeOver` replaces the lease of a running record, which
    only a runner that accepts one protocol twice could do. -/
inductive Change where
  | claim (lease : TaskLease)
  | takeOver (lease : TaskLease)
  | release
  | wake
  | reject
  | finish
  | complete (lease : TaskLease)
  | rebind

/-- The transitions into a terminal status. -/
def Change.ends : Change → Bool
  | .reject | .finish | .complete _ => true
  | _ => false

def Change.rebinds : Change → Bool
  | .rebind => true
  | _ => false

def Change.Allows (r r' : TaskRecord) : Change → Prop
  | .claim lease => r.status = .ready ∧ r'.status = .running ∧ r'.lease = some lease
  | .takeOver lease => r.status = .running ∧ r'.status = .running ∧ r'.lease = some lease
  | .release => r.status = .running ∧
      (r'.status = .ready ∨ r'.status = .waiting ∨ r'.status = .blocked)
  | .wake => (r.status = .waiting ∨ r.status = .blocked) ∧ r'.status = .ready
  | .reject => r.status = .ready ∧ isTerminalStatus r'.status = true ∧ r'.status ≠ .completed
  | .finish => isTerminalStatus r.status = false ∧ isTerminalStatus r'.status = true ∧
      r'.status ≠ .completed
  | .complete lease => r.status = .running ∧ r.lease = some lease ∧ r'.status = .completed
  | .rebind => r.status = .ready ∧ r'.status = .ready

variable {r' : TaskRecord} {c : Change}

theorem Change.Allows.live (h : c.Allows r r') (hc : c.ends = false) :
    isTerminalStatus r'.status = false := by
  cases c with
  | claim | takeOver => simp [h.2.1, isTerminalStatus]
  | release => rcases h.2 with h | h | h <;> simp [h, isTerminalStatus]
  | wake => simp [h.2, isTerminalStatus]
  | reject | finish | complete => cases hc
  | rebind => simp [h.2, isTerminalStatus]

theorem Change.Allows.source_live (h : c.Allows r r') : isTerminalStatus r.status = false := by
  cases c with
  | wake => rcases h.1 with h | h <;> simp [h, isTerminalStatus]
  | finish => exact h.1
  | _ => simp [h.1, isTerminalStatus]

theorem Change.Allows.not_running (h : c.Allows r r') (hc : c.ends = true) :
    r'.status ≠ .running := by
  intro hrun
  cases c with
  | reject | finish =>
    have hterm := h.2.1
    rw [hrun] at hterm
    cases hterm
  | complete lease => cases hrun.symm.trans h.2.2
  | _ => cases hc

theorem Change.Allows.claims (h : c.Allows r r') (hrun : r'.status = .running) :
    ∃ lease, c = .claim lease ∨ c = .takeOver lease := by
  cases c with
  | claim lease => exact ⟨lease, .inl rfl⟩
  | takeOver lease => exact ⟨lease, .inr rfl⟩
  | release => rcases h.2 with hst | hst | hst <;> cases hrun.symm.trans hst
  | wake | rebind => cases hrun.symm.trans h.2
  | reject | finish | complete => exact absurd hrun (h.not_running rfl)

inductive Move where
  | submit (task : Task)
  | change (taskId : TaskId) (c : Change)
  | sweep (c : Change)
  | link (taskAwait : TaskAwait)
  | unlink
  | forget (taskId : TaskId)

namespace Board

/-- The lease of a stored record. -/
def lease (b : Board) (taskId : TaskId) : Option TaskLease :=
  (b.tasks taskId).bind (·.lease)

/-- A stored task that is not terminal. -/
def Live (b : Board) (taskId : TaskId) : Prop :=
  ∃ r, b.tasks taskId = some r ∧ isTerminalStatus r.status = false

/-- Overwrites a record, and logs the lease it takes up or gives up, and its completion. -/
def put (b : Board) (taskId : TaskId) (r : TaskRecord) : Board :=
  { b with
    tasks := Function.update b.tasks taskId (some r)
    log := leaseEvents (b.lease taskId) r.lease ++ b.log
    completed := completedTasks r ++ b.completed }

/-- Overwrites a record and drops the link of its task. -/
def close (b : Board) (taskId : TaskId) (r : TaskRecord) : Board :=
  { b.put taskId r with waits := Function.update b.waits taskId none }

@[simp] theorem close_tasks (b : Board) (taskId : TaskId) (r : TaskRecord) :
    (b.close taskId r).tasks = Function.update b.tasks taskId (some r) := rfl

inductive Step : Move → Board → Board → Prop where
  | submit {b : Board} (r : TaskRecord) (hnew : b.tasks r.task.taskId = none)
      (hready : r.status = .ready) (hok : RecordOk r) :
      Step (.submit r.task) b
        { b with tasks := Function.update b.tasks r.task.taskId (some r) }
  | change {b : Board} {taskId : TaskId} {r r' : TaskRecord} (c : Change)
      (hr : b.tasks taskId = some r) (hc : c.Allows r r') (hok : RecordOk r')
      (hsame : SameTask c.rebinds r r') :
      Step (.change taskId c) b (b.put taskId r')
  /- Many records at once; the ones that change hold no lease afterwards, and none completes. -/
  | sweep {b : Board} (c : Change) (f : TaskRecord → TaskRecord) (ended : List TaskLease)
      (hf : ∀ id r, b.tasks id = some r → f r = r ∨
        (c.Allows r (f r) ∧ RecordOk (f r) ∧ SameTask c.rebinds r (f r) ∧ (f r).lease = none))
      (hlive : c.ends = false ∨ c = .finish)
      (hnd : ended.Nodup)
      (hended : ∀ lease, lease ∈ ended ↔
        ∃ id r, b.tasks id = some r ∧ r.lease = some lease ∧ (f r).lease = none) :
      Step (.sweep c) b
        { b with tasks := fun id => (b.tasks id).map f, log := ended.map .ended ++ b.log }
  | link {b : Board} (taskAwait : TaskAwait) {child : TaskRecord}
      (hchild : b.tasks taskAwait.child.taskId = some child)
      (hprotocol : child.task.protocolId = taskAwait.child.protocolId)
      (hlive : isTerminalStatus child.status = false) :
      Step (.link taskAwait) b
        { b with waits := Function.update b.waits taskAwait.parentTaskId (some taskAwait) }
  | unlink {b : Board} (keep : TaskAwait → Bool) :
      Step .unlink b { b with waits := fun id => (b.waits id).filter keep }
  | forget {b : Board} {taskId : TaskId} {r : TaskRecord} (hr : b.tasks taskId = some r)
      (hterm : isTerminalStatus r.status = true) (hparent : b.waits taskId = none)
      (hchild : ∀ parent taskAwait, b.waits parent = some taskAwait →
        taskAwait.child.taskId ≠ taskId) :
      Step (.forget taskId) b { b with tasks := Function.update b.tasks taskId none }

/-- A run of allowed moves. -/
def Reach (allowed : Move → Prop) : Board → Board → Prop :=
  Relation.ReflTransGen fun b b' => ∃ m, allowed m ∧ Step m b b'

variable {m : Move}

namespace Reach

variable {allowed allowed' : Move → Prop} {b b' b'' : Board}

theorem refl : Reach allowed b b := Relation.ReflTransGen.refl

theorem step (h : Reach allowed b b') (hm : allowed m) (hs : Step m b' b'') : Reach allowed b b'' :=
  h.tail ⟨m, hm, hs⟩

theorem mono (hle : ∀ m, allowed m → allowed' m) (h : Reach allowed b b') : Reach allowed' b b' :=
  Relation.ReflTransGen.mono (fun _ _ ⟨m, hm, hs⟩ => ⟨m, hle m hm, hs⟩) _ _ h

theorem trans (h : Reach allowed b b') (h' : Reach allowed b' b'') : Reach allowed b b'' :=
  Relation.ReflTransGen.trans h h'

theorem invariant {I : Board → Prop} (h : Reach allowed b b')
    (hstep : ∀ m b b', allowed m → Step m b b' → I b → I b') (hb : I b) : I b' := by
  induction h with
  | refl => exact hb
  | tail _ hs ih =>
    obtain ⟨m, hm, hs⟩ := hs
    exact hstep m _ _ hm hs ih

end Reach

@[simp] theorem put_tasks (b : Board) (taskId : TaskId) (r : TaskRecord) :
    (b.put taskId r).tasks = Function.update b.tasks taskId (some r) := rfl

/-! ## Records -/

variable {b b' : Board} {id : TaskId} {v : TaskRecord}

/-- Where the records of a board come from: each is an old one, a submitted one, or the outcome
    of a transition. -/
theorem Step.record (hs : Step m b b') (hv : b'.tasks id = some v) : b.tasks id = some v ∨
    (m = .submit v.task ∧ b.tasks id = none ∧ v.task.taskId = id ∧ v.status = .ready ∧ RecordOk v) ∨
    ∃ c r, (m = .change id c ∨ m = .sweep c) ∧ b.tasks id = some r ∧ c.Allows r v ∧
      RecordOk v ∧ SameTask c.rebinds r v := by
  cases hs with
  | submit r hnew hready hok =>
    simp only [Function.update_apply] at hv
    split at hv
    next hid =>
      cases hv
      exact .inr (.inl ⟨rfl, by rw [hid]; exact hnew, hid.symm, hready, hok⟩)
    · exact .inl hv
  | @change _ taskId r r' c hr hc hok hsame =>
    simp only [put_tasks, Function.update_apply] at hv
    split at hv
    next hid =>
      cases hv
      subst hid
      exact .inr (.inr ⟨c, r, .inl rfl, hr, hc, hok, hsame⟩)
    · exact .inl hv
  | sweep c f ended hf =>
    obtain ⟨r, hr, rfl⟩ := map_eq_some_iff.1 hv
    rcases hf id r hr with he | ⟨hc, hok, hsame, -⟩
    · left; rw [he]; exact hr
    · exact .inr (.inr ⟨c, r, .inr rfl, hr, hc, hok, hsame⟩)
  | link | unlink => exact .inl hv
  | forget =>
    simp only [Function.update_apply] at hv
    split at hv
    · cases hv
    · exact .inl hv

/-- What becomes of a stored record: it stays, a transition replaces it, or it is forgotten,
    being terminal and named by no link. -/
theorem Step.stored (hs : Step m b b') (hr : b.tasks id = some r) : b'.tasks id = some r ∨
    (∃ c v, (m = .change id c ∨ m = .sweep c) ∧ c.Allows r v ∧ SameTask c.rebinds r v ∧
      b'.tasks id = some v) ∨
    (isTerminalStatus r.status = true ∧ b'.waits = b.waits ∧
      ∀ parent taskAwait, b.waits parent = some taskAwait → taskAwait.child.taskId ≠ id) := by
  cases hs with
  | submit v hnew =>
    left
    simp only [Function.update_apply]
    split
    next he =>
      rw [← he, hr] at hnew
      cases hnew
    · exact hr
  | @change _ taskId v v' c hv hc hok hsame =>
    by_cases he : id = taskId
    · subst he
      cases hr.symm.trans hv
      exact .inr (.inl ⟨c, v', .inl rfl, hc, hsame, by simp⟩)
    · exact .inl (by simp [he, hr])
  | sweep c f ended hf =>
    rcases hf id r hr with he | ⟨hc, -, hsame, -⟩
    · exact .inl (by simp [hr, he])
    · exact .inr (.inl ⟨c, f r, .inr rfl, hc, hsame, by simp [hr]⟩)
  | link | unlink => exact .inl hr
  | @forget _ taskId v hv hterm hparent hchild =>
    by_cases he : id = taskId
    · subst he
      cases hr.symm.trans hv
      exact .inr (.inr ⟨hterm, rfl, hchild⟩)
    · exact .inl (by simp [he, hr])

structure Wf (b : Board) : Prop where
  keyed : ∀ id r, b.tasks id = some r → r.task.taskId = id
  ok : ∀ id r, b.tasks id = some r → RecordOk r

theorem Wf.step (h : Wf b) (hs : Step m b b') : Wf b' := by
  constructor
  · intro id v hv
    rcases hs.record hv with hold | ⟨-, -, hid, -⟩ | ⟨c, r, -, hr, -, -, hsame⟩
    · exact h.keyed id v hold
    · exact hid
    · rw [hsame.taskId]; exact h.keyed id r hr
  · intro id v hv
    rcases hs.record hv with hold | ⟨-, -, -, -, hok⟩ | ⟨c, r, -, -, -, hok, -⟩
    · exact h.ok id v hold
    · exact hok
    · exact hok

/-! ## Leases -/

/-- The latest event of a task. -/
def latest (log : List LeaseEvent) (taskId : TaskId) : Option LeaseEvent :=
  log.find? (·.taskId == taskId)

/-- Every event was in order when it was logged: a lease is issued once and to a task without an
    open lease, and it ends while its issue is the latest event of its task. -/
def Fenced : List LeaseEvent → Prop
  | [] => True
  | .issued lease :: log =>
    LeaseEvent.issued lease ∉ log ∧
      (∀ other, latest log lease.taskId ≠ some (.issued other)) ∧ Fenced log
  | .ended lease :: log => latest log lease.taskId = some (.issued lease) ∧ Fenced log

theorem latest_cons (e : LeaseEvent) (log : List LeaseEvent) (id : TaskId) :
    latest (e :: log) id = if e.taskId = id then some e else latest log id := by
  unfold latest
  rw [find?_cons]
  by_cases h : e.taskId = id
  · simp [h]
  · rw [if_neg h, beq_false_of_ne h]

variable {log : List LeaseEvent}

theorem latest_ended {ended : List TaskLease} (h : ∀ lease ∈ ended, lease.taskId ≠ id) :
    latest (ended.map .ended ++ log) id = latest log id := by
  induction ended with
  | nil => rfl
  | cons l ended ih =>
    have hne : ¬ (LeaseEvent.ended l).taskId = id := h l (by simp)
    rw [map_cons, cons_append, latest_cons, if_neg hne]
    exact ih fun l' hl' => h l' (by simp [hl'])

variable {lease : TaskLease}

theorem Fenced.issued_of_ended (h : Fenced log) (hmem : LeaseEvent.ended lease ∈ log) :
    LeaseEvent.issued lease ∈ log := by
  induction log with
  | nil => cases hmem
  | cons e log ih =>
    cases e with
    | issued l =>
      have hrest : LeaseEvent.ended lease ∈ log := by simpa using hmem
      exact mem_cons_of_mem _ (ih h.2.2 hrest)
    | ended l =>
      rcases mem_cons.1 hmem with he | hrest
      · cases he
        exact mem_cons_of_mem _ (mem_of_find?_eq_some h.1)
      · exact mem_cons_of_mem _ (ih h.2 hrest)

/-- A task whose latest event is the issue of a lease has not ended that lease. -/
theorem Fenced.not_ended (h : Fenced log) (hl : latest log lease.taskId = some (.issued lease)) :
    LeaseEvent.ended lease ∉ log := by
  induction log with
  | nil => simp
  | cons e log ih =>
    rw [latest_cons] at hl
    intro hmem
    cases e with
    | issued l =>
      have hrest : LeaseEvent.ended lease ∈ log := by simpa using hmem
      split at hl
      · cases hl
        exact h.1 (h.2.2.issued_of_ended hrest)
      · exact ih h.2.2 hl hrest
    | ended l =>
      split at hl
      · cases hl
      next hne =>
        rcases mem_cons.1 hmem with he | hrest
        · cases he
          exact hne rfl
        · exact ih h.2 hl hrest

theorem Fenced.ended_once (h : Fenced log) (lease : TaskLease) : log.count (.ended lease) ≤ 1 := by
  induction log with
  | nil => simp
  | cons e log ih =>
    cases e with
    | issued l =>
      rw [count_cons_of_ne (by simp)]
      exact ih h.2.2
    | ended l =>
      rw [count_cons]
      split
      next he =>
        have hl : l = lease := by simpa using he
        subst hl
        have hzero := count_eq_zero_of_not_mem (h.2.not_ended h.1)
        omega
      · exact ih h.2

theorem Step.issued (hs : Step m b b') (hl : LeaseEvent.issued lease ∈ b'.log) :
    LeaseEvent.issued lease ∈ b.log ∨
      ∃ id, m = .change id (.claim lease) ∨ m = .change id (.takeOver lease) := by
  cases hs with
  | submit => exact .inl hl
  | @change _ taskId r r' c hr hc hok hsame =>
    rcases mem_append.1 hl with hnew | hold
    · have hlease : r'.lease = some lease := by
        unfold leaseEvents at hnew
        split at hnew
        · cases hnew
        · simpa using hnew
      obtain ⟨l, hclaim⟩ := hc.claims (hok.running.2 (by simp [hlease]))
      right
      rcases hclaim with rfl | rfl
      · rw [hc.2.2] at hlease
        exact ⟨taskId, .inl (by rw [some.inj hlease])⟩
      · rw [hc.2.2] at hlease
        exact ⟨taskId, .inr (by rw [some.inj hlease])⟩
    · exact .inl hold
  | sweep =>
    rcases mem_append.1 hl with hnew | hold
    · simp at hnew
    · exact .inl hold
  | link | unlink | forget => exact .inl hl

variable {allowed : Move → Prop}

theorem Reach.issued (h : Reach allowed b b')
    (hclaim : ∀ id lease, ¬ allowed (.change id (.claim lease)))
    (htake : ∀ id lease, ¬ allowed (.change id (.takeOver lease)))
    (hl : LeaseEvent.issued lease ∈ b'.log) : LeaseEvent.issued lease ∈ b.log := by
  refine h.invariant (I := fun c => LeaseEvent.issued lease ∈ c.log →
    LeaseEvent.issued lease ∈ b.log) ?_ (fun hb => hb) hl
  intro m c c' hm hs hc hl
  rcases hs.issued hl with hold | ⟨id, rfl | rfl⟩
  · exact hc hold
  · exact absurd hm (hclaim id lease)
  · exact absurd hm (htake id lease)

structure LeaseHistory (b : Board) : Prop where
  wf : Wf b
  held : ∀ id lease, latest b.log id = some (.issued lease) ↔ b.lease id = some lease
  fenced : Fenced b.log

namespace LeaseHistory

variable {m : Move} {b b' : Board}

theorem taskId (h : LeaseHistory b) (hl : b.lease id = some lease) : lease.taskId = id := by
  obtain ⟨r, hr, hrl⟩ := bind_eq_some_iff.1 hl
  exact ((h.wf.ok id r hr).leased lease hrl).trans (h.wf.keyed id r hr)

theorem claim (h : LeaseHistory b) (hr : b.tasks id = some r) (hidle : r.lease = none)
    (hl : r'.lease = some lease) (hfresh : LeaseEvent.issued lease ∉ b.log)
    (hwf : Wf (b.put id r')) :
    LeaseHistory (b.put id r') := by
  have hnone : b.lease id = none := by simp [Board.lease, hr, hidle]
  have hlog : (b.put id r').log = .issued lease :: b.log := by
    simp [put, hnone, hl, leaseEvents]
  have hself : (b.put id r').tasks id = some r' := by simp
  have hid : lease.taskId = id :=
    ((hwf.ok id r' hself).leased lease hl).trans (hwf.keyed id r' hself)
  refine ⟨hwf, ?_, ?_⟩
  · intro i l
    rw [hlog, latest_cons]
    show (if lease.taskId = i then _ else _) = _ ↔ _
    simp only [Board.lease, put_tasks, Function.update_apply, hid, eq_comm (a := i)]
    split
    · simp [hl]
    · exact h.held i l
  · rw [hlog]
    refine ⟨hfresh, fun other ho => ?_, h.fenced⟩
    rw [hid] at ho
    have hheld := (h.held id other).1 ho
    rw [hnone] at hheld
    cases hheld

/-- Records that give up the leases `ended`, all held, and take up none. -/
theorem giveUp (h : LeaseHistory b) (hwf : Wf b') (ended : List TaskLease)
    (hlog : b'.log = ended.map .ended ++ b.log) (hnd : (ended.map (·.taskId)).Nodup)
    (hheld : ∀ lease ∈ ended, b.lease lease.taskId = some lease)
    (hgiven : ∀ lease ∈ ended, b'.lease lease.taskId = none)
    (hkept : ∀ id, (∀ lease ∈ ended, lease.taskId ≠ id) → b'.lease id = b.lease id) :
    LeaseHistory b' := by
  refine ⟨hwf, ?_, ?_⟩
  · intro id lease
    rw [hlog]
    by_cases hid : ∃ l ∈ ended, l.taskId = id
    · obtain ⟨l, hl, rfl⟩ := hid
      have hended : ∃ l', latest (ended.map .ended ++ b.log) l.taskId = some (.ended l') := by
        clear hlog hgiven hkept hheld hnd
        induction ended with
        | nil => cases hl
        | cons a ended ih =>
          rw [map_cons, cons_append, latest_cons]
          split
          · exact ⟨a, rfl⟩
          next hne =>
            rcases mem_cons.1 hl with rfl | hl
            · exact absurd rfl hne
            · exact ih hl
      obtain ⟨l', hl'⟩ := hended
      rw [hl', hgiven l hl]
      simp
    · have hne : ∀ l ∈ ended, l.taskId ≠ id := fun l hl he => hid ⟨l, hl, he⟩
      rw [latest_ended hne, hkept id hne]
      exact h.held id lease
  · rw [hlog]
    clear hlog hgiven hkept
    induction ended with
    | nil => exact h.fenced
    | cons a ended ih =>
      rw [map_cons, nodup_cons] at hnd
      refine ⟨?_, ih hnd.2 fun l hl => hheld l (by simp [hl])⟩
      have hne : ∀ l ∈ ended, l.taskId ≠ a.taskId := fun l hl he =>
        hnd.1 (List.mem_map.2 ⟨l, hl, he⟩)
      exact (latest_ended hne).trans ((h.held _ a).2 (hheld a (by simp)))

theorem same (h : LeaseHistory b) (hwf : Wf b') (hlog : b'.log = b.log)
    (hlease : ∀ id, b'.lease id = b.lease id) : LeaseHistory b' :=
  h.giveUp hwf [] hlog nodup_nil (by simp) (by simp) fun id _ => hlease id

theorem release (h : LeaseHistory b) (hr : b.tasks id = some r) (hl : r'.lease = none)
    (hwf : Wf (b.put id r')) :
    LeaseHistory (b.put id r') := by
  have hold : b.lease id = r.lease := by simp [Board.lease, hr]
  refine h.giveUp hwf r.lease.toList ?_ ?_ ?_ ?_ ?_
  · cases hrl : r.lease <;> simp [put, hold, hl, hrl, leaseEvents]
  · cases r.lease <;> simp
  · intro lease hmem
    rw [mem_toList] at hmem
    have hlease : b.lease id = some lease := by rw [hold]; exact hmem
    rw [h.taskId hlease]
    exact hlease
  · intro lease hmem
    rw [mem_toList] at hmem
    have hlease : b.lease id = some lease := by rw [hold]; exact hmem
    rw [h.taskId hlease]
    simp [Board.lease, hl]
  · intro i hne
    simp only [Board.lease, put_tasks, Function.update_apply]
    split
    next hi =>
      subst hi
      cases hrl : r.lease with
      | none => simp [hl, hr, hrl]
      | some lease =>
        exact absurd (h.taskId (hold.trans hrl)) (hne lease (by simp [hrl]))
    · rfl

/-- Every move keeps the history, provided claims take up fresh leases. -/
theorem step (h : LeaseHistory b) (hs : Step m b b')
    (hclaim : ∀ id lease, m = .change id (.claim lease) → LeaseEvent.issued lease ∉ b.log)
    (htake : ∀ id lease, m ≠ .change id (.takeOver lease)) : LeaseHistory b' := by
  have hwf : Wf b' := h.wf.step hs
  cases hs with
  | submit r hnew hready hok =>
    refine h.same hwf rfl fun id => ?_
    simp only [Board.lease, Function.update_apply]
    split
    · next hid => simp [hid, hnew, hok.lease_none (by simp [hready])]
    · rfl
  | @change _ taskId r r' c hr hc hok hsame =>
    by_cases hrun : r'.status = .running
    · obtain ⟨lease, rfl | rfl⟩ := hc.claims hrun
      · exact h.claim hr ((h.wf.ok _ r hr).lease_none (by simp [hc.1])) hc.2.2
          (hclaim taskId lease rfl) hwf
      · exact absurd rfl (htake taskId lease)
    · exact h.release hr (hok.lease_none hrun) hwf
  | sweep c f ended hf hlive hnd hended =>
    have hheld : ∀ lease ∈ ended, ∃ r, b.tasks lease.taskId = some r ∧ r.lease = some lease ∧
        (f r).lease = none := by
      intro lease hmem
      obtain ⟨id, r, hr, hl, hnone⟩ := (hended lease).1 hmem
      have hlease : b.lease id = some lease := by simp [Board.lease, hr, hl]
      have hid := h.taskId hlease
      exact ⟨r, by rw [hid]; exact hr, hl, hnone⟩
    refine h.giveUp hwf ended rfl ?_ ?_ ?_ ?_
    · refine hnd.map_on ?_
      intro l hl l' hl' he
      obtain ⟨r, hr, hrl, -⟩ := hheld l hl
      obtain ⟨r', hr', hrl', -⟩ := hheld l' hl'
      rw [he, hr'] at hr
      cases hr
      rw [hrl] at hrl'
      exact some.inj hrl'
    · intro lease hmem
      obtain ⟨r, hr, hl, -⟩ := hheld lease hmem
      simp [Board.lease, hr, hl]
    · intro lease hmem
      obtain ⟨r, hr, -, hnone⟩ := hheld lease hmem
      simp [Board.lease, hr, hnone]
    · intro id hne
      simp only [Board.lease]
      cases hr : b.tasks id with
      | none => rfl
      | some r =>
        simp only [map_some, bind_some]
        rcases hf id r hr with he | ⟨-, -, -, hnone⟩
        · rw [he]
        · cases hrl : r.lease with
          | none => rw [hnone]
          | some lease =>
            have hmem := (hended lease).2 ⟨id, r, hr, hrl, hnone⟩
            exact absurd (h.taskId (by simp [Board.lease, hr, hrl])) (hne lease hmem)
  | link | unlink => exact h.same hwf rfl fun _ => rfl
  | @forget _ taskId r hr hterm hparent hchild =>
    refine h.same hwf rfl fun id => ?_
    simp only [Board.lease, Function.update_apply]
    split
    next hid =>
      have hnone := (h.wf.ok taskId r hr).lease_none fun hst => by
        rw [hst] at hterm
        cases hterm
      simp [hid, hr, hnone]
    · rfl

theorem reach (h : LeaseHistory b) (hr : Reach allowed b b')
    (hclaim : ∀ id lease, ¬ allowed (.change id (.claim lease)))
    (htake : ∀ id lease, ¬ allowed (.change id (.takeOver lease))) : LeaseHistory b' :=
  hr.invariant (fun _ _ _ hm hs hb => hb.step hs
    (fun id lease he => absurd (he ▸ hm) (hclaim id lease))
    (fun id lease he => htake id lease (he ▸ hm))) h

end LeaseHistory

/-- A claim of `runner` at `step`. -/
def ClaimBy (runner : RunnerId) (step : Nat) (m : Move) : Prop :=
  ∃ id lease, m = .change id (.claim lease) ∧ lease.runnerId = runner ∧
    lease.acquiredAtStep = step

variable {runner : RunnerId}

/-- Claims of one runner at a step at which it took up no lease yet take up fresh leases: a task
    claimed in the run holds its lease, so it is not claimed again. -/
theorem LeaseHistory.claims {step : Nat} (h : LeaseHistory b)
    (hnone : ∀ lease, LeaseEvent.issued lease ∈ b.log →
      ¬ (lease.runnerId = runner ∧ lease.acquiredAtStep = step))
    (hr : Reach (ClaimBy runner step) b b') :
    LeaseHistory b' ∧ ∀ lease, LeaseEvent.issued lease ∈ b'.log → LeaseEvent.issued lease ∈ b.log ∨
        (lease.runnerId = runner ∧ lease.acquiredAtStep = step) := by
  have hI : LeaseHistory b' ∧ ∀ lease, LeaseEvent.issued lease ∈ b'.log →
      LeaseEvent.issued lease ∈ b.log ∨ (lease.runnerId = runner ∧
        lease.acquiredAtStep = step ∧ b'.lease lease.taskId = some lease) := by
    refine hr.invariant (I := fun b' => LeaseHistory b' ∧ ∀ lease,
      LeaseEvent.issued lease ∈ b'.log → LeaseEvent.issued lease ∈ b.log ∨
        (lease.runnerId = runner ∧ lease.acquiredAtStep = step ∧
          b'.lease lease.taskId = some lease)) ?_ ⟨h, fun lease hl => .inl hl⟩
    rintro _ c c' ⟨id, lease, rfl, hrunner, hstep⟩ hs ⟨hc, hcl⟩
    cases hs with
    | @change _ _ r r' _ hr ha hok hsame =>
      have hidle : r.lease = none := (hc.wf.ok id r hr).lease_none (by simp [ha.1])
      have hfree : c.lease id = none := by simp [Board.lease, hr, hidle]
      have hid : lease.taskId = id := by
        rw [hok.leased lease ha.2.2, hsame.taskId]
        exact hc.wf.keyed id r hr
      have hfresh : LeaseEvent.issued lease ∉ c.log := by
        intro hmem
        rcases hcl lease hmem with hb | ⟨-, -, hheld⟩
        · exact hnone lease hb ⟨hrunner, hstep⟩
        · rw [hid, hfree] at hheld
          cases hheld
      refine ⟨hc.claim hr hidle ha.2.2 hfresh
        (hc.wf.step (.change (.claim lease) hr ha hok hsame)), ?_⟩
      intro l hl
      have hlog : (c.put id r').log = .issued lease :: c.log := by
        simp [put, hfree, ha.2.2, leaseEvents]
      rw [hlog, mem_cons] at hl
      rcases hl with hl | hl
      · cases hl
        exact .inr ⟨hrunner, hstep, by simp [Board.lease, hid, ha.2.2]⟩
      · refine (hcl l hl).imp_right fun ⟨h1, h2, hheld⟩ => ⟨h1, h2, ?_⟩
        have hne : l.taskId ≠ id := by
          intro he
          rw [he, hfree] at hheld
          cases hheld
        simpa [Board.lease, Function.update_of_ne hne] using hheld
  exact ⟨hI.1, fun lease hl => (hI.2 lease hl).imp_right fun hc => ⟨hc.1, hc.2.1⟩⟩

/-! ## Wait links -/

/-- Every link names a stored child under its own protocol, which is not terminal unless it is
    in `done`. -/
def Awake (done : TaskId → Prop) (b : Board) : Prop :=
  ∀ parent taskAwait, b.waits parent = some taskAwait →
    ∃ r, b.tasks taskAwait.child.taskId = some r ∧
      r.task.protocolId = taskAwait.child.protocolId ∧
      (isTerminalStatus r.status = true → done taskAwait.child.taskId)

variable {parent : TaskId} {a : TaskAwait}

/-- A link of the next board is an old one, or a new one on a live child. -/
theorem Step.waits (hs : Step m b b') {taskAwait : TaskAwait}
    (hw : b'.waits parent = some taskAwait) :
    b.waits parent = some taskAwait ∨ (m = .link taskAwait ∧ b'.tasks = b.tasks ∧
        ∃ r, b.tasks taskAwait.child.taskId = some r ∧
          r.task.protocolId = taskAwait.child.protocolId ∧
          isTerminalStatus r.status = false) := by
  cases hs with
  | submit | change | sweep => exact .inl hw
  | link a hchild hprotocol hlive =>
    simp only [Function.update_apply] at hw
    split at hw
    · cases hw
      exact .inr ⟨rfl, rfl, _, hchild, hprotocol, hlive⟩
    · exact .inl hw
  | unlink keep => exact .inl (filter_eq_some_iff.1 hw).1
  | forget => exact .inl hw

namespace Awake

variable {done : TaskId → Prop} {m : Move} {b b' : Board}

theorem step (h : Awake done b) (hs : Step m b b')
    (hchange : ∀ id c, c.ends = true → m = .change id c → done id)
    (hsweep : ∀ c, c.ends = true → m = .sweep c → ∀ id, done id) : Awake done b' := by
  intro parent taskAwait hw
  rcases hs.waits hw with hold | ⟨-, htasks, r, hr, hprotocol, hlive⟩
  · obtain ⟨r, hr, hprotocol, hdone⟩ := h parent taskAwait hold
    rcases hs.stored hr with hv | ⟨c, v, hm, hc, hsame, hv⟩ | ⟨-, -, hne⟩
    · exact ⟨r, hv, hprotocol, hdone⟩
    · refine ⟨v, hv, hsame.protocolId.trans hprotocol, fun hterm => ?_⟩
      cases hends : c.ends with
      | true => exact hm.elim (hchange _ c hends) fun hm => hsweep c hends hm _
      | false =>
        rw [hc.live hends] at hterm
        cases hterm
    · exact absurd rfl (hne parent taskAwait hold)
  · refine ⟨r, by rw [htasks]; exact hr, hprotocol, fun hterm => ?_⟩
    rw [hlive] at hterm
    cases hterm

theorem reach (h : Awake done b) (hr : Reach allowed b b')
    (hchange : ∀ id c, c.ends = true → allowed (.change id c) → done id)
    (hsweep : ∀ c, c.ends = true → allowed (.sweep c) → ∀ id, done id) : Awake done b' :=
  hr.invariant (fun _ _ _ hm hs hb => hb.step hs (fun id c hc he => hchange id c hc (he ▸ hm))
    (fun c hc he => hsweep c hc (he ▸ hm))) h

variable {done' : TaskId → Prop}

/-- A terminal child may leave `done` when no link names it. -/
theorem settle (h : Awake done b) (hfree : ∀ parent taskAwait, b.waits parent = some taskAwait →
      done taskAwait.child.taskId → done' taskAwait.child.taskId) : Awake done' b := by
  intro parent taskAwait hw
  obtain ⟨r, hr, hprotocol, hd⟩ := h parent taskAwait hw
  exact ⟨r, hr, hprotocol, fun ht => hfree parent taskAwait hw (hd ht)⟩

theorem mono (h : Awake done b) (hle : ∀ id, done id → done' id) : Awake done' b :=
  h.settle fun _ taskAwait _ hd => hle taskAwait.child.taskId hd

end Awake

theorem Reach.live_or_submitted {new : TaskId → Prop} (h : Reach allowed b b')
    (hnew : ∀ task, allowed (.submit task) → new task.taskId) (hl : b'.Live id) :
    b.Live id ∨ new id := by
  refine h.invariant (I := fun c => c.Live id → b.Live id ∨ new id) ?_ .inl hl
  rintro m c c' hm hs hc ⟨v, hv, hlive⟩
  rcases hs.record hv with hold | ⟨rfl, -, hid, -⟩ | ⟨ch, r, -, hr, ha, -⟩
  · exact hc ⟨v, hold, hlive⟩
  · exact .inr (hid ▸ hnew v.task hm)
  · exact hc ⟨r, hr, ha.source_live⟩

theorem Reach.live_kept (h : Reach allowed b b') (hnew : ∀ task, ¬ allowed (.submit task))
    (hl : b'.Live id) : b.Live id := by
  rcases @Reach.live_or_submitted b b' id allowed (fun _ => False) h hnew hl with hold | hf
  · exact hold
  · exact hf.elim

/-- A task that is not live and is not submitted again keeps its record, or loses it. -/
theorem Reach.dead_kept (h : Reach allowed b b')
    (hid : ∀ task, task.taskId = id → ¬ allowed (.submit task)) (hdead : ¬ b.Live id) :
    b'.tasks id = b.tasks id ∨ b'.tasks id = none := by
  refine h.invariant (I := fun c => c.tasks id = b.tasks id ∨ c.tasks id = none) ?_ (.inl rfl)
  intro m c c' hm hs hc
  cases hv : c'.tasks id with
  | none => exact .inr rfl
  | some v =>
    left
    rcases hs.record hv with hold | ⟨rfl, -, he, -⟩ | ⟨ch, r, -, hr, ha, -⟩
    · rcases hc with hc | hc
      · exact hold.symm.trans hc
      · cases hold.symm.trans hc
    · exact absurd hm (hid v.task he)
    · rcases hc with hc | hc
      · exact absurd ⟨r, hc.symm.trans hr, ha.source_live⟩ hdead
      · cases hr.symm.trans hc

theorem Reach.waits_linked (h : Reach allowed b b') (hw : b'.waits parent = some a) :
    b.waits parent = some a ∨ allowed (.link a) := by
  refine h.invariant (I := fun c => ∀ a, c.waits parent = some a →
    b.waits parent = some a ∨ allowed (.link a)) ?_ (fun _ hb => .inl hb) a hw
  intro m c c' hm hs hc a hw
  rcases hs.waits hw with hw | ⟨rfl, -⟩
  · exact hc a hw
  · exact .inr hm

theorem Reach.unclaimed (h : Reach allowed b b')
    (hclaims : ∀ id c lease, allowed (.change id c) ∨ allowed (.sweep c) →
      c ≠ .claim lease ∧ c ≠ .takeOver lease) (hv : b'.tasks id = some v)
    (hrun : RecordOk v → v.status = .running) : b.tasks id = some v := by
  refine h.invariant (I := fun c => c.tasks id = some v → b.tasks id = some v) ?_ (fun hb => hb) hv
  intro m c c' hm hs hc hv
  rcases hs.record hv with hold | ⟨-, -, -, hready, hok⟩ | ⟨ch, r, hch, -, ha, hok, -⟩
  · exact hc hold
  · cases hready.symm.trans (hrun hok)
  · obtain ⟨other, hother⟩ := ha.claims (hrun hok)
    have hne := hclaims id ch other (by rcases hch with rfl | rfl <;> simp [hm])
    exact (hother.elim hne.1 hne.2).elim

theorem Reach.leased (h : Reach allowed b b')
    (hclaims : ∀ id c lease, allowed (.change id c) ∨ allowed (.sweep c) →
      c ≠ .claim lease ∧ c ≠ .takeOver lease) (hv : b'.tasks id = some v)
    (hl : v.lease = some lease) : b.tasks id = some v :=
  h.unclaimed hclaims hv fun hok => hok.running.2 (by simp [hl])

theorem Reach.claims_waits {step : Nat} (h : Reach (ClaimBy runner step) b b') :
    b'.waits = b.waits := by
  refine h.invariant (I := fun c => c.waits = b.waits) ?_ rfl
  rintro m c c' ⟨id, lease, rfl, -⟩ hs hc
  cases hs
  exact hc

theorem Reach.claims_completed {step : Nat} (h : Reach (ClaimBy runner step) b b') :
    b'.completed = b.completed := by
  refine h.invariant (I := fun c => c.completed = b.completed) ?_ rfl
  rintro m c c' ⟨id, lease, rfl, -⟩ hs hc
  cases hs with
  | change ch hr ha =>
    show completedTasks _ ++ c.completed = b.completed
    rw [completedTasks, if_neg (by rw [ha.2.1]; exact TaskStatus.noConfusion), hc]
    rfl

theorem Reach.claims_live {step : Nat} (h : Reach (ClaimBy runner step) b b') (hl : b'.Live id) :
    b.Live id :=
  h.live_kept (fun _ ⟨_, _, he, _⟩ => Move.noConfusion he) hl

/-- The links a task depends on: its own, and those of the child it awaits. -/
inductive Below (b : Board) : TaskId → TaskAwait → Prop where
  | own {taskId : TaskId} {a : TaskAwait} (hw : b.waits taskId = some a) : Below b taskId a
  | child {taskId : TaskId} {a a' : TaskAwait} (hw : b.waits taskId = some a)
      (hbelow : Below b a.child.taskId a') : Below b taskId a'

theorem Below.mono (h : ∀ parent a, b'.waits parent = some a → b.waits parent = some a)
    {taskId : TaskId} (hb : Below b' taskId a) :
    Below b taskId a := by
  induction hb with
  | own hw => exact .own (h _ _ hw)
  | child hw _ ih => exact .child (h _ _ hw) ih

/-! ## Routing moves -/

/-- Dropping links and terminal records. -/
def Tidies : Move → Prop
  | .unlink | .forget _ => True
  | _ => False

theorem Tidies.routed (hunlink : allowed .unlink) (hforget : ∀ id, allowed (.forget id)) (m : Move)
    (hm : Tidies m) : allowed m := by
  cases m with
  | unlink => exact hunlink
  | forget id => exact hforget id
  | _ => exact hm.elim

theorem Reach.tidied (h : Reach Tidies b b') : b'.log = b.log ∧ b'.completed = b.completed ∧
      ∀ id, b'.tasks id = b.tasks id ∨ (b'.tasks id = none ∧ ¬ b.Live id) := by
  refine h.invariant (I := fun c => c.log = b.log ∧ c.completed = b.completed ∧
    ∀ id, c.tasks id = b.tasks id ∨ (c.tasks id = none ∧ ¬ b.Live id)) ?_
    ⟨rfl, rfl, fun _ => .inl rfl⟩
  intro m c c' hm hs ⟨hlog, hcompleted, htasks⟩
  cases hs with
  | unlink keep => exact ⟨hlog, hcompleted, htasks⟩
  | @forget _ taskId r hr hterm hparent hchild =>
    refine ⟨hlog, hcompleted, fun id => ?_⟩
    by_cases hid : id = taskId
    · subst hid
      refine .inr ⟨by simp, ?_⟩
      rintro ⟨v, hv, hlive⟩
      rcases htasks id with he | ⟨he, -⟩
      · rw [hr, hv] at he
        cases he
        rw [hterm] at hlive
        cases hlive
      · rw [hr] at he
        cases he
    · simpa [Function.update_of_ne hid] using htasks id
  | submit | change | sweep | link => exact hm.elim

theorem Reach.forgotten (h : Reach (fun m => ∃ id, m = .forget id) b b') : b'.waits = b.waits ∧
      ∀ id, b'.tasks id = b.tasks id ∨ (b'.tasks id = none ∧ ¬ b.Live id) := by
  have hwaits : b'.waits = b.waits := by
    refine h.invariant (I := fun c => c.waits = b.waits) ?_ rfl
    rintro _ c c' ⟨id, rfl⟩ hs hc
    cases hs with
    | forget => exact hc
  refine ⟨hwaits, (Reach.tidied (h.mono ?_)).2.2⟩
  rintro _ ⟨id, rfl⟩
  trivial

theorem Reach.not_live (h : Reach Tidies b b') (hid : ¬ b.Live id) : ¬ b'.Live id := by
  exact fun hl => hid (h.live_kept (fun _ hm => hm) hl)

/-- What a program that neither claims nor sweeps may do: the tasks it submits, those of them
    that come from an effectful runner, the tasks that give up a lease, the leases that end in a
    completion, and the links it adds. -/
structure Scope where
  new : Task → Prop := fun _ => False
  effects : Task → Prop := fun _ => False
  ids : TaskId → Prop := fun _ => False
  completes : TaskLease → Prop := fun _ => False
  links : TaskAwait → Prop := fun _ => False

/-- Scopes by what they admit. -/
structure Scope.Le (s s' : Scope) : Prop where
  new : ∀ task, s.new task → s'.new task
  effects : ∀ task, s.effects task → s'.effects task
  ids : ∀ id, s.ids id → s'.ids id
  completes : ∀ lease, s.completes lease → s'.completes lease
  links : ∀ a, s.links a → s'.links a

theorem Scope.Le.refl (s : Scope) : s.Le s :=
  ⟨fun _ h => h, fun _ h => h, fun _ h => h, fun _ h => h, fun _ h => h⟩

theorem Scope.empty_le (s : Scope) : Scope.Le {} s :=
  ⟨fun _ h => h.elim, fun _ h => h.elim, fun _ h => h.elim, fun _ h => h.elim, fun _ h => h.elim⟩

/-- A task of this id may be submitted. -/
def Scope.Submits (s : Scope) (id : TaskId) : Prop := ∃ task, task.taskId = id ∧ s.new task

/-- The attempt of this lease may end, also in a completion. -/
def Scope.Ends (s : Scope) (lease : TaskLease) : Prop := s.ids lease.taskId ∧ s.completes lease

/-- The moves in a scope; only tasks in `ended` become terminal. -/
def Routes (s : Scope) (ended : TaskId → Prop) : Move → Prop
  | .unlink | .forget _ | .change _ .wake => True
  | .submit task => s.new task
  | .change id .release => s.ids id
  | .change id .finish => s.ids id ∧ ended id
  | .change id (.complete lease) => s.ids id ∧ s.completes lease ∧ ended id
  | .change id .reject => ended id
  | .link taskAwait => s.links taskAwait
  | .change _ (.claim _) | .change _ (.takeOver _) | .change _ .rebind | .sweep _ => False

section Routes

variable {s s' : Scope} {ended ended' : TaskId → Prop} {m : Move} {b b' : Board}

theorem Routes.mono (h : Routes s ended m) (hs : s.Le s') (hended : ∀ id, ended id → ended' id) :
    Routes s' ended' m := by
  cases m with
  | submit task => exact hs.new task h
  | change id c =>
    cases c with
    | claim l => exact h
    | takeOver l => exact h
    | release => exact hs.ids id h
    | wake => exact trivial
    | reject => exact hended id h
    | finish => exact ⟨hs.ids id h.1, hended id h.2⟩
    | complete l => exact ⟨hs.ids id h.1, hs.completes l h.2.1, hended id h.2.2⟩
    | rebind => exact h
  | sweep c => exact h
  | link a => exact hs.links a h
  | unlink | forget => exact trivial

theorem Routes.ended_of_ends (h : Routes s ended (.change id c)) (hc : c.ends = true) :
    ended id := by
  cases c with
  | reject => exact h
  | finish => exact h.2
  | complete l => exact h.2.2
  | _ => cases hc

/-- A record that routing takes out of its run was in `ids`. -/
theorem Routes.ids_of_running (h : Routes s ended (.change id c)) (hc : c.Allows r r')
    (hrun : r.status = .running) :
    s.ids id := by
  cases c with
  | claim | takeOver => exact h.elim
  | release => exact h
  | wake => rcases hc.1 with hst | hst <;> cases hrun.symm.trans hst
  | reject => cases hrun.symm.trans hc.1
  | finish | complete => exact h.1
  | rebind => exact h.elim

theorem Routes.not_claims (id : TaskId) (c : Change) (lease : TaskLease)
    (h : Routes s ended (.change id c) ∨ Routes s ended (.sweep c)) :
    c ≠ .claim lease ∧ c ≠ .takeOver lease := by
  constructor <;> rintro rfl <;> exact h.elim (fun hm => hm) fun hm => hm

section Routed

variable (h : Reach (Routes s ended) b b')

include h

/-- A live record that no allowed change applies to stays as it is. -/
theorem Reach.record_kept (hr : b.tasks id = some r)
    (hlive : isTerminalStatus r.status = false)
    (hno : ∀ c r', Routes s ended (.change id c) → ¬ c.Allows r r') : b'.tasks id = some r := by
  refine h.invariant (I := fun b => b.tasks id = some r) ?_ hr
  intro m c c' hm hs hc
  rcases hs.stored hc with hkept | ⟨ch, v, rfl | rfl, ha, -⟩ | ⟨hterm, -⟩
  · exact hkept
  · exact absurd ha (hno ch v hm)
  · exact hm.elim
  · cases hterm.symm.trans hlive

theorem Reach.stays_live (hid : ¬ ended id) (hl : b.Live id) :
    b'.Live id := by
  refine h.invariant (I := fun c => c.Live id) ?_ hl
  rintro m c c' hm hs ⟨r, hr, hlive⟩
  rcases hs.stored hr with hkept | ⟨ch, v, rfl | rfl, ha, -, hv⟩ | ⟨hterm, -⟩
  · exact ⟨r, hkept, hlive⟩
  · have hends : ch.ends = false := Bool.eq_false_iff.2 fun hc => hid (hm.ended_of_ends hc)
    exact ⟨v, hv, ha.live hends⟩
  · exact hm.elim
  · cases hterm.symm.trans hlive

/-- A running record outside `ids` stays as it is. -/
theorem Reach.running_kept (hid : ¬ s.ids id)
    (hr : b.tasks id = some r) (hrun : r.status = .running) :
    b'.tasks id = some r :=
  h.record_kept hr (by rw [hrun]; rfl) fun _ _ hm ha => hid (hm.ids_of_running ha hrun)

theorem Reach.ready_kept (hid : ¬ ended id)
    (hr : b.tasks id = some r) (hready : r.status = .ready) :
    b'.tasks id = some r := by
  refine h.record_kept hr (by rw [hready]; rfl) fun c r' hm ha => ?_
  cases c with
  | claim | takeOver => exact hm
  | release => cases hready.symm.trans ha.1
  | wake => rcases ha.1 with hst | hst <;> cases hready.symm.trans hst
  | reject => exact hid hm
  | finish => exact hid hm.2
  | complete l => exact hid hm.2.2
  | rebind => exact hm

theorem Reach.running_before (hv : b'.tasks id = some v)
    (hrun : v.status = .running) : b.tasks id = some v :=
  h.unclaimed Routes.not_claims hv fun _ => hrun

theorem Reach.ended_kept (hid : ¬ s.Submits id)
    (hdead : ¬ b.Live id) : b'.tasks id = b.tasks id ∨ b'.tasks id = none :=
  h.dead_kept (fun task he hm => hid ⟨task, he, hm⟩) hdead

/-- Links still in place were there before, or satisfy `links`. -/
theorem Reach.waits_links {parent : TaskId} {a : TaskAwait}
    (hw : b'.waits parent = some a) : b.waits parent = some a ∨ s.links a :=
  h.waits_linked hw

theorem Reach.live (hl : b'.Live id) : b.Live id ∨ s.Submits id :=
  h.live_or_submitted (fun task hm => ⟨task, rfl, hm⟩) hl

end Routed

theorem LeaseHistory.routes (h : LeaseHistory b) (hr : Reach (Routes s ended) b b') :
    LeaseHistory b' :=
  h.reach hr (fun _ _ hm => hm) (fun _ _ hm => hm)

theorem Awake.routes {done : TaskId → Prop} (h : Awake done b)
    (hr : Reach (Routes s ended) b b') (hdone : ∀ id, ended id → done id) : Awake done b' :=
  h.reach hr (fun id _ hc hm => hdone id (hm.ended_of_ends hc)) (fun _ _ hm => hm.elim)

end Routes

end Board

end MutsukiRuntime
