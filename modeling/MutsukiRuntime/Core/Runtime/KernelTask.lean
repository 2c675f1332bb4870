/-
  ONE TASK OF THE KERNEL: what it does to the store, and how its attempt ends.

  * `processKernelTask_settles`: a kernel task ends on the store it makes, or changes nothing and
    makes none.
-/
import MutsukiRuntime.Core.Runtime.Orderly

namespace MutsukiRuntime

open Std Board TaskPool Prog List

/-- What a completed task did to the store: nothing, unless it is a commit. -/
def replayTask (task : Task) (store : StateStore) : Option StateStore :=
  if task.protocolId = "core.commit" then
    match StateDelta.ofValue task.payload with
    | .ok delta => (store.apply delta).toOption
    | .error _ => none
  else some store

/-- The store after a kernel task, if the kernel carries it out. -/
def kernelStore (task : Task) (store : StateStore) : Option StateStore :=
  if task.protocolId = "core.event.append" then
    match DomainEvent.ofValue task.payload with
    | .ok _ => some store
    | .error _ => none
  else replayTask task store

section Replay

variable {task : Task} {store store' : StateStore}

theorem replayTask_other (h : task.protocolId ≠ "core.commit") :
    replayTask task store = some store := if_neg h

theorem replayTask_commit (h : task.protocolId = "core.commit") {delta : StateDelta}
    (hdelta : StateDelta.ofValue task.payload = .ok delta)
    (happly : store.apply delta = .ok store') :
    replayTask task store = some store' := by
  rw [replayTask, if_pos h, hdelta]
  simp [happly, Except.toOption]

theorem replayTask_eq_some (h : replayTask task store = some store')
    (hcommit : task.protocolId = "core.commit") :
    ∃ delta, StateDelta.ofValue task.payload = .ok delta ∧ store.apply delta = .ok store' := by
  rw [replayTask, if_pos hcommit] at h
  cases hdelta : StateDelta.ofValue task.payload with
  | error text =>
    rw [hdelta] at h
    cases h
  | ok delta =>
    rw [hdelta] at h
    dsimp only at h
    refine ⟨delta, rfl, ?_⟩
    cases happly : store.apply delta with
    | error failure =>
      rw [happly] at h
      cases h
    | ok next =>
      rw [happly] at h
      cases h
      rfl

end Replay

theorem kernelStore_commit {task : Task} (h : task.protocolId = "core.commit")
    (store : StateStore) : kernelStore task store = replayTask task store := by
  rw [kernelStore, if_neg (by rw [h]; decide)]

theorem replayTask_eq_none {task : Task} {store : StateStore} (h : task.protocolId = "core.commit")
    (hno : ∀ delta states, StateDelta.ofValue task.payload = .ok delta →
      store.apply delta ≠ .ok states) : replayTask task store = none := by
  cases hstore : replayTask task store with
  | none => rfl
  | some next =>
    obtain ⟨delta, hdelta, happly⟩ := replayTask_eq_some hstore h
    exact absurd happly (hno delta next hdelta)

namespace CoreRuntime

section Kernel

variable {rt : CoreRuntime}

/-- What ending one attempt may do. -/
abbrev attemptScope (lease : TaskLease) : Scope :=
  { ids := only lease.taskId, completes := fun l => l = lease }

/-- The task of the lease has ended; beside that, tasks have been woken at most. -/
structure AttemptEnds (lease : TaskLease) (start rt : CoreRuntime) : Prop where
  steady : Steady (attemptScope lease) False (fun _ => True) start rt
  dead : ¬ rt.tasks.board.Live lease.taskId

theorem AttemptEnds.trans {lease : TaskLease} {start rt rt' : CoreRuntime}
    (h : AttemptEnds lease start rt)
    (h' : Steady (attemptScope lease) False (fun _ => True) rt rt') :
    AttemptEnds lease start rt' :=
  ⟨h.steady.trans h', fun hl => h.dead (h'.pool.reach.live_kept (fun _ hm => hm) hl)⟩

theorem exec_attemptEnds (op : LeasedOp) {lease : TaskLease} {currentStep : Nat}
    (hgood : Good rt.tasks) (hcheck : op.check rt.tasks lease currentStep = .ok ())
    (hm : op.AllowedBy (Routes (attemptScope lease) (only lease.taskId)) lease)
    (hterminal : ∀ r, isTerminalStatus (op.edit currentStep r).status = true) :
    wp (onPool (op.exec lease currentStep)) (fun _ => AttemptEnds lease rt)
      (fun _ _ => False) rt := by
  have hself : Steady (attemptScope lease) False noneTaken rt rt := steady_self hgood False.elim
  rw [wp_onPool]
  refine wp_mono (exec_tracks (settled_self hgood) (fun _ => trivial) trivial op hm) ?_ ?_
  · rintro _ pool ⟨hp, -, r, hspends⟩
    refine ⟨(hself.withPool hp fun _ hf => hf.elim).settle fun hf => hf.elim, ?_⟩
    rintro ⟨v, hv, hlive⟩
    rcases hspends.kept with hkept | ⟨hnone, -⟩
    · cases hv.symm.trans hkept
      cases (hterminal r).symm.trans hlive
    · cases hv.symm.trans hnone
  · rintro _ pool ⟨herror, -⟩
    exact absurd (hcheck.symm.trans herror) nofun

theorem taskId_of_active (hgood : Good rt.tasks) {e : TaskLease × Task} {r : TaskRecord}
    (hr : rt.tasks.tasks[e.2.taskId]? = some r)
    (hactive : leaseActive r e.1 rt.currentStep = true) : e.1.taskId = e.2.taskId := by
  obtain ⟨-, -, hlease, -⟩ := leaseActive_iff.1 hactive
  rw [(hgood.records e.2.taskId r hr).leased e.1 hlease]
  exact hgood.keyed e.2.taskId r hr

theorem wp_complete_kernel {lease : TaskLease} {currentStep completed : Nat} (hgood : Good rt.tasks)
    (hactive : ∃ r, rt.tasks.tasks[lease.taskId]? = some r ∧ leaseActive r lease currentStep = true)
    {Q : Nat → CoreRuntime → Prop} {E : RuntimeError → CoreRuntime → Prop}
    (hends : ∀ n rt', AttemptEnds lease rt rt' → Q n rt') :
    wp (do
        onPool (TaskPool.complete lease currentStep none)
        pure (completed + 1)) Q E rt := by
  rw [wp_bind]
  exact wp_total (exec_attemptEnds (.complete none) hgood (ensureActiveLease_ok_iff.2 hactive)
    ⟨rfl, rfl, rfl⟩ fun _ => rfl) (fun _ rt' h => hends _ rt' h)

/-- A kernel task ends on the store it makes, or changes nothing and makes none. -/
theorem processKernelTask_settles (hgood : Good rt.tasks) (e : TaskLease × Task) (completed : Nat) :
    wp (processKernelTask completed e) (fun _ rt' => kernelStore e.2 rt.states = some rt'.states ∧
        AttemptEnds e.1 { rt with states := rt'.states } rt')
      (fun _ rt' => rt' = rt ∧ (rt.tasks.ensureActiveLease e.2.taskId e.1 rt.currentStep "kernel" =
        .ok () → kernelStore e.2 rt.states = none)) rt := by
  obtain ⟨lease, task⟩ := e
  unfold processKernelTask
  rw [wp_bind, wp_read, wp_bind]
  dsimp only
  cases hactive : rt.tasks.ensureActiveLease task.taskId lease rt.currentStep "kernel" with
  | error failure => exact ⟨rfl, fun h => by cases h⟩
  | ok _ =>
    obtain ⟨r, hr, hlease⟩ := ensureActiveLease_ok_iff.1 hactive
    have hid := @taskId_of_active _ hgood (lease, task) _ hr hlease
    dsimp only at hid
    rw [← hid] at hr
    -- the events of the runtime are no part of what an attempt keeps
    have hforget : ∀ {states : StateStore} {events : EventLog} {rt' : CoreRuntime},
        AttemptEnds lease { rt with states, events } rt' →
        rt'.states = states ∧ AttemptEnds lease { rt with states := rt'.states } rt' :=
      fun h => ⟨h.steady.states, { h.steady with states := rfl }, h.dead⟩
    rw [wp_lift_ok, wp_ite]
    constructor
    · intro hcommit
      rw [wp_bind]
      refine wp_commitDelta (fun _ hno => ⟨rfl, fun _ => ?_⟩) fun delta states hdelta hstates => ?_
      · rw [kernelStore_commit hcommit]
        exact replayTask_eq_none hcommit hno
      · unfold recordEvent
        rw [wp_update]
        refine wp_complete_kernel ?_ ?_ fun _ rt' hends => ?_
        · exact hgood
        · exact ⟨r, hr, hlease⟩
        obtain ⟨hsame, hends⟩ := hforget hends
        refine ⟨?_, hends⟩
        rw [kernelStore_commit hcommit, replayTask_commit hcommit hdelta hstates, hsame]
    · intro hcommit
      rw [wp_ite]
      constructor
      · intro happend
        rw [wp_bind]
        refine wp_appendEvent (fun _ hno => ⟨rfl, fun _ => ?_⟩) fun event hevent => ?_
        · rw [kernelStore, if_pos happend]
          cases hevent : DomainEvent.ofValue task.payload with
          | ok event => exact absurd hevent (hno event)
          | error text => rfl
        · unfold recordEvent
          rw [wp_update]
          refine wp_complete_kernel ?_ ?_ fun _ rt' hends => ?_
          · exact hgood
          · exact ⟨r, hr, hlease⟩
          obtain ⟨hsame, hends⟩ := hforget hends
          refine ⟨?_, hends⟩
          rw [kernelStore, if_pos happend, hevent, hsame]
      · intro happend
        unfold finishTask
        rw [wp_bind, wp_bind]
        refine wp_mono (exec_attemptEnds (.fail _) hgood
          (ensureActiveLease_ok_iff.2 ⟨r, hr, hlease⟩) ⟨rfl, rfl⟩ fun _ => rfl) ?_
          (fun _ _ hf => False.elim hf)
        intro _ rt₁ hends
        rw [wp_bind]
        refine wp_total (hends.steady.restart.recordEvent _ _ _ _ _) ?_
        intro _ rt₂ h₂
        rw [wp_bind]
        refine wp_total (wakeTasksWaitingOn_steady h₂ task.taskId) ?_
        intro _ rt' hwoken
        obtain ⟨hsame, hends⟩ := hforget (hends.trans (hwoken.settle fun hf => hf.elim))
        refine ⟨?_, hends⟩
        rw [kernelStore, if_neg happend, replayTask_other hcommit, hsame]

end Kernel

end CoreRuntime

end MutsukiRuntime
