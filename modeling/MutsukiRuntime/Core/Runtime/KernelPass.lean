/-
  A PASS OF THE KERNEL over its leased tasks.

  `process_kernel_tasks` takes the tasks one after the other and leaves the loop at the
  first one that cannot be carried out: a commit that does not decode or conflicts, or
  an event that does not decode.  That task and those after it keep running.
-/
import MutsukiRuntime.Core.Runtime.Commits

namespace MutsukiRuntime

open Board TaskPool Prog List Option

/-- The store after a list of kernel tasks, if each of them is carried out. -/
def kernelStores (store : StateStore) (tasks : List Task) : Option StateStore :=
  tasks.foldlM (fun store task => kernelStore task store) store

theorem kernelStores_cons (store : StateStore) (task : Task) (tasks : List Task) :
    kernelStores store (task :: tasks) =
      (kernelStore task store).bind fun next => kernelStores next tasks := rfl

theorem kernelStores_append (store : StateStore) (before later : List Task) :
    kernelStores store (before ++ later) =
      (kernelStores store before).bind fun next => kernelStores next later :=
  foldlM_append

namespace CoreRuntime

/-- Leased tasks the kernel may work on: each of them runs under its lease. -/
structure KernelLeased (rt : CoreRuntime) (leased : List (TaskLease × Task)) : Prop where
  distinct : (leased.map (·.2.taskId)).Nodup
  active : ∀ e ∈ leased,
    rt.tasks.ensureActiveLease e.2.taskId e.1 rt.currentStep "kernel" = .ok ()

/-- What a task has come to. -/
def outcomeOf (rt : CoreRuntime) (taskId : TaskId) :
    Option (TaskStatus × Option RuntimeError × Option Value) :=
  rt.tasks.tasks[taskId]?.map fun r => (r.status, r.failure, r.output)

/-- The runtime a pass over `leased` leaves, whether it returns a value or an error. -/
def kernelPass (leased : List (TaskLease × Task)) (rt : CoreRuntime) : CoreRuntime :=
  ((processKernelTasks leased).run rt).2

/-- Every task of a pass ends, and a commit that cannot be applied fails alone: the others come
    to what they come to without it. -/
structure KernelPassSound (rt : CoreRuntime) (leased : List (TaskLease × Task)) : Prop where
  ended : ∀ e ∈ leased, ¬ (kernelPass leased rt).tasks.board.Live e.2.taskId
  alone : ∀ before e later, leased = before ++ e :: later → e.2.protocolId = "core.commit" →
    replayTask e.2 (kernelPass before rt).states = none →
    (∀ r, (kernelPass leased rt).tasks.tasks[e.2.taskId]? = some r → r.status = .failed) ∧
    ∀ other ∈ before ++ later, (kernelPass leased rt).outcomeOf other.2.taskId =
      (kernelPass (before ++ later) rt).outcomeOf other.2.taskId

section KernelPass

variable {rt : CoreRuntime} {leased : List (TaskLease × Task)}

/-! ## A pass -/

/-- Ending one task leaves the others running under their leases. -/
theorem KernelLeased.tail {e : TaskLease × Task} {states : StateStore} {rt₁ : CoreRuntime}
    (h : KernelLeased rt (e :: leased)) (hgood : Good rt.tasks)
    (hends : AttemptEnds e.1 { rt with states } rt₁) : KernelLeased rt₁ leased := by
  obtain ⟨hnew, hdistinct⟩ := nodup_cons.1 h.distinct
  refine ⟨hdistinct, fun other hother => ?_⟩
  obtain ⟨r₀, hr₀, hactive₀⟩ := ensureActiveLease_ok_iff.1 (h.active e (by simp))
  obtain ⟨r, hr, hactive⟩ := ensureActiveLease_ok_iff.1 (h.active other (by simp [hother]))
  have hne : other.2.taskId ≠ e.1.taskId := by
    intro he
    rw [taskId_of_active hgood hr₀ hactive₀] at he
    exact hnew (List.mem_map.2 ⟨other, hother, he⟩)
  have hkept := hends.steady.pool.reach.running_kept hne hr (leaseActive_iff.1 hactive).1
  have hstep : rt₁.currentStep = rt.currentStep := hends.steady.currentStep
  exact ensureActiveLease_ok_iff.2 ⟨r, hkept, by rw [hstep]; exact hactive⟩

theorem live_of_active {taskId : TaskId} {lease : TaskLease} {action : String}
    (h : rt.tasks.ensureActiveLease taskId lease rt.currentStep action = .ok ()) :
    rt.tasks.board.Live taskId := by
  obtain ⟨r, hr, hactive⟩ := ensureActiveLease_ok_iff.1 h
  refine ⟨r, hr, ?_⟩
  rw [(leaseActive_iff.1 hactive).1]
  rfl

/-- By induction on the list: all tasks end, or the first one that makes no store keeps running
    with those after it. -/
theorem processKernelTasks_settles (hgood : Good rt.tasks) (h : KernelLeased rt leased)
    (completed : Nat) :
    wp (Prog.foldEach leased completed processKernelTask)
      (fun _ rt' => kernelStores rt.states (leased.map (·.2)) = some rt'.states ∧
        (∀ e ∈ leased, ¬ rt'.tasks.board.Live e.2.taskId) ∧
        ∀ id, rt'.tasks.board.Live id → rt.tasks.board.Live id)
      (fun _ rt' => kernelStores rt.states (leased.map (·.2)) = none ∧
        ∃ e ∈ leased, rt'.tasks.board.Live e.2.taskId) rt := by
  induction leased generalizing rt completed with
  | nil => exact ⟨rfl, fun _ he => absurd he not_mem_nil, fun _ hl => hl⟩
  | cons e leased ih =>
    have hactive := h.active e (by simp)
    rw [Prog.foldEach, wp_bind, map_cons, kernelStores_cons]
    refine wp_mono (processKernelTask_settles hgood e completed) ?_ ?_
    · rintro completed' rt₁ ⟨hstore, hends⟩
      rw [hstore, bind_some]
      have hid : e.1.taskId = e.2.taskId := by
        obtain ⟨r, hr, hlease⟩ := ensureActiveLease_ok_iff.1 hactive
        exact taskId_of_active hgood hr hlease
      have hback : ∀ id, rt₁.tasks.board.Live id → rt.tasks.board.Live id := fun id hl =>
        hends.steady.pool.reach.live_kept (fun _ hm => hm) hl
      refine wp_mono (ih hends.steady.good (h.tail hgood hends) completed') ?_ ?_
      · rintro _ rt' ⟨hstores, hdead, hlive⟩
        refine ⟨hstores, ?_, fun id hl => hback id (hlive id hl)⟩
        intro other hother hl
        rcases mem_cons.1 hother with he | hmem
        · rw [he, ← hid] at hl
          exact hends.dead (hlive _ hl)
        · exact hdead other hmem hl
      · rintro _ rt' ⟨hnone, other, hmem, hl⟩
        exact ⟨hnone, other, mem_cons_of_mem _ hmem, hl⟩
    · rintro _ rt' ⟨he, hnone⟩
      rw [he, hnone hactive]
      exact ⟨rfl, e, by simp, live_of_active hactive⟩

theorem KernelLeased.sublist {part : List (TaskLease × Task)} (h : KernelLeased rt leased)
    (hsub : part.Sublist leased) : KernelLeased rt part :=
  ⟨h.distinct.sublist (hsub.map _), fun e he => h.active e (hsub.mem he)⟩

/-- A pass over tasks that all make a store leaves the last of them. -/
theorem kernelPass_states (hgood : Good rt.tasks) (h : KernelLeased rt leased)
    {store : StateStore} (hstores : kernelStores rt.states (leased.map (·.2)) = some store) :
    (kernelPass leased rt).states = store := by
  rcases wp_outcome (processKernelTasks_settles hgood h 0) with
    ⟨_, rt', hrun, hstore, -⟩ | ⟨_, rt', hrun, hnone, -⟩
  · have hpass : kernelPass leased rt = rt' := congrArg Prod.snd hrun
    rw [hpass]
    exact (some.inj (hstores.symm.trans hstore)).symm
  · cases hstores.symm.trans hnone

/-- A pass is sound exactly if each of its tasks is carried out on the store that those before
    it leave. -/
theorem kernel_pass_sound_iff (hgood : Good rt.tasks) (h : KernelLeased rt leased) :
    KernelPassSound rt leased ↔ (kernelStores rt.states (leased.map (·.2))).isSome = true := by
  have hsettles := processKernelTasks_settles hgood h 0
  constructor
  · intro hsound
    rcases wp_outcome hsettles with ⟨_, rt', _, hstore, -⟩ | ⟨_, rt', hrun, -, e, he, hl⟩
    · rw [hstore]
      rfl
    · have hpass : kernelPass leased rt = rt' := congrArg Prod.snd hrun
      exact absurd (hpass ▸ hl) (hsound.ended e he)
  · intro hsome
    obtain ⟨store, hstores⟩ := isSome_iff_exists.1 hsome
    constructor
    · rcases wp_outcome hsettles with ⟨_, rt', hrun, -, hdead, -⟩ | ⟨_, rt', hrun, hnone, -⟩
      · have hpass : kernelPass leased rt = rt' := congrArg Prod.snd hrun
        rw [hpass]
        exact hdead
      · cases hstores.symm.trans hnone
    · intro before e later hsplit hcommit hfails
      -- no commit of such a pass fails
      rw [hsplit, map_append, kernelStores_append] at hstores
      obtain ⟨mid, hmid, hrest⟩ := bind_eq_some_iff.1 hstores
      rw [map_cons, kernelStores_cons] at hrest
      obtain ⟨next, hnext, -⟩ := bind_eq_some_iff.1 hrest
      have hbefore : KernelLeased rt before :=
        h.sublist (hsplit ▸ sublist_append_left before (e :: later))
      rw [kernelPass_states hgood hbefore hmid, ← kernelStore_commit hcommit, hnext] at hfails
      cases hfails

end KernelPass

/-- The running tasks among `ids`, each with its lease. -/
def leasedAmong (rt : CoreRuntime) (ids : List TaskId) : List (TaskLease × Task) :=
  ids.filterMap fun id => rt.tasks.tasks[id]?.bind fun r => r.lease.map fun lease => (lease, r.task)

/-- A commit that applies to a state that has the version. -/
def laterCommit (taskId : TaskId) (expectedVersion : Nat) : Task :=
  Task.new taskId "core.commit" (StateDelta.toValue
    { targetRef := "s", expectedVersion, patch := .null, conflictPolicy := .fail })

/-- A kernel that takes three tasks in a pass. -/
def wideKernel : Runner where
  descriptor :=
    { kernelRunner.descriptor with
      batch := { kernelRunner.descriptor.batch with maxBatchEntries := 3 } }

def wideRuntime : CoreRuntime :=
  (boot (planOf 1 [pluginOf wideKernel .core]) [wideKernel] []).toOption.get (by decide +kernel)

/-- The kernel has claimed all commits in one pass and left the loop at the first. -/
def stoppedPass : CoreRuntime :=
  after [.submitTask conflictingCommit, .submitTask (laterCommit "commit.2" 0),
    .submitTask (laterCommit "commit.3" 1), .tickOnce (answering completes)] wideRuntime

/-- The commits in the order of the pass. -/
def commitIds : List TaskId := ["commit", "commit.2", "commit.3"]

theorem run_stoppedPass : Run (fun _ _ => True) stoppedPass :=
  (Run.of_boot _).after _ fun _ _ _ => trivial

theorem kernelLeased_stoppedPass :
    KernelLeased stoppedPass (stoppedPass.leasedAmong commitIds) := by
  refine ⟨by decide +kernel, fun e he => ?_⟩
  have hactive : (stoppedPass.leasedAmong commitIds).all (fun e =>
      (stoppedPass.tasks.ensureActiveLease e.2.taskId e.1 stoppedPass.currentStep
        "kernel").isOk) = true := by decide +kernel
  obtain ⟨_, hok⟩ := Checks.exists_eq_ok (List.all_eq_true.1 hactive e he)
  exact hok

/-- The commits behind it are carried out one after the other. -/
theorem kernel_pass_sound_rest : (stoppedPass.leasedAmong ["commit.2", "commit.3"]).length = 2 ∧
      KernelPassSound stoppedPass (stoppedPass.leasedAmong ["commit.2", "commit.3"]) := by
  have hsub : (stoppedPass.leasedAmong ["commit.2", "commit.3"]).Sublist
      (stoppedPass.leasedAmong commitIds) :=
    List.Sublist.filterMap _ (sublist_cons_self "commit" _)
  exact ⟨by decide +kernel, (kernel_pass_sound_iff run_stoppedPass.good
    (kernelLeased_stoppedPass.sublist hsub)).2 (by decide +kernel)⟩

theorem not_kernelPassSound {rt : CoreRuntime} {leased : List (TaskLease × Task)} {id : TaskId}
    (hmem : leased.any (fun e => e.2.taskId == id) = true)
    (hrunning : (kernelPass leased rt).tasks.tasks[id]?.map (·.status) = some .running) :
    ¬ KernelPassSound rt leased := by
  intro hsound
  obtain ⟨e, he, hid⟩ := List.any_eq_true.1 hmem
  obtain ⟨r, hr, hstatus⟩ := map_eq_some_iff.1 hrunning
  refine hsound.ended e he ⟨r, ?_, by rw [hstatus]; rfl⟩
  rw [eq_of_beq hid]
  exact hr

/-- The conflicting commit keeps running, and so do those behind it. -/
theorem kernel_pass_stops :
    KernelLeased stoppedPass (stoppedPass.leasedAmong commitIds) ∧
      ¬ KernelPassSound stoppedPass (stoppedPass.leasedAmong ["commit"]) ∧
      (kernelPass (stoppedPass.leasedAmong commitIds)
        stoppedPass).tasks.tasks["commit.2"]?.map (·.status) = some .running ∧
      ¬ KernelPassSound stoppedPass (stoppedPass.leasedAmong commitIds) := by
  have hfirst : (kernelPass (stoppedPass.leasedAmong ["commit"])
      stoppedPass).tasks.tasks["commit"]?.map (·.status) = some .running := by decide +kernel
  have hsecond : (kernelPass (stoppedPass.leasedAmong commitIds)
      stoppedPass).tasks.tasks["commit.2"]?.map (·.status) = some .running := by decide +kernel
  exact ⟨kernelLeased_stoppedPass, not_kernelPassSound (by decide +kernel) hfirst, hsecond,
    not_kernelPassSound (by decide +kernel) hsecond⟩

end CoreRuntime

end MutsukiRuntime
