/-
  COMMITS.  The state store against the history of completed tasks.  A commit is two steps of
  the kernel, the write and the completion of the task; between them nothing else happens.
-/
import MutsukiRuntime.Core.TaskPool.CompletedLog
import MutsukiRuntime.Core.Runtime.Completions
import MutsukiRuntime.Core.Runtime.KernelTask
import MutsukiRuntime.Core.Runtime.Preconditions

namespace MutsukiRuntime

open Std Board TaskPool

/-! ## Replay -/

/-- What the completed tasks, the latest first, made of the empty store. -/
def replay : List Task → Option StateStore
  | [] => some {}
  | task :: earlier => (replay earlier).bind (replayTask task)

/-- A commit to this state. -/
def commitsTo (refId : RefId) (task : Task) : Bool :=
  task.protocolId == "core.commit" &&
    match StateDelta.ofValue task.payload with
    | .ok delta => delta.targetRef == refId
    | .error _ => false

namespace StateStore

theorem apply_eq_ok {store store' : StateStore} {delta : StateDelta}
    (h : store.apply delta = .ok store') :
    store.currentVersion delta.targetRef = delta.expectedVersion ∧
      store'.currentVersion delta.targetRef = store.currentVersion delta.targetRef + 1 := by
  unfold apply at h
  dsimp only at h
  split at h
  · cases h
  next hversion =>
    cases h
    refine ⟨by simpa using hversion, ?_⟩
    simp [currentVersion]

end StateStore

section Replay

variable {task : Task} {store store' : StateStore}

theorem commitsTo_of_delta {refId : RefId} {delta : StateDelta}
    (h : task.protocolId = "core.commit") (hdelta : StateDelta.ofValue task.payload = .ok delta) :
    commitsTo refId task = (delta.targetRef == refId) := by
  simp [commitsTo, h, hdelta]

theorem replay_version {log : List Task} (h : replay log = some store) (refId : RefId) :
    store.currentVersion refId = log.countP (commitsTo refId) := by
  induction log generalizing store with
  | nil =>
    cases h
    rfl
  | cons task earlier ih =>
    obtain ⟨before, hbefore, htask⟩ := Option.bind_eq_some_iff.1 h
    rw [List.countP_cons, ← ih hbefore]
    by_cases hcommit : task.protocolId = "core.commit"
    · obtain ⟨delta, hdelta, happly⟩ := replayTask_eq_some htask hcommit
      rw [commitsTo_of_delta hcommit hdelta]
      by_cases href : delta.targetRef = refId
      · subst href
        rw [(StateStore.apply_eq_ok happly).2]
        simp
      · rw [StateStore.apply_other happly fun he => href he.symm]
        simp [href]
    · rw [replayTask_other hcommit] at htask
      cases htask
      simp [commitsTo, hcommit]

/-- Each commit of a log that is replayed has met the version it expects when it completed. -/
theorem replay_met {later earlier : List Task} (h : replay (later ++ task :: earlier) = some store)
    (hcommit : task.protocolId = "core.commit") :
    ∃ before delta, replay earlier = some before ∧ StateDelta.ofValue task.payload = .ok delta ∧
      before.currentVersion delta.targetRef = delta.expectedVersion := by
  induction later generalizing store with
  | nil =>
    obtain ⟨before, hbefore, htask⟩ := Option.bind_eq_some_iff.1 h
    obtain ⟨delta, hdelta, happly⟩ := replayTask_eq_some htask hcommit
    exact ⟨before, delta, hbefore, hdelta, (StateStore.apply_eq_ok happly).1⟩
  | cons _ later ih =>
    obtain ⟨_, hlater, -⟩ := Option.bind_eq_some_iff.1 h
    exact ih hlater

end Replay

/-! ## Leases of commits -/

/-- The runner id of the kernel. -/
def kernelId : RunnerId := "core.kernel"

/-- The commits that run are the kernel's. -/
def KernelHolds (b : Board) : Prop :=
  ∀ id r lease, b.tasks id = some r → r.lease = some lease → r.task.protocolId = "core.commit" →
    lease.runnerId = kernelId

/-- A move by which a record may take up a lease. -/
def takesLease : Move → Bool
  | .change _ c | .sweep c =>
    match c with
    | .claim _ | .takeOver _ => true
    | _ => false
  | _ => false

/-- What takes up no lease leaves the commits that run with the kernel. -/
theorem KernelHolds.reach {moves : Move → Prop} {b b' : Board} (h : Reach moves b b')
    (hclaims : ∀ m, moves m → takesLease m = false) (hb : KernelHolds b) : KernelHolds b' := by
  refine h.invariant (I := KernelHolds) ?_ hb
  intro m b b' hm hs hb id v lease hv hlease hcommit
  rcases hs.record hv with hold | ⟨-, -, -, hready, hok⟩ | ⟨c, r, hmove, hr, ha, hok, hsame⟩
  · exact hb id v lease hold hlease hcommit
  · have hrunning := hok.running.2 (by rw [hlease]; rfl)
    cases hready.symm.trans hrunning
  · have hrunning := hok.running.2 (by rw [hlease]; rfl)
    have hnone := hclaims m hm
    cases c with
    | claim | takeOver => rcases hmove with rfl | rfl <;> cases hnone
    | release => rcases ha.2 with hs | hs | hs <;> cases hs.symm.trans hrunning
    | wake | rebind => cases ha.2.symm.trans hrunning
    | reject | finish | complete => exact absurd hrunning (ha.not_running rfl)

theorem KernelHolds.replay_reach {moves : Move → Prop} {b b' : Board} (h : Reach moves b b')
    (hclaims : ∀ m, moves m → takesLease m = false)
    (hcompletes : ∀ id lease, moves (.change id (.complete lease)) → lease.runnerId ≠ kernelId)
    (hb : KernelHolds b) : replay b'.completed = replay b.completed := by
  refine (h.invariant (I := fun c => KernelHolds c ∧ replay c.completed = replay b.completed) ?_
    ⟨hb, rfl⟩).2
  intro m c c' hm hs ⟨hc, hreplay⟩
  refine ⟨hc.reach (Reach.refl.step hm hs) hclaims, ?_⟩
  rcases hs.completed with ⟨hlog, -⟩ | ⟨id, lease, r, r', hdone⟩
  · rw [hlog]
    exact hreplay
  · have hother : r'.task.protocolId ≠ "core.commit" := by
      intro hcommit
      rw [hdone.same.protocolId] at hcommit
      have hmove := hdone.move ▸ hm
      exact hcompletes id lease hmove (hc id r lease hdone.stored hdone.lease hcommit)
    rw [hdone.completed, replay, hreplay]
    cases replay b.completed with
    | none => rfl
    | some store => exact replayTask_other hother

theorem routes_takesLease {s : Scope} {ended : TaskId → Prop} (m : Move) (hm : Routes s ended m) :
    takesLease m = false := by
  cases m with
  | change id c =>
    cases c with
    | claim lease => exact hm.elim
    | takeOver lease => exact hm.elim
    | _ => rfl
  | sweep c => exact hm.elim
  | _ => rfl

namespace CoreRuntime

/-! ## Hops -/

/-- Commits are the kernel's: no other runner accepts them, and the kernel is a committer. -/
def KernelOnly (descriptors : List RunnerDescriptor) : Prop :=
  ∀ descriptor ∈ descriptors,
    ("core.commit" ∈ descriptor.acceptedProtocolIds → descriptor.runnerId = kernelId) ∧
    (descriptor.runnerId = kernelId → descriptor.purity = .committer)

instance (descriptors : List RunnerDescriptor) : Decidable (KernelOnly descriptors) :=
  inferInstanceAs (Decidable (∀ descriptor ∈ descriptors, _ ∧ _))

/-- The kernel has commits to itself in this call. -/
def KernelCommits (rt : CoreRuntime) (call : Call) : Prop :=
  KernelOnly rt.registry.descriptorSnapshot ∧
    ∀ lease, call.Carries lease → lease.runnerId ≠ kernelId

/-- What such a call may complete. -/
def apartScope : Scope := { anyScope with completes := fun lease => lease.runnerId ≠ kernelId }

theorem within_apartScope {rt : CoreRuntime} {call : Call} (h : rt.KernelCommits call) :
    call.Within apartScope rt := by
  refine Call.within_of_carried ?_ h.2 (fun _ _ _ _ => trivial)
    fun _ _ _ _ => ⟨fun _ _ => trivial, fun _ _ _ _ => trivial, fun _ _ _ => trivial⟩
  intro descriptor hmem hkernel lease hlease hid
  rw [hlease] at hid
  have hcommitter := (h.1 descriptor hmem).2 hid
  unfold isKernelRunner at hkernel
  rw [hcommitter, hid] at hkernel
  exact absurd hkernel (by decide)

section Commits

variable {strict : Prop} {admin : Bool} {start rt rt' : CoreRuntime}

/-- The store is what the log of completed tasks makes it. -/
structure Replayed (rt : CoreRuntime) : Prop where
  held : KernelHolds rt.tasks.board
  store : replay rt.tasks.completedLog = some rt.states
  told : ∃ moves, Told moves rt.tasks.board

theorem Replayed.reach {moves : Move → Prop} (h : Replayed rt)
    (hreach : Reach moves rt.tasks.board rt'.tasks.board) (hstates : rt'.states = rt.states)
    (hclaims : ∀ m, moves m → takesLease m = false)
    (hcompletes : ∀ id lease, moves (.change id (.complete lease)) → lease.runnerId ≠ kernelId) :
    Replayed rt' := by
  refine ⟨h.held.reach hreach hclaims, ?_, Told.reach h.told hreach⟩
  rw [hstates, ← h.store]
  exact h.held.replay_reach hreach hclaims hcompletes

/-- A claim leaves the log alone, and gives commits to the kernel. -/
theorem Replayed.claim (h : Replayed rt) (hkernel : KernelOnly rt.registry.descriptorSnapshot)
    {descriptor : RunnerDescriptor} (hmem : descriptor ∈ rt.registry.descriptorSnapshot)
    {pool : TaskPool} {leased : List (TaskLease × Task)}
    (hp : Settled (ClaimBy descriptor.runnerId rt.currentStep) rt.tasks.board pool)
    (hleases : Leases descriptor rt.currentStep rt.loadPlan.registryGeneration rt.tasks pool
      leased) : Replayed { rt with tasks := pool } := by
  refine ⟨?_, ?_, Told.reach h.told hp.reach⟩
  · intro id v lease hv hlease hcommit
    by_cases htaken : ∃ e ∈ leased, e.1.taskId = id
    · obtain ⟨e, he, rfl⟩ := htaken
      obtain ⟨r, hr, heligible, hrunner, -, -, hstored⟩ := hleases.taken e he
      cases hv.symm.trans hstored
      cases hlease
      rw [hrunner]
      exact (hkernel descriptor hmem).1 (hcommit ▸ (eligible_accepted heligible).2)
    · have hkept := hleases.kept id fun e he hid => htaken ⟨e, he, hid⟩
      exact h.held id v lease (hkept.symm.trans hv) hlease hcommit
  · have hlog : pool.completedLog = rt.tasks.completedLog := hp.reach.claims_completed
    rw [hlog]
    exact h.store

theorem Replayed.kernel (h : Replayed rt) {lease : TaskLease} {r : TaskRecord}
    {states : StateStore} (heffect : KernelEffect rt r states)
    (hb : Steady (kernelScope lease) strict noneTaken { rt with states } rt')
    (hdone : rt'.tasks.completedLog = completedTasks (markTerminalRecord
      { r with output := none } .completed none) ++ rt.tasks.completedLog) : Replayed rt' := by
  refine ⟨h.held.reach hb.pool.reach routes_takesLease, ?_, Told.reach h.told hb.pool.reach⟩
  have hstates : rt'.states = states := hb.states
  rw [hstates, hdone]
  show (replay rt.tasks.completedLog).bind (replayTask _) = some states
  rw [h.store, Option.bind_some]
  rcases heffect with ⟨hcommit, delta, hdelta, happly⟩ | ⟨hother, rfl⟩
  · exact replayTask_commit hcommit hdelta happly
  · exact replayTask_other hother

theorem Hop.replayed (h : Hop apartScope strict admin rt rt')
    (hkernel : admin = false → KernelOnly rt.registry.descriptorSnapshot) (hrt : Replayed rt) :
    Replayed rt' := by
  cases h with
  | routed h =>
    exact hrt.reach h.pool.reach h.states routes_takesLease fun _ _ hm => hm.2.1
  | later => exact ⟨hrt.held, hrt.store, hrt.told⟩
  | claim hadmin descriptor hmem hp hleases => exact hrt.claim (hkernel hadmin) hmem hp hleases
  | kernel hadmin hr hactive heffect hb hdone => exact hrt.kernel heffect hb hdone
  | stop hadmin stopState hp =>
    refine hrt.reach hp.reach rfl (fun m hm => ?_) fun _ _ hm => hm.elim
    cases m with
    | sweep c =>
      cases c with
      | finish => rfl
      | _ => exact hm.elim
    | change id c => exact hm.elim
    | _ => rfl
  | configure =>
    exact ⟨hrt.held, hrt.store, hrt.told⟩
  | plan hadmin newPlan hp =>
    refine hrt.reach hp.1.reach rfl ?_ fun _ _ hm => Move.noConfusion hm
    rintro m rfl
    rfl
  | registry => exact ⟨hrt.held, hrt.store, hrt.told⟩

end Commits

/-! ## Runs -/

theorem board_empty : ({} : TaskPool).board = Board.empty := by
  simp [TaskPool.board, Board.empty, Buckets.Bucket.empty]

theorem Run.replayed {rt : CoreRuntime} (h : Run KernelCommits rt) : Replayed rt := by
  induction h with
  | boot hboot =>
    obtain ⟨registry, -, rfl⟩ := boot_eq_ok hboot
    refine ⟨?_, rfl, [], ?_⟩
    · show KernelHolds ({} : TaskPool).board
      rw [board_empty]
      intro id r lease hr
      cases hr
    · show Told [] ({} : TaskPool).board
      rw [board_empty]
      exact .empty
  | @call rt h call hcall ih =>
    refine (h.moved (within_apartScope hcall)).hops.invariant ?_ ih
    intro a b hsetup hhop ha
    refine hhop.replayed (fun hworks => ?_) ha
    rw [(hsetup hworks).snapshot]
    exact hcall.1

/-- Commits and the store.  A task id may be used again once its record has been dropped, so
    completions are counted against the submissions of any history that explains the board. -/
structure CommitsOnce (rt : CoreRuntime) : Prop where
  store : replay rt.tasks.completedLog = some rt.states
  versions : ∀ refId, rt.states.currentVersion refId =
    rt.tasks.completedLog.countP (commitsTo refId)
  met : ∀ later task earlier, rt.tasks.completedLog = later ++ task :: earlier →
    task.protocolId = "core.commit" → ∃ before delta, replay earlier = some before ∧
      StateDelta.ofValue task.payload = .ok delta ∧
      before.currentVersion delta.targetRef = delta.expectedVersion
  logged : ∀ (id : TaskId) r, rt.tasks.tasks[id]? = some r → r.status = .completed →
    r.task ∈ rt.tasks.completedLog
  told : ∃ moves, Told moves rt.tasks.board
  once : ∀ moves, Told moves rt.tasks.board → ∀ id : TaskId,
    rt.tasks.completedLog.countP (·.taskId == id) ≤ moves.countP (submitsTask id) ∧
    ∀ r, rt.tasks.tasks[id]? = some r → r.status ≠ .completed →
      rt.tasks.completedLog.countP (·.taskId == id) < moves.countP (submitsTask id)

/-- In a run in which commits are the kernel's, each is applied once, when it completes. -/
theorem commits_replayed {rt : CoreRuntime} (h : Run KernelCommits rt) : CommitsOnce rt := by
  have hreplayed := h.replayed
  obtain ⟨moves, htold⟩ := hreplayed.told
  refine ⟨hreplayed.store, replay_version hreplayed.store, ?_,
    fun _ _ hr hdone => htold.logged hr hdone, ⟨moves, htold⟩,
    fun _ htold id => htold.completions_le id⟩
  intro later task earlier hlog hcommit
  exact replay_met (hlog ▸ hreplayed.store) hcommit

/-- The sample runtime commits to `s`. -/
def committedRun : CoreRuntime :=
  after [.submitTask sampleCommit, .tickOnce (answering (derives sampleCommit))] sampleRuntime

theorem commits_replayed_sample : committedRun.states.currentVersion "s" = 1 ∧
      committedRun.tasks.completedLog.countP (commitsTo "s") = 1 ∧ CommitsOnce committedRun := by
  have hsubmitted : Run KernelCommits (after [.submitTask sampleCommit] sampleRuntime) :=
    run_sampleRuntime.call (.submitTask sampleCommit) ⟨by decide +kernel, fun _ hl => hl.elim⟩
  exact ⟨by decide +kernel, by decide +kernel, commits_replayed
    (hsubmitted.call (.tickOnce (answering (derives sampleCommit)))
      ⟨by decide +kernel, fun _ hl => hl.elim⟩)⟩

/-- No runner but `core.kernel` accepts commits. -/
def OnlyKernelAccepts (rt : CoreRuntime) (_ : Call) : Prop :=
  ∀ descriptor ∈ rt.registry.descriptorSnapshot,
    "core.commit" ∈ descriptor.acceptedProtocolIds → descriptor.runnerId = kernelId

instance (rt : CoreRuntime) (call : Call) : Decidable (OnlyKernelAccepts rt call) :=
  inferInstanceAs (Decidable (∀ descriptor ∈ rt.registry.descriptorSnapshot, _ → _))

theorem run_onlyKernel {calls : List Call} {rt : CoreRuntime} (h : Run OnlyKernelAccepts rt)
    (hcalls : ∀ n < calls.length, OnlyKernelAccepts (after (calls.take n) rt) .beginDrain) :
    Run OnlyKernelAccepts (after calls rt) := by
  induction calls generalizing rt with
  | nil => exact h
  | cons call calls ih =>
    refine ih (h.call call (hcalls 0 (Nat.zero_lt_succ _))) fun n hn => ?_
    exact hcalls (n + 1) (Nat.succ_lt_succ hn)

/-- A runner of the kernel's name that is no committer, so that its tasks are dispatched. -/
def pureKernel : Runner where
  descriptor := { kernelRunner.descriptor with purity := .pure, executionClass := .cpu }

def completes (taskId : TaskId) : RunnerResult where
  taskId
  status := .completed

def pureKernelRuntime : CoreRuntime :=
  (boot (planOf 1 [pluginOf pureKernel .domain]) [pureKernel] []).toOption.get (by decide +kernel)

def pureKernelCalls : List Call :=
  [.submitTask sampleCommit, .tickOnce (answering completes)]

/-- A commit that conflicts, so that the kernel leaves it running. -/
def conflictingCommit : Task :=
  Task.new "commit" "core.commit" (StateDelta.toValue
    { targetRef := "s", expectedVersion := 1, patch := .null, conflictPolicy := .fail })

/-- The lease the kernel leaves behind. -/
def strandedLease : TaskLease where
  leaseId := "task-lease-1-commit-1"
  taskId := "commit"
  attemptGeneration := 1
  runnerId := kernelId
  executorId := "executor:core.kernel"
  registryGeneration := 1
  acquiredAtStep := 1
  expiresAtStep := some 2

/-- A completion under the lease the kernel left behind. -/
def strandedCalls : List Call :=
  [.submitTask conflictingCommit, .tickOnce (answering completes),
    .completeRunnerDispatch { answerOf [strandedLease] [completes "commit"] with runner := none }]

/-- In both runs a commit completes and the state keeps its version. -/
theorem commits_without_change : (Run OnlyKernelAccepts (after pureKernelCalls pureKernelRuntime) ∧
      (after pureKernelCalls pureKernelRuntime).states.currentVersion "s" = 0 ∧
      (after pureKernelCalls pureKernelRuntime).tasks.completedLog.countP (commitsTo "s") = 1) ∧
    Run OnlyKernelAccepts (after strandedCalls sampleRuntime) ∧
      (after strandedCalls sampleRuntime).states.currentVersion "s" = 0 ∧
      (after strandedCalls sampleRuntime).tasks.completedLog.countP (commitsTo "s") = 1 := by
  refine ⟨⟨run_onlyKernel (Run.of_boot _) ?_, by decide +kernel, by decide +kernel⟩,
    run_onlyKernel run_sampleRuntime ?_, by decide +kernel, by decide +kernel⟩
  · decide +kernel
  · decide +kernel

end CoreRuntime

end MutsukiRuntime
