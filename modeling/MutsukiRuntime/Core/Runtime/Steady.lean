/-
  WHAT ROUTING KEEPS: one invariant for every runtime program that neither claims
  nor sweeps.

  `Steady s strict done start rt`: from `start` the runtime has come to `rt` by routing
  moves of the board within the scope `s` (the tasks submitted, the leases given up
  or completed, the links added), and where `strict` holds no wait link names an
  absent child, nor a terminal one outside `done`.  Scheduling data and states are as
  they were.

  * one lemma per program of `State`, `TaskApi` and `Routing`.
-/
import MutsukiRuntime.Core.TaskPool.Runs
import MutsukiRuntime.Core.Runtime.Reload

namespace MutsukiRuntime

open Std Board TaskPool Prog List Option

namespace CoreRuntime

structure Steady (s : Scope) (strict : Prop) (done : TaskId → Prop) (start rt : CoreRuntime) :
    Prop where
  pool : Settled (Routes s (fun _ => True)) start.tasks.board rt.tasks
  awake : strict → rt.tasks.board.Awake done
  loadPlan : rt.loadPlan = start.loadPlan
  surfaces : rt.surfaces = start.surfaces
  protocolClasses : rt.protocolClasses = start.protocolClasses
  resources : rt.resources = start.resources
  states : rt.states = start.states
  snapshot : rt.registry.descriptorSnapshot = start.registry.descriptorSnapshot
  currentStep : rt.currentStep = start.currentStep
  stopState : rt.stopState = start.stopState
  effects : ∀ task ∈ rt.effectOutputs, task ∈ start.effectOutputs ∨ s.effects task

section Steady

variable {s : Scope} {done done' : TaskId → Prop} {strict : Prop} {start rt : CoreRuntime}
  {α : Type}

theorem steady_self (h : Good rt.tasks) (hawake : strict → rt.tasks.board.Awake done) :
    Steady s strict done rt rt :=
  ⟨settled_self h, hawake, rfl, rfl, rfl, rfl, rfl, rfl, rfl, rfl, fun _ ht => .inl ht⟩

variable {E : RuntimeError → CoreRuntime → Prop}

variable {m : PoolM α} {Q : α → CoreRuntime → Prop} {task : Task}
  {completions : List EntryCompletion}

theorem wp_onPool : wp (onPool m) Q E rt ↔ wp m (fun a pool => Q a { rt with tasks := pool })
        (fun e pool => E e { rt with tasks := pool }) rt.tasks :=
  wp_zoom _ _ m

section Kept

variable (h : Steady s strict done start rt)

include h

theorem Steady.trans {rt' : CoreRuntime} (h' : Steady s strict done' rt rt') :
    Steady s strict done' start rt' where
  pool := ⟨h'.pool.wf, h.pool.reach.trans h'.pool.reach⟩
  awake := h'.awake
  loadPlan := h'.loadPlan.trans h.loadPlan
  surfaces := h'.surfaces.trans h.surfaces
  protocolClasses := h'.protocolClasses.trans h.protocolClasses
  resources := h'.resources.trans h.resources
  states := h'.states.trans h.states
  snapshot := h'.snapshot.trans h.snapshot
  currentStep := h'.currentStep.trans h.currentStep
  stopState := h'.stopState.trans h.stopState
  effects := fun task ht => (h'.effects task ht).elim (h.effects task) Or.inr

theorem Steady.good : Good rt.tasks := h.pool.wf

theorem Steady.restart : Steady s strict done rt rt :=
  steady_self h.good h.awake

theorem Steady.withPool {pool : TaskPool}
    (hp : Settled (Routes s done') rt.tasks.board pool) (hdone : ∀ id, done id → done' id) :
    Steady s strict done' start { rt with tasks := pool } :=
  { h with
    pool := ⟨hp.wf, h.pool.reach.trans (hp.reach.mono fun _ hm =>
      hm.mono (.refl s) fun _ _ => trivial)⟩
    awake := fun hs => ((h.awake hs).mono hdone).routes hp.reach fun _ hd => hd }

/-- Children that no link names may leave `done`. -/
theorem Steady.settle
    (hfree : strict → ∀ parent taskAwait, rt.tasks.board.waits parent = some taskAwait →
      done taskAwait.child.taskId → done' taskAwait.child.taskId) :
    Steady s strict done' start rt :=
  { h with awake := fun hs => (h.awake hs).settle (hfree hs) }

theorem Steady.onPool
    (hm : wp m (fun _ => Settled (Routes s done') rt.tasks.board)
      (fun _ pool => pool = rt.tasks) rt.tasks)
    (hdone : ∀ id, done id → done' id) :
    wp (onPool m) (fun _ => Steady s strict done' start) (fun _ rt' => rt' = rt) rt := by
  rw [wp_onPool]
  refine wp_mono hm (fun _ pool hp => h.withPool hp hdone) ?_
  intro _ pool he
  rw [he]

theorem Steady.onPool_total
    (hm : wp m (fun _ => Settled (Routes s done') rt.tasks.board) (fun _ _ => False) rt.tasks)
    (hdone : ∀ id, done id → done' id) :
    wp (CoreRuntime.onPool m) (fun _ => Steady s strict done' start) (fun _ _ => False) rt := by
  rw [wp_onPool]
  exact wp_total hm (fun _ pool hp => h.withPool hp hdone)

theorem Steady.recordEvent (kind : RuntimeEventKind)
    (name : String) (subjectId : Option String) (attributes : Attributes)
    (error : Option RuntimeError) :
    wp (recordEvent kind name subjectId attributes error)
      (fun _ => Steady s strict done start) E rt :=
  { h with }

theorem Steady.recordEvents {β : Type} (xs : List β) (f : β → CoreM Unit)
    (hf : ∀ x, ∃ kind name subjectId attributes error,
      f x = CoreRuntime.recordEvent kind name subjectId attributes error) :
    wp (Prog.forEach xs f) (fun _ => Steady s strict done start) (fun _ _ => False) rt := by
  refine wp_forEach (fun _ => Steady s strict done start) h ?_
  intro x _ rt' h'
  obtain ⟨kind, name, subjectId, attributes, error, he⟩ := hf x
  rw [he]
  exact h'.recordEvent kind name subjectId attributes error

end Kept

/-! ## Waking -/

variable {taskId : TaskId}

theorem taskStatus_eq_some {status : TaskStatus} : rt.taskStatus taskId = some status ↔
      ∃ r, rt.tasks.tasks[taskId]? = some r ∧ r.status = status := by
  unfold taskStatus
  exact map_eq_some_iff

/-- The parents `wakeParent` wakes. -/
theorem suspended_of_taskStatus
    (h : rt.taskStatus taskId = some .waiting ∨ rt.taskStatus taskId = some .blocked) :
    ∃ r, rt.tasks.tasks[taskId]? = some r ∧ (r.status = .waiting ∨ r.status = .blocked) := by
  rcases h with h | h
  · obtain ⟨r, hr, hs⟩ := taskStatus_eq_some.1 h
    exact ⟨r, hr, .inl hs⟩
  · obtain ⟨r, hr, hs⟩ := taskStatus_eq_some.1 h
    exact ⟨r, hr, .inr hs⟩

theorem wakeParent_steady (h : Steady s strict done start rt) (childTaskId : TaskId)
    (woken : Nat) (taskAwait : TaskAwait) :
    wp (wakeParent childTaskId woken taskAwait)
      (fun _ => Steady s strict done start) (fun _ _ => False) rt := by
  unfold wakeParent
  rw [wp_bind, wp_read, wp_ite]
  constructor
  · intro hst
    obtain ⟨r, hr, hs⟩ := suspended_of_taskStatus hst
    rw [wp_bind]
    refine wp_total (h.onPool_total
      (wake_total (settled_self h.good) hr hs trivial trivial rt.currentStep) fun _ hd => hd) ?_
    intro _ rt' h'
    rw [wp_bind]
    exact h'.recordEvent _ _ _ _ _
  · intro _
    exact h

/-- Afterwards no link names the child, so it may leave `done`. -/
theorem wakeTasksWaitingOn_steady (h : Steady s strict done start rt) (childTaskId : TaskId) :
    wp (wakeTasksWaitingOn childTaskId) (fun _ => Steady s strict (without done childTaskId) start)
      (fun _ _ => False) rt := by
  unfold wakeTasksWaitingOn
  rw [wp_bind, wp_onPool]
  have hself : Settled (Routes s done) rt.tasks.board rt.tasks := settled_self h.good
  refine wp_total (takeWaitsForChild_tracks hself (fun _ => trivial) trivial childTaskId) ?_
  intro waits pool ⟨_, hsettled, hforget⟩
  have hfree : ∀ parent taskAwait, pool.board.waits parent = some taskAwait →
      taskAwait.child.taskId ≠ childTaskId := by
    refine hforget.invariant (I := fun b => ∀ parent taskAwait,
      b.waits parent = some taskAwait → taskAwait.child.taskId ≠ childTaskId) ?_ ?_
    · rintro _ b b' ⟨id, rfl⟩ hs hb parent taskAwait hw
      rcases hs.waits hw with hw | ⟨he, -⟩
      · exact hb parent taskAwait hw
      · cases he
    · intro parent taskAwait hw
      have hcut := (Wf.unlinkChild h.good childTaskId).links
      exact ((h.good.links.mem_unlinkChild childTaskId parent taskAwait).1
        ((hcut.waits_iff parent taskAwait).1 hw)).2
  have hcut : Steady s strict (without done childTaskId) start { rt with tasks := pool } :=
    (h.withPool hsettled fun _ hd => hd).settle fun _ parent taskAwait hw hd =>
      ⟨hd, hfree parent taskAwait hw⟩
  exact wp_foldEach (fun _ _ => Steady s strict (without done childTaskId) start)
    hcut fun taskAwait _ woken rt' h' => wakeParent_steady h' childTaskId woken taskAwait

theorem reportFinished_steady (h : Steady s strict (only taskId) start rt) (taskId' : TaskId)
    (he : taskId' = taskId) (name : String) (failure : Option RuntimeError) {f : Nat → CoreM α}
    (hf : ∀ n rt', Steady s strict noneTaken start rt' → wp (f n) Q E rt') :
    wp (do
        recordTaskTerminalEvent taskId' name failure
        let n ← wakeTasksWaitingOn taskId'
        f n) Q E rt := by
  subst he
  rw [wp_bind]
  refine wp_total (h.recordEvent _ _ _ _ _) ?_
  intro _ rt' h'
  rw [wp_bind]
  refine wp_total (wakeTasksWaitingOn_steady h' taskId') ?_
  intro n rt'' h''
  rw [without_only] at h''
  exact hf n rt'' h''

theorem finishTask_steady (h : Steady s strict noneTaken start rt) {op : PoolM Unit}
    (hop : wp op (fun _ => Settled (Routes s (only taskId)) rt.tasks.board)
      (fun _ pool => pool = rt.tasks) rt.tasks) (name : String) (failure : Option RuntimeError) :
    wp (finishTask op taskId name failure)
      (fun n rt' => n = 1 ∧ Steady s strict noneTaken start rt')
      (fun _ rt' => rt' = rt) rt := by
  unfold finishTask
  rw [wp_bind]
  refine wp_mono (h.onPool hop fun _ hd => hd.elim) ?_ (fun _ _ he => he)
  intro _ rt' h'
  exact reportFinished_steady h' taskId rfl name failure fun _ _ h'' => ⟨rfl, h''⟩

/-! ## Failing a dispatch -/

variable {lease : TaskLease}

theorem failRunnerDispatch_steady (h : Steady s strict noneTaken start rt)
    (hid : s.ids lease.taskId) (failure : RuntimeError) :
    wp (failRunnerDispatch lease failure)
      (fun _ => Steady s strict noneTaken start) (fun _ _ => False) rt := by
  have hself : Settled (Routes s (only lease.taskId)) rt.tasks.board rt.tasks := settled_self h.good
  unfold failRunnerDispatch
  rw [wp_bind, wp_read, wp_bind, wp_attempt]
  refine wp_mono (h.onPool (leased_settles hself (fun _ => trivial) trivial (.fail failure)
    ⟨hid, rfl⟩) fun _ hd => hd.elim) ?_ ?_
  · intro _ rt' h'
    exact reportFinished_steady h' lease.taskId rfl _ _ fun _ _ h'' => h''
  · rintro _ _ rfl
    exact h

variable {leases : List TaskLease}

theorem failRunnerDispatches_steady (h : Steady s strict noneTaken start rt)
    (hids : ∀ lease ∈ leases, s.ids lease.taskId) (failure : RuntimeError) :
    wp (failRunnerDispatches leases failure)
      (fun _ => Steady s strict noneTaken start) (fun _ _ => False) rt := by
  refine wp_total (wp_foldEach (fun rest _ rt' => (∀ lease ∈ rest, s.ids lease.taskId) ∧
    Steady s strict noneTaken start rt') ⟨hids, h⟩ ?_) (fun _ _ h' => h'.2)
  intro lease rest completed rt' ⟨hrest, h'⟩
  rw [wp_bind]
  refine wp_total (failRunnerDispatch_steady h' (hrest lease (by simp)) failure) ?_
  intro n rt'' h''
  exact ⟨fun l hl => hrest l (by simp [hl]), h''⟩

theorem keeps_failRunnerDispatches (hends : ∀ lease ∈ leases, s.Ends lease)
    (failure : RuntimeError) :
    Keeps (Steady s strict noneTaken start) (failRunnerDispatches leases failure) :=
  .of_total fun _ h => failRunnerDispatches_steady h (fun lease hl => (hends lease hl).1) failure

/-! ## Enqueueing -/

theorem rejectDeprecated_steady (h : Steady s strict noneTaken start rt)
    (hfree : strict → ∀ parent taskAwait,
      rt.tasks.board.waits parent = some taskAwait → taskAwait.child.taskId ≠ taskId)
    (surface : Option SurfaceId) :
    wp (rejectDeprecated taskId surface)
      (fun _ => Steady s strict noneTaken start) (fun _ _ => False) rt := by
  cases surface with
  | none => exact h
  | some surfaceId =>
    have hself : Settled (Routes {} (only taskId)) rt.tasks.board rt.tasks := settled_self h.good
    have hop := rejectReady_tracks hself (fun _ => trivial) trivial rfl
      (deprecatedSurfaceError surfaceId)
    unfold rejectDeprecated
    rw [wp_bind, wp_attempt, wp_onPool]
    refine wp_mono hop ?_ ?_
    · intro _ pool hp
      have hroutes : Settled (Routes s (only taskId)) rt.tasks.board pool :=
        ⟨hp.wf, hp.reach.mono fun _ hm => hm.mono (Scope.empty_le s) fun _ hd => hd⟩
      refine (h.withPool hroutes fun _ hd => hd.elim).settle ?_
      intro hs parent taskAwait hw hd
      rcases hp.reach.waits_links hw with hold | hl
      · exact (hfree hs parent taskAwait hold hd).elim
      · exact hl.elim
    · intro _ pool he
      rw [he]
      exact h

theorem ensureNotAborted_ok_iff : rt.ensureNotAborted = .ok () ↔ rt.stopState ≠ .aborted := by
  unfold ensureNotAborted
  split <;> simp_all

/-- The scope has a task, however it is numbered; nothing is submitted after an abort. -/
def Accepts (s : Scope) (start : CoreRuntime) (task : Task) : Prop :=
  start.stopState ≠ .aborted →
    ∀ createdSequence, s.new { start.bindGeneration task with createdSequence }

theorem enqueueTask_steady (h : Steady s strict noneTaken start rt) (hnew : Accepts s start task) :
    wp (enqueueTask task)
      (fun _ => Steady s strict noneTaken start) (fun _ rt' => rt' = rt) rt := by
  unfold enqueueTask
  rw [wp_bind, wp_read, wp_bind]
  cases hopen : rt.ensureNotAborted with
  | error e => exact rfl
  | ok _ =>
    have hrunning := ensureNotAborted_ok_iff.1 hopen
    rw [h.stopState] at hrunning
    rw [wp_lift_ok, wp_bind, wp_onPool]
    have hself : Settled (Routes s noneTaken) rt.tasks.board rt.tasks := settled_self h.good
    have hbound : rt.bindGeneration task = start.bindGeneration task := by
      unfold bindGeneration
      rw [h.loadPlan]
    rw [hbound]
    refine wp_mono (enqueueAt_tracks hself (hnew hrunning) rt.currentStep) ?_ ?_
    · intro taskId pool ⟨hid, hfresh, hp, hpool⟩
      subst hid
      have hstored := h.withPool hp fun _ hd => hd
      rw [wp_bind]
      refine wp_total (rejectDeprecated_steady hstored ?_ _) ?_
      · intro hs parent taskAwait hw he
        have hwaits : rt.tasks.board.waits parent = some taskAwait := by
          rw [hpool] at hw
          exact hw
        obtain ⟨r, hr, -⟩ := h.awake hs parent taskAwait hwaits
        rw [he] at hr
        cases hfresh.symm.trans hr
      · intro _ rt' h'
        rw [wp_bind]
        refine wp_mono (h'.recordEvent _ _ _ _ _) ?_ (fun _ _ he => he)
        intro _ rt'' h''
        rw [wp_bind]
        exact h''.recordEvent _ _ _ _ _
    · intro _ pool he
      rw [he]

/-! ## Routing a result -/

/-- The tasks a result derives. -/
def outputsOf (start : CoreRuntime) (descriptor : RunnerDescriptor) (result : RunnerResult) :
    List Task :=
  pendingOutputTasks start.loadPlan.registryGeneration descriptor.purity result

/-- The scope has what a result derives and links. -/
structure Admits (s : Scope) (start : CoreRuntime) (descriptor : RunnerDescriptor)
    (result : RunnerResult) : Prop where
  links : ∀ taskAwait, result.taskAwait = some taskAwait → s.links taskAwait
  new : ∀ task ∈ start.outputsOf descriptor result, Accepts s start task
  effects : descriptor.purity = .effectful →
    ∀ task ∈ start.outputsOf descriptor result, s.effects task

variable {runner : RunnerDescriptor}

theorem keeps_noteOrigin (heffects : runner.purity = .effectful → s.effects task) :
    Keeps (Steady s strict done start) (noteOrigin runner task) := by
  refine .update fun rt h => { h with effects := ?_ }
  intro other hmem
  dsimp only at hmem
  split at hmem
  next he =>
    rcases mem_cons.1 hmem with rfl | hold
    · exact .inr (heffects he)
    · exact h.effects other hold
  · exact h.effects other hmem

variable {result : RunnerResult}

theorem routeResultOutputs_steady (h : Steady s strict noneTaken start rt)
    (hadmits : Admits s start runner result) :
    wp (routeResultOutputs runner result) (fun _ => Steady s strict noneTaken start)
      (fun _ => Steady s strict noneTaken start) rt := by
  unfold routeResultOutputs
  rw [wp_bind, wp_read, wp_bind]
  cases validatePurity runner result with
  | error e => exact h
  | ok _ =>
    rw [wp_lift_ok]
    show wp (do
      Prog.lift (rt.ensureOutputTaskIdsAvailable _)
      _) _ _ _
    rw [wp_bind]
    cases rt.ensureOutputTaskIdsAvailable _ with
    | error e => exact h
    | ok _ =>
      rw [wp_lift_ok, wp_bind]
      refine wp_total (h.recordEvents _ _ fun ref => ⟨_, _, _, _, _, rfl⟩) ?_
      intro _ rt' h'
      rw [wp_bind]
      refine wp_total (h'.recordEvents _ _ fun ref => ⟨_, _, _, _, _, rfl⟩) ?_
      intro _ rt'' h''
      refine (?_ : Keeps (Steady s strict noneTaken start) _) rt'' h''
      have houtputs : pendingOutputTasks rt.loadPlan.registryGeneration runner.purity result =
          start.outputsOf runner result := by
        rw [h.loadPlan]
        rfl
      rw [houtputs]
      refine .forEach fun task hmem => .bind (.of_restore fun _ h₃ =>
        enqueueTask_steady h₃ (hadmits.new task hmem)) fun _ => ?_
      exact keeps_noteOrigin fun he => hadmits.effects he task hmem

theorem commitResultStatus_steady (h : Steady s strict noneTaken start rt)
    (runner : RunnerDescriptor) (hends : s.Ends lease) (hresult : result.taskId = lease.taskId)
    (hlinks : ∀ taskAwait, result.taskAwait = some taskAwait → s.links taskAwait) :
    wp (commitResultStatus runner lease result)
      (fun _ => Steady s strict noneTaken start) (fun _ rt' => rt' = rt) rt := by
  have hself : Settled (Routes s (only result.taskId)) rt.tasks.board rt.tasks :=
    settled_self h.good
  have hlive : Settled (Routes s noneTaken) rt.tasks.board rt.tasks := settled_self h.good
  obtain ⟨hid, hcompletes⟩ := hends
  have hend : Routes s (only result.taskId) (.change lease.taskId .finish) := ⟨hid, hresult.symm⟩
  unfold commitResultStatus
  rw [wp_bind, wp_read]
  cases result.status with
  | completed =>
    exact wp_mono (finishTask_steady h (leased_settles hself (fun _ => trivial) trivial
      (.complete result.output) ⟨hid, hcompletes, hresult.symm⟩) _ _)
      (fun _ _ h' => h'.2) (fun _ _ he => he)
  | waiting =>
    have hop : wp (suspend lease rt.currentStep result.taskAwait)
        (fun _ => Settled (Routes s noneTaken) rt.tasks.board)
        (fun _ pool => pool = rt.tasks) rt.tasks := by
      cases hawait : result.taskAwait with
      | none => exact leased_settles hlive (fun _ => trivial) trivial (.wait none) hid
      | some taskAwait =>
        exact leased_settles hlive (fun _ => trivial) trivial (.waitOnTask taskAwait)
          ⟨hid, hlinks taskAwait hawait⟩
    rw [wp_bind]
    refine wp_mono (h.onPool hop fun _ hd => hd) ?_ (fun _ _ he => he)
    intro _ rt' h'
    rw [wp_bind]
    exact h'.recordEvent _ _ _ _ _
  | blocked =>
    rw [wp_bind]
    refine wp_mono (h.onPool (leased_settles hlive (fun _ => trivial) trivial .block hid)
      fun _ hd => hd) ?_ (fun _ _ he => he)
    intro _ rt' h'
    rw [wp_bind]
    exact h'.recordEvent _ _ _ _ _
  | failed =>
    exact wp_mono (finishTask_steady h
      (leased_settles hself (fun _ => trivial) trivial (.fail _) hend) _ _)
      (fun _ _ h' => h'.2) (fun _ _ he => he)
  | cancelled =>
    exact wp_mono (finishTask_steady h
      (leased_settles hself (fun _ => trivial) trivial .cancelTask hend) _ _)
      (fun _ _ h' => h'.2) (fun _ _ he => he)
  | «continue» => exact h

theorem keeps_routeResult (hadmits : Admits s start runner result) (hends : s.Ends lease)
    (hresult : result.taskId = lease.taskId) :
    Keeps (Steady s strict noneTaken start) (routeResult runner lease result) := by
  refine .bind .read fun rt => .bind (.lift _) fun _ => .bind (.lift _) fun _ =>
    .bind (.lift _) fun _ => .bind ?_ fun _ => .of_restore fun rt' h => ?_
  · exact fun rt' h => routeResultOutputs_steady h hadmits
  · exact commitResultStatus_steady h runner hends hresult hadmits.links

theorem keeps_failRunnerDispatch (hid : s.ids lease.taskId) (failure : RuntimeError) :
    Keeps (Steady s strict noneTaken start) (failRunnerDispatch lease failure) :=
  .of_total fun _ h => failRunnerDispatch_steady h hid failure

theorem keeps_rejectResult (lease : TaskLease) (failure : RuntimeError) :
    Keeps (Steady s strict noneTaken start) (rejectResult lease failure) := by
  refine .ite (.bind ?_ fun _ => .bind (.bind .read fun rt => ?_) fun _ => .pure 0) (.fail failure)
  · intro rt h
    refine h.withPool ?_ fun _ hd => hd
    exact (settled_self h.good).withStatistics _
  · exact fun rt' h => h.recordEvent _ _ _ _ _

/-- What the results of a batch may add: links that satisfy `links`. -/
def LinksOf (links : TaskAwait → Prop) (completions : List EntryCompletion) : Prop :=
  ∀ completion ∈ completions, ∀ result taskAwait, completion.result = some result →
    result.taskAwait = some taskAwait → links taskAwait

/-- The scope has what the results of a batch derive and link. -/
def AdmitsAll (s : Scope) (start : CoreRuntime) (descriptor : RunnerDescriptor)
    (completions : List EntryCompletion) : Prop :=
  ∀ completion ∈ completions, ∀ result, completion.result = some result →
    Admits s start descriptor result

variable {descriptor : RunnerDescriptor}

theorem keeps_routeEntryCompletion {completion : EntryCompletion} (hends : s.Ends lease)
    (hadmits : AdmitsAll s start descriptor [completion]) :
    Keeps (Steady s strict noneTaken start) (routeEntryCompletion descriptor lease completion) := by
  unfold routeEntryCompletion
  cases completion.error with
  | some error => exact keeps_failRunnerDispatch hends.1 error
  | none =>
    cases hresult : completion.result with
    | none => exact keeps_failRunnerDispatch hends.1 _
    | some result =>
      show Keeps _ (if _ then _ else _)
      by_cases hids : result.taskId ≠ lease.taskId ∨ completion.taskId ≠ lease.taskId
      · rw [if_pos hids]
        exact keeps_failRunnerDispatch hends.1 _
      · rw [if_neg hids]
        have hsame : result.taskId = lease.taskId := by
          by_contra hne
          exact hids (.inl hne)
        have hresult := hadmits completion (by simp) result hresult
        refine .bind (.attempt (keeps_routeResult hresult hends hsame)) fun outcome => ?_
        cases outcome with
        | ok count => exact .pure count
        | error failure => exact keeps_rejectResult lease failure

theorem leaseOf_mem (h : leaseOf leases taskId = some lease) :
    lease ∈ leases ∧ lease.taskId = taskId :=
  ⟨mem_reverse.1 (mem_of_find?_eq_some h), by simpa using find?_some h⟩

theorem keeps_routeEntry (entry : BatchEntry)
    (hends : s.Ends lease) (hadmits : AdmitsAll s start descriptor completions) :
    Keeps (Steady s strict noneTaken start) (routeEntry descriptor lease entry
      (completions.find? (·.entryId == entry.entryId))) := by
  cases hfound : completions.find? (·.entryId == entry.entryId) with
  | none => exact keeps_failRunnerDispatch hends.1 _
  | some completion =>
    refine keeps_routeEntryCompletion hends fun c hc => ?_
    rw [mem_singleton.1 hc]
    exact hadmits completion (mem_of_find?_eq_some hfound)

theorem keeps_routeEntries
    (hends : ∀ lease ∈ leases, s.Ends lease) (hadmits : AdmitsAll s start descriptor completions)
    (entries : List BatchEntry) (completed : Nat) :
    Keeps (Steady s strict noneTaken start)
      (routeEntries descriptor leases completions entries completed) := by
  induction entries generalizing completed with
  | nil => exact .pure completed
  | cons entry entries ih =>
    unfold routeEntries
    cases hlease : leaseOf leases entry.taskId with
    | none => exact keeps_failRunnerDispatches hends _
    | some lease =>
      exact .bind (keeps_routeEntry entry (hends lease (leaseOf_mem hlease).1) hadmits)
        fun count => ih (completed + count)

theorem keeps_routeCompletionBatch (hends : ∀ lease ∈ leases, s.Ends lease)
    (expectedEntries : List BatchEntry) {batch : CompletionBatch}
    (hadmits : AdmitsAll s start descriptor batch.results) :
    Keeps (Steady s strict noneTaken start)
      (routeCompletionBatch descriptor leases expectedEntries batch) := by
  unfold routeCompletionBatch
  cases badExpectedEntry leases [] expectedEntries with
  | some entryId => exact keeps_failRunnerDispatches hends _
  | none =>
    cases badCompletion leases expectedEntries [] batch.results with
    | some entryId => exact keeps_failRunnerDispatches hends _
    | none => exact keeps_routeEntries hends hadmits expectedEntries 0

variable {completion : RunnerCompletion}

theorem keeps_routeCompletion (hends : ∀ lease ∈ completion.taskLeases, s.Ends lease)
    (hadmits : ∀ batch, completion.result = .ok batch →
      AdmitsAll s start descriptor batch.results) :
    Keeps (Steady s strict noneTaken start) (routeCompletion descriptor completion) := by
  unfold routeCompletion
  cases hresult : completion.result with
  | error failure => exact keeps_failRunnerDispatches hends _
  | ok batch =>
    exact .ite (keeps_failRunnerDispatches hends _)
      (keeps_routeCompletionBatch hends _ (hadmits batch hresult))

theorem keeps_returnRunner (runner : Option Runner) :
    Keeps (Steady s strict done start) (returnRunner runner) := by
  cases runner with
  | none => exact .pure ()
  | some runner => exact .update fun rt h => { h with }

/-- What a completion may do: end its leases, and what the results of a registered runner
    derive and link. -/
structure Completes (s : Scope) (start : CoreRuntime) (completion : RunnerCompletion) : Prop where
  ends : ∀ lease ∈ completion.taskLeases, s.Ends lease
  admits : ∀ descriptor ∈ start.registry.descriptorSnapshot,
    RunnerCompletion.runnerId completion = some descriptor.runnerId →
    ∀ batch, completion.result = .ok batch → AdmitsAll s start descriptor batch.results

theorem completionDescriptor_eq_some (h : rt.completionDescriptor completion = some descriptor) :
    descriptor ∈ rt.registry.descriptorSnapshot ∧
      RunnerCompletion.runnerId completion = some descriptor.runnerId := by
  obtain ⟨runnerId, hid, hfound⟩ := bind_eq_some_iff.1 h
  have heq : descriptor.runnerId = runnerId := by simpa using find?_some hfound
  exact ⟨mem_of_find?_eq_some hfound, heq ▸ hid⟩

theorem keeps_completeRunnerDispatch (hcompletes : Completes s start completion) :
    Keeps (Steady s strict noneTaken start) (completeRunnerDispatch completion) := by
  refine .read_bind fun rt h => ?_
  cases hfound : rt.completionDescriptor completion with
  | none => exact h
  | some descriptor =>
    obtain ⟨hmem, hid⟩ := completionDescriptor_eq_some hfound
    rw [h.snapshot] at hmem
    exact Keeps.bind (keeps_returnRunner completion.runner) (fun _ =>
      .bind (keeps_routeCompletion hcompletes.ends
        (hcompletes.admits descriptor hmem hid)) fun _ => .pure _) rt h

end Steady

end CoreRuntime

end MutsukiRuntime
