/-
  THE RUNTIME INVARIANT AND THE HOPS OF A RUN: what holds between public calls, and
  the kinds of steps every call is made of.

  * `Orderly strict served`: the pool is well formed, its lease log is fenced, every
    lease was issued at an earlier step or at this one to a runner that was served,
    the descriptors are distinct; and where `strict` holds, no wait link names an
    absent, a terminal or a kernel child.
-/
import MutsukiRuntime.Core.RegistryInvariant
import MutsukiRuntime.Core.TaskPool.Fencing
import MutsukiRuntime.Core.Runtime.Interface
import MutsukiRuntime.Core.Runtime.Passes

namespace MutsukiRuntime

open Std Board TaskPool Prog

namespace CoreRuntime

/-- The protocols the kernel ends without a wake-up. -/
def IsKernelProtocol (protocolId : ProtocolId) : Prop :=
  protocolId = "core.commit" ∨ protocolId = "core.event.append"

instance (protocolId : ProtocolId) : Decidable (IsKernelProtocol protocolId) :=
  inferInstanceAs (Decidable (_ ∨ _))

/-- A link on a child that some runner executes. -/
def PlainLink (taskAwait : TaskAwait) : Prop := ¬ IsKernelProtocol taskAwait.child.protocolId

structure Orderly (strict : Prop) (served : RunnerId → Prop) (rt : CoreRuntime) : Prop where
  good : Good rt.tasks
  history : rt.tasks.board.LeaseHistory
  issued : ∀ lease, LeaseEvent.issued lease ∈ rt.tasks.leaseLog →
    lease.acquiredAtStep < rt.currentStep ∨
      (lease.acquiredAtStep = rt.currentStep ∧ served lease.runnerId)
  snapshot : SnapshotOk rt.registry.descriptorSnapshot
  awake : strict → rt.tasks.board.Awake noneTaken
  plain : strict → ∀ parent taskAwait, rt.tasks.board.waits parent = some taskAwait →
    PlainLink taskAwait
  stopped : rt.stopState = .aborted → ∀ id, ¬ rt.tasks.board.Live id

/-- The invariant between calls, in a run that need not wake every parent. -/
abbrev InOrder (rt : CoreRuntime) : Prop := Orderly False (fun _ => True) rt

/-- The runners served once this one is too. -/
abbrev servedAlso (served : RunnerId → Prop) (descriptor : RunnerDescriptor) : RunnerId → Prop :=
  fun id => served id ∨ id = descriptor.runnerId

section Orderly

variable {s : Scope} {strict : Prop} {served served' : RunnerId → Prop} {start rt : CoreRuntime}

theorem Orderly.serve (h : Orderly strict served rt) (hle : ∀ id, served id → served' id) :
    Orderly strict served' rt :=
  { h with
    issued := fun lease hl => (h.issued lease hl).imp_right fun ⟨hs, hr⟩ => ⟨hs, hle _ hr⟩ }

theorem Orderly.steady (h : Orderly strict served start) (hs : Steady s strict noneTaken start rt)
    (hlinks : strict → ∀ taskAwait, s.links taskAwait → PlainLink taskAwait)
    (hnew : ∀ task, s.new task → start.stopState ≠ .aborted) :
    Orderly strict served rt where
  good := hs.good
  history := h.history.routes hs.pool.reach
  issued := by
    intro lease hl
    rw [hs.currentStep]
    exact h.issued lease (hs.pool.reach.issued (fun _ _ hm => hm) (fun _ _ hm => hm) hl)
  snapshot := by
    rw [hs.snapshot]
    exact h.snapshot
  awake := hs.awake
  plain := by
    intro hstrict parent taskAwait hw
    rcases hs.pool.reach.waits_links hw with hold | hl
    · exact h.plain hstrict parent taskAwait hold
    · exact hlinks hstrict taskAwait hl
  stopped := by
    intro haborted id hl
    rw [hs.stopState] at haborted
    rcases hs.pool.reach.live hl with hold | ⟨task, -, hsubmitted⟩
    · exact h.stopped haborted id hold
    · exact hnew task hsubmitted haborted

end Orderly

/-! ## Hops -/

/-- The scope of a routing program in a run: any attempt may end, nothing is submitted after an
    abort, and a strict run adds plain links only. -/
def inRun (s : Scope) (strict : Prop) (start : CoreRuntime) : Scope :=
  { s with
    new := fun task => start.stopState ≠ .aborted ∧ s.new task
    ids := fun _ => True
    links := fun taskAwait => s.links taskAwait ∧ (strict → PlainLink taskAwait) }

/-- What routing programs do in a run. -/
abbrev Routed (s : Scope) (strict : Prop) (start rt : CoreRuntime) : Prop :=
  Steady (inRun s strict start) strict noneTaken start rt

/-- What a kernel task does to the states, before it is completed. -/
def KernelEffect (rt : CoreRuntime) (r : TaskRecord) (states : StateStore) : Prop :=
  (r.task.protocolId = "core.commit" ∧ ∃ delta, StateDelta.ofValue r.task.payload = .ok delta ∧
    rt.states.apply delta = .ok states) ∨
  (r.task.protocolId ≠ "core.commit" ∧ states = rt.states)

/-- What completing one lease may do. -/
abbrev kernelScope (lease : TaskLease) : Scope :=
  { ids := fun _ => True, completes := fun l => l = lease }

/-- The moves of an abort. -/
def Aborts : Move → Prop
  | .sweep .finish | .unlink | .forget _ => True
  | _ => False

/-- The pool a rebind leaves. -/
def Rebinds (oldGeneration newGeneration : Nat) (pool pool' : TaskPool) : Prop :=
  Settled (fun m => m = .sweep .rebind) pool.board pool' ∧
    ∀ id : TaskId, pool'.tasks[id]? = pool.tasks[id]?.map (rebound oldGeneration newGeneration)

/-- The steps of a call.  Administrative calls stop the runtime, or change its plan, registry,
    resources or outlets; the others claim work and run kernel tasks. -/
inductive Hop (s : Scope) (strict : Prop) (admin : Bool) : CoreRuntime → CoreRuntime → Prop where
  | routed {a b : CoreRuntime} (h : Routed s strict a b) : Hop s strict admin a b
  | later {a : CoreRuntime} (hadmin : admin = false) (step : Nat)
      (hlater : a.currentStep < step) : Hop s strict admin a { a with currentStep := step }
  | claim {a : CoreRuntime} {pool : TaskPool} {leased : List (TaskLease × Task)}
      (hadmin : admin = false) (descriptor : RunnerDescriptor)
      (hmem : descriptor ∈ a.registry.descriptorSnapshot)
      (hp : Settled (ClaimBy descriptor.runnerId a.currentStep) a.tasks.board pool)
      (hleases : Leases descriptor a.currentStep a.loadPlan.registryGeneration a.tasks pool
        leased) :
      Hop s strict admin a { a with tasks := pool }
  | kernel {a b : CoreRuntime} {lease : TaskLease} {r : TaskRecord} {states : StateStore}
      (hadmin : admin = false) (hr : a.tasks.tasks[lease.taskId]? = some r)
      (hactive : leaseActive r lease a.currentStep = true) (heffect : KernelEffect a r states)
      (hb : Steady (kernelScope lease) strict noneTaken { a with states } b)
      (hdone : b.tasks.completedLog = completedTasks (markTerminalRecord
        { r with output := none } .completed none) ++ a.tasks.completedLog) :
      Hop s strict admin a b
  | stop {a : CoreRuntime} {pool : TaskPool} (hadmin : admin = true)
      (stopState : RuntimeStopState) (hp : Settled Aborts a.tasks.board pool) :
      Hop s strict admin a { a with stopState, tasks := pool }
  | configure {a : CoreRuntime} (hadmin : admin = true) (observability : ObservabilityProfile)
      (events : EventLog) (traces : TraceLog) (resources : ResourceManager) :
      Hop s strict admin a
        { a with loadPlan := { a.loadPlan with observability }, events, traces, resources }
  | plan {a : CoreRuntime} {pool : TaskPool} (hadmin : admin = true) (newPlan : RuntimeLoadPlan)
      (hp : Rebinds a.loadPlan.registryGeneration newPlan.registryGeneration a.tasks pool) :
      Hop s strict admin a
        { a with
          tasks := pool
          handlerBindings := handlerBindingsOf newPlan
          surfaces := newPlan.contractSurfaces
          protocolClasses := protocolClassesForPlan newPlan
          loadPlan := newPlan }
  | registry {a : CoreRuntime} (hadmin : admin = true) (registry : RunnerRegistry) :
      Hop s strict admin a { a with registry }

/-- A run of hops. -/
def Hops (s : Scope) (strict : Prop) (admin : Bool) : CoreRuntime → CoreRuntime → Prop :=
  Relation.ReflTransGen (Hop s strict admin)

/-- What a call that is not administrative leaves alone. -/
structure SameSetup (start rt : CoreRuntime) : Prop where
  loadPlan : rt.loadPlan = start.loadPlan
  surfaces : rt.surfaces = start.surfaces
  protocolClasses : rt.protocolClasses = start.protocolClasses
  resources : rt.resources = start.resources
  snapshot : rt.registry.descriptorSnapshot = start.registry.descriptorSnapshot
  stopState : rt.stopState = start.stopState

section Hops

variable {s : Scope} {strict : Prop} {admin : Bool} {served : RunnerId → Prop}
  {start rt rt' : CoreRuntime} {α : Type}

theorem SameSetup.refl (rt : CoreRuntime) : SameSetup rt rt := ⟨rfl, rfl, rfl, rfl, rfl, rfl⟩

theorem SameSetup.trans (h : SameSetup start rt) (h' : SameSetup rt rt') : SameSetup start rt' :=
  ⟨h'.loadPlan.trans h.loadPlan, h'.surfaces.trans h.surfaces,
    h'.protocolClasses.trans h.protocolClasses, h'.resources.trans h.resources,
    h'.snapshot.trans h.snapshot, h'.stopState.trans h.stopState⟩

theorem Steady.sameSetup {done : TaskId → Prop} (h : Steady s strict done start rt) :
    SameSetup start rt :=
  ⟨h.loadPlan, h.surfaces, h.protocolClasses, h.resources, h.snapshot, h.stopState⟩

theorem Hop.sameSetup (h : Hop s strict false start rt) : SameSetup start rt := by
  cases h with
  | routed h => exact h.sameSetup
  | later | claim => exact ⟨rfl, rfl, rfl, rfl, rfl, rfl⟩
  | kernel hadmin hr hactive heffect hb hdone =>
    exact ⟨hb.loadPlan, hb.surfaces, hb.protocolClasses, hb.resources, hb.snapshot, hb.stopState⟩
  | stop hadmin | configure hadmin | plan hadmin | registry hadmin => cases hadmin

theorem Hops.sameSetup (h : Hops s strict false start rt) : SameSetup start rt := by
  induction h with
  | refl => exact .refl start
  | tail _ hhop ih => exact ih.trans hhop.sameSetup

/-- An invariant of every hop is one of every run of hops; in a call that is not administrative
    the setup is that of the start. -/
theorem Hops.invariant {I : CoreRuntime → Prop} (h : Hops s strict admin start rt)
    (hhop : ∀ a b, (admin = false → SameSetup start a) → Hop s strict admin a b → I a → I b)
    (hstart : I start) : I rt := by
  induction h with
  | refl => exact hstart
  | tail hrun hlast ih =>
    refine hhop _ _ ?_ hlast ih
    rintro rfl
    exact Hops.sameSetup hrun

/-- The invariant, and the hops since a start. -/
structure Moved (s : Scope) (strict : Prop) (admin : Bool) (served : RunnerId → Prop)
    (start rt : CoreRuntime) : Prop where
  orderly : Orderly strict served rt
  hops : Hops s strict admin start rt

theorem moved_self (h : Orderly strict served rt) : Moved s strict admin served rt rt :=
  ⟨h, Relation.ReflTransGen.refl⟩

theorem Moved.serve {served' : RunnerId → Prop} (h : Moved s strict admin served start rt)
    (hle : ∀ id, served id → served' id) : Moved s strict admin served' start rt :=
  ⟨h.orderly.serve hle, h.hops⟩

theorem Moved.hop {served' : RunnerId → Prop} (h : Moved s strict admin served start rt)
    (hhop : Hop s strict admin rt rt') (horderly : Orderly strict served' rt') :
    Moved s strict admin served' start rt' :=
  ⟨horderly, h.hops.tail hhop⟩

theorem Orderly.routed (h : Orderly strict served start) (hs : Routed s strict start rt) :
    Orderly strict served rt :=
  h.steady hs (fun hstrict _ hl => hl.2 hstrict) fun _ hn => hn.1

theorem Moved.routed (h : Moved s strict admin served start rt) (hs : Routed s strict rt rt') :
    Moved s strict admin served start rt' :=
  h.hop (.routed hs) (h.orderly.routed hs)

theorem Orderly.restart (h : Orderly strict served rt) : Routed s strict rt rt :=
  steady_self h.good h.awake

theorem keeps_moved {m : CoreM α} (h : ∀ start, Keeps (Routed s strict start) m) :
    Keeps (Moved s strict admin served start) m :=
  fun rt hrt => wp_mono (h rt rt hrt.orderly.restart) (fun _ _ hs => hrt.routed hs)
    (fun _ _ hs => hrt.routed hs)

theorem cancelScope_le : cancelScope.Le (inRun s strict start) :=
  ⟨fun _ h => h.elim, fun _ h => h.elim, fun _ _ => trivial, fun _ h => h.elim, fun _ h => h.elim⟩

theorem Moved.cancels (h : Moved s strict admin served start rt)
    (hs : Cancels strict noneTaken rt rt') : Moved s strict admin served start rt' :=
  h.routed (hs.mono cancelScope_le)

theorem keeps_movedEvent (kind : RuntimeEventKind) (name : String) (subjectId : Option String)
    (attributes : Attributes) (error : Option RuntimeError) :
    Keeps (Moved s strict admin served start) (recordEvent kind name subjectId attributes error) :=
  keeps_moved fun _ => keeps_recordEvent kind name subjectId attributes error

end Hops

end CoreRuntime

end MutsukiRuntime
