/-
  WHAT THE INPUTS OF A CALL CAN CHANGE: the tasks it submits and the results it routes,
  and two invariants of runs that depend on nothing else.

  * The wait graph: awaits are checked one by one, never against the graph, so a run
    keeps it acyclic as long as no call asks for a cycle.
  * Effectful origins: deltas and effects of an effectful runner are refused, but the
    tasks it returns are enqueued as they are, also when they are commits.
-/
import MutsukiRuntime.Core.Runtime.History

namespace MutsukiRuntime

open Std Board TaskPool List

/-- Some answer of the runners holds this result, for a runner of this id. -/
def RunnerCalls.Answers (calls : RunnerCalls) (runnerId : RunnerId) (result : RunnerResult) :
    Prop :=
  ∃ runner ctx batch answer, calls.runBatch runner ctx batch = .ok answer ∧
    runner.descriptor.runnerId = runnerId ∧
    ∃ completion ∈ answer.results, completion.result = some result

namespace Call

open CoreRuntime

/-- The tasks a call submits. -/
def Submits : Call → Task → Prop
  | submitBatch batch, task => task ∈ batch.tasks
  | submitTask task', task => task = task'
  | submitTargetedTask taskId _ payload, task =>
    ∃ binding, task = targetedTask taskId binding payload
  | _, _ => False

/-- The results a call may route for a runner. -/
def Returns : Call → RunnerId → RunnerResult → Prop
  | tickOnce calls, runnerId, result => calls.Answers runnerId result
  | runUntilIdle calls _, runnerId, result => ∃ n, (calls n).Answers runnerId result
  | completeRunnerDispatch completion, runnerId, result =>
    RunnerCompletion.runnerId completion = some runnerId ∧
    ∃ batch, completion.result = .ok batch ∧
      ∃ entry ∈ batch.results, entry.result = some result
  | _, _, _ => False

/-- The leases a call brings back. -/
def Carries : Call → TaskLease → Prop
  | completeRunnerDispatch completion, lease => lease ∈ completion.taskLeases
  | _, _ => False

variable {call : Call}

theorem Returns.isAdmin {runnerId : RunnerId} {result : RunnerResult}
    (h : call.Returns runnerId result) : call.isAdmin = false := by
  cases call with
  | tickOnce | runUntilIdle | completeRunnerDispatch => rfl
  | _ => exact h.elim

theorem Returns.not_submits {runnerId : RunnerId} {result : RunnerResult}
    (h : call.Returns runnerId result) (task : Task) : ¬ call.Submits task := by
  cases call with
  | tickOnce | runUntilIdle | completeRunnerDispatch => exact id
  | _ => exact h.elim

/-- A scope that completes the leases of the runners and those the call brings back, and has what
    the call submits and what its results derive and link. -/
theorem within_of_carried {s : Scope} {rt : CoreRuntime} (hfrees : FreesRunners s rt)
    (hcompletes : ∀ lease, call.Carries lease → s.completes lease)
    (hnew : ∀ task, call.Submits task → Accepts s rt task)
    (hadmits : ∀ descriptor ∈ rt.registry.descriptorSnapshot, ∀ result,
      call.Returns descriptor.runnerId result → Admits s rt descriptor result) :
    call.Within s rt := by
  cases call with
  | submitBatch batch => exact hnew
  | submitTask task => exact hnew task rfl
  | submitTargetedTask => exact fun binding => hnew _ ⟨binding, rfl⟩
  | tickOnce calls =>
    refine ⟨fun runner ctx batch answer hrun descriptor hmem hid entry hentry result hr => ?_,
      hfrees⟩
    exact hadmits descriptor hmem result ⟨runner, ctx, batch, answer, hrun, hid, entry, hentry, hr⟩
  | runUntilIdle =>
    refine ⟨fun n runner ctx batch answer hrun descriptor hmem hid entry hentry result hr => ?_,
      hfrees⟩
    exact hadmits descriptor hmem result
      ⟨n, runner, ctx, batch, answer, hrun, hid, entry, hentry, hr⟩
  | completeRunnerDispatch =>
    refine ⟨fun lease hl => ⟨trivial, hcompletes lease hl⟩,
      fun descriptor hmem hid batch hbatch entry hentry result hr => ?_⟩
    have h := hadmits descriptor hmem result ⟨hid, batch, hbatch, entry, hentry, hr⟩
    exact ⟨h.links, h.new, h.effects⟩
  | _ => exact trivial

theorem within_of_inputs {s : Scope} {rt : CoreRuntime} (hcompletes : ∀ lease, s.completes lease)
    (hnew : ∀ task, call.Submits task → Accepts s rt task)
    (hadmits : ∀ descriptor ∈ rt.registry.descriptorSnapshot, ∀ result,
      call.Returns descriptor.runnerId result → Admits s rt descriptor result) :
    call.Within s rt :=
  within_of_carried (fun _ _ _ lease _ => hcompletes lease) (fun lease _ => hcompletes lease) hnew
    hadmits

end Call

/-! ## Where tasks come from -/

/-- The id of a task, and the fields that its transitions never touch and its commit depends
    on. -/
structure Alike (origin task : Task) : Prop where
  taskId : task.taskId = origin.taskId
  protocolId : task.protocolId = origin.protocolId
  payload : task.payload = origin.payload
  expectedVersions : task.expectedVersions = origin.expectedVersions

theorem Alike.trans {a b c : Task} (h : Alike a b) (h' : Alike b c) : Alike a c :=
  ⟨h'.taskId.trans h.taskId, h'.protocolId.trans h.protocolId, h'.payload.trans h.payload,
    h'.expectedVersions.trans h.expectedVersions⟩

theorem SameTask.alike {rebound : Bool} {r r' : TaskRecord} (h : SameTask rebound r r') :
    Alike r.task r'.task :=
  ⟨h.taskId, h.protocolId, (congrArg Task.payload h : _), (congrArg Task.expectedVersions h : _)⟩

/-- A record that was live before, as the same task, or whose task is new. -/
def Board.Origin (b : Board) (new : Task → Prop) (id : TaskId) (v : TaskRecord) : Prop :=
  (∃ r, b.tasks id = some r ∧ isTerminalStatus r.status = false ∧ Alike r.task v.task) ∨
    ∃ task, new task ∧ Alike task v.task

theorem Board.Origin.trans {b : Board} {new : Task → Prop} {id : TaskId} {r v : TaskRecord}
    (h : b.Origin new id r) (halike : Alike r.task v.task) : b.Origin new id v := by
  rcases h with ⟨r₀, hr₀, hlive₀, halike₀⟩ | ⟨task, hnew, halike₀⟩
  · exact .inl ⟨r₀, hr₀, hlive₀, halike₀.trans halike⟩
  · exact .inr ⟨task, hnew, halike₀.trans halike⟩

theorem Board.Reach.origin {moves : Move → Prop} {b b' : Board} (h : Reach moves b b')
    {id : TaskId} {v : TaskRecord} (hv : b'.tasks id = some v)
    (hlive : isTerminalStatus v.status = false) :
    b.Origin (fun task => moves (.submit task)) id v := by
  refine h.invariant (I := fun c => ∀ v, c.tasks id = some v → isTerminalStatus v.status = false →
    b.Origin (fun task => moves (.submit task)) id v) ?_
    (fun v hv hlive => .inl ⟨v, hv, hlive, rfl, rfl, rfl, rfl⟩) v hv hlive
  intro m c c' hm hs hc v hv hlive
  rcases hs.record hv with hold | ⟨rfl, -⟩ | ⟨ch, r, -, hr, ha, -, hsame⟩
  · exact hc v hold hlive
  · exact .inr ⟨v.task, hm, rfl, rfl, rfl, rfl⟩
  · exact (hc r hr ha.source_live).trans hsame.alike

namespace CoreRuntime

theorem bindGeneration_taskId (rt : CoreRuntime) (task : Task) :
    (rt.bindGeneration task).taskId = task.taskId := by
  unfold bindGeneration
  split <;> rfl

/-- The results of the call derive this task. -/
def Yields (rt : CoreRuntime) (call : Call) (task : Task) : Prop :=
  ∃ descriptor ∈ rt.registry.descriptorSnapshot, ∃ result,
    call.Returns descriptor.runnerId result ∧ task ∈ rt.outputsOf descriptor result

section Runs

variable {s : Scope} {rt : CoreRuntime} {allowed : CoreRuntime → Call → Prop}

theorem Run.good (h : Run allowed rt) : Good rt.tasks := by
  have horderly := h.inOrder
  exact horderly.good

theorem Run.moved (h : Run allowed rt) {call : Call} (hwithin : call.Within s rt) :
    Moved s False call.isAdmin (fun _ => True) rt (call.exec.run rt).2 :=
  exec_state_moved call (h.orderly fun hf => hf.elim) hwithin fun hf => hf.elim

end Runs

/-! ## The wait graph -/

variable {parent child : TaskId}

section WaitGraph

variable {s : Scope} {strict : Prop} {admin : Bool} {served : RunnerId → Prop}
  {start rt : CoreRuntime}

/-- The waiting `parent` awaits `child`. -/
def WaitsFor (rt : CoreRuntime) (parent child : TaskId) : Prop :=
  rt.taskStatus parent = some .waiting ∧
    ∃ taskAwait ∈ rt.tasks.awaitsForParent parent, taskAwait.child.taskId = child

/-- The task is there and has not ended, or the results of the call derive it. -/
def Arises (rt : CoreRuntime) (call : Call) (taskId : TaskId) : Prop :=
  (∃ r, rt.tasks.tasks[taskId]? = some r ∧ isTerminalStatus r.status = false) ∨
    ∃ task, rt.Yields call task ∧ task.taskId = taskId

/-- Some result that the call may route asks for `parent` to await `child`; a call routes results
    of tasks that are there, or that it has derived. -/
def AsksToWait (rt : CoreRuntime) (call : Call) (parent child : TaskId) : Prop :=
  rt.Arises call parent ∧ ∃ descriptor ∈ rt.registry.descriptorSnapshot, ∃ result taskAwait,
    call.Returns descriptor.runnerId result ∧ result.taskAwait = some taskAwait ∧
      taskAwait.parentTaskId = parent ∧ taskAwait.child.taskId = child

def Acyclic (edge : TaskId → TaskId → Prop) : Prop :=
  ∀ taskId, ¬ Relation.TransGen edge taskId taskId

variable {edge : TaskId → TaskId → Prop} {taskAwait : TaskAwait}

theorem Acyclic.mono {edge' : TaskId → TaskId → Prop} (h : Acyclic edge)
    (hle : ∀ parent child, edge' parent child → edge parent child) : Acyclic edge' :=
  fun taskId hcycle => h taskId (Relation.TransGen.mono hle _ _ hcycle)

theorem Acyclic.of_rank (rank : TaskId → Nat)
    (h : ∀ parent child, edge parent child → rank child < rank parent) : Acyclic edge := by
  have hdown : ∀ {parent child}, Relation.TransGen edge parent child →
      rank child < rank parent := by
    intro parent child hpath
    induction hpath with
    | single hedge => exact h _ _ hedge
    | tail _ hedge ih => exact (h _ _ hedge).trans ih
  exact fun taskId hcycle => Nat.lt_irrefl _ (hdown hcycle)

theorem Hop.waits (h : Hop s strict admin start rt)
    (hw : rt.tasks.board.waits parent = some taskAwait) :
    start.tasks.board.waits parent = some taskAwait ∨ s.links taskAwait := by
  cases h with
  | routed h => exact (h.pool.reach.waits_links hw).imp_right fun hl => hl.1
  | later => exact .inl hw
  | claim hadmin descriptor hmem hp hleases =>
    have hsame := hp.reach.claims_waits
    exact .inl (hsame ▸ hw)
  | kernel hadmin hr hactive heffect hb hdone =>
    exact .inl ((hb.pool.reach.waits_links hw).resolve_right fun hf => hf)
  | stop hadmin stopState hp =>
    exact .inl ((hp.reach.waits_linked hw).resolve_right fun hf => hf)
  | configure => exact .inl hw
  | plan hadmin newPlan hp =>
    exact .inl ((hp.1.reach.waits_linked hw).resolve_right Move.noConfusion)
  | registry => exact .inl hw

theorem Moved.waits (h : Moved s strict admin served start rt)
    (hw : rt.tasks.board.waits parent = some taskAwait) :
    start.tasks.board.waits parent = some taskAwait ∨ s.links taskAwait := by
  refine h.hops.invariant (I := fun rt' => ∀ taskAwait,
    rt'.tasks.board.waits parent = some taskAwait →
      start.tasks.board.waits parent = some taskAwait ∨ s.links taskAwait)
    ?_ (fun _ hw => .inl hw) taskAwait hw
  intro a b _ hhop ha taskAwait hw
  rcases hhop.waits hw with hold | hl
  · exact ha taskAwait hold
  · exact .inr hl

theorem Hop.origin (h : Hop s strict false start rt) {id : TaskId} {v : TaskRecord}
    (hv : rt.tasks.tasks[id]? = some v) (hlive : isTerminalStatus v.status = false) :
    start.tasks.board.Origin s.new id v := by
  cases h with
  | routed h =>
    exact (h.pool.reach.origin hv hlive).imp_right fun ⟨task, hnew, halike⟩ =>
      ⟨task, hnew.2, halike⟩
  | later => exact .inl ⟨v, hv, hlive, rfl, rfl, rfl, rfl⟩
  | claim hadmin descriptor hmem hp hleases =>
    refine (hp.reach.origin hv hlive).imp_right fun ⟨task, ⟨_, _, he, _⟩, _⟩ => ?_
    cases he
  | @kernel _ _ _ states hadmin hr hactive heffect hb hdone =>
    exact (hb.pool.reach.origin hv hlive).imp_right fun ⟨_, hnew, _⟩ => hnew.elim
  | stop hadmin | configure hadmin | plan hadmin | registry hadmin => cases hadmin

theorem Moved.origin (h : Moved s strict false served start rt) {id : TaskId} {v : TaskRecord}
    (hv : rt.tasks.tasks[id]? = some v) (hlive : isTerminalStatus v.status = false) :
    start.tasks.board.Origin s.new id v := by
  refine h.hops.invariant (I := fun rt' => ∀ v, rt'.tasks.tasks[id]? = some v →
    isTerminalStatus v.status = false → start.tasks.board.Origin s.new id v) ?_
    (fun v hv hlive => .inl ⟨v, hv, hlive, rfl, rfl, rfl, rfl⟩) v hv hlive
  intro a b _ hhop ha v hv hlive
  rcases hhop.origin hv hlive with ⟨r, hr, hlive', halike⟩ | hnew
  · exact (ha r hr hlive').trans halike
  · exact .inr hnew

theorem waitsFor_iff (h : Good rt.tasks) : rt.WaitsFor parent child ↔
      ∃ taskAwait, rt.tasks.board.waits parent = some taskAwait ∧
        taskAwait.child.taskId = child := by
  constructor
  · rintro ⟨-, taskAwait, hmem, hchild⟩
    exact ⟨taskAwait, (mem_awaitsForParent h).1 hmem, hchild⟩
  · rintro ⟨taskAwait, hw, hchild⟩
    have hmem := (mem_awaitsForParent h).2 hw
    obtain ⟨r, hr, hwaiting⟩ := h.links.waiting parent taskAwait hmem fun hf => hf
    exact ⟨taskStatus_eq_some.2 ⟨r, hr, hwaiting⟩, taskAwait, hmem, hchild⟩

theorem boot_waitsFor {loadPlan : RuntimeLoadPlan} {runners : List Runner}
    {asyncHandlers : List AsyncBatchHandler} (h : boot loadPlan runners asyncHandlers = .ok rt) :
    ¬ rt.WaitsFor parent child := by
  obtain ⟨registry, -, rfl⟩ := boot_eq_ok h
  intro hedge
  simp [WaitsFor, taskStatus] at hedge

/-- After a call the graph has edges it had before, and edges the call asked for. -/
theorem Run.waitsFor {allowed : CoreRuntime → Call → Prop} (h : Run allowed rt) (call : Call)
    (hedge : (call.exec.run rt).2.WaitsFor parent child) :
    rt.WaitsFor parent child ∨ rt.AsksToWait call parent child := by
  -- what the call brings in has the id of a task that it submits or derives
  let s : Scope := { anyScope with
    new := fun task => ∃ origin, (call.Submits origin ∨ rt.Yields call origin) ∧
      task.taskId = origin.taskId
    links := fun taskAwait => ∃ descriptor ∈ rt.registry.descriptorSnapshot, ∃ result,
      call.Returns descriptor.runnerId result ∧ result.taskAwait = some taskAwait }
  have hwithin : call.Within s rt := by
    refine Call.within_of_inputs (fun _ => trivial) (fun task ht _ _ =>
      ⟨task, .inl ht, bindGeneration_taskId rt task⟩) ?_
    intro descriptor hmem result hreturns
    exact ⟨fun taskAwait ha => ⟨descriptor, hmem, result, hreturns, ha⟩,
      fun task ht _ _ => ⟨task, .inr ⟨descriptor, hmem, result, hreturns, ht⟩,
        bindGeneration_taskId rt task⟩, fun _ _ _ => trivial⟩
  have hmoved := h.moved hwithin
  have hgood := hmoved.orderly.good
  obtain ⟨v, hv, hstatus⟩ := taskStatus_eq_some.1 hedge.1
  obtain ⟨taskAwait, hw, rfl⟩ := (waitsFor_iff hgood).1 hedge
  have hparent : taskAwait.parentTaskId = parent :=
    hgood.links.parent parent taskAwait ((mem_awaitsForParent hgood).2 hw)
  rcases hmoved.waits hw with hold | ⟨descriptor, hmem, result, hreturns, ha⟩
  · exact .inl ((waitsFor_iff h.inOrder.good).2 ⟨taskAwait, hold, rfl⟩)
  · refine .inr ⟨?_, descriptor, hmem, result, taskAwait, hreturns, ha, hparent, rfl⟩
    rw [hreturns.isAdmin] at hmoved
    have hlive : isTerminalStatus v.status = false := by
      rw [hstatus]
      rfl
    rcases hmoved.origin hv hlive with ⟨r, hr, hlive', -⟩ | ⟨task, ⟨origin, hnew, hid⟩, halike⟩
    · exact .inl ⟨r, hr, hlive'⟩
    · refine .inr ⟨origin, hnew.resolve_left (hreturns.not_submits origin), ?_⟩
      rw [← hid, ← halike.taskId]
      exact hgood.keyed parent v hv

/-- The wait graph has no cycle in a run whose calls never ask for one: together with the
    edges that are there, the awaits of its results are acyclic. -/
theorem wait_graph_acyclic {rt : CoreRuntime} (h : Run (fun rt call => Acyclic fun parent child =>
      rt.WaitsFor parent child ∨ rt.AsksToWait call parent child) rt) :
    Acyclic rt.WaitsFor := by
  cases h with
  | boot hboot => exact Acyclic.of_rank (fun _ => 0) fun parent child hedge =>
    (boot_waitsFor hboot hedge).elim
  | call h call hcall => exact hcall.mono fun _ _ hedge => h.waitsFor call hedge

end WaitGraph

/-- A result that waits for a task that is there. -/
def waitOn (child : TaskId) (taskId : TaskId) : RunnerResult where
  taskId
  taskAwait := some (awaitOn taskId child "p.work" .cascade)
  status := .waiting

/-- The awaits of `answering`, for any runner. -/
theorem asksToWait_answering {rt : CoreRuntime} {answer : TaskId → RunnerResult}
    (h : rt.AsksToWait (.tickOnce (answering answer)) parent child) :
    ∃ taskId taskAwait, (answer taskId).taskAwait = some taskAwait ∧
      taskAwait.parentTaskId = parent ∧ taskAwait.child.taskId = child := by
  obtain ⟨-, _, _, result, taskAwait, hreturns, ha, hp, hc⟩ := h
  obtain ⟨_, _, batch, _, hrun, _, completion, hmem, hr⟩ := hreturns
  cases hrun
  obtain ⟨entry, -, rfl⟩ := mem_map.1 hmem
  cases hr
  exact ⟨entry.taskId, taskAwait, ha, hp, hc⟩

/-- `t.1` derives `c` and waits for it; every other task completes. -/
def parentAndChild (taskId : TaskId) : RunnerResult :=
  if taskId = "t.1" then waitFor (Task.new "c" "p.work" .null) .cascade taskId
  else { taskId, status := .completed }

def waitingRun : CoreRuntime :=
  after [.submitTask (Task.new "t.1" "p.work" .null), .tickOnce (answering parentAndChild)]
    sampleRuntime

/-- A run with one await. -/
theorem wait_graph_acyclic_sample :
    waitingRun.WaitsFor "t.1" "c" ∧ Acyclic waitingRun.WaitsFor := by
  have hboot : boot samplePlan [kernelRunner, workRunner] [] = .ok sampleRuntime := boot_get _
  have hwaits : waitingRun.WaitsFor "t.1" "c" :=
    ⟨by decide +kernel, awaitOn "t.1" "c" "p.work" .cascade, by decide +kernel, rfl⟩
  have hrun : Run (fun rt call => Acyclic fun parent child =>
      rt.WaitsFor parent child ∨ rt.AsksToWait call parent child) waitingRun := by
    unfold waitingRun CoreRuntime.after
    generalize sampleRuntime = rt at hboot
    refine Run.call (Run.call (.boot hboot) _ ?_) _ ?_
    · refine Acyclic.of_rank (fun _ => 0) fun parent child hedge => ?_
      rcases hedge with hedge | ⟨_, _, _, _, _, hreturns, _⟩
      · exact (boot_waitsFor hboot hedge).elim
      · exact hreturns.elim
    · refine Acyclic.of_rank (fun id => if id = "t.1" then 1 else 0) fun parent child hedge => ?_
      have hany : Run (fun _ _ => True) rt := .boot hboot
      rcases hedge with hedge | hasks
      · rcases hany.waitsFor _ hedge with hedge | ⟨_, _, _, _, _, hreturns, _⟩
        · exact (boot_waitsFor hboot hedge).elim
        · exact hreturns.elim
      · obtain ⟨taskId, taskAwait, ha, rfl, rfl⟩ := asksToWait_answering hasks
        unfold parentAndChild at ha
        split at ha
        next ht =>
          subst ht
          cases ha
          decide
        · cases ha
  exact ⟨hwaits, wait_graph_acyclic hrun⟩

/-- `t.1` waits for itself. -/
def selfWaitRun : CoreRuntime :=
  after [.submitTask (Task.new "t.1" "p.work" .null), .tickOnce (answering (waitOn "t.1"))]
    sampleRuntime

/-- `t.1` derives `c` and waits for it, and `c` waits for `t.1`. -/
def crossedWaitRun : CoreRuntime :=
  let answer (taskId : TaskId) : RunnerResult :=
    if taskId = "t.1" then parentAndChild taskId else waitOn "t.1" taskId
  after [.submitTask (Task.new "t.1" "p.work" .null), .tickOnce (answering answer),
    .tickOnce (answering answer)] sampleRuntime

/-- A result that awaits its own task is accepted, and so is one that closes a cycle. -/
theorem cyclic_waits_accepted :
    (Run (fun _ _ => True) selfWaitRun ∧ ¬ Acyclic selfWaitRun.WaitsFor) ∧
      (Run (fun _ _ => True) crossedWaitRun ∧ ¬ Acyclic crossedWaitRun.WaitsFor) := by
  refine ⟨⟨run_sampleRuntime.after _ fun _ _ _ => trivial, ?_⟩,
    run_sampleRuntime.after _ fun _ _ _ => trivial, ?_⟩
  · have hself : selfWaitRun.WaitsFor "t.1" "t.1" :=
      ⟨by decide +kernel, awaitOn "t.1" "t.1" "p.work" .cascade, by decide +kernel, rfl⟩
    exact fun h => h "t.1" (.single hself)
  · have hparent : crossedWaitRun.WaitsFor "t.1" "c" :=
      ⟨by decide +kernel, awaitOn "t.1" "c" "p.work" .cascade, by decide +kernel, rfl⟩
    have hchild : crossedWaitRun.WaitsFor "c" "t.1" :=
      ⟨by decide +kernel, awaitOn "c" "t.1" "p.work" .cascade, by decide +kernel, rfl⟩
    exact fun h => h "t.1" (.tail (.single hparent) hchild)

/-! ## Effectful origins -/

section Origins

variable {s : Scope} {strict : Prop} {admin : Bool} {served : RunnerId → Prop}
  {start rt : CoreRuntime}

/-- Some commit that an effectful runner's result derived has been completed. -/
def EffectCommitted (rt : CoreRuntime) : Prop :=
  ∃ output ∈ rt.effectOutputs, output.protocolId = "core.commit" ∧
    ∃ done ∈ rt.tasks.completedLog, done.taskId = output.taskId ∧ done.protocolId = "core.commit"

/-- The commits that effectful runners return plainly are all `listed`. -/
def ListsCommits (listed : Task → Prop) (rt : CoreRuntime) (call : Call) : Prop :=
  ∀ descriptor ∈ rt.registry.descriptorSnapshot, descriptor.purity = .effectful →
    ∀ result, call.Returns descriptor.runnerId result →
      ∀ task ∈ result.tasks, task.protocolId = "core.commit" → listed task

variable {task : Task}

theorem Hop.effectOutputs (h : Hop s strict admin start rt) (ht : task ∈ rt.effectOutputs) :
    task ∈ start.effectOutputs ∨ s.effects task := by
  cases h with
  | routed h => exact h.effects task ht
  | kernel hadmin hr hactive heffect hb hdone =>
    exact .inl ((hb.effects task ht).resolve_right fun hf => hf)
  | _ => exact .inl ht

theorem Moved.effectOutputs (h : Moved s strict admin served start rt)
    (ht : task ∈ rt.effectOutputs) : task ∈ start.effectOutputs ∨ s.effects task := by
  refine h.hops.invariant (I := fun rt' => task ∈ rt'.effectOutputs →
    task ∈ start.effectOutputs ∨ s.effects task) ?_ .inl ht
  intro a b _ hhop ha hb
  rcases hhop.effectOutputs hb with hold | hs
  · exact ha hold
  · exact .inr hs

variable {descriptor : RunnerDescriptor} {result : RunnerResult}

/-- Of what an effectful runner returns, only the plain tasks can be commits. -/
theorem outputsOf_effectful
    (heffectful : descriptor.purity = .effectful) (ht : task ∈ rt.outputsOf descriptor result)
    (hcommit : task.protocolId = "core.commit") :
    task ∈ result.tasks := by
  unfold outputsOf pendingOutputTasks at ht
  rw [heffectful, if_neg (by decide), nil_append, mem_append] at ht
  rcases ht with hevent | htask
  · obtain ⟨event, -, rfl⟩ := mem_map.1 hevent
    have hprotocol : "core.event.append" = "core.commit" := hcommit
    simp at hprotocol
  · exact htask

/-- A commit derived by an effectful runner is one it returned plainly. -/
theorem Run.effectOutputs {listed : Task → Prop} (h : Run (ListsCommits listed) rt)
    (ht : task ∈ rt.effectOutputs) (hcommit : task.protocolId = "core.commit") :
    listed task := by
  induction h with
  | boot hboot =>
    obtain ⟨registry, -, rfl⟩ := boot_eq_ok hboot
    cases ht
  | @call rt h call hcall ih =>
    let s : Scope := { anyScope with
      effects := fun task => task.protocolId = "core.commit" → listed task }
    have hwithin : call.Within s rt := by
      refine Call.within_of_inputs (fun _ => trivial) (fun _ _ _ _ => trivial) ?_
      intro descriptor hmem result hreturns
      refine ⟨fun _ _ => trivial, fun _ _ _ _ => trivial, fun heffectful task hout hcommit => ?_⟩
      exact hcall descriptor hmem heffectful result hreturns task
        (outputsOf_effectful heffectful hout hcommit) hcommit
    rcases (h.moved hwithin).effectOutputs ht with hold | hs
    · exact ih hold
    · exact hs hcommit

/-- Deltas and effects of a runner that is not pure are refused before anything is derived. -/
theorem routeResultOutputs_impure
    (hpurity : descriptor.purity ≠ .pure) (hfields : result.deltas ≠ [] ∨ result.effects ≠ []) :
    (routeResultOutputs descriptor result).run rt =
      (.err (runtimeError errRunnerPurityViolation "runtime.result_router"
        s!"runner.{descriptor.runnerId}.core_derivation"), rt) := by
  have hrefused : validatePurity descriptor result =
      .error (runtimeError errRunnerPurityViolation "runtime.result_router"
        s!"runner.{descriptor.runnerId}.core_derivation") := by
    unfold validatePurity
    rw [if_pos]
    refine ⟨hpurity, ?_⟩
    rcases hfields with hdeltas | heffects
    · simp [hdeltas]
    · simp [heffects]
  unfold routeResultOutputs
  rw [Prog.run_bind, Prog.run_read]
  show (Prog.lift (validatePurity descriptor result) >>= _ : CoreM Unit).run rt = _
  rw [hrefused]
  rfl

end Origins

def senderRunner : Runner where
  descriptor :=
    { runnerId := "sender", pluginId := "sender", pluginGeneration := 1
      acceptedProtocolIds := ["p.effect"], purity := .effectful, executionClass := .io }

def senderRuntime : CoreRuntime :=
  (boot (planOf 1 [pluginOf kernelRunner .core, pluginOf senderRunner .effect])
    [kernelRunner, senderRunner] []).toOption.get (by decide +kernel)

def sampleCommit : Task :=
  Task.new "commit" "core.commit" (StateDelta.toValue
    { targetRef := "s", expectedVersion := 0, patch := .null, conflictPolicy := .fail })

/-- A result that derives one task. -/
def derives (task : Task) (taskId : TaskId) : RunnerResult where
  taskId
  tasks := [task]
  status := .completed

/-- An effectful runner derives a task of another protocol. -/
def effectRun : CoreRuntime :=
  after [.submitTask (Task.new "t.1" "p.effect" .null),
    .tickOnce (answering (derives (Task.new "t.2" "p.effect" .null)))] senderRuntime

/-- An effectful runner derives a commit, which the kernel applies in the next tick. -/
def effectCommitRun : CoreRuntime :=
  after [.submitTask (Task.new "t.1" "p.effect" .null),
    .tickOnce (answering (derives sampleCommit)),
    .tickOnce (answering (derives sampleCommit))] senderRuntime

end CoreRuntime

end MutsukiRuntime
