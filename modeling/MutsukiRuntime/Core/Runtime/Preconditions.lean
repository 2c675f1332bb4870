/-
  PRECONDITIONS OF CLAIMED TASKS.  A task may expect versions of states.  The head of a
  pass rejects the ready tasks whose expectations are not met; after that the kernel
  commits, results derive tasks and children wake their parents, and nobody looks again.
-/
import MutsukiRuntime.Core.Runtime.ClaimTurns
import MutsukiRuntime.Core.Runtime.PassTurns

namespace MutsukiRuntime

open Std Board TaskPool Prog

/-! ## Versions -/

namespace StateStore

/-- The store has the versions a task expects. -/
def Meets (store : StateStore) (task : Task) : Prop :=
  ∀ expectation ∈ task.expectedVersions,
    store.currentVersion expectation.refId = expectation.expectedVersion

theorem validateExpectations_eq_ok {store : StateStore} {task : Task} (route : String) :
    store.validateExpectations task.expectedVersions route = .ok () ↔ store.Meets task := by
  unfold validateExpectations Meets
  rw [Checks.forM_eq_ok]
  refine forall₂_congr fun expectation _ => ?_
  simp

theorem apply_other {store store' : StateStore} {delta : StateDelta} {refId : RefId}
    (h : store.apply delta = .ok store') (hne : refId ≠ delta.targetRef) :
    store'.currentVersion refId = store.currentVersion refId := by
  unfold apply at h
  dsimp only at h
  split at h
  · cases h
  · cases h
    unfold currentVersion
    rw [Buckets.getElem?_insert_ite, if_neg hne.symm]

end StateStore

/-! ## Where tasks come from -/

theorem StateStore.Meets.alike {store : StateStore} {origin task : Task}
    (h : store.Meets origin) (halike : Alike origin task) : store.Meets task := by
  unfold StateStore.Meets
  rw [halike.expectedVersions]
  exact h

/-- The live records that are not ready meet their expectations. -/
def RestMeet (states : StateStore) (b : Board) : Prop :=
  ∀ id r, b.tasks id = some r → isTerminalStatus r.status = false → r.status ≠ .ready →
    states.Meets r.task

/-- Routing makes nothing run, so what is not ready afterwards was not ready before. -/
theorem RestMeet.routes {states : StateStore} {s : Scope} {ended : TaskId → Prop} {b b' : Board}
    (hb : RestMeet states b) (h : Reach (Routes s ended) b b') : RestMeet states b' := by
  refine h.invariant (I := RestMeet states) ?_ hb
  intro m b b' hm hs hb id v hv hlive hready
  rcases hs.record hv with hold | ⟨-, -, -, hnew, -⟩ | ⟨c, r, hmove, hr, ha, -, hsame⟩
  · exact hb id v hold hlive hready
  · exact absurd hnew hready
  · refine (hb id r hr ha.source_live ?_).alike hsame.alike
    cases c with
    | claim lease => rcases hmove with rfl | rfl <;> exact hm.elim
    | rebind | wake => exact absurd ha.2 hready
    | reject | finish =>
      rw [ha.2.1] at hlive
      cases hlive
    | complete lease =>
      rw [ha.2.2] at hlive
      cases hlive
    | takeOver | release =>
      rw [ha.1]
      exact TaskStatus.noConfusion

namespace CoreRuntime

/-- The task is live, or the results of the call derive it. -/
def Involves (rt : CoreRuntime) (call : Call) (task : Task) : Prop :=
  (∃ (id : TaskId) (r : TaskRecord), rt.tasks.tasks[id]? = some r ∧
    isTerminalStatus r.status = false ∧ r.task = task) ∨ rt.Yields call task

/-- What is live but not ready, and what the call derives, meets its expectations; and no
    commit is to a state that is expected. -/
structure Undisturbed (rt : CoreRuntime) (call : Call) : Prop where
  rest : RestMeet rt.states rt.tasks.board
  derived : ∀ task, rt.Yields call task → rt.states.Meets task
  apart : ∀ commit task, rt.Involves call commit → rt.Involves call task →
    commit.protocolId = "core.commit" → ∀ delta, StateDelta.ofValue commit.payload = .ok delta →
      ∀ expectation ∈ task.expectedVersions, expectation.refId ≠ delta.targetRef

/-- What a call brings into a run is alike to what its results derive. -/
def derivedScope (rt : CoreRuntime) (call : Call) : Scope :=
  { anyScope with new := fun task => ∃ origin, rt.Yields call origin ∧ Alike origin task }

theorem within_derivedScope {rt : CoreRuntime} {call : Call}
    (hsubmits : ∀ task, ¬ call.Submits task) : call.Within (derivedScope rt call) rt := by
  refine Call.within_of_inputs (fun _ => trivial) (fun task ht => absurd ht (hsubmits task)) ?_
  intro descriptor hmem result hreturns
  refine ⟨fun _ _ => trivial, fun task ht _ createdSequence => ?_, fun _ _ _ => trivial⟩
  refine ⟨task, ⟨descriptor, hmem, result, hreturns, ht⟩, ?_⟩
  unfold bindGeneration
  split <;> exact ⟨rfl, rfl, rfl, rfl⟩

section Preconditions

variable {s : Scope} {strict : Prop} {start rt rt' : CoreRuntime} {call : Call}

/-- The live records are alike to tasks the call involves. -/
def Known (start : CoreRuntime) (call : Call) (rt : CoreRuntime) : Prop :=
  ∀ (id : TaskId) r, rt.tasks.tasks[id]? = some r → isTerminalStatus r.status = false →
    ∃ origin, start.Involves call origin ∧ Alike origin r.task

/-- The states that are expected are as they were. -/
def SameVersions (start : CoreRuntime) (call : Call) (rt : CoreRuntime) : Prop :=
  ∀ task, start.Involves call task → ∀ expectation ∈ task.expectedVersions,
    rt.states.currentVersion expectation.refId = start.states.currentVersion expectation.refId

/-- What holds between the passes of the call. -/
structure Checked (start : CoreRuntime) (call : Call) (rt : CoreRuntime) : Prop where
  known : Known start call rt
  versions : SameVersions start call rt
  rest : RestMeet start.states rt.tasks.board

/-- What holds from the head of a pass on: all that is live meets its expectations. -/
structure Fresh (start : CoreRuntime) (call : Call) (rt : CoreRuntime) : Prop where
  known : Known start call rt
  versions : SameVersions start call rt
  met : ∀ (id : TaskId) r, rt.tasks.tasks[id]? = some r → isTerminalStatus r.status = false →
    start.states.Meets r.task

theorem Fresh.checked (h : Fresh start call rt) : Checked start call rt :=
  ⟨h.known, h.versions, fun id r hr hlive _ => h.met id r hr hlive⟩

/-- As long as the states are as they were, a task meets what it met. -/
theorem SameVersions.meets_iff (h : SameVersions start call rt) {origin task : Task}
    (hinvolved : start.Involves call origin) (halike : Alike origin task) :
    rt.states.Meets task ↔ start.states.Meets task := by
  refine forall₂_congr fun expectation hmem => ?_
  rw [halike.expectedVersions] at hmem
  rw [h origin hinvolved expectation hmem]

/-! ## Hops -/

theorem Hop.known (h : Hop (derivedScope start call) strict false rt rt')
    (hknown : Known start call rt) : Known start call rt' := by
  intro id v hv hlive
  rcases h.origin hv hlive with
    ⟨r, hr, hlive', halike⟩ | ⟨task, ⟨origin, hyields, horigin⟩, halike⟩
  · obtain ⟨origin, hinvolved, horigin⟩ := hknown id r hr hlive'
    exact ⟨origin, hinvolved, horigin.trans halike⟩
  · exact ⟨origin, .inr hyields, horigin.trans halike⟩

/-- Only the kernel changes states, and no commit is to one that is expected. -/
theorem Hop.versions (h : Hop s strict false rt rt') (hcall : Undisturbed start call)
    (hknown : Known start call rt) (hversions : SameVersions start call rt) :
    SameVersions start call rt' := by
  cases h with
  | routed h =>
    intro task htask expectation hmem
    rw [h.states]
    exact hversions task htask expectation hmem
  | later | claim => exact hversions
  | @kernel _ lease r states hadmin hr hactive heffect hb hdone =>
    intro task htask expectation hmem
    have hstates : rt'.states = states := hb.states
    rw [hstates]
    rcases heffect with ⟨hprotocol, delta, hdelta, happly⟩ | ⟨-, hsame⟩
    · have hlive : isTerminalStatus r.status = false := by
        simp [(leaseActive_iff.1 hactive).1, isTerminalStatus]
      obtain ⟨origin, horigin, halike⟩ := hknown lease.taskId r hr hlive
      rw [halike.protocolId] at hprotocol
      rw [halike.payload] at hdelta
      rw [StateStore.apply_other happly
        (hcall.apart origin task horigin htask hprotocol delta hdelta expectation hmem)]
      exact hversions task htask expectation hmem
    · rw [hsame]
      exact hversions task htask expectation hmem
  | stop hadmin | configure hadmin | plan hadmin | registry hadmin => cases hadmin

theorem Fresh.hop (h : Hop (derivedScope start call) strict false rt rt')
    (hcall : Undisturbed start call) (hfresh : Fresh start call rt) : Fresh start call rt' := by
  refine ⟨h.known hfresh.known, h.versions hcall hfresh.known hfresh.versions, ?_⟩
  intro id v hv hlive
  rcases h.origin hv hlive with
    ⟨r, hr, hlive', halike⟩ | ⟨task, ⟨origin, hyields, horigin⟩, halike⟩
  · exact (hfresh.met id r hr hlive').alike halike
  · exact (hcall.derived origin hyields).alike (horigin.trans halike)

theorem Fresh.hops (h : Hops (derivedScope start call) strict false rt rt')
    (hcall : Undisturbed start call) (hfresh : Fresh start call rt) : Fresh start call rt' :=
  h.invariant (fun _ _ _ hhop hfresh => hfresh.hop hhop hcall) hfresh

/-! ## Passes -/

/-- The head of a pass rejects what is ready and not met; nothing else is unmet. -/
theorem beginPass_met (hgood : Good rt.tasks) (hchecked : Checked start call rt)
    (targetStep : Nat) :
    wp (beginPass targetStep) (fun _ head => ∀ (id : TaskId) v, head.tasks.tasks[id]? = some v →
        isTerminalStatus v.status = false → start.states.Meets v.task)
      (fun _ _ => False) rt := by
  refine wp_beginPass hgood fun _ rt₂ head h₂ h₃ hended id v hv hlive => ?_
  have hrest : RestMeet start.states rt₂.tasks.board := hchecked.rest.routes h₂.pool.reach
  -- the record before the rejections, and before the pass
  obtain ⟨r, hr, hlive', halike⟩ := (h₃.reach.origin hv hlive).resolve_right
    fun ⟨_, hnew, _⟩ => hnew.elim
  obtain ⟨r₀, hr₀, hlive₀, halike₀⟩ := (h₂.pool.reach.origin hr hlive').resolve_right
    fun ⟨_, hnew, _⟩ => hnew.elim
  obtain ⟨origin, hinvolved, horigin⟩ := hchecked.known id r₀ hr₀ hlive₀
  have hall : Alike origin r.task := horigin.trans halike₀
  refine StateStore.Meets.alike ?_ halike
  by_cases hready : r.status = .ready
  · by_contra hunmet
    have hunmet₂ : ¬ rt₂.states.Meets r.task := by
      rw [h₂.states, hchecked.versions.meets_iff hinvolved hall]
      exact hunmet
    rw [← StateStore.validateExpectations_eq_ok s!"task.precondition.{id}"] at hunmet₂
    cases hfailed : rt₂.states.validateExpectations r.task.expectedVersions
        s!"task.precondition.{id}" with
    | ok _ => exact hunmet₂ hfailed
    | error failure =>
      have hexpects : r.hasExpectations := by
        refine ⟨hready, fun hnil => ?_⟩
        rw [hnil] at hfailed
        cases hfailed
      have hlisted : (id, failure) ∈ rt₂.staleReadyTasks :=
        (mem_staleReadyTasks h₂.good).2 ⟨r, hr, hexpects, hfailed⟩
      exact hended (id, failure) hlisted ⟨v, hv, hlive⟩
  · exact hrest id r hr hlive' hready

theorem Checked.hops (hchecked : Checked start call rt)
    (h : Hops (derivedScope start call) strict false rt rt') (hcall : Undisturbed start call) :
    Known start call rt' ∧ SameVersions start call rt' :=
  h.invariant (fun _ _ _ hhop (h : Known start call _ ∧ SameVersions start call _) =>
    ⟨hhop.known h.1, hhop.versions hcall h.1 h.2⟩) ⟨hchecked.known, hchecked.versions⟩

theorem Checked.head (hstart : InOrder start)
    (hcall : Undisturbed start call) (hpasses : Passes (derivedScope start call) start rt)
    (hchecked : Checked start call rt) {targetStep completedTasks : Nat}
    (hlater : rt.currentStep < targetStep) {head : CoreRuntime}
    (hbegin : (beginPass targetStep).run rt = (.ok completedTasks, head)) :
    Fresh start call head := by
  have horderly := (hpasses.moved hstart).orderly
  have hmoved := beginPass_after (s := derivedScope start call) horderly hlater hbegin
  obtain ⟨hknown, hversions⟩ := hchecked.hops hmoved.hops hcall
  have hmet := beginPass_met horderly.good hchecked targetStep
  rw [wp_of_run_ok hbegin] at hmet
  exact ⟨hknown, hversions, hmet⟩

/-- The head of every pass finds the expectations of the call as they were. -/
theorem Passes.checked (h : Passes (derivedScope start call) start rt)
    (hstart : InOrder start) (hcall : Undisturbed start call) :
    Checked start call rt := by
  induction h with
  | here =>
    exact ⟨fun id r hr hlive => ⟨r.task, .inl ⟨id, r, hr, hlive, rfl⟩, rfl, rfl, rfl, rfl⟩,
      fun _ _ _ _ => rfl, hcall.rest⟩
  | pass hpasses hlater hbegin hmoved ih =>
    exact ((ih.head hstart hcall hpasses hlater hbegin).hops hmoved.hops hcall).checked

end Preconditions

/-! ## Claims -/

/-- Every task the call claims has its expectations met when it is claimed. -/
def ClaimsMet (rt : CoreRuntime) (call : Call) : Prop :=
  ∀ turn ∈ call.claimTurns rt, ∀ leased ∈ turn.leased, turn.before.states.Meets leased.2

/-- They are met also in the state that the call returns, with what it hands out. -/
def HandedOutMet (rt : CoreRuntime) (call : Call) : Prop :=
  ∀ turn ∈ call.claimTurns rt, ∀ leased ∈ turn.leased,
    (call.exec.run rt).2.states.Meets leased.2

theorem claimTurns_isAdmin {rt : CoreRuntime} {call : Call} {turn : ClaimTurn}
    (hturn : turn ∈ call.claimTurns rt) : call.isAdmin = false := by
  cases call with
  | claimReadyDispatches | claimReadyDispatchesAtStep | tickOnce | runUntilIdle => rfl
  | _ => cases hturn

theorem claimTurns_submits {rt : CoreRuntime} {call : Call} {turn : ClaimTurn}
    (hturn : turn ∈ call.claimTurns rt) (task : Task) : ¬ call.Submits task := by
  cases call with
  | submitBatch | submitTask | submitTargetedTask => cases hturn
  | _ => exact id

theorem claimed_preconditions_met {rt : CoreRuntime} (hrun : Run (fun _ _ => True) rt)
    {call : Call} (hcall : rt.Undisturbed call) : rt.ClaimsMet call ∧ rt.HandedOutMet call := by
  have hstart := hrun.inOrder
  have hmet : ∀ turn ∈ call.claimTurns rt, ∀ leased ∈ turn.leased,
      turn.before.states.Meets leased.2 ∧ (call.exec.run rt).2.states.Meets leased.2 := by
    intro turn hturn leased hleased
    have hwithin : call.Within (derivedScope rt call) rt :=
      within_derivedScope (claimTurns_submits hturn)
    have hpass := hrun.inPass hwithin hturn
    obtain ⟨r, hr, heligible, htask⟩ := mem_leased hpass.orderly hpass.listed hleased
    obtain ⟨targetStep, before, completedTasks, head, hpasses, hlater, hbegin, hmoved, -⟩ := hpass
    have hhead := (hpasses.checked hstart hcall).head hstart hcall hpasses hlater hbegin
    have hfresh := hhead.hops hmoved.hops hcall
    have hlive : isTerminalStatus r.status = false := by
      rw [(eligible_accepted heligible).1]
      rfl
    obtain ⟨origin, hinvolved, halike⟩ := hfresh.known _ r hr hlive
    have hfound := hfresh.met _ r hr hlive
    -- no hop of the call changes a version that is expected
    have hmade := hrun.moved hwithin
    rw [claimTurns_isAdmin hturn] at hmade
    have hafter := ((Passes.here (s := derivedScope rt call)).checked hstart hcall).hops hmade.hops
      hcall
    rw [htask]
    exact ⟨(hfresh.versions.meets_iff hinvolved halike).2 hfound,
      (hafter.2.meets_iff hinvolved halike).2 hfound⟩
  exact ⟨fun turn hturn leased hleased => (hmet turn hturn leased hleased).1,
    fun turn hturn leased hleased => (hmet turn hturn leased hleased).2⟩

/-- A task of the worker that expects a version of `s`. -/
def expectantTask (version : Nat) : Task :=
  { Task.new "t.1" "p.work" .null with
    expectedVersions := [{ refId := "s", expectedVersion := version }] }

/-- The worker claims a task that expects the version `s` has. -/
theorem claimed_preconditions_met_sample :
    let submitted := after [.submitTask (expectantTask 0)] sampleRuntime
    let claim : Call := .claimReadyDispatches keenPolicy none
    ((claim.claimTurns submitted).map fun turn => turn.leased.map (·.2.taskId)) =
        [[], ["t.1"]] ∧ submitted.ClaimsMet claim ∧ submitted.HandedOutMet claim := by
  refine ⟨by decide +kernel, claimed_preconditions_met
    (run_sampleRuntime.after _ fun _ _ _ => trivial) ?_⟩
  have hready : ((after [.submitTask (expectantTask 0)] sampleRuntime).tasks.tasks.toList.all
      fun e => e.2.status == .ready && e.2.task.protocolId == "p.work") = true := by
    decide +kernel
  generalize after [.submitTask (expectantTask 0)] sampleRuntime = rt at hready
  have hstored : ∀ (id : TaskId) r, rt.tasks.tasks[id]? = some r →
      r.status = .ready ∧ r.task.protocolId = "p.work" := by
    intro id r hr
    simpa using List.all_eq_true.1 hready (id, r) (ExtTreeMap.mem_toList_iff_getElem?_eq_some.2 hr)
  have hyields : ∀ task, ¬ rt.Yields (.claimReadyDispatches keenPolicy none) task := by
    rintro task ⟨_, _, _, hreturns, _⟩
    exact hreturns
  refine ⟨fun id r hr _ hne => absurd (hstored id r hr).1 hne,
    fun task htask => absurd htask (hyields task), ?_⟩
  rintro commit task (⟨id, r, hr, -, rfl⟩ | hcommit) - hprotocol
  · rw [(hstored id r hr).2] at hprotocol
    exact absurd hprotocol (by decide)
  · exact absurd hcommit (hyields commit)

/-- Some claim of the call is of a task whose expectations are not met. -/
def claimsStale (rt : CoreRuntime) (call : Call) : Bool :=
  (call.claimTurns rt).any fun turn => turn.leased.any fun leased =>
    leased.2.expectedVersions.any fun expectation =>
      turn.before.states.currentVersion expectation.refId != expectation.expectedVersion

theorem not_claimsMet {rt : CoreRuntime} {call : Call} (h : rt.claimsStale call = true) :
    ¬ rt.ClaimsMet call := by
  intro hmet
  obtain ⟨turn, hturn, h⟩ := List.any_eq_true.1 h
  obtain ⟨leased, hleased, h⟩ := List.any_eq_true.1 h
  obtain ⟨expectation, hmem, h⟩ := List.any_eq_true.1 h
  simp [hmet turn hturn leased hleased expectation hmem] at h

/-- The worker's task expects the version that a commit, ready beside it, is about to change. -/
def overtakenRuntime : CoreRuntime :=
  after [.submitTask (expectantTask 0), .submitTask sampleCommit] sampleRuntime

/-- The sender has its turn between the kernel and the worker. -/
def relayRuntime : CoreRuntime :=
  after [.submitTask (Task.new "t.2" "p.effect" .null)]
    ((boot (planOf 1 [pluginOf kernelRunner .core, pluginOf senderRunner .effect,
      pluginOf workRunner .domain]) [kernelRunner, senderRunner, workRunner] []).toOption.get
        (by decide +kernel))

/-- In the first state the kernel commits before the worker claims.  In the second the sender
    derives a task that expects a version `s` never had, and the worker claims it in the same
    tick. -/
theorem stale_tasks_claimed : (Run (fun _ _ => True) overtakenRuntime ∧
      ¬ overtakenRuntime.ClaimsMet (.claimReadyDispatches keenPolicy none)) ∧
    Run (fun _ _ => True) relayRuntime ∧
      ¬ relayRuntime.ClaimsMet (.tickOnce (answering (derives (expectantTask 1)))) :=
  ⟨⟨run_sampleRuntime.after _ fun _ _ _ => trivial, not_claimsMet (by decide +kernel)⟩,
    (Run.of_boot _).after _ fun _ _ _ => trivial, not_claimsMet (by decide +kernel)⟩

end CoreRuntime

end MutsukiRuntime
