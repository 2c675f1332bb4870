/-
  THE CLAIMS OF A CALL.  A pass claims for its runners one after the other; a claim turn
  is one of these claims, with the state it is made in.
-/
import MutsukiRuntime.Core.Runtime.Inputs

namespace MutsukiRuntime

open Std Board TaskPool Prog

/-- One claim: for this runner, under this decision, in this state. -/
structure ClaimTurn where
  runner : RunnerDescriptor
  decision : ScheduleDecision
  leaseExpiresAt : Option Nat
  before : CoreRuntime

namespace ClaimTurn

open CoreRuntime

/-- The tasks `claim_runner_work` leases in a turn. -/
def leased (turn : ClaimTurn) : List (TaskLease × Task) :=
  let decision := clampDecision turn.runner turn.decision
  if decision.dispatchLimit = 0 then []
  else
    ((claimReadyForExecutorWithBudget true turn.runner s!"executor:{turn.runner.runnerId}"
      turn.before.currentStep turn.before.loadPlan.registryGeneration decision.dispatchLimit
      (some decision.budget) turn.leaseExpiresAt).run turn.before.tasks).1.value?.getD []

end ClaimTurn

namespace CoreRuntime

/-! ## The turns of a pass -/

/-- The turn of a runner in a pass, if its policy decides. -/
def scheduleTurn (decideSchedule : SchedulePolicy) (leaseExpiresAt : Option Nat)
    (descriptor : RunnerDescriptor) (rt : CoreRuntime) : Option ClaimTurn :=
  if !runnerCanDispatch descriptor then none
  else
    let load := rt.tasks.runnerLoad descriptor rt.currentStep rt.loadPlan.registryGeneration
    match decideSchedule descriptor load rt.currentStep rt.loadPlan.registryGeneration with
    | .error _ => none
    | .ok decision => some { runner := descriptor, decision, leaseExpiresAt, before := rt }

def claimTurnsAtStep (targetStep : Nat) (decideSchedule : SchedulePolicy)
    (leaseExpiresAt : Option Nat) (rt : CoreRuntime) : List ClaimTurn :=
  if rt.stopState = .aborted ∨ targetStep ≤ rt.currentStep then []
  else
    match (beginPass targetStep).run rt with
    | (.ok completedTasks, rt') =>
      (Prog.iterations rt'.registry.descriptorSnapshot
        ({ claimedTasks := 0, completedTasks }, [])
        (scheduleRunner decideSchedule leaseExpiresAt) rt').filterMap fun turn =>
          scheduleTurn decideSchedule leaseExpiresAt turn.1 turn.2.2
    | _ => []

/-- The turn of a runner in an inline tick, if its leases have a step to expire at. -/
def tickTurn (descriptor : RunnerDescriptor) (rt : CoreRuntime) : Option ClaimTurn :=
  if !runnerCanDispatch descriptor ∨ u64Max < rt.currentStep + taskLeaseTtlSteps then none
  else
    let load := rt.tasks.runnerLoad descriptor rt.currentStep rt.loadPlan.registryGeneration
    some
      { runner := descriptor
        decision := inlineDecision load
        leaseExpiresAt := some (rt.currentStep + taskLeaseTtlSteps)
        before := rt }

def tickTurns (calls : RunnerCalls) (rt : CoreRuntime) : List ClaimTurn :=
  if rt.stopState = .aborted ∨ u64Max < rt.currentStep + 1 then []
  else
    match (beginPass (rt.currentStep + 1)).run rt with
    | (.ok completedTasks, rt') =>
      (Prog.iterations rt'.registry.descriptorSnapshot { claimedTasks := 0, completedTasks }
        (tickRunner calls) rt').filterMap fun turn => tickTurn turn.1 turn.2.2
    | _ => []

def idleTurns (calls : Nat → RunnerCalls) : Nat → CoreRuntime → List ClaimTurn
  | 0, _ => []
  | maxTicks + 1, rt => tickTurns (calls maxTicks) rt ++
      match (tickOnce (calls maxTicks)).run rt with
      | (.ok report, rt') =>
        if report.claimedTasks = 0 ∧ report.completedTasks = 0 then []
        else idleTurns calls maxTicks rt'
      | _ => []

end CoreRuntime

namespace Call

open CoreRuntime

/-- The claims a call makes from a state. -/
def claimTurns (rt : CoreRuntime) : Call → List ClaimTurn
  | .tickOnce calls => tickTurns calls rt
  | .runUntilIdle calls maxTicks => idleTurns calls maxTicks rt
  | .claimReadyDispatches decideSchedule leaseExpiresAt =>
    claimTurnsAtStep (satAdd rt.currentStep 1) decideSchedule leaseExpiresAt rt
  | .claimReadyDispatchesAtStep targetStep decideSchedule leaseExpiresAt =>
    claimTurnsAtStep targetStep decideSchedule leaseExpiresAt rt
  | _ => []

end Call

namespace CoreRuntime

variable {s : Scope} {strict : Prop} {served : RunnerId → Prop} {start rt : CoreRuntime}
  {allowed : CoreRuntime → Call → Prop} {turn : ClaimTurn}

theorem mem_leased (ho : Orderly strict served turn.before)
    (hmem : turn.runner ∈ turn.before.registry.descriptorSnapshot) {e : TaskLease × Task}
    (he : e ∈ turn.leased) :
    ∃ r, turn.before.tasks.tasks[e.1.taskId]? = some r ∧
      eligible turn.runner turn.before.currentStep turn.before.loadPlan.registryGeneration r =
        true ∧
      e.2 = (leaseRecord turn.runner e.1 r).task := by
  unfold ClaimTurn.leased at he
  dsimp only at he
  split at he
  · cases he
  · unfold Option.getD at he
    split at he
    next leased hvalue =>
      have hok := Outcome.value?_eq_some.1 hvalue
      rw [claimReady_of_ok hok] at hok
      obtain ⟨-, hleases⟩ := (wp_of_run_ok (Prod.ext hok rfl)).1
        (claimSelected_leased ho.good (ho.snapshot.accepted turn.runner hmem))
      obtain ⟨r, hr, heligible, -, -, htask, -⟩ := hleases.taken e he
      exact ⟨r, hr, heligible, htask⟩
    · cases he

/-- The states between the passes of a call. -/
inductive Passes (s : Scope) (start : CoreRuntime) : CoreRuntime → Prop where
  | here : Passes s start start
  | pass {rt rt' head : CoreRuntime} {targetStep completedTasks : Nat} (h : Passes s start rt)
      (hlater : rt.currentStep < targetStep)
      (hbegin : (beginPass targetStep).run rt = (.ok completedTasks, head))
      (hmoved : Moved s False false (fun _ => True) head rt') : Passes s start rt'

/-- The turn is made in a pass of the call. -/
def InPass (s : Scope) (start : CoreRuntime) (turn : ClaimTurn) : Prop :=
  ∃ targetStep before completedTasks head,
    Passes s start before ∧ before.currentStep < targetStep ∧
    (beginPass targetStep).run before = (.ok completedTasks, head) ∧
    Moved s False false (fun _ => True) head turn.before ∧
    turn.runner ∈ turn.before.registry.descriptorSnapshot

theorem beginPass_after (h : InOrder rt) {targetStep completedTasks : Nat}
    (hlater : rt.currentStep < targetStep) {head : CoreRuntime}
    (hbegin : (beginPass targetStep).run rt = (.ok completedTasks, head)) :
    Moved s False false (fun _ => False) rt head := by
  have hmoved := beginPass_moved (s := s) (moved_self h) hlater
  rw [wp_of_run_ok hbegin] at hmoved
  exact hmoved.1

theorem Passes.moved (h : Passes s start rt) (hstart : InOrder start) :
    Moved s False false (fun _ => True) start rt := by
  induction h with
  | here => exact moved_self hstart
  | pass _ hlater hbegin hmoved ih =>
    have hhead := beginPass_after (s := s) ih.orderly hlater hbegin
    exact ⟨hmoved.orderly, (ih.hops.trans hhead.hops).trans hmoved.hops⟩

theorem iterations_moved {β : Type} {f : β → RunnerDescriptor → CoreM β} {J : β → Prop} {acc : β}
    (hacc : J acc)
    (hf : ∀ acc descriptor rt' served, J acc → Moved s False false served rt rt' →
      descriptor ∈ rt'.registry.descriptorSnapshot → ¬ served descriptor.runnerId →
      wlp (fun _ => True) (f acc descriptor) (fun acc' rt'' => J acc' ∧
          Moved s False false (servedAlso served descriptor) rt rt'')
        (fun _ _ => True) rt')
    (h : Orderly False (fun _ => False) rt) :
    ∀ it ∈ Prog.iterations rt.registry.descriptorSnapshot acc f rt,
      Moved s False false (fun _ => True) rt it.2.2 ∧
        it.1 ∈ it.2.2.registry.descriptorSnapshot := by
  intro it hit
  obtain ⟨rest, -, hturning⟩ := Prog.iterations_invariant
    (fun rest acc rt' => J acc ∧ Turning s False rt rest rt')
    ⟨hacc, turning_all (moved_self h)⟩ (fun descriptor rest acc rt' ⟨hJ, h'⟩ =>
      wlp_mono (hf acc descriptor rt' _ hJ h'.moved (h'.listed descriptor (by simp)) (by simp))
        (fun _ ht => ht) (fun _ _ h'' => ⟨h''.1, h'.next h''.2⟩) (fun _ _ _ => trivial)) it hit
  exact ⟨hturning.moved.serve fun _ _ => trivial, hturning.listed it.1 (by simp)⟩

theorem CallsWithin.of_sameSetup {calls : RunnerCalls} (h : CallsWithin s start calls)
    (hsetup : SameSetup start rt) : CallsWithin s rt calls := by
  intro runner ctx batch answer hrun descriptor hmem hid completion hcompletion result hresult
  rw [hsetup.snapshot] at hmem
  exact (h runner ctx batch answer hrun descriptor hmem hid completion hcompletion result
    hresult).of_sameSetup hsetup

theorem FreesRunners.of_sameSetup (h : FreesRunners s start) (hsetup : SameSetup start rt) :
    FreesRunners s rt := by
  intro descriptor hmem
  rw [hsetup.snapshot] at hmem
  exact h descriptor hmem

theorem claimTurnsAtStep_inPass (h : InOrder rt)
    {targetStep : Nat} {decideSchedule : SchedulePolicy} {leaseExpiresAt : Option Nat}
    (hturn : turn ∈ claimTurnsAtStep targetStep decideSchedule leaseExpiresAt rt) :
    InPass s rt turn := by
  unfold claimTurnsAtStep at hturn
  split at hturn
  · cases hturn
  next hopen =>
    have hlater : rt.currentStep < targetStep := by
      by_contra hle
      exact hopen (.inr (Nat.le_of_not_lt hle))
    split at hturn
    next completedTasks head hbegin =>
      obtain ⟨it, hit, hturn⟩ := List.mem_filterMap.1 hturn
      have hhead := (beginPass_after (s := s) h hlater hbegin).orderly
      have hnone : HandedOut head [] := fun _ hd => (List.not_mem_nil hd).elim
      obtain ⟨hmoved, hmem⟩ := iterations_moved (s := s)
        (J := fun acc : RunnerLoopReport × List RunnerDispatch => HandedOut head acc.2) hnone
        (fun acc descriptor rt' served hacc hr hm hs => wlp_mono
          (scheduleRunner_moved decideSchedule leaseExpiresAt hacc hr hm hs)
          (fun _ _ => trivial) (fun _ _ h' => h') (fun _ _ _ => trivial)) hhead it hit
      unfold scheduleTurn at hturn
      split at hturn
      · cases hturn
      · dsimp only at hturn
        split at hturn
        · cases hturn
        · cases hturn
          exact ⟨targetStep, rt, completedTasks, head, .here, hlater, hbegin, hmoved, hmem⟩
    · cases hturn

section Ticks

variable {calls : RunnerCalls} (hwithin : CallsWithin s start calls)
  (hfrees : FreesRunners s start)

include hwithin hfrees

theorem tickRunner_after {head rt' : CoreRuntime} (hsetup : SameSetup start head)
    (acc : RunnerLoopReport) {descriptor : RunnerDescriptor}
    (h : Moved s False false served head rt') (hmem : descriptor ∈ rt'.registry.descriptorSnapshot)
    (hserved : ¬ served descriptor.runnerId) :
    wlp (fun _ => True) (tickRunner calls acc descriptor) (fun _ rt'' => True ∧
        Moved s False false (servedAlso served descriptor) head rt'')
      (fun _ => Moved s False false (servedAlso served descriptor) head) rt' :=
  wlp_mono (tickRunner_moved (fun hf : False => hf.elim) (hwithin.of_sameSetup hsetup)
    (hfrees.of_sameSetup hsetup) acc h hmem hserved) (fun _ _ => trivial)
    (fun _ _ h' => ⟨trivial, h'.2⟩) (fun _ _ h' => h')

theorem tickTurns_inPass (h : Passes s start rt) (hstart : InOrder start)
    (hturn : turn ∈ tickTurns calls rt) : InPass s start turn := by
  have hrt := h.moved hstart
  unfold tickTurns at hturn
  split at hturn
  · cases hturn
  · split at hturn
    next completedTasks head hbegin =>
      obtain ⟨it, hit, hturn⟩ := List.mem_filterMap.1 hturn
      have hlater : rt.currentStep < rt.currentStep + 1 := Nat.lt_succ_self _
      have hhead := beginPass_after (s := s) hrt.orderly hlater hbegin
      have hsetup : SameSetup start head := hrt.hops.sameSetup.trans hhead.hops.sameSetup
      obtain ⟨hmoved, hmem⟩ := iterations_moved (s := s)
        (J := fun _ : RunnerLoopReport => True) trivial
        (fun acc descriptor rt' served _ hr hm hs => wlp_mono
          (tickRunner_after hwithin hfrees hsetup acc hr hm hs)
          (fun _ ht => ht) (fun _ _ h' => h') (fun _ _ _ => trivial)) hhead.orderly it hit
      unfold tickTurn at hturn
      split at hturn
      · cases hturn
      · cases hturn
        exact ⟨_, rt, completedTasks, head, h, hlater, hbegin, hmoved, hmem⟩
    · cases hturn

omit hwithin hfrees in
theorem addSteps_eq_ok {step count sum : Nat} {rt' : CoreRuntime}
    (h : (addSteps step count).run rt = (.ok sum, rt')) : sum = step + count ∧ rt = rt' := by
  unfold addSteps at h
  split at h
  · cases h
    exact ⟨rfl, rfl⟩
  · cases h

theorem Passes.tick (h : Passes s start rt) (hstart : InOrder start)
    {report : RunnerLoopReport} {rt' : CoreRuntime}
    (hrun : (tickOnce calls).run rt = (.ok report, rt')) : Passes s start rt' := by
  have hrt := h.moved hstart
  unfold tickOnce at hrun
  rw [run_read_bind] at hrun
  obtain ⟨_, -, hrun⟩ := run_lift_bind_eq_ok.1 hrun
  obtain ⟨nextStep, rt₀, hnext, hrun⟩ := run_bind_eq_ok.1 hrun
  obtain ⟨rfl, rfl⟩ := addSteps_eq_ok hnext
  obtain ⟨completedTasks, head, hbegin, hrun⟩ := run_bind_eq_ok.1 hrun
  rw [run_read_bind] at hrun
  have hlater : rt.currentStep < rt.currentStep + 1 := Nat.lt_succ_self _
  have hhead := beginPass_after (s := s) hrt.orderly hlater hbegin
  have hsetup : SameSetup start head := hrt.hops.sameSetup.trans hhead.hops.sameSetup
  have hturns : wlp (fun _ => True) (Prog.foldEach head.registry.descriptorSnapshot
      { claimedTasks := 0, completedTasks } (tickRunner calls))
      (fun _ rt' => True ∧ Moved s False false (fun _ => True) head rt')
      (fun _ => Moved s False false (fun _ => True) head) head :=
    foldRunners_moved (J := fun _ _ => True) trivial (fun acc descriptor rt' served _ hr hm hs =>
      tickRunner_after hwithin hfrees hsetup acc hr hm hs) (moved_self hhead.orderly)
  rw [wlp_of_run_ok hrun] at hturns
  exact h.pass hlater hbegin hturns.2

end Ticks

theorem idleTurns_inPass {calls : Nat → RunnerCalls} (hwithin : ∀ n, CallsWithin s start (calls n))
    (hfrees : FreesRunners s start) (hstart : InOrder start)
    (maxTicks : Nat) (h : Passes s start rt) (hturn : turn ∈ idleTurns calls maxTicks rt) :
    InPass s start turn := by
  induction maxTicks generalizing rt with
  | zero => cases hturn
  | succ maxTicks ih =>
    rw [idleTurns, List.mem_append] at hturn
    rcases hturn with hturn | hturn
    · exact tickTurns_inPass (hwithin maxTicks) hfrees h hstart hturn
    · split at hturn
      next report rt' hrun =>
        split at hturn
        · cases hturn
        · exact ih (h.tick (hwithin maxTicks) hfrees hstart hrun) hturn
      · cases hturn

theorem Run.inPass (h : Run allowed rt) {call : Call} (hwithin : call.Within s rt)
    (hturn : turn ∈ call.claimTurns rt) : InPass s rt turn := by
  have hstart := h.inOrder
  cases call with
  | tickOnce calls => exact tickTurns_inPass hwithin.1 hwithin.2 .here hstart hturn
  | runUntilIdle calls maxTicks =>
    exact idleTurns_inPass hwithin.1 hwithin.2 hstart maxTicks .here hturn
  | claimReadyDispatches | claimReadyDispatchesAtStep =>
    exact claimTurnsAtStep_inPass hstart hturn
  | _ => cases hturn

theorem InPass.orderly (h : InPass s start turn) : InOrder turn.before := by
  obtain ⟨_, _, _, _, -, -, -, hmoved, -⟩ := h
  exact hmoved.orderly

theorem InPass.listed (h : InPass s start turn) :
    turn.runner ∈ turn.before.registry.descriptorSnapshot := by
  obtain ⟨_, _, _, _, -, -, -, -, hmem⟩ := h
  exact hmem

theorem InPass.sameSetup (h : InPass s start turn)
    (hstart : InOrder start) : SameSetup start turn.before := by
  obtain ⟨_, _, _, _, hpasses, hlater, hbegin, hmoved, -⟩ := h
  have hbefore := hpasses.moved hstart
  have hhead := beginPass_after (s := s) hbefore.orderly hlater hbegin
  exact (hbefore.hops.sameSetup.trans hhead.hops.sameSetup).trans hmoved.hops.sameSetup

end CoreRuntime

end MutsukiRuntime
