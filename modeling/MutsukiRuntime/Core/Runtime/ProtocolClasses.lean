/-
  PROTOCOL CLASSES OF CLAIMED TASKS.  A pure runner is for domain protocols, an effectful
  one for effects, the committer for core and control protocols.  The plan check holds
  every runner against the class that the FIRST plugin gives its protocols; the runtime
  goes by the class of the LAST one, and a load-plan-only reload checks nothing.
-/
import MutsukiRuntime.Core.Runtime.ClaimTurns
import MutsukiRuntime.Core.Runtime.Generations

namespace MutsukiRuntime

open Std Board TaskPool Prog List

/-- Every accepted protocol has a class that the purity of its runner matches. -/
def ClassesMatch (classes : ExtTreeMap ProtocolId ProtocolClass)
    (descriptors : List RunnerDescriptor) : Prop :=
  ∀ descriptor ∈ descriptors, ∀ protocolId ∈ descriptor.acceptedProtocolIds,
    ∃ protocolClass, classes[protocolId]? = some protocolClass ∧
      matchesPurity descriptor.purity protocolClass = true

theorem mem_normalized {descriptor : RunnerDescriptor} {protocolId : ProtocolId}
    (h : protocolId ∈ (RunnerRegistry.normalizedDescriptor descriptor).acceptedProtocolIds) :
    protocolId ∈ descriptor.acceptedProtocolIds :=
  (mem_insertionSort _).1 (RunnerRegistry.mem_dedupSorted h)

/-- A registry lists what it was built from, with the protocols sorted. -/
theorem ClassesMatch.build {classes : ExtTreeMap ProtocolId ProtocolClass} {runners : List Runner}
    {handlers : List AsyncBatchHandler} {registry : RunnerRegistry}
    (h : ClassesMatch classes (CoreRuntime.descriptorsOf runners handlers))
    (hbuild : RunnerRegistry.build runners handlers = .ok registry) :
    ClassesMatch classes registry.descriptorSnapshot := by
  intro descriptor hmem protocolId hprotocol
  obtain ⟨source, hsource, rfl⟩ := RunnerRegistry.build_listed hbuild hmem
  exact h source hsource protocolId (mem_normalized hprotocol)

namespace CoreRuntime

section Classes

variable {start rt rt' : CoreRuntime} {allowed : CoreRuntime → Call → Prop}

/-- The classes that are active match the runners that are registered. -/
def ActiveMatch (rt : CoreRuntime) : Prop :=
  ClassesMatch rt.protocolClasses rt.registry.descriptorSnapshot

/-- What claims are held against. -/
def classSetup (rt : CoreRuntime) :
    ExtTreeMap ProtocolId ProtocolClass × List RunnerDescriptor :=
  (rt.protocolClasses, rt.registry.descriptorSnapshot)

theorem ActiveMatch.of_same (h : ActiveMatch rt) (hsame : Same classSetup rt rt') :
    ActiveMatch rt' := by
  have hclasses : rt'.protocolClasses = rt.protocolClasses := congrArg Prod.fst hsame
  have hsnapshot : rt'.registry.descriptorSnapshot = rt.registry.descriptorSnapshot :=
    congrArg Prod.snd hsame
  unfold ActiveMatch
  rw [hclasses, hsnapshot]
  exact h

/-- A new plan with the runners that are there. -/
def Replans (newPlan : RuntimeLoadPlan) (rt rt' : CoreRuntime) : Prop :=
  rt'.registry = rt.registry ∧
    (rt'.protocolClasses = rt.protocolClasses ∨
      rt'.protocolClasses = protocolClassesForPlan newPlan)

instance (newPlan : RuntimeLoadPlan) : IsPreorder CoreRuntime (Replans newPlan) where
  refl _ := ⟨rfl, .inl rfl⟩
  trans := by
    rintro _ _ _ ⟨hregistry, hclasses⟩ ⟨hregistry', hclasses'⟩
    refine ⟨hregistry'.trans hregistry, ?_⟩
    rcases hclasses' with hsame | hnew
    · rw [hsame]
      exact hclasses
    · exact .inr hnew

theorem reloadLoadPlanOnly_replans (newPlan : RuntimeLoadPlan) :
    Leads (Replans newPlan) (reloadLoadPlanOnly newPlan) := by
  refine .bind .read fun _ => .bind (.lift _) fun _ => .bind (.update fun _ => ?_) fun _ =>
    .bind (.bind .read fun _ => .bind (fun _ => ?_) fun _ => .update fun _ => ?_) fun _ => .pure _
  · exact ⟨rfl, .inl rfl⟩
  · exact ⟨rfl, .inl rfl⟩
  · exact ⟨rfl, .inr rfl⟩

theorem abort_classes (reason : String) : Leads (Same classSetup) (abort reason) :=
  .bind .read fun _ => .ite (.pure _) (.bind (.update fun _ => rfl) fun _ =>
    .bind (fun _ => rfl) fun _ => .bind (.forEach fun _ _ => .update fun _ => rfl) fun _ =>
    .bind (.update fun _ => rfl) fun _ => .pure _)

theorem beginDrain_classes : Leads (Same classSetup) beginDrain := by
  refine .bind .read fun rt => ?_
  cases rt.stopState with
  | running =>
    exact .bind (.update fun _ => rfl) fun _ => .bind (.update fun _ => rfl) fun _ => .pure _
  | draining => exact .pure _
  | aborted => exact .fail _

theorem reloadWithAsyncHandlers_match {calls : RunnerCalls} {order : IterationOrder}
    {newPlan : RuntimeLoadPlan} {newRunners : List Runner}
    {newAsyncHandlers : List AsyncBatchHandler} (hgood : Good start.tasks) (h : ActiveMatch start)
    (hnew : ClassesMatch (protocolClassesForPlan newPlan)
      (descriptorsOf newRunners newAsyncHandlers)) :
    wp (reloadWithAsyncHandlers calls order newPlan newRunners newAsyncHandlers)
      (fun _ => ActiveMatch) (fun _ => ActiveMatch) start := by
  rw [wp_reload]
  cases hcheck : start.checkReload newPlan newRunners newAsyncHandlers with
  | error e => exact h
  | ok checked =>
    obtain ⟨_, -, hcheck⟩ := except_bind_eq_ok.1 hcheck
    obtain ⟨_, -, hcheck⟩ := except_bind_eq_ok.1 hcheck
    obtain ⟨registry, hbuild, hcheck⟩ := except_bind_eq_ok.1 hcheck
    cases hcheck
    have hearly : ∀ {rt : CoreRuntime}, Reloading newPlan start rt → ActiveMatch rt := by
      intro rt hreloading
      rw [hreloading.frame]
      exact h
    have hlate : ∀ {mid rt : CoreRuntime},
        Swapped newPlan registry (start.keptGenerations order) mid rt → ActiveMatch rt := by
      intro mid rt hswapped
      rw [hswapped.frame]
      exact hnew.build hbuild
    refine wp_mono (swapGeneration_stages hgood) ?_ ?_
    · rintro _ rt ⟨mid, rt₁, -, -, hswapped, -, hframe⟩
      have hmatch := hlate hswapped
      rw [hframe]
      exact hmatch
    · rintro e rt (⟨-, hreloading, -⟩ | ⟨mid, hall, ⟨-, -, hframe⟩ | ⟨-, rt₁, hswapped, -, hframe⟩⟩)
      · exact hearly hreloading
      · rw [hframe]
        exact fun _ hmem => absurd hmem not_mem_nil
      · have hmatch := hlate hswapped
        rw [hframe]
        exact hmatch

/-! ## Runs -/

/-- The classes of a plan that is loaded match the runners it is loaded for: those that come
    with it, or those that are there. -/
def LoadsMatching (rt : CoreRuntime) : Call → Prop
  | .reloadLoadPlanOnly newPlan =>
    ClassesMatch (protocolClassesForPlan newPlan) rt.registry.descriptorSnapshot
  | .reloadWithAsyncHandlers _ _ newPlan newRunners newAsyncHandlers =>
    ClassesMatch (protocolClassesForPlan newPlan) (descriptorsOf newRunners newAsyncHandlers)
  | _ => True

theorem Run.activeMatch_call (hrun : Run allowed rt) (h : ActiveMatch rt) {call : Call}
    (hcall : LoadsMatching rt call) : ActiveMatch (call.exec.run rt).2 := by
  have hworking : call.isAdmin = false → ActiveMatch (call.exec.run rt).2 := by
    intro hworks
    have hmoved := hrun.moved (within_anyScope call)
    rw [hworks] at hmoved
    have hsetup := hmoved.hops.sameSetup
    exact h.of_same (Prod.ext hsetup.protocolClasses hsetup.snapshot)
  have hleads : ∀ {α : Type} {m : CoreM α}, Leads (Same classSetup) m →
      ActiveMatch ((do let _ ← m : CoreM Unit).run rt).2 := by
    intro α m hm
    rw [state_discard]
    exact h.of_same (hm rt)
  cases call with
  | beginDrain => exact hleads beginDrain_classes
  | abort reason => exact hleads (abort_classes reason)
  | configureEventCapacity | configureObservability | editResources => exact h
  | reloadLoadPlanOnly newPlan =>
    show ActiveMatch ((do let _ ← reloadLoadPlanOnly newPlan : CoreM Unit).run rt).2
    rw [state_discard]
    obtain ⟨hregistry, hclasses⟩ := reloadLoadPlanOnly_replans newPlan rt
    unfold ActiveMatch
    rw [hregistry]
    rcases hclasses with hsame | hnew
    · rw [hsame]
      exact h
    · rw [hnew]
      exact hcall
  | reloadWithAsyncHandlers calls order newPlan newRunners newAsyncHandlers =>
    show ActiveMatch ((do
      let _ ← reloadWithAsyncHandlers calls order newPlan newRunners newAsyncHandlers :
        CoreM Unit).run rt).2
    rw [state_discard]
    exact wp_run (reloadWithAsyncHandlers_match hrun.good h hcall)
  | _ => exact hworking rfl

theorem Run.claimed_accepted (hrun : Run allowed rt) {call : Call} {turn : ClaimTurn}
    (hturn : turn ∈ call.claimTurns rt) {e : TaskLease × Task} (he : e ∈ turn.leased) :
    SameSetup rt turn.before ∧ turn.runner ∈ turn.before.registry.descriptorSnapshot ∧
      e.2.protocolId ∈ turn.runner.acceptedProtocolIds := by
  have hpass := hrun.inPass (within_anyScope call) hturn
  obtain ⟨r, -, heligible, htask⟩ := mem_leased hpass.orderly hpass.listed he
  refine ⟨hpass.sameSetup (hrun.orderly False.elim), hpass.listed, ?_⟩
  rw [htask]
  exact (eligible_accepted heligible).2

end Classes

/-- Every task the call claims has a class, in the map that is active then, that the purity of
    the claiming runner matches. -/
def ClaimsMatch (rt : CoreRuntime) (call : Call) : Prop :=
  ∀ turn ∈ call.claimTurns rt, ∀ leased ∈ turn.leased,
    ∃ protocolClass, turn.before.protocolClasses[leased.2.protocolId]? = some protocolClass ∧
      matchesPurity turn.runner.purity protocolClass = true

/-- All claims match, if the plans of the run match the runners they are loaded for. -/
theorem claimed_classes_match {loadPlan : RuntimeLoadPlan} {runners : List Runner}
    {asyncHandlers : List AsyncBatchHandler} {start rt : CoreRuntime}
    (hboot : boot loadPlan runners asyncHandlers = .ok start)
    (hplan : ClassesMatch (protocolClassesForPlan loadPlan) (descriptorsOf runners asyncHandlers))
    (h : Onward LoadsMatching start rt) (call : Call) : rt.ClaimsMatch call := by
  have hstart : Run (fun _ _ => True) start := .boot hboot
  have hmatch : ActiveMatch rt := by
    induction h with
    | here =>
      obtain ⟨registry, hbuild, rfl⟩ := boot_eq_ok hboot
      exact hplan.build hbuild
    | call h call hcall ih => exact (h.run hstart).activeMatch_call ih hcall
  intro turn hturn leased hleased
  obtain ⟨hsetup, hlisted, haccepted⟩ := (h.run hstart).claimed_accepted hturn hleased
  rw [hsetup.snapshot] at hlisted
  rw [hsetup.protocolClasses]
  exact hmatch turn.runner hlisted _ haccepted

/-- The worker claims a task of its protocol, as the class map of the sample plan has it. -/
theorem claimed_classes_match_sample :
    let submitted := after [.submitTask (Task.new "t.1" "p.work" .null)] sampleRuntime
    let claim : Call := .claimReadyDispatches keenPolicy none
    ((claim.claimTurns submitted).map fun turn => turn.leased.map (·.2.taskId)) =
        [[], ["t.1"]] ∧ submitted.ClaimsMatch claim := by
  have hplan : ClassesMatch (protocolClassesForPlan samplePlan)
      (descriptorsOf [kernelRunner, workRunner] []) := by
    intro descriptor hmem protocolId hprotocol
    have hcore : (protocolClassesForPlan samplePlan)["core.commit"]? = some .core ∧
        (protocolClassesForPlan samplePlan)["core.event.append"]? = some .core ∧
        (protocolClassesForPlan samplePlan)["p.work"]? = some .domain := by decide +kernel
    rcases mem_cons.1 hmem with rfl | hmem
    · rcases mem_cons.1 hprotocol with rfl | hprotocol
      · exact ⟨.core, hcore.1, rfl⟩
      · rw [mem_singleton.1 hprotocol]
        exact ⟨.core, hcore.2.1, rfl⟩
    · rw [mem_singleton.1 hmem] at hprotocol ⊢
      rw [mem_singleton.1 hprotocol]
      exact ⟨.domain, hcore.2.2, rfl⟩
  exact ⟨by decide +kernel, claimed_classes_match (boot_get (by decide +kernel)) hplan
    (.call .here (.submitTask (Task.new "t.1" "p.work" .null)) trivial) _⟩

/-- Some claim of the call is of a task whose class the runner does not match. -/
def claimsMismatched (rt : CoreRuntime) (call : Call) : Bool :=
  (call.claimTurns rt).any fun turn => turn.leased.any fun leased =>
    !turn.before.protocolClasses[leased.2.protocolId]?.any (matchesPurity turn.runner.purity)

theorem not_claimsMatch {rt : CoreRuntime} {call : Call} (h : rt.claimsMismatched call = true) :
    ¬ rt.ClaimsMatch call := by
  intro hmatch
  obtain ⟨turn, hturn, h⟩ := any_eq_true.1 h
  obtain ⟨leased, hleased, h⟩ := any_eq_true.1 h
  obtain ⟨protocolClass, hclass, hpurity⟩ := hmatch turn hturn leased hleased
  simp [hclass, hpurity] at h

/-- A plugin without runners, listed last, makes the worker's protocol an effect. -/
def reclassedPlan : RuntimeLoadPlan :=
  planOf 1 (samplePlan.plugins ++
    [{ pluginOf workRunner .effect with pluginId := "late", runners := [] }])

/-- The plan is booted and a task of the worker is submitted. -/
def reclassedRuntime : CoreRuntime :=
  after [.submitTask (Task.new "t.1" "p.work" .null)]
    ((boot reclassedPlan [kernelRunner, workRunner] []).toOption.get (by decide +kernel))

/-- The plan is loaded over the sample plan, which nothing checks. -/
def replannedRuntime : CoreRuntime :=
  after [.submitTask (Task.new "t.1" "p.work" .null), .reloadLoadPlanOnly reclassedPlan]
    sampleRuntime

/-- In both states the worker, a pure runner, claims an effect. -/
theorem pure_runner_claims_effect : (Run (fun _ _ => True) reclassedRuntime ∧
      ¬ reclassedRuntime.ClaimsMatch (.claimReadyDispatches keenPolicy none)) ∧
    Run (fun _ _ => True) replannedRuntime ∧
      ¬ replannedRuntime.ClaimsMatch (.claimReadyDispatches keenPolicy none) :=
  ⟨⟨(Run.of_boot _).after _ fun _ _ _ => trivial, not_claimsMatch (by decide +kernel)⟩,
    run_sampleRuntime.after _ fun _ _ _ => trivial, not_claimsMatch (by decide +kernel)⟩

end CoreRuntime

end MutsukiRuntime
