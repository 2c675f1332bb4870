/-
  SYNCING PLAN RECEIPTS (`runtime/resource_api.rs`, `resource_manager/resources.rs`).

  The runtime first checks that no descriptor of a receipt uses a deprecated surface, and then
  the manager syncs the merged descriptors one by one; a list of receipts is one such call after
  the other.  Nothing is taken back when a step is refused.
-/
import MutsukiRuntime.Core.ResourceDescriptors
import MutsukiRuntime.Core.Runtime.State
import MutsukiRuntime.Lib.Checks

namespace MutsukiRuntime

open Prog Buckets ResourceManager List Option
open Std (ExtTreeMap)

/-! ## The calls of the runtime -/

namespace CoreRuntime

/-- An operation of the resource manager. -/
def onResources {α : Type} (m : ResourceManager.Op α) : CoreM α :=
  Prog.zoom (·.resources) (fun resources rt => { rt with resources }) m

def ensureSurfaceNotDeprecated (rt : CoreRuntime) (surfaceId : SurfaceId) (source : String) :
    Except RuntimeError Unit :=
  if rt.isSurfaceDeprecated surfaceId then
    .error (runtimeError errReloadBlocked source s!"surface.deprecated.{surfaceId}")
  else .ok ()

def ensureResourceSurfacesNotDeprecated (rt : CoreRuntime) (schema : String)
    (providerId : Option String) (source : String) : Except RuntimeError Unit := do
  rt.ensureSurfaceNotDeprecated schema source
  rt.ensureSurfaceNotDeprecated s!"resource_schema:{schema}" source
  match providerId with
  | some providerId => do
    rt.ensureSurfaceNotDeprecated providerId source
    rt.ensureSurfaceNotDeprecated s!"resource_provider:{providerId}" source
  | none => pure ()

def ensureResourceDescriptorNotDeprecated (rt : CoreRuntime) (descriptor : ResourceRef) :
    Except RuntimeError Unit :=
  rt.ensureResourceSurfacesNotDeprecated descriptor.schema (some descriptor.providerId)
    "runtime.resource_manager"

def syncPlanReceipt (receipt : PlanReceipt) : CoreM (List ResourceRef) := do
  let rt ← Prog.read
  Prog.lift (receipt.named.forM rt.ensureResourceDescriptorNotDeprecated)
  onResources (ResourceManager.syncPlanReceipt receipt)

def syncPlanReceipts (receipts : List PlanReceipt) : CoreM (List ResourceRef) :=
  Prog.foldEach receipts [] fun synced receipt => do
    let descriptors ← syncPlanReceipt receipt
    pure (synced ++ descriptors)

/-- One of the surfaces that a descriptor uses is deprecated. -/
def descriptorDeprecated (rt : CoreRuntime) (descriptor : ResourceRef) : Bool :=
  rt.isSurfaceDeprecated descriptor.schema ||
    rt.isSurfaceDeprecated s!"resource_schema:{descriptor.schema}" ||
    rt.isSurfaceDeprecated descriptor.providerId ||
    rt.isSurfaceDeprecated s!"resource_provider:{descriptor.providerId}"

theorem ensureResourceDescriptorNotDeprecated_eq_ok (rt : CoreRuntime)
    (descriptor : ResourceRef) : rt.ensureResourceDescriptorNotDeprecated descriptor = .ok () ↔
      rt.descriptorDeprecated descriptor = false := by
  have hsurface : ∀ surfaceId source, rt.ensureSurfaceNotDeprecated surfaceId source = .ok () ↔
      rt.isSurfaceDeprecated surfaceId = false := by
    intro surfaceId source
    unfold ensureSurfaceNotDeprecated
    split <;> simp_all
  simp only [ensureResourceDescriptorNotDeprecated, ensureResourceSurfacesNotDeprecated,
    except_bind_eq_ok, hsurface, descriptorDeprecated, Bool.or_eq_false_iff]
  tauto

end CoreRuntime

/-! ## Steps on the hub -/

/-- A check of a descriptor for deprecated surfaces, or its sync. -/
inductive SyncStep where
  | check (descriptor : ResourceRef)
  | sync (descriptor : ResourceRef)

namespace SyncStep

/-- The descriptor that a step puts into the hub. -/
def synced : SyncStep → List ResourceRef
  | check _ => []
  | sync descriptor => [descriptor]

def refused (deprecated : ResourceRef → Bool) (hub : ExtTreeMap RefId ResourceEntry) :
    SyncStep → Bool
  | check descriptor => deprecated descriptor
  | sync descriptor => !consistent descriptor || hub[descriptor.refId]?.any (outdated descriptor)

def apply (hub : ExtTreeMap RefId ResourceEntry) : SyncStep → ExtTreeMap RefId ResourceEntry
  | check _ => hub
  | sync descriptor => hub.insert descriptor.refId
      { descriptor, writer := hub[descriptor.refId]?.bind fun entry => entry.writer }

end SyncStep

/-- Whether all steps are accepted, and the hub they leave. -/
def syncAll (deprecated : ResourceRef → Bool) (hub : ExtTreeMap RefId ResourceEntry) :
    List SyncStep → Bool × ExtTreeMap RefId ResourceEntry
  | [] => (true, hub)
  | step :: steps =>
    if step.refused deprecated hub then (false, hub)
    else syncAll deprecated (step.apply hub) steps

theorem syncAll_append (deprecated : ResourceRef → Bool) (hub : ExtTreeMap RefId ResourceEntry)
    (steps more : List SyncStep) : syncAll deprecated hub (steps ++ more) =
      if (syncAll deprecated hub steps).1 then
        syncAll deprecated (syncAll deprecated hub steps).2 more
      else syncAll deprecated hub steps := by
  induction steps generalizing hub with
  | nil => rfl
  | cons step steps ih =>
    simp only [cons_append, syncAll]
    split
    · rfl
    · exact ih (step.apply hub)

/-- The outcome and the state of a run, as the steps give them. -/
def StepsAs {σ α : Type} (run : Outcome RuntimeError α × σ)
    (steps : Bool × ExtTreeMap RefId ResourceEntry)
    (set : ExtTreeMap RefId ResourceEntry → σ) : Prop :=
  run.2 = set steps.2 ∧
    if steps.1 then ∃ a, run.1 = .ok a else ∃ error, run.1 = .err error

theorem syncResourceDescriptor_run (deprecated : ResourceRef → Bool)
    (resources : ResourceManager) (descriptor : ResourceRef) :
    (syncResourceDescriptor descriptor).run resources =
      if (SyncStep.sync descriptor).refused deprecated resources.hub then
        (.err (resourceGenerationMismatch s!"resource.sync.{descriptor.refId}"), resources)
      else (.ok descriptor,
        { resources with hub := (SyncStep.sync descriptor).apply resources.hub }) := by
  unfold syncResourceDescriptor
  simp only [SyncStep.refused, SyncStep.apply]
  by_cases hconsistent : consistent descriptor = true
  · simp only [hconsistent, not_true_eq_false, if_false, run_read_bind, Bool.not_true,
      Bool.false_or]
    cases hentry : resources.hub[descriptor.refId]? with
    | none => rfl
    | some =>
      simp only [any_some, bind_some]
      split <;> rfl
  · simp [hconsistent]

theorem syncPlanReceipt_follows (deprecated : ResourceRef → Bool) (resources : ResourceManager)
    (descriptors synced : List ResourceRef) :
    StepsAs ((foldEach descriptors synced fun synced descriptor => do
        let descriptor ← syncResourceDescriptor descriptor
        pure (synced ++ [descriptor])).run resources)
      (syncAll deprecated resources.hub (descriptors.map .sync))
      (fun hub => { resources with hub }) := by
  induction descriptors generalizing resources synced with
  | nil => exact ⟨rfl, synced, rfl⟩
  | cons descriptor descriptors ih =>
    have hrun := syncResourceDescriptor_run deprecated resources descriptor
    rw [foldEach, bind_bind, map_cons, syncAll]
    by_cases href : (SyncStep.sync descriptor).refused deprecated resources.hub = true
    · rw [if_pos href] at hrun
      rw [run_bind_of_err hrun, if_pos href]
      exact ⟨rfl, _, rfl⟩
    · rw [if_neg href] at hrun
      rw [run_bind_of_ok hrun, if_neg href]
      exact ih _ _

/-- The steps of a receipt in the runtime. -/
def PlanReceipt.steps (receipt : PlanReceipt) : List SyncStep :=
  receipt.named.map .check ++ receipt.descriptors.map .sync

theorem syncAll_checks (deprecated : ResourceRef → Bool)
    (hub : ExtTreeMap RefId ResourceEntry) (descriptors : List ResourceRef) :
    syncAll deprecated hub (descriptors.map .check) =
      (descriptors.all fun descriptor => !deprecated descriptor, hub) := by
  induction descriptors with
  | nil => rfl
  | cons descriptor descriptors ih =>
    rw [map_cons, syncAll, SyncStep.refused, SyncStep.apply, ih, all_cons]
    cases deprecated descriptor <;> rfl

namespace CoreRuntime

/-- The runtime with another hub. -/
def withHub (rt : CoreRuntime) (hub : ExtTreeMap RefId ResourceEntry) : CoreRuntime :=
  { rt with resources := { rt.resources with hub } }

theorem syncPlanReceipt_steps (rt : CoreRuntime) (receipt : PlanReceipt) :
    StepsAs ((syncPlanReceipt receipt).run rt)
      (syncAll rt.descriptorDeprecated rt.resources.hub receipt.steps) rt.withHub := by
  unfold syncPlanReceipt
  rw [run_read_bind, PlanReceipt.steps, syncAll_append, syncAll_checks]
  cases hchecks : receipt.named.forM rt.ensureResourceDescriptorNotDeprecated with
  | ok _ =>
    have hall : (receipt.named.all fun descriptor =>
        !rt.descriptorDeprecated descriptor) = true := by
      refine List.all_eq_true.2 fun descriptor hmem => ?_
      have hok := Checks.forM_eq_ok.1 hchecks descriptor hmem
      rw [(ensureResourceDescriptorNotDeprecated_eq_ok rt descriptor).1 hok]
      rfl
    rw [if_pos hall, run_lift_bind rfl]
    have hsync := syncPlanReceipt_follows rt.descriptorDeprecated rt.resources
      receipt.descriptors []
    exact ⟨congrArg (fun resources => { rt with resources }) hsync.1, hsync.2⟩
  | error error =>
    have hsome : ¬ (receipt.named.all fun descriptor =>
        !rt.descriptorDeprecated descriptor) = true := by
      intro hall
      have hok := Checks.forM_eq_ok.2 fun descriptor hmem =>
        (ensureResourceDescriptorNotDeprecated_eq_ok rt descriptor).2
          (by simpa using List.all_eq_true.1 hall descriptor hmem)
      rw [hok] at hchecks
      cases hchecks
    rw [if_neg hsome, StepsAs, if_neg hsome]
    exact ⟨rfl, error, rfl⟩

theorem syncPlanReceipts_steps (rt : CoreRuntime) (receipts : List PlanReceipt)
    (synced : List ResourceRef) :
    StepsAs ((foldEach receipts synced fun synced receipt => do
        let descriptors ← syncPlanReceipt receipt
        pure (synced ++ descriptors)).run rt)
      (syncAll rt.descriptorDeprecated rt.resources.hub (receipts.flatMap (·.steps)))
      rt.withHub := by
  induction receipts generalizing rt synced with
  | nil => exact ⟨rfl, synced, rfl⟩
  | cons receipt receipts ih =>
    obtain ⟨hstate, houtcome⟩ := syncPlanReceipt_steps rt receipt
    rw [foldEach, bind_bind, flatMap_cons, syncAll_append]
    split at houtcome
    · next hok =>
      obtain ⟨descriptors, hdescriptors⟩ := houtcome
      rw [run_bind_of_ok (Prod.ext hdescriptors hstate), if_pos hok]
      exact ih (rt.withHub _) (synced ++ descriptors)
    · next hfail =>
      obtain ⟨error, herror⟩ := houtcome
      rw [run_bind_of_err (Prod.ext herror hstate), if_neg hfail, StepsAs, if_neg hfail]
      exact ⟨rfl, error, rfl⟩

end CoreRuntime

/-! ## The hub that is reached -/

/-- The last of the descriptors that has the ref. -/
def lastOf (descriptors : List ResourceRef) (refId : RefId) : Option ResourceRef :=
  descriptors.reverse.find? (·.refId == refId)

theorem lastOf_concat (descriptors : List ResourceRef) (descriptor : ResourceRef)
    (refId : RefId) : lastOf (descriptors ++ [descriptor]) refId =
      if descriptor.refId = refId then some descriptor else lastOf descriptors refId := by
  rw [lastOf, reverse_append, reverse_singleton, singleton_append, find?_cons, lastOf]
  by_cases h : descriptor.refId = refId
  · simp [h]
  · rw [beq_eq_false_iff_ne.2 h, if_neg h]

theorem lastOf_eq_some {descriptors : List ResourceRef} {refId : RefId}
    {descriptor : ResourceRef} (h : lastOf descriptors refId = some descriptor) :
    descriptor ∈ descriptors ∧ descriptor.refId = refId :=
  ⟨mem_reverse.1 (mem_of_find?_eq_some h), by simpa using find?_some h⟩

/-- The descriptor of a ref. -/
def descriptorIn (hub : ExtTreeMap RefId ResourceEntry) (refId : RefId) : Option ResourceRef :=
  hub[refId]?.map (·.descriptor)

/-- The writer of a ref. -/
def writerIn (hub : ExtTreeMap RefId ResourceEntry) (refId : RefId) : Option LeaseToken :=
  hub[refId]?.bind (·.writer)

def SameDescriptors (hub hub' : ExtTreeMap RefId ResourceEntry) : Prop :=
  ∀ refId, descriptorIn hub' refId = descriptorIn hub refId

/-- The hub after syncs of the `earlier` descriptors. -/
structure Reached (hub : ExtTreeMap RefId ResourceEntry) (earlier : List ResourceRef)
    (hub' : ExtTreeMap RefId ResourceEntry) : Prop where
  descriptor : ∀ refId, descriptorIn hub' refId = (lastOf earlier refId).or (descriptorIn hub refId)
  writer : ∀ refId, writerIn hub' refId = writerIn hub refId
  newest : ∀ known ∈ earlier, ∃ current, descriptorIn hub' known.refId = some current ∧
    known.stamp ≤ current.stamp
  newer : ∀ (refId : RefId) (known : ResourceRef), descriptorIn hub refId = some known →
    ∃ current, descriptorIn hub' refId = some current ∧ known.stamp ≤ current.stamp

/-- What stands in the way of a step: a deprecated surface; or a resource id of its own, a
    registered or synced descriptor or a writer that the descriptor does not agree with. -/
def Blocked (deprecated : ResourceRef → Bool) (hub : ExtTreeMap RefId ResourceEntry)
    (earlier : List ResourceRef) : SyncStep → Prop
  | .check descriptor => deprecated descriptor = true
  | .sync descriptor => consistent descriptor = false ∨
      (∃ token, writerIn hub descriptor.refId = some token ∧
        token.generation ≠ descriptor.generation) ∨
      (∃ known, descriptorIn hub descriptor.refId = some known ∧
        descriptor.stamp < known.stamp) ∨
      ∃ known ∈ earlier, known.refId = descriptor.refId ∧ descriptor.stamp < known.stamp

namespace Reached

variable {deprecated : ResourceRef → Bool} {hub hub' : ExtTreeMap RefId ResourceEntry}
  {earlier : List ResourceRef}

theorem start (hub : ExtTreeMap RefId ResourceEntry) : Reached hub [] hub where
  descriptor _ := rfl
  writer _ := rfl
  newest := by simp
  newer _ known h := ⟨known, h, le_rfl⟩

theorem refused_iff (h : Reached hub earlier hub') (step : SyncStep) :
    step.refused deprecated hub' = true ↔ Blocked deprecated hub earlier step := by
  cases step with
  | check => exact Iff.rfl
  | sync descriptor =>
    rw [SyncStep.refused, Bool.or_eq_true, Bool.not_eq_true', Option.any_eq_true, Blocked]
    refine or_congr Iff.rfl ?_
    have hdescriptor := h.descriptor descriptor.refId
    have hwriter := h.writer descriptor.refId
    constructor
    · rintro ⟨entry, hentry, houtdated⟩
      rw [descriptorIn, hentry, map_some] at hdescriptor
      rw [writerIn, hentry, bind_some] at hwriter
      rcases outdated_iff.1 houtdated with hlt | ⟨token, htoken, hne⟩
      · cases hlast : lastOf earlier descriptor.refId with
        | none =>
          rw [hlast, none_or] at hdescriptor
          exact .inr (.inl ⟨entry.descriptor, hdescriptor.symm, hlt⟩)
        | some known =>
          rw [hlast, some_or, some.injEq] at hdescriptor
          obtain ⟨hmem, href⟩ := lastOf_eq_some hlast
          exact .inr (.inr ⟨known, hmem, href, hdescriptor ▸ hlt⟩)
      · exact .inl ⟨token, hwriter.symm.trans htoken, hne⟩
    · intro hblocked
      -- the entry that is there now refuses whatever an earlier one refuses
      have hcurrent : ∀ current, descriptorIn hub' descriptor.refId = some current →
          descriptor.stamp < current.stamp → ∃ entry, hub'[descriptor.refId]? = some entry ∧
            outdated descriptor entry = true := by
        intro current hget hlt
        obtain ⟨entry, hentry, rfl⟩ := map_eq_some_iff.1 hget
        exact ⟨entry, hentry, outdated_iff.2 (.inl hlt)⟩
      rcases hblocked with ⟨token, htoken, hne⟩ | ⟨known, hknown, hlt⟩ | ⟨known, hmem, href, hlt⟩
      · rw [← hwriter] at htoken
        obtain ⟨entry, hentry, htoken⟩ := bind_eq_some_iff.1 htoken
        exact ⟨entry, hentry, outdated_iff.2 (.inr ⟨token, htoken, hne⟩)⟩
      · obtain ⟨current, hget, hle⟩ := h.newer descriptor.refId known hknown
        exact hcurrent current hget (hlt.trans_le hle)
      · obtain ⟨current, hget, hle⟩ := h.newest known hmem
        exact hcurrent current (href ▸ hget) (hlt.trans_le hle)

theorem step (h : Reached hub earlier hub') {step : SyncStep}
    (hfree : ¬ Blocked deprecated hub earlier step) :
    Reached hub (earlier ++ step.synced) (step.apply hub') := by
  cases step with
  | check =>
    rw [SyncStep.synced, append_nil]
    exact h
  | sync descriptor =>
    rw [← h.refused_iff, SyncStep.refused, Bool.or_eq_true, not_or] at hfree
    have hstamp : ∀ current, descriptorIn hub' descriptor.refId = some current →
        current.stamp ≤ descriptor.stamp := by
      intro current hget
      obtain ⟨entry, hentry, rfl⟩ := map_eq_some_iff.1 hget
      refine le_of_not_gt fun hlt => hfree.2 ?_
      rw [hentry, any_some]
      exact outdated_iff.2 (.inl hlt)
    have hget : ∀ refId, descriptorIn ((SyncStep.sync descriptor).apply hub') refId =
        if descriptor.refId = refId then some descriptor else descriptorIn hub' refId := by
      intro refId
      rw [SyncStep.apply, descriptorIn, getElem?_insert_ite]
      split <;> rfl
    constructor
    · intro refId
      rw [hget, SyncStep.synced, lastOf_concat]
      split
      · rfl
      · exact h.descriptor refId
    · intro refId
      rw [← h.writer refId, SyncStep.apply, writerIn, getElem?_insert_ite]
      split
      · next heq =>
        subst heq
        rfl
      · rfl
    · intro known hknown
      rw [hget]
      rcases mem_append.1 hknown with hknown | hknown
      · obtain ⟨current, hcurrent, hle⟩ := h.newest known hknown
        split
        · next heq => exact ⟨descriptor, rfl, hle.trans (hstamp current (heq ▸ hcurrent))⟩
        · exact ⟨current, hcurrent, hle⟩
      · rw [mem_singleton.1 hknown, if_pos rfl]
        exact ⟨descriptor, rfl, le_rfl⟩
    · intro refId known hknown
      rw [hget]
      obtain ⟨current, hcurrent, hle⟩ := h.newer refId known hknown
      split
      · next heq => exact ⟨descriptor, rfl, hle.trans (hstamp current (heq ▸ hcurrent))⟩
      · exact ⟨current, hcurrent, hle⟩

/-- The descriptors are as they were if the last one of every ref was registered before. -/
theorem same_iff (h : Reached hub earlier hub') : SameDescriptors hub hub' ↔
    ∀ refId descriptor, lastOf earlier refId = some descriptor →
      descriptorIn hub refId = some descriptor := by
  refine forall_congr' fun refId => ?_
  rw [h.descriptor refId]
  cases lastOf earlier refId with
  | none => simp
  | some => simp [eq_comm]

end Reached

/-! ## Failed calls -/

/-- Where the first blocked step is, the syncs before it have brought nothing new: the last
    descriptor they sync of a ref is registered already. -/
def Atomic (deprecated : ResourceRef → Bool) (hub : ExtTreeMap RefId ResourceEntry)
    (earlier : List ResourceRef) : List SyncStep → Prop
  | [] => True
  | step :: steps =>
    (Blocked deprecated hub earlier step → ∀ refId descriptor,
      lastOf earlier refId = some descriptor → descriptorIn hub refId = some descriptor) ∧
    (¬ Blocked deprecated hub earlier step →
      Atomic deprecated hub (earlier ++ step.synced) steps)

theorem syncAll_atomic_iff {deprecated : ResourceRef → Bool}
    {hub hub' : ExtTreeMap RefId ResourceEntry} {earlier : List ResourceRef}
    (h : Reached hub earlier hub') (steps : List SyncStep) :
    ((syncAll deprecated hub' steps).1 = false →
      SameDescriptors hub (syncAll deprecated hub' steps).2) ↔
        Atomic deprecated hub earlier steps := by
  induction steps generalizing earlier hub' with
  | nil => simp [syncAll, Atomic]
  | cons step steps ih =>
    rw [syncAll, Atomic]
    by_cases hblocked : Blocked deprecated hub earlier step
    · rw [if_pos (h.refused_iff step |>.2 hblocked)]
      simp only [forall_const, hblocked, not_true_eq_false, IsEmpty.forall_iff, and_true]
      exact h.same_iff
    · rw [if_neg (h.refused_iff step |>.not.2 hblocked)]
      simp only [hblocked, IsEmpty.forall_iff, not_false_eq_true, forall_const, true_and]
      exact ih (h.step hblocked)

theorem StepsAs.fails_iff {σ α : Type} {run : Outcome RuntimeError α × σ}
    {steps : Bool × ExtTreeMap RefId ResourceEntry} {set : ExtTreeMap RefId ResourceEntry → σ}
    (h : StepsAs run steps set) (P : σ → Prop) :
    (∀ error after, run = (.err error, after) → P after) ↔ (steps.1 = false → P (set steps.2)) := by
  obtain ⟨hstate, houtcome⟩ := h
  constructor
  · intro hfail hsteps
    rw [hsteps] at houtcome
    obtain ⟨error, herror⟩ := houtcome
    exact hfail error _ (Prod.ext herror hstate)
  · rintro hP error after rfl
    cases hsteps : steps.1 with
    | false =>
      have hafter : after = set steps.2 := hstate
      exact hafter ▸ hP hsteps
    | true =>
      rw [hsteps] at houtcome
      obtain ⟨a, ha⟩ := houtcome
      cases ha

/-- A sync of one receipt or of several that fails leaves every descriptor as it was exactly if the
    syncs before the first blocked step bring nothing new. -/
theorem receipt_syncs_atomic_iff (resources : ResourceManager) (rt : CoreRuntime)
    (receipt : PlanReceipt) (receipts : List PlanReceipt) :
    ((∀ error after, (ResourceManager.syncPlanReceipt receipt).run resources = (.err error, after) →
          SameDescriptors resources.hub after.hub) ↔
      Atomic (fun _ => false) resources.hub [] (receipt.descriptors.map .sync)) ∧
    ((∀ error after, (CoreRuntime.syncPlanReceipt receipt).run rt = (.err error, after) →
          SameDescriptors rt.resources.hub after.resources.hub) ↔
      Atomic rt.descriptorDeprecated rt.resources.hub [] receipt.steps) ∧
    ((∀ error after, (CoreRuntime.syncPlanReceipts receipts).run rt = (.err error, after) →
          SameDescriptors rt.resources.hub after.resources.hub) ↔
      Atomic rt.descriptorDeprecated rt.resources.hub [] (receipts.flatMap (·.steps))) := by
  refine ⟨?_, ?_, ?_⟩
  · rw [← syncAll_atomic_iff (Reached.start resources.hub)]
    exact (syncPlanReceipt_follows (fun _ => false) resources receipt.descriptors []).fails_iff
      fun after => SameDescriptors resources.hub after.hub
  · rw [← syncAll_atomic_iff (Reached.start rt.resources.hub)]
    exact (CoreRuntime.syncPlanReceipt_steps rt receipt).fails_iff
      fun after => SameDescriptors rt.resources.hub after.resources.hub
  · rw [← syncAll_atomic_iff (Reached.start rt.resources.hub)]
    exact (CoreRuntime.syncPlanReceipts_steps rt receipts []).fails_iff
      fun after => SameDescriptors rt.resources.hub after.resources.hub

/-- Two documents, the second in its second version. -/
def twoDocuments : ResourceManager :=
  (({} : LeaseBook).run
    [ .register { refId := "a", schema := "s", generation := 1 }
    , .register { refId := "b", schema := "s", generation := 1, version := 2 } ]).resources

/-- A new version of the first document, and a late one of the second. -/
def mixedReceipt : PlanReceipt where
  resourceRef := none
  snapshotRef := none
  descriptorUpdates :=
    [ { refId := "a", schema := "s", generation := 1, version := 2 }
    , { refId := "b", schema := "s", generation := 1, version := 1 } ]

/-- The receipt is refused for its second descriptor when the first one is in the hub. -/
theorem receipt_half_applied :
    let after := (ResourceManager.syncPlanReceipt mixedReceipt).run twoDocuments
    after.1.error?.map (·.code) = some errResourceGenerationMismatch ∧
    (descriptorIn twoDocuments.hub "a").map (·.version) = some 1 ∧
    (descriptorIn after.2.hub "a").map (·.version) = some 2 := by
  decide +kernel

end MutsukiRuntime
