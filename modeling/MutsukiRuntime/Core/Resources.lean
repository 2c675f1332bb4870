/-
  RESOURCE MANAGER: what changes it (`resource_manager/leases.rs`, `resources.rs`,
  `values.rs`, `occupancy.rs`, `id.rs`).

  * Leases on resource cells: shared, or exclusive.
  * Descriptors in the hub, each with at most one writer; streams are descriptors the
    manager makes itself.
  * Ids are drawn from one counter, which wraps at 2^64 as release builds do.

  The length of a packed value's JSON text is `serde_json`'s and comes as an argument.
-/
import MutsukiRuntime.Core.Stores
import MutsukiRuntime.Lib.Prog

namespace MutsukiRuntime

open Std

/-- An expiry that has been reached; leases and tokens share the test. -/
def expiredAt (expiresAtStep : Option Nat) (currentStep : Nat) : Bool :=
  expiresAtStep.any fun expiresAt => expiresAt ≤ currentStep

/-- `resource_lease_expired`. -/
def ResourceLease.expired (lease : ResourceLease) (currentStep : Nat) : Bool :=
  expiredAt lease.expiresAtStep currentStep

/-- The same test on a write token, as `release_write_lease_checked` makes it. -/
def LeaseToken.expired (token : LeaseToken) (currentStep : Nat) : Bool :=
  expiredAt token.expiresAtStep currentStep

/-- What `reclaim_expired_resource_leases` leaves in a cell. -/
def ResourceCellEntry.retain (cell : ResourceCellEntry) (currentStep : Nat) : ResourceCellEntry :=
  { cell with activeLeases := cell.activeLeases.filter fun _ lease => !lease.expired currentStep }

/-- What the manager reads of a `PlanReceipt`. -/
structure PlanReceipt where
  resourceRef : Option ResourceRef
  snapshotRef : Option ResourceRef
  descriptorUpdates : List ResourceRef

/-- `merge_descriptor`: of two descriptors of one ref the newer one stays. -/
def mergeDescriptor (descriptors : ExtTreeMap RefId ResourceRef) (descriptor : ResourceRef) :
    ExtTreeMap RefId ResourceRef :=
  match descriptors[descriptor.refId]? with
  | none => descriptors.insert descriptor.refId descriptor
  | some current =>
    if descriptor.generation > current.generation ∨
        descriptor.generation = current.generation ∧ descriptor.version ≥ current.version then
      descriptors.insert descriptor.refId descriptor
    else descriptors

/-- `receipt_descriptors`. -/
def PlanReceipt.descriptors (receipt : PlanReceipt) : List ResourceRef :=
  let named := receipt.resourceRef.toList ++ receipt.snapshotRef.toList ++
    receipt.descriptorUpdates
  (named.foldl mergeDescriptor ∅).toList.map (·.2)

namespace ResourceManager

open Prog

/-- A program of the manager. -/
abbrev Op (α : Type) := Prog ResourceManager RuntimeError α

def resourceError (code route : String) : RuntimeError :=
  runtimeError code "runtime.resource_manager" route

def resourceNotFound (route : String) : RuntimeError := resourceError errResourceNotFound route

def resourceGenerationMismatch (route : String) : RuntimeError :=
  resourceError errResourceGenerationMismatch route

def capabilityExhausted (route : String) : RuntimeError :=
  resourceError errCapabilityExhausted route

/-! ## Ids -/

/-- `{:026}`. -/
def padded (n : Nat) : String :=
  let digits := toString n
  String.ofList (List.replicate (26 - digits.length) '0') ++ digits

/-- The counter after the next id. -/
def nextCount (resources : ResourceManager) : Nat := (resources.idSource + 1) % 2 ^ 64

/-- The id that `next_id` gives next. -/
def idAhead (resources : ResourceManager) (kind : String) : String :=
  s!"{kind}-{padded resources.nextCount}"

def nextId (kind : String) : Op String := do
  let resources ← read
  update fun resources => { resources with idSource := resources.nextCount }
  pure (resources.idAhead kind)

/-! ## Leases on cells -/

def createResourceCell (cellId resourceKind ownerPluginId schema reloadPolicy : String) :
    Op ResourceCellRef := do
  let descriptor : ResourceCellRef :=
    { cellId, resourceKind, ownerPluginId, schema, generation := 1, health := "healthy",
      reloadPolicy }
  update fun resources =>
    { resources with resourceCells := resources.resourceCells.insert cellId { descriptor } }
  pure descriptor

def acquireResourceLease (cellId : String) (borrowerTaskId : TaskId)
    (borrowerExecutorId mode : String) (expiresAtStep : Option Nat) : Op ResourceLease := do
  match (← read).resourceCells[cellId]? with
  | none => fail (resourceNotFound s!"resource_cell.lease.{cellId}")
  | some cell =>
    if mode = "exclusive" ∧ ¬ cell.activeLeases.isEmpty then
      fail (capabilityExhausted s!"resource_cell.lease.{cellId}")
    else if mode ≠ "shared" ∧ mode ≠ "exclusive" then
      fail (resourceError "resource.lease_mode_invalid" s!"resource_cell.lease.{cellId}.{mode}")
    else if mode = "shared" ∧ cell.activeLeases.toList.any (·.2.mode == "exclusive") then
      fail (capabilityExhausted s!"resource_cell.lease.{cellId}")
    else do
      let leaseId ← nextId "resource-lease"
      let lease : ResourceLease :=
        { leaseId, cellId, borrowerTaskId, borrowerExecutorId, mode, expiresAtStep,
          generation := cell.descriptor.generation }
      update fun resources =>
        { resources with
          resourceCells := resources.resourceCells.insert cellId
            { cell with activeLeases := cell.activeLeases.insert leaseId lease } }
      pure lease

/-- `validate_resource_lease` for the action `release`, the only one it is called for. -/
def validateResourceLease (cell : ResourceCellEntry) (lease : ResourceLease)
    (currentStep : Option Nat) : Except RuntimeError Unit :=
  let route := s!"resource_cell.release.{lease.leaseId}"
  match cell.activeLeases[lease.leaseId]? with
  | none => .error (resourceNotFound route)
  | some active =>
    if active ≠ lease ∨ lease.generation ≠ cell.descriptor.generation then
      .error (resourceGenerationMismatch route)
    else if currentStep.any lease.expired then
      .error (resourceError errResourceLeaseExpired route)
    else .ok ()

/-- `release_resource_lease_checked`; without a step the expiry is not looked at. -/
def releaseResourceLease (lease : ResourceLease) (currentStep : Option Nat) : Op Unit := do
  match (← read).resourceCells[lease.cellId]? with
  | none => fail (resourceNotFound s!"resource_cell.release.{lease.cellId}")
  | some cell => do
    lift (validateResourceLease cell lease currentStep)
    update fun resources =>
      { resources with
        resourceCells := resources.resourceCells.insert lease.cellId
          { cell with activeLeases := cell.activeLeases.erase lease.leaseId } }

/-- The leases on all cells. -/
def activeLeases (resources : ResourceManager) : List ResourceLease :=
  resources.cells.flatMap fun cell => cell.activeLeases.toList.map (·.2)

def reclaimExpiredResourceLeases (currentStep : Nat) : Op (List ResourceLease) := do
  let resources ← read
  let reclaimed := resources.activeLeases.filter (·.expired currentStep)
  update fun resources =>
    { resources with
      resourceCells := resources.resourceCells.map fun _ cell => cell.retain currentStep }
  pure (reclaimed.insertionSort fun a b => a.leaseId ≤ b.leaseId)

/-! ## Descriptors and their writers -/

def setEntry (entry : ResourceEntry) (resources : ResourceManager) : ResourceManager :=
  { resources with hub := resources.hub.insert entry.descriptor.refId entry }

/-- `acquire_write_lease`; `CoreRuntime::lock_resource` calls it as it is. -/
def acquireWriteLease (refId : RefId) (owner : String) (expiresAtStep : Option Nat) :
    Op LeaseToken := do
  match (← read).hub[refId]? with
  | none => fail (resourceNotFound s!"resource.lease.{refId}")
  | some entry =>
    if entry.writer.isSome then fail (capabilityExhausted s!"resource.lease.{refId}")
    else do
      let tokenId ← nextId "lease"
      let token : LeaseToken :=
        { tokenId, refId, owner, mode := "exclusive_write", expiresAtStep,
          generation := entry.descriptor.generation }
      update fun resources =>
        { resources with hub := resources.hub.insert refId { entry with writer := some token } }
      pure token

/-- `release_write_lease_checked`. -/
def releaseWriteLease (token : LeaseToken) (currentStep : Option Nat) : Op Unit := do
  let route := s!"resource.write_lease.release.{token.refId}"
  match (← read).hub[token.refId]? with
  | none => fail (resourceNotFound route)
  | some entry =>
    if currentStep.any token.expired then fail (resourceError errResourceLeaseExpired route)
    else if entry.writer ≠ some token then fail (resourceGenerationMismatch route)
    else update fun resources =>
      { resources with
        hub := resources.hub.insert token.refId { entry with writer := none } }

/-- The check that `register` and `sync` make of a descriptor alone. -/
def consistent (descriptor : ResourceRef) : Bool :=
  descriptor.resourceId.generation == descriptor.generation &&
    descriptor.resourceId.version == descriptor.version

def registerResourceDescriptor (descriptor : ResourceRef) : Op ResourceRef := do
  let route := s!"resource.register.{descriptor.refId}"
  if ¬ consistent descriptor then fail (resourceGenerationMismatch route)
  else if (← read).hub.contains descriptor.refId then fail (capabilityExhausted route)
  else do
    update (setEntry { descriptor })
    pure descriptor

/-- The descriptor is older than the registered one, or not of its writer's generation. -/
def outdated (descriptor : ResourceRef) (existing : ResourceEntry) : Bool :=
  descriptor.generation < existing.descriptor.generation ||
    (descriptor.generation == existing.descriptor.generation &&
      descriptor.version < existing.descriptor.version) ||
    existing.writer.any (·.generation != descriptor.generation)

def syncResourceDescriptor (descriptor : ResourceRef) : Op ResourceRef := do
  let route := s!"resource.sync.{descriptor.refId}"
  if ¬ consistent descriptor then fail (resourceGenerationMismatch route)
  else
    match (← read).hub[descriptor.refId]? with
    | none => do
      update (setEntry { descriptor })
      pure descriptor
    | some existing =>
      if outdated descriptor existing then fail (resourceGenerationMismatch route)
      else do
        update (setEntry { descriptor, writer := existing.writer })
        pure descriptor

/-- `sync_plan_receipt`: stops at the first descriptor that is refused. -/
def syncPlanReceipt (receipt : PlanReceipt) : Op (List ResourceRef) :=
  foldEach receipt.descriptors [] fun synced descriptor => do
    let descriptor ← syncResourceDescriptor descriptor
    pure (synced ++ [descriptor])

/-- The descriptor of a new stream. -/
def streamDescriptor (refId : RefId) (streamId schema providerId endpoint : String) : ResourceRef :=
  { refId, schema, generation := 1, providerId, resourceKind := streamId, version := 1,
    access := .stream endpoint,
    resourceId := { kindId := streamId, slotId := refId, generation := 1, version := 1 },
    semantic := .streamResource, lifetime := .externalManaged, sealState := .sealed }

def createStreamResource (streamId schema providerId endpoint : String) : Op ResourceRef := do
  let refId ← nextId "resource"
  let descriptor := streamDescriptor refId streamId schema providerId endpoint
  update (setEntry { descriptor })
  pure descriptor

def closeStreamResource (refId : RefId) : Op ResourceRef := do
  match (← read).hub[refId]? with
  | some entry =>
    if entry.descriptor.access.isStream then do
      update fun resources => { resources with hub := resources.hub.erase refId }
      pure entry.descriptor
    else fail (resourceNotFound s!"resource.stream.close.{refId}")
  | none => fail (resourceNotFound s!"resource.stream.close.{refId}")

/-! ## Values and occupied surfaces -/

def inlineValueMaxBytes : Nat := 4096

/-- `pack_value` of a value whose JSON text has `bytes` bytes; `none` is a value kept inline. -/
def packValue (schema : String) (bytes : Nat) : Op (Option ValueRef) := do
  if bytes ≤ inlineValueMaxBytes then pure none
  else do
    let refId ← nextId "value"
    let valueRef : ValueRef := { refId, schema, generation := 1 }
    update fun resources => { resources with values := resources.values.insert refId valueRef }
    pure (some valueRef)

def registerSurfaceOccupancy (handle : SurfaceOccupancyHandle) : Op Unit := do
  if (← read).occupancyHandles.contains handle.handleId then
    fail (capabilityExhausted s!"surface.occupancy.{handle.handleId}")
  else update fun resources =>
    { resources with
      occupancyHandles := resources.occupancyHandles.insert handle.handleId handle }

def releaseSurfaceOccupancy (handleId : String) : Op SurfaceOccupancyHandle := do
  match (← read).occupancyHandles[handleId]? with
  | none => fail (resourceNotFound s!"surface.occupancy.{handleId}")
  | some handle => do
    update fun resources =>
      { resources with occupancyHandles := resources.occupancyHandles.erase handleId }
    pure handle

end ResourceManager

end MutsukiRuntime
