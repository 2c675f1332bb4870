/-
  STATE STORE AND RESOURCES (`state_store.rs`, `resource_manager/`), with the JSON
  encodings of the derived tasks that reach the store.

  * `StateStore.apply` is the versioned write of a `core.commit` task, and
    `validateExpectations` the precondition check of a ready task.
  * Of the resource manager the core's task logic reads two queries, the mutable
    leases a task holds and the surfaces in use.  What changes the manager is in
    `Core/Resources.lean`.

  Decoding follows the derived `Deserialize` on a JSON tree: an object by field
  name, with unknown fields ignored, or an array by position.  The text of a
  decoding error is `serde_json`'s own; here it only names what is wrong.
-/
import MutsukiRuntime.Contracts.Runner

namespace MutsukiRuntime

open Std

/-! ## Encodings -/

/-- `#[serde(rename_all = "snake_case")]`. -/
def ConflictPolicy.name : ConflictPolicy → String
  | .retry => "retry"
  | .merge => "merge"
  | .discard => "discard"
  | .fail => "fail"
  | .emitConflictTask => "emit_conflict_task"

def ConflictPolicy.ofName (name : String) : Except String ConflictPolicy :=
  match [retry, merge, discard, fail, emitConflictTask].find? (·.name == name) with
  | some policy => .ok policy
  | none => .error s!"unknown variant `{name}`"

/-- A unit variant is its name, or an object with the name as its only key. -/
def ConflictPolicy.ofValue : Value → Except String ConflictPolicy
  | .string name => ofName name
  | .object [(name, .null)] => ofName name
  | _ => .error "invalid type: expected a variant name"

def StateDelta.toValue (delta : StateDelta) : Value :=
  .object
    [ ("conflict_policy", .string delta.conflictPolicy.name)
    , ("expected_version", .int delta.expectedVersion)
    , ("patch", delta.patch)
    , ("target_ref", .string delta.targetRef) ]

def DomainEvent.toValue (event : DomainEvent) : Value :=
  .object
    [ ("event_id", .string event.eventId)
    , ("kind", .string event.kind)
    , ("payload", event.payload) ]

def EffectPrecondition.toValue (precondition : EffectPrecondition) : Value :=
  .object
    [ ("expected_version", .int precondition.expectedVersion)
    , ("ref_id", .string precondition.refId) ]

def EffectRequest.toValue (effect : EffectRequest) : Value :=
  .object
    [ ("effect_id", .string effect.effectId)
    , ("idempotency_key", (effect.idempotencyKey.map Value.string).getD .null)
    , ("kind", .string effect.kind)
    , ("payload", effect.payload)
    , ("preconditions", .array (effect.preconditions.map (·.toValue))) ]

/-- The values of a struct's fields, in the order of the struct. -/
def structFields (names : List String) (v : Value) : Except String (List Value) :=
  match v with
  | .object _ => names.mapM fun name =>
    match v.field name with
    | some value => .ok value
    | none => .error s!"missing field `{name}`"
  | .array items =>
    if items.length = names.length then .ok items else .error "invalid length"
  | _ => .error "invalid type: expected a struct"

def Value.asString : Value → Except String String
  | .string text => .ok text
  | _ => .error "invalid type: expected a string"

def Value.asU64 : Value → Except String Nat
  | .int value =>
    if 0 ≤ value ∧ value ≤ u64Max then .ok value.toNat
    else .error "invalid value: expected u64"
  | _ => .error "invalid type: expected u64"

/-- `serde_json::from_value::<StateDelta>`. -/
def StateDelta.ofValue (v : Value) : Except String StateDelta := do
  match ← structFields ["target_ref", "expected_version", "patch", "conflict_policy"] v with
  | [targetRef, expectedVersion, patch, conflictPolicy] =>
    pure
      { targetRef := ← targetRef.asString
        expectedVersion := ← expectedVersion.asU64
        patch
        conflictPolicy := ← ConflictPolicy.ofValue conflictPolicy }
  | _ => .error "invalid length"

/-- `serde_json::from_value::<DomainEvent>`. -/
def DomainEvent.ofValue (v : Value) : Except String DomainEvent := do
  match ← structFields ["event_id", "kind", "payload"] v with
  | [eventId, kind, payload] =>
    pure { eventId := ← eventId.asString, kind := ← kind.asString, payload }
  | _ => .error "invalid length"

/-! ## The state store -/

structure StateStore where
  values : ExtTreeMap RefId (Nat × Value) := ∅

namespace StateStore

def currentVersion (store : StateStore) (refId : RefId) : Nat :=
  match store.values[refId]? with
  | some (version, _) => version
  | none => 0

/-- `apply`; the version is a `u64` there, and its increment is not bounded here. -/
def apply (store : StateStore) (delta : StateDelta) : Except RuntimeError StateStore :=
  let currentVersion := store.currentVersion delta.targetRef
  if currentVersion ≠ delta.expectedVersion then
    .error (runtimeError errStateConflict "runtime.state_store"
      s!"state.commit.{delta.targetRef}")
  else
    .ok { values := store.values.insert delta.targetRef (currentVersion + 1, delta.patch) }

/-- The error of `validate_expectations` for one unmet expectation. -/
def expectationError (expectation : VersionExpectation) (currentVersion : Nat)
    (route : String) : RuntimeError :=
  let e := runtimeError errStateConflict "runtime.state_store" route
  let e := e.withEvidence "ref_id" (.string expectation.refId)
  let e := e.withEvidence "expected_version" (.int (asI64 expectation.expectedVersion))
  e.withEvidence "actual_version" (.int (asI64 currentVersion))

/-- `validate_expectations`: the error of the first unmet expectation. -/
def validateExpectations (store : StateStore) (expectations : List VersionExpectation)
    (route : String) : Except RuntimeError Unit :=
  expectations.forM fun expectation =>
    let currentVersion := store.currentVersion expectation.refId
    if currentVersion ≠ expectation.expectedVersion then
      .error (expectationError expectation currentVersion route)
    else .ok ()

end StateStore

/-! ## Resources -/

structure ResourceLease where
  leaseId : String
  cellId : String
  borrowerTaskId : TaskId
  borrowerExecutorId : String
  mode : String
  expiresAtStep : Option Nat
  generation : Nat
  deriving DecidableEq

/-- An entry of the `ResourceHub`. -/
structure ResourceEntry where
  descriptor : ResourceRef
  writer : Option LeaseToken := none
  deriving DecidableEq

structure ResourceCellRef where
  cellId : String
  resourceKind : String
  ownerPluginId : String
  schema : String
  generation : Nat
  health : String
  reloadPolicy : String
  deriving DecidableEq

structure ResourceCellEntry where
  descriptor : ResourceCellRef
  activeLeases : ExtTreeMap String ResourceLease := ∅

/-- The manager; `idSource` is the counter of its `SequentialIdSource`. -/
structure ResourceManager where
  values : ExtTreeMap RefId ValueRef := ∅
  hub : ExtTreeMap RefId ResourceEntry := ∅
  resourceCells : ExtTreeMap String ResourceCellEntry := ∅
  occupancyHandles : ExtTreeMap String SurfaceOccupancyHandle := ∅
  idSource : Nat := 0

namespace ResourceManager

/-- The entries of the hub; the source meets them in hash order. -/
def entries (resources : ResourceManager) : List ResourceEntry :=
  resources.hub.toList.map (·.2)

def cells (resources : ResourceManager) : List ResourceCellEntry :=
  resources.resourceCells.toList.map (·.2)

/-- `active_mutable_lease_routes_for_task`. -/
def activeMutableLeaseRoutesForTask (resources : ResourceManager) (taskId : TaskId) :
    List String :=
  let leases := resources.cells.flatMap fun cell => cell.activeLeases.toList.map (·.2)
  let exclusive := leases.filter fun lease =>
    lease.borrowerTaskId == taskId && lease.mode == "exclusive"
  let writers := (resources.entries.filterMap (·.writer)).filter (·.owner == taskId)
  (exclusive.map (fun lease => s!"resource_cell.lease.{lease.leaseId}") ++
    writers.map (fun writer => s!"resource.write_lease.{writer.tokenId}")).insertionSort (· ≤ ·)

/-! ## Occupied surfaces

The source counts by surface into hash maps and reads the maps at each surface; here a count is
a function of the surface. -/

/-- The surface names under which `count_resource_surface` counts a hub entry. -/
def resourceSurfaceNames (descriptor : ResourceRef) : List SurfaceId :=
  [descriptor.schema, s!"resource_schema:{descriptor.schema}",
    descriptor.providerId, s!"resource_provider:{descriptor.providerId}"]

/-- The names under which the leases of a cell are counted. -/
def cellSurfaceNames (cell : ResourceCellEntry) : List SurfaceId :=
  [cell.descriptor.schema, s!"resource_schema:{cell.descriptor.schema}"]

/-- `resource_surface_counts` at a surface: resource refs and active leases. -/
def resourceSurfaceCounts (resources : ResourceManager) (surfaceId : SurfaceId) : Nat × Nat :=
  let named := fun (entry : ResourceEntry) =>
    (resourceSurfaceNames entry.descriptor).count surfaceId
  ((resources.entries.map named).sum,
    ((resources.entries.filter (·.writer.isSome)).map named).sum +
      (resources.cells.map fun cell =>
        cell.activeLeases.size * (cellSurfaceNames cell).count surfaceId).sum)

def streamSurfaceNames (descriptor : ResourceRef) : List SurfaceId :=
  [descriptor.resourceKind, s!"stream:{descriptor.resourceKind}"]

/-- `stream_surface_counts` at a surface. -/
def streamSurfaceCount (resources : ResourceManager) (surfaceId : SurfaceId) : Nat :=
  ((resources.entries.filter (·.descriptor.access.isStream)).map fun entry =>
    (streamSurfaceNames entry.descriptor).count surfaceId).sum

/-- `handle_surface_counts` at a surface, for one kind of handle. -/
def handleSurfaceCount (resources : ResourceManager) (surfaceId : SurfaceId)
    (kind : SurfaceOccupancyHandleKind) : Nat :=
  resources.occupancyHandles.toList.countP fun handle =>
    handle.2.surfaceId == surfaceId && handle.2.kind == kind

/-- The stored values of a `Schema` surface. -/
def valueSurfaceCount (resources : ResourceManager) (surfaceId : SurfaceId) : Nat :=
  resources.values.toList.countP fun value =>
    surfaceId == s!"schema:{value.2.schema}" || surfaceId == value.2.schema

/-- The item of one surface in `surface_occupancy`. -/
def occupancyOf (resources : ResourceManager) (surface : ContractSurface) : SurfaceOccupancy :=
  match surface.kind with
  | .resourceSchema | .resourceProvider =>
    { surfaceId := surface.surfaceId
      resourceRefs := (resources.resourceSurfaceCounts surface.surfaceId).1
      activeLeases := (resources.resourceSurfaceCounts surface.surfaceId).2 }
  | .schema =>
    { surfaceId := surface.surfaceId
      resourceRefs := resources.valueSurfaceCount surface.surfaceId }
  | .stream =>
    { surfaceId := surface.surfaceId
      openStreams := resources.streamSurfaceCount surface.surfaceId +
        resources.handleSurfaceCount surface.surfaceId .stream }
  | .subscription =>
    { surfaceId := surface.surfaceId
      subscriptions := resources.handleSurfaceCount surface.surfaceId .subscription }
  | .timer =>
    { surfaceId := surface.surfaceId
      timers := resources.handleSurfaceCount surface.surfaceId .timer }
  | _ => { surfaceId := surface.surfaceId }

def surfaceOccupancy (resources : ResourceManager) (surfaces : List ContractSurface) :
    List SurfaceOccupancy :=
  (surfaces.map resources.occupancyOf).filter fun item => !item.isZero

end ResourceManager

end MutsukiRuntime
