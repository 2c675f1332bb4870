/-
  CONTRACT SURFACES OF A RELOAD (`compare_surfaces` of `registry.rs`, and the merge
  of `reload/occupancy.rs`): which surfaces a new plan keeps, changes, adds or
  removes, and whether a removed one is still occupied.

  Counts are `u64` in the source; here they are unbounded.
-/
import MutsukiRuntime.Contracts.Runner

namespace MutsukiRuntime

open Std

/-! ## Occupancy -/

/-- The nine `+=` of an occupancy loop; the surface stays that of the entry. -/
def SurfaceOccupancy.add (entry item : SurfaceOccupancy) : SurfaceOccupancy :=
  { entry with
    readyTasks := entry.readyTasks + item.readyTasks
    runningInvocations := entry.runningInvocations + item.runningInvocations
    resourceRefs := entry.resourceRefs + item.resourceRefs
    stateRefs := entry.stateRefs + item.stateRefs
    activeLeases := entry.activeLeases + item.activeLeases
    openStreams := entry.openStreams + item.openStreams
    subscriptions := entry.subscriptions + item.subscriptions
    timers := entry.timers + item.timers
    effectInflight := entry.effectInflight + item.effectInflight }

/-- One item of an occupancy loop: added to the entry of its surface, which starts at zero. -/
def tallyOne (m : ExtTreeMap SurfaceId SurfaceOccupancy) (item : SurfaceOccupancy) :
    ExtTreeMap SurfaceId SurfaceOccupancy :=
  m.insert item.surfaceId ((m.getD item.surfaceId { surfaceId := item.surfaceId }).add item)

def tallyMap (items : List SurfaceOccupancy) : ExtTreeMap SurfaceId SurfaceOccupancy :=
  items.foldl tallyOne ∅

/-- The items summed up by surface, in the order of the surface ids. -/
def tallyOccupancy (items : List SurfaceOccupancy) : List SurfaceOccupancy :=
  (tallyMap items).toList.map (·.2)

/-- `merge_occupancy`. -/
def mergeOccupancy (taskOccupancy resourceOccupancy : List SurfaceOccupancy) :
    List SurfaceOccupancy :=
  tallyOccupancy (taskOccupancy ++ resourceOccupancy)

/-! ## Comparing plans -/

structure ContractChange where
  surfaceId : SurfaceId
  compatibility : SurfaceCompatibility
  deriving DecidableEq

structure ReloadDecision where
  changes : List ContractChange
  blocked : Bool
  deriving DecidableEq

def surfacesById (surfaces : List ContractSurface) : ExtTreeMap SurfaceId ContractSurface :=
  surfaces.foldl (fun m surface => m.insert surface.surfaceId surface) ∅

def occupancyById (occupancy : List SurfaceOccupancy) : ExtTreeMap SurfaceId SurfaceOccupancy :=
  occupancy.foldl (fun m item => m.insert item.surfaceId item) ∅

/-- What becomes of one old surface. -/
def surfaceChange (new : ExtTreeMap SurfaceId ContractSurface)
    (occupancy : ExtTreeMap SurfaceId SurfaceOccupancy) (surfaceId : SurfaceId)
    (oldSurface : ContractSurface) : Except RuntimeError ContractChange :=
  match new[surfaceId]? with
  | some newSurface =>
    if newSurface.fingerprint = oldSurface.fingerprint then
      .ok { surfaceId
            compatibility :=
              if newSurface.deprecated && !oldSurface.deprecated then .deprecated
              else .identical }
    else .ok { surfaceId, compatibility := .breaking }
  | none =>
    if occupancy[surfaceId]?.all (·.isZero) then .ok { surfaceId, compatibility := .removed }
    else
      .error (runtimeError errReloadBlocked "runtime.reload" s!"surface.remove.{surfaceId}")

def compareSurfaces (old new : List ContractSurface) (occupancy : List SurfaceOccupancy) :
    Except RuntimeError ReloadDecision := do
  let oldById := surfacesById old
  let newById := surfacesById new
  let changes ← oldById.toList.mapM fun entry =>
    surfaceChange newById (occupancyById occupancy) entry.1 entry.2
  let added := (newById.toList.filter fun entry => !oldById.contains entry.1).map fun entry =>
    { surfaceId := entry.1, compatibility := .additive }
  let changes := changes ++ added
  pure { changes, blocked := changes.any (·.compatibility == .breaking) }

end MutsukiRuntime
