/-
  REMOVED SURFACES: what an accepted reload knows of the surfaces its plan drops.

  * Occupancy is summed up by surface (`tallyOccupancy`).  A surface with no occupancy
    left has none in any of the items (`isZero_of_tally`), so nothing that is counted
    uses it.
  * `Uses` says what a use of a surface is: a live task, a registered resource, a lease,
    a stream, a stored value, an occupancy handle.
  * Not counted are the tasks that are blocked and the handles whose kind is not that of
    the surface; `removed_unused_iff` says that these are all that can be left.
-/
import MutsukiRuntime.Core.Runtime.History
import MutsukiRuntime.Lib.Tables

namespace MutsukiRuntime

open Std List Prog

/-! ## Sums by surface -/

theorem SurfaceOccupancy.isZero_add {entry item : SurfaceOccupancy} :
    (entry.add item).isZero = true ↔ entry.isZero = true ∧ item.isZero = true := by
  simp only [isZero, add, Bool.and_eq_true, beq_iff_eq]
  omega

/-- Every entry of an occupancy table is stored under its own surface. -/
def BySurface (m : ExtTreeMap SurfaceId SurfaceOccupancy) : Prop :=
  ∀ (surfaceId : SurfaceId) (entry : SurfaceOccupancy), m[surfaceId]? = some entry →
    entry.surfaceId = surfaceId

theorem bySurface_tallyOne {m : ExtTreeMap SurfaceId SurfaceOccupancy} (h : BySurface m)
    (item : SurfaceOccupancy) : BySurface (tallyOne m item) := by
  intro surfaceId entry hget
  rw [tallyOne, Buckets.getElem?_insert_ite] at hget
  split at hget
  next heq =>
    cases hget
    rw [ExtTreeMap.getD_eq_getD_getElem?]
    cases hold : m[item.surfaceId]? with
    | none => exact heq
    | some old => exact (h _ _ hold).trans heq
  · exact h surfaceId entry hget

theorem bySurface_tallyMap (items : List SurfaceOccupancy) : BySurface (tallyMap items) := by
  have hfold : ∀ (items : List SurfaceOccupancy) (m : ExtTreeMap SurfaceId SurfaceOccupancy),
      BySurface m → BySurface (items.foldl tallyOne m) := by
    intro items
    induction items with
    | nil => exact fun _ h => h
    | cons item items ih => exact fun m h => ih _ (bySurface_tallyOne h item)
  refine hfold items ∅ fun surfaceId entry hget => ?_
  rw [ExtTreeMap.getElem?_empty] at hget
  cases hget

variable {items : List SurfaceOccupancy} {surfaceId : SurfaceId}

theorem isZero_of_tallyMap (h : (tallyMap items)[surfaceId]?.all SurfaceOccupancy.isZero = true) :
    ∀ item ∈ items, item.surfaceId = surfaceId → item.isZero = true := by
  have hfold : ∀ (items : List SurfaceOccupancy) (m : ExtTreeMap SurfaceId SurfaceOccupancy),
      (items.foldl tallyOne m)[surfaceId]?.all SurfaceOccupancy.isZero = true →
        m[surfaceId]?.all SurfaceOccupancy.isZero = true ∧
          ∀ item ∈ items, item.surfaceId = surfaceId → item.isZero = true := by
    intro items
    induction items with
    | nil => exact fun m h => ⟨h, fun _ hmem => absurd hmem not_mem_nil⟩
    | cons first items ih =>
      intro m h
      obtain ⟨hnext, hitems⟩ := ih _ h
      rw [tallyOne, Buckets.getElem?_insert_ite] at hnext
      by_cases hfirst : first.surfaceId = surfaceId
      · rw [if_pos hfirst, Option.all_some, SurfaceOccupancy.isZero_add, hfirst,
          ExtTreeMap.getD_eq_getD_getElem?] at hnext
        refine ⟨?_, forall_mem_cons.2 ⟨fun _ => hnext.2, hitems⟩⟩
        cases hold : m[surfaceId]? with
        | none => rfl
        | some old =>
          rw [hold] at hnext
          exact hnext.1
      · rw [if_neg hfirst] at hnext
        exact ⟨hnext, forall_mem_cons.2 ⟨fun heq => absurd heq hfirst, hitems⟩⟩
  exact (hfold items ∅ h).2

theorem mem_tallyOccupancy {entry : SurfaceOccupancy} :
    entry ∈ tallyOccupancy items ↔ (tallyMap items)[entry.surfaceId]? = some entry := by
  rw [tallyOccupancy, mem_map]
  constructor
  · rintro ⟨stored, hstored, rfl⟩
    have hget := ExtTreeMap.mem_toList_iff_getElem?_eq_some.1 hstored
    rwa [bySurface_tallyMap items _ _ hget]
  · exact fun hget => ⟨_, ExtTreeMap.mem_toList_iff_getElem?_eq_some.2 hget, rfl⟩

theorem occupancyById_tally (items : List SurfaceOccupancy) (surfaceId : SurfaceId) :
    (occupancyById (tallyOccupancy items))[surfaceId]? = (tallyMap items)[surfaceId]? := by
  show (Tables.fill (·.surfaceId) (fun entry => entry) (tallyOccupancy items) ∅)[surfaceId]? = _
  cases hget : (tallyMap items)[surfaceId]? with
  | none =>
    refine Tables.getElem?_fill_eq_none.2 ⟨ExtTreeMap.getElem?_empty, fun entry hentry heq => ?_⟩
    rw [mem_tallyOccupancy, heq, hget] at hentry
    cases hentry
  | some entry =>
    obtain rfl := bySurface_tallyMap items _ _ hget
    refine Tables.getElem?_fill_of_mem (mem_tallyOccupancy.2 hget) fun other hother heq => ?_
    rw [mem_tallyOccupancy, heq, hget] at hother
    exact (Option.some.inj hother).symm

/-- No occupancy of a surface in the list that is compared, none in the items summed up. -/
theorem isZero_of_tally
    (h : (occupancyById (tallyOccupancy items))[surfaceId]?.all SurfaceOccupancy.isZero = true) :
    ∀ item ∈ items, item.surfaceId = surfaceId → item.isZero = true := by
  rw [occupancyById_tally] at h
  exact isZero_of_tallyMap h

/-! ## What an accepted comparison knows -/

/-- A surface of the old plan that the new one does not have. -/
def Removed (old new : List ContractSurface) (surface : ContractSurface) : Prop :=
  surface ∈ old ∧ ∀ other ∈ new, other.surfaceId ≠ surface.surfaceId

theorem isZero_of_compareSurfaces {old new : List ContractSurface}
    {occupancy : List SurfaceOccupancy} {decision : ReloadDecision}
    (h : compareSurfaces old new occupancy = .ok decision) {surface : ContractSurface}
    (hremoved : Removed old new surface) :
    (occupancyById occupancy)[surface.surfaceId]?.all SurfaceOccupancy.isZero = true := by
  obtain ⟨changes, hchanges, -⟩ := Prog.except_bind_eq_ok.1 h
  -- the id of the surface is in the table of the old plan, perhaps for another surface
  have hold : (surfacesById old)[surface.surfaceId]? ≠ none := by
    intro hnone
    exact (Tables.getElem?_fill_eq_none.1 hnone).2 surface hremoved.1 rfl
  obtain ⟨stored, hstored⟩ := Option.ne_none_iff_exists'.1 hold
  obtain ⟨change, -, hchange⟩ := Checks.exists_of_mem_left (Checks.forall₂_of_mapM hchanges)
    (ExtTreeMap.mem_toList_iff_getElem?_eq_some.2 hstored)
  have hnew : (surfacesById new)[surface.surfaceId]? = none :=
    Tables.getElem?_fill_eq_none.2 ⟨ExtTreeMap.getElem?_empty, hremoved.2⟩
  simp only [surfaceChange, hnew] at hchange
  split at hchange
  · assumption
  · cases hchange

/-! ## Uses of a surface -/

/-- The surfaces of a task: those it requires, that of its protocol, that of its effect and
    that of the runner it hints at. -/
def TaskUses (protocolClasses : ExtTreeMap ProtocolId ProtocolClass) (task : Task)
    (surfaceId : SurfaceId) : Prop :=
  surfaceId ∈ task.requiredSurfaces ∨ surfaceId = s!"task_protocol:{task.protocolId}" ∨
    (protocolClasses[task.protocolId]? = some .effect ∧
      surfaceId = s!"effect:{task.protocolId}") ∨
    ∃ runnerHint, task.runnerHint = some runnerHint ∧ surfaceId = s!"runner:{runnerHint}"

/-- The kind of surface a handle is counted for. -/
def SurfaceOccupancyHandleKind.surfaceKind : SurfaceOccupancyHandleKind → ContractSurfaceKind
  | .stream => .stream
  | .subscription => .subscription
  | .timer => .timer

inductive Uses (rt : CoreRuntime) (surface : ContractSurface) : Prop
  | task {taskId : TaskId} {r : TaskRecord} (hr : rt.tasks.tasks[taskId]? = some r)
      (hstatus : r.status = .ready ∨ r.status = .running ∨ r.status = .waiting ∨
        r.status = .blocked)
      (huses : TaskUses rt.protocolClasses r.task surface.surfaceId)
  | schema {refId : RefId} {entry : ResourceEntry} (hentry : rt.resources.hub[refId]? = some entry)
      (hkind : surface.kind = .resourceSchema)
      (hname : surface.surfaceId = entry.descriptor.schema ∨
        surface.surfaceId = s!"resource_schema:{entry.descriptor.schema}")
  | provider {refId : RefId} {entry : ResourceEntry}
      (hentry : rt.resources.hub[refId]? = some entry)
      (hkind : surface.kind = .resourceProvider)
      (hname : surface.surfaceId = entry.descriptor.providerId ∨
        surface.surfaceId = s!"resource_provider:{entry.descriptor.providerId}")
  | lease {cellId leaseId : String} {cell : ResourceCellEntry} {lease : ResourceLease}
      (hcell : rt.resources.resourceCells[cellId]? = some cell)
      (hlease : cell.activeLeases[leaseId]? = some lease)
      (hkind : surface.kind = .resourceSchema)
      (hname : surface.surfaceId = cell.descriptor.schema ∨
        surface.surfaceId = s!"resource_schema:{cell.descriptor.schema}")
  | stream {refId : RefId} {entry : ResourceEntry} (hentry : rt.resources.hub[refId]? = some entry)
      (haccess : entry.descriptor.access.isStream = true) (hkind : surface.kind = .stream)
      (hname : surface.surfaceId = entry.descriptor.resourceKind ∨
        surface.surfaceId = s!"stream:{entry.descriptor.resourceKind}")
  | value {refId : RefId} {value : ValueRef} (hvalue : rt.resources.values[refId]? = some value)
      (hkind : surface.kind = .schema)
      (hname : surface.surfaceId = value.schema ∨ surface.surfaceId = s!"schema:{value.schema}")
  | handle {handleId : String} {handle : SurfaceOccupancyHandle}
      (hhandle : rt.resources.occupancyHandles[handleId]? = some handle)
      (hname : handle.surfaceId = surface.surfaceId)

theorem mem_dedupSorted_of_mem {a : String} {l : List String} (h : a ∈ l) :
    a ∈ RunnerRegistry.dedupSorted l := by
  induction l using RunnerRegistry.dedupSorted.induct with
  | case1 => cases h
  | case2 b => exact h
  | case3 b rest ih =>
    rw [RunnerRegistry.dedupSorted, if_pos rfl]
    refine ih ?_
    rcases mem_cons.1 h with rfl | h
    · exact mem_cons_self
    · exact h
  | case4 b c rest hne ih =>
    rw [RunnerRegistry.dedupSorted, if_neg hne]
    rcases mem_cons.1 h with rfl | h
    · exact mem_cons_self
    · exact mem_cons_of_mem _ (ih h)

theorem TaskUses.mem {protocolClasses : ExtTreeMap ProtocolId ProtocolClass} {task : Task}
    (h : TaskUses protocolClasses task surfaceId) :
    surfaceId ∈ TaskPool.surfaceIdsForTask task protocolClasses := by
  have heffect : TaskPool.isEffect task protocolClasses = true ↔
      protocolClasses[task.protocolId]? = some .effect := beq_iff_eq
  unfold TaskUses at h
  rw [← heffect] at h
  unfold TaskPool.surfaceIdsForTask
  refine mem_dedupSorted_of_mem ((mem_insertionSort _).2 ?_)
  cases hhint : task.runnerHint <;> cases heff : TaskPool.isEffect task protocolClasses <;>
    simp_all

/-! ## The items of a use -/

section Items

variable {rt : CoreRuntime} {surface : ContractSurface}

theorem recordOccupancy_surfaceId (protocolClasses : ExtTreeMap ProtocolId ProtocolClass)
    (r : TaskRecord) (surfaceId : SurfaceId) :
    (TaskPool.recordOccupancy protocolClasses r surfaceId).surfaceId = surfaceId := by
  unfold TaskPool.recordOccupancy
  cases r.status <;> rfl

theorem occupancyOf_surfaceId (resources : ResourceManager) (surface : ContractSurface) :
    (resources.occupancyOf surface).surfaceId = surface.surfaceId := by
  unfold ResourceManager.occupancyOf
  cases surface.kind <;> rfl

/-- A surface without occupancy: no record adds to it, and no resource. -/
theorem isZero_of_surfaceOccupancy
    (h : (occupancyById rt.surfaceOccupancy)[surfaceId]?.all SurfaceOccupancy.isZero = true) :
    (∀ r ∈ recordsOf rt.tasks.tasks,
      surfaceId ∈ TaskPool.surfaceIdsForTask r.task rt.protocolClasses →
        (TaskPool.recordOccupancy rt.protocolClasses r surfaceId).isZero = true) ∧
    ∀ surface ∈ rt.surfaces, surface.surfaceId = surfaceId →
      (rt.resources.occupancyOf surface).isZero = true := by
  have hitems := isZero_of_tally h
  constructor
  · intro r hr hmem
    -- the items of the tasks have been summed up before
    have htasks : (tallyMap ((recordsOf rt.tasks.tasks).flatMap fun r =>
        (TaskPool.surfaceIdsForTask r.task rt.protocolClasses).map
          (TaskPool.recordOccupancy rt.protocolClasses r)))[surfaceId]?.all
            SurfaceOccupancy.isZero = true := by
      refine (Option.all_eq_true _ _).2 fun entry hget => ?_
      obtain rfl := bySurface_tallyMap _ _ _ hget
      exact hitems entry (mem_append_left _ (mem_tallyOccupancy.2 hget)) rfl
    exact isZero_of_tallyMap htasks _ (mem_flatMap.2 ⟨r, hr, mem_map.2 ⟨surfaceId, hmem, rfl⟩⟩)
      (recordOccupancy_surfaceId _ _ _)
  · intro surface hsurface heq
    cases hzero : (rt.resources.occupancyOf surface).isZero with
    | true => rfl
    | false =>
      have hlisted : rt.resources.occupancyOf surface ∈ rt.resources.surfaceOccupancy rt.surfaces :=
        mem_filter.2 ⟨mem_map_of_mem hsurface, by simp [hzero]⟩
      have hitem := hitems _ (mem_append_right _ hlisted) ((occupancyOf_surfaceId _ _).trans heq)
      rw [hzero] at hitem
      cases hitem

theorem status_of_isZero {protocolClasses : ExtTreeMap ProtocolId ProtocolClass} {r : TaskRecord}
    (h : (TaskPool.recordOccupancy protocolClasses r surfaceId).isZero = true) :
    r.status ≠ .ready ∧ r.status ≠ .running ∧ r.status ≠ .waiting := by
  unfold TaskPool.recordOccupancy at h
  refine ⟨fun hs => ?_, fun hs => ?_, fun hs => ?_⟩ <;>
    simp [hs, SurfaceOccupancy.isZero] at h

theorem mem_entries {resources : ResourceManager} {refId : RefId} {entry : ResourceEntry}
    (h : resources.hub[refId]? = some entry) : entry ∈ resources.entries :=
  mem_map.2 ⟨(refId, entry), ExtTreeMap.mem_toList_iff_getElem?_eq_some.2 h, rfl⟩

/-- A name that a sum over the entries does not count is the name of none of them. -/
theorem not_mem_of_sum_eq_zero {α : Type} {xs : List α} {names : α → List SurfaceId}
    (h : (xs.map fun x => (names x).count surfaceId).sum = 0) {x : α} (hx : x ∈ xs) :
    surfaceId ∉ names x :=
  count_eq_zero.1 (sum_eq_zero_iff.1 h _ (mem_map.2 ⟨x, hx, rfl⟩))

/-- What the resources add to a surface, by its kind, when it comes to nothing. -/
theorem counts_of_isZero {resources : ResourceManager}
    (hzero : (resources.occupancyOf surface).isZero = true) :
    (surface.kind = .resourceSchema ∨ surface.kind = .resourceProvider →
      resources.resourceSurfaceCounts surface.surfaceId = (0, 0)) ∧
    (surface.kind = .schema → resources.valueSurfaceCount surface.surfaceId = 0) ∧
    (surface.kind = .stream → resources.streamSurfaceCount surface.surfaceId = 0) ∧
    ∀ kind : SurfaceOccupancyHandleKind, kind.surfaceKind = surface.kind →
      resources.handleSurfaceCount surface.surfaceId kind = 0 := by
  unfold ResourceManager.occupancyOf at hzero
  refine ⟨fun hkind => ?_, fun hkind => ?_, fun hkind => ?_, fun kind hkind => ?_⟩
  · rcases hkind with hkind | hkind <;>
      simpa [hkind, SurfaceOccupancy.isZero, Prod.ext_iff] using hzero
  · simpa [hkind, SurfaceOccupancy.isZero] using hzero
  · have hsum : resources.streamSurfaceCount surface.surfaceId +
        resources.handleSurfaceCount surface.surfaceId .stream = 0 := by
      simpa [hkind, SurfaceOccupancy.isZero] using hzero
    omega
  · cases kind with
    | stream =>
      have hsum : resources.streamSurfaceCount surface.surfaceId +
          resources.handleSurfaceCount surface.surfaceId .stream = 0 := by
        simpa [← hkind, SurfaceOccupancyHandleKind.surfaceKind, SurfaceOccupancy.isZero] using hzero
      omega
    | subscription | timer =>
      simpa [← hkind, SurfaceOccupancyHandleKind.surfaceKind, SurfaceOccupancy.isZero] using hzero

/-- What can use a surface to which the resources add nothing: a task, or a handle of another
    kind. -/
theorem Uses.task_or_handle (huses : Uses rt surface)
    (hzero : (rt.resources.occupancyOf surface).isZero = true) :
    (∃ (taskId : TaskId) (r : TaskRecord), rt.tasks.tasks[taskId]? = some r ∧
      (r.status = .ready ∨ r.status = .running ∨ r.status = .waiting ∨ r.status = .blocked) ∧
      TaskUses rt.protocolClasses r.task surface.surfaceId) ∨
    ∃ (handleId : String) (handle : SurfaceOccupancyHandle),
      rt.resources.occupancyHandles[handleId]? = some handle ∧
      handle.surfaceId = surface.surfaceId ∧ handle.kind.surfaceKind ≠ surface.kind := by
  obtain ⟨hcounts, hvalues, hstreams, hhandles⟩ := counts_of_isZero hzero
  cases huses with
  | task hr hstatus huses => exact .inl ⟨_, _, hr, hstatus, huses⟩
  | schema hentry hkind hname =>
    have hrefs := congrArg Prod.fst (hcounts (.inl hkind))
    refine absurd ?_ (not_mem_of_sum_eq_zero hrefs (mem_entries hentry))
    rcases hname with hname | hname <;> simp [hname, ResourceManager.resourceSurfaceNames]
  | provider hentry hkind hname =>
    have hrefs := congrArg Prod.fst (hcounts (.inr hkind))
    refine absurd ?_ (not_mem_of_sum_eq_zero hrefs (mem_entries hentry))
    rcases hname with hname | hname <;> simp [hname, ResourceManager.resourceSurfaceNames]
  | @lease cellId leaseId cell lease hcell hlease hkind hname =>
    have hleases := congrArg Prod.snd (hcounts (.inl hkind))
    have hmem : cell ∈ rt.resources.cells :=
      mem_map.2 ⟨_, ExtTreeMap.mem_toList_iff_getElem?_eq_some.2 hcell, rfl⟩
    have hproduct := sum_eq_zero_iff.1 (Nat.add_eq_zero_iff.1 hleases).2 _
      (mem_map.2 ⟨cell, hmem, rfl⟩)
    have hsize : cell.activeLeases.size ≠ 0 := by
      intro hsize
      rw [← ExtTreeMap.length_toList, length_eq_zero_iff] at hsize
      have hlisted := ExtTreeMap.mem_toList_iff_getElem?_eq_some.2 hlease
      rw [hsize] at hlisted
      cases hlisted
    have hcount := (Nat.mul_eq_zero.1 hproduct).resolve_left hsize
    refine absurd ?_ (count_eq_zero.1 hcount)
    rcases hname with hname | hname <;> simp [hname, ResourceManager.cellSurfaceNames]
  | stream hentry haccess hkind hname =>
    refine absurd ?_ (not_mem_of_sum_eq_zero (hstreams hkind)
      (mem_filter.2 ⟨mem_entries hentry, by simp [haccess]⟩))
    rcases hname with hname | hname <;> simp [hname, ResourceManager.streamSurfaceNames]
  | value hvalue hkind hname =>
    have hnone := countP_eq_zero.1 (hvalues hkind) _
      (ExtTreeMap.mem_toList_iff_getElem?_eq_some.2 hvalue)
    rcases hname with hname | hname <;> simp [hname] at hnone
  | @handle handleId handle hhandle hname =>
    refine .inr ⟨handleId, handle, hhandle, hname, fun hkind => ?_⟩
    have hnone := countP_eq_zero.1 (hhandles handle.kind hkind) _
      (ExtTreeMap.mem_toList_iff_getElem?_eq_some.2 hhandle)
    simp [hname] at hnone

end Items

/-! ## Accepted reloads -/

open CoreRuntime

/-- One of the two reloads returns a decision. -/
def ReloadAccepted (rt : CoreRuntime) (newPlan : RuntimeLoadPlan) : Prop :=
  (∃ decision rt', (reloadLoadPlanOnly newPlan).run rt = (.ok decision, rt')) ∨
    ∃ calls order newRunners newAsyncHandlers decision rt',
      (reloadWithAsyncHandlers calls order newPlan newRunners newAsyncHandlers).run rt =
        (.ok decision, rt')

theorem ReloadAccepted.compared {rt : CoreRuntime} {newPlan : RuntimeLoadPlan}
    (h : ReloadAccepted rt newPlan) :
    ∃ decision, compareSurfaces rt.surfaces newPlan.contractSurfaces rt.surfaceOccupancy =
      .ok decision := by
  have hdecision : ∃ decision, rt.reloadDecision newPlan = .ok decision := by
    rcases h with ⟨decision, rt', hrun⟩ | ⟨calls, order, runners, handlers, decision, rt', hrun⟩
    · obtain ⟨decision, hdecision, -⟩ := run_lift_bind_eq_ok.1 hrun
      exact ⟨decision, hdecision⟩
    · obtain ⟨_, -, hrun⟩ := run_lift_bind_eq_ok.1 hrun
      obtain ⟨decision, hdecision, -⟩ := run_lift_bind_eq_ok.1 hrun
      exact ⟨decision, hdecision⟩
  obtain ⟨decision, hdecision⟩ := hdecision
  obtain ⟨compared, hcompared, -⟩ := Prog.except_bind_eq_ok.1 hdecision
  exact ⟨compared, hcompared⟩

/-- After an accepted reload no removed surface is used, exactly when no blocked task used one
    and no handle of another kind named one. -/
theorem removed_unused_iff {rt : CoreRuntime} {newPlan : RuntimeLoadPlan}
    (h : ReloadAccepted rt newPlan) :
    (∀ surface, Removed rt.surfaces newPlan.contractSurfaces surface → ¬ Uses rt surface) ↔
    ∀ surface, Removed rt.surfaces newPlan.contractSurfaces surface →
      (∀ (taskId : TaskId) (r : TaskRecord), rt.tasks.tasks[taskId]? = some r →
        r.status = .blocked → ¬ TaskUses rt.protocolClasses r.task surface.surfaceId) ∧
      ∀ (handleId : String) (handle : SurfaceOccupancyHandle),
        rt.resources.occupancyHandles[handleId]? = some handle →
        handle.surfaceId = surface.surfaceId → handle.kind.surfaceKind = surface.kind := by
  obtain ⟨decision, hcompared⟩ := h.compared
  constructor
  · intro hunused surface hremoved
    refine ⟨fun taskId r hr hblocked huses => ?_, fun handleId handle hhandle hname => ?_⟩
    · exact hunused surface hremoved (.task hr (by simp [hblocked]) huses)
    · exact absurd (.handle hhandle hname) (hunused surface hremoved)
  · intro hleft surface hremoved huses
    obtain ⟨hblocked, hhandles⟩ := hleft surface hremoved
    obtain ⟨hrecords, hresources⟩ :=
      isZero_of_surfaceOccupancy (isZero_of_compareSurfaces hcompared hremoved)
    rcases huses.task_or_handle (hresources surface hremoved.1 rfl) with
      ⟨taskId, r, hr, hstatus, htask⟩ | ⟨handleId, handle, hhandle, hname, hkind⟩
    · have hmem : r ∈ recordsOf rt.tasks.tasks :=
        mem_map.2 ⟨_, ExtTreeMap.mem_toList_iff_getElem?_eq_some.2 hr, rfl⟩
      obtain ⟨hready, hrunning, hwaiting⟩ := status_of_isZero (hrecords r hmem htask.mem)
      exact hblocked taskId r hr (by simpa [hready, hrunning, hwaiting] using hstatus) htask
    · exact hkind (hhandles handleId handle hhandle hname)

/-- The sample plan, with the surface of the worker's protocol. -/
def surfacedPlan : RuntimeLoadPlan :=
  { samplePlan with contractSurfaces := [⟨"task_protocol:p.work", .taskProtocol, "v1", false⟩] }

/-- A task whose runner answered that it is blocked. -/
def blockedRuntime : CoreRuntime :=
  after [.submitTask (Task.new "t.1" "p.work" .null),
      .tickOnce (answering fun taskId => { taskId, status := .blocked })]
    ((boot surfacedPlan [kernelRunner, workRunner] []).toOption.get (by decide +kernel))

theorem reloadAccepted_blocked : ReloadAccepted blockedRuntime (planOf 2 samplePlan.plugins) :=
  .inl (Checks.exists_run_ok (by decide +kernel))

theorem removed_unused_iff_blocked : ReloadAccepted blockedRuntime (planOf 2 samplePlan.plugins) ∧
    ((∀ surface, Removed blockedRuntime.surfaces (planOf 2 samplePlan.plugins).contractSurfaces
        surface → ¬ Uses blockedRuntime surface) ↔
      ∀ surface, Removed blockedRuntime.surfaces (planOf 2 samplePlan.plugins).contractSurfaces
          surface →
        (∀ (taskId : TaskId) (r : TaskRecord), blockedRuntime.tasks.tasks[taskId]? = some r →
          r.status = .blocked →
            ¬ TaskUses blockedRuntime.protocolClasses r.task surface.surfaceId) ∧
        ∀ (handleId : String) (handle : SurfaceOccupancyHandle),
          blockedRuntime.resources.occupancyHandles[handleId]? = some handle →
          handle.surfaceId = surface.surfaceId → handle.kind.surfaceKind = surface.kind) :=
  ⟨reloadAccepted_blocked, removed_unused_iff reloadAccepted_blocked⟩

/-- The plan drops the surface of the blocked task's protocol, and is accepted. -/
theorem blocked_task_loses_surface : Run (fun _ _ => True) blockedRuntime ∧
      ReloadAccepted blockedRuntime (planOf 2 samplePlan.plugins) ∧
      ∃ surface, Removed blockedRuntime.surfaces
        (planOf 2 samplePlan.plugins).contractSurfaces surface ∧ Uses blockedRuntime surface := by
  obtain ⟨r, hr, hfacts⟩ := Option.map_eq_some_iff.1 (show
    (blockedRuntime.tasks.tasks["t.1"]?.map fun r => (r.status, r.task.protocolId)) =
      some (.blocked, "p.work") by decide +kernel)
  have hstatus : r.status = .blocked := congrArg Prod.fst hfacts
  have hprotocol : r.task.protocolId = "p.work" := congrArg Prod.snd hfacts
  refine ⟨(Run.of_boot _).after _ (by simp), reloadAccepted_blocked,
    ⟨"task_protocol:p.work", .taskProtocol, "v1", false⟩, ⟨?_, ?_⟩, ?_⟩
  · decide +kernel
  · intro other hother
    cases hother
  · refine .task hr (by simp [hstatus]) (.inr (.inl ?_))
    rw [hprotocol]
    decide +kernel

end MutsukiRuntime
