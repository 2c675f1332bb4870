/-
  LEASES OVER RUNS OF THE RESOURCE MANAGER.

  A `LeaseBook` is the manager together with a ledger of what its replies have
  granted and not taken back: a lease leaves the ledger when its release succeeds or
  a sweep returns it.  The ledger is outside the manager; the manager only has its
  tables.

  * Expired leases: the sweep looks at cells only (`reclaim_sweeps_iff`).
-/
import MutsukiRuntime.Core.Resources
import MutsukiRuntime.Lib.Exclusion

namespace MutsukiRuntime

open Std Prog Buckets Exclusion ResourceManager List

/-! ## Tables -/

/-- The table of its cell has the lease. -/
def LeasedIn (cells : ExtTreeMap String ResourceCellEntry) (lease : ResourceLease) : Prop :=
  ∃ cell, cells[lease.cellId]? = some cell ∧ cell.activeLeases[lease.leaseId]? = some lease

/-- The entry of its ref has the writer. -/
def WrittenIn (hub : ExtTreeMap RefId ResourceEntry) (token : LeaseToken) : Prop :=
  ∃ entry, hub[token.refId]? = some entry ∧ entry.writer = some token

/-- Two leases that may be out together. -/
def ResourceLease.compatible (a b : ResourceLease) : Prop :=
  a.cellId = b.cellId → a.mode ≠ "exclusive" ∧ b.mode ≠ "exclusive"

instance : DecidableRel ResourceLease.compatible :=
  fun a b => inferInstanceAs (Decidable (a.cellId = b.cellId → _ ∧ _))

variable {cells : ExtTreeMap String ResourceCellEntry} {cell : ResourceCellEntry}
  {lease : ResourceLease}

variable {cellId : String} {currentStep : Nat}

theorem leasedIn_insert : LeasedIn (cells.insert cellId cell) lease ↔
      if cellId = lease.cellId then cell.activeLeases[lease.leaseId]? = some lease
      else LeasedIn cells lease := by
  unfold LeasedIn
  rw [getElem?_insert_ite]
  split <;> simp

variable {hub : ExtTreeMap RefId ResourceEntry} {refId : RefId} {entry : ResourceEntry}
  {token : LeaseToken}

theorem writtenIn_insert : WrittenIn (hub.insert refId entry) token ↔
      if refId = token.refId then entry.writer = some token else WrittenIn hub token := by
  unfold WrittenIn
  rw [getElem?_insert_ite]
  split <;> simp

theorem writtenIn_erase :
    WrittenIn (hub.erase refId) token ↔ refId ≠ token.refId ∧ WrittenIn hub token := by
  unfold WrittenIn
  rw [getElem?_erase_ite]
  split <;> simp_all

theorem leasedIn_of_cell (hcell : cells[lease.cellId]? = some cell) :
    LeasedIn cells lease ↔ cell.activeLeases[lease.leaseId]? = some lease := by
  unfold LeasedIn
  simp [hcell]

theorem writtenIn_of_entry (hentry : hub[token.refId]? = some entry) :
    WrittenIn hub token ↔ entry.writer = some token := by
  unfold WrittenIn
  simp [hentry]

theorem writtenIn_insert_same (hsame : ∀ token : LeaseToken, token.refId = refId →
      (entry.writer = some token ↔ WrittenIn hub token)) (token : LeaseToken) :
    WrittenIn (hub.insert refId entry) token ↔ WrittenIn hub token := by
  rw [writtenIn_insert]
  split
  · next heq => exact hsame token heq.symm
  · rfl

/-! ## What the calls do to the tables -/

/-- A lease is granted beside leases it does not conflict with, and refused as exhausted only for
    one it conflicts with. -/
theorem acquireResourceLease_spec (resources : ResourceManager) (cellId : String)
    (borrowerTaskId : TaskId) (borrowerExecutorId mode : String) (expiresAtStep : Option Nat) :
    wp (acquireResourceLease cellId borrowerTaskId borrowerExecutorId mode expiresAtStep)
      (fun lease after => ∃ cell, resources.resourceCells[cellId]? = some cell ∧
        (∀ (id : String) (other : ResourceLease), cell.activeLeases[id]? = some other →
          mode ≠ "exclusive" ∧ other.mode ≠ "exclusive") ∧
        lease.cellId = cellId ∧ lease.mode = mode ∧
        lease.leaseId = resources.idAhead "resource-lease" ∧
        after.hub = resources.hub ∧
        after.resourceCells = resources.resourceCells.insert cellId
          { cell with activeLeases := cell.activeLeases.insert lease.leaseId lease })
      (fun error after => after = resources ∧ (error.code = errCapabilityExhausted →
        ∃ (cell : ResourceCellEntry) (id : String) (other : ResourceLease),
          resources.resourceCells[cellId]? = some cell ∧
          cell.activeLeases[id]? = some other ∧
          (mode = "exclusive" ∨ other.mode = "exclusive"))) resources := by
  unfold acquireResourceLease
  rw [wp_bind, wp_read]
  dsimp only
  split
  · exact ⟨rfl, fun hcode =>
      absurd hcode (show errResourceNotFound ≠ errCapabilityExhausted by decide)⟩
  · next cell hcell =>
    simp only [wp_ite, wp_fail, wp_bind]
    refine ⟨fun hbusy => ⟨trivial, fun _ => ?_⟩, fun hfree => ⟨fun hmode => ?_, fun hmode =>
      ⟨fun hexclusive => ⟨trivial, fun _ => ?_⟩, fun hshared => ?_⟩⟩⟩
    · have hne : cell.activeLeases ≠ ∅ := fun h => hbusy.2 (ExtTreeMap.isEmpty_iff.2 h)
      obtain ⟨id, hid⟩ : ∃ id, id ∈ cell.activeLeases := by
        by_contra hnone
        exact hne (ExtTreeMap.eq_empty_iff_forall_not_mem.2 fun id hid => hnone ⟨id, hid⟩)
      obtain ⟨other, hother⟩ := (mem_iff_exists _ _).1 hid
      exact ⟨cell, id, other, hcell, hother, .inl hbusy.1⟩
    · exact ⟨trivial, fun hcode =>
        absurd hcode (show "resource.lease_mode_invalid" ≠ errCapabilityExhausted by decide)⟩
    · obtain ⟨⟨id, other⟩, hother, hmode⟩ := any_eq_true.1 hexclusive.2
      exact ⟨cell, id, other, hcell, ExtTreeMap.mem_toList_iff_getElem?_eq_some.1 hother,
        .inr (by simpa using hmode)⟩
    · refine ⟨cell, hcell, fun id other hother => ?_, rfl, rfl, rfl, rfl, rfl⟩
      have hmode : mode ≠ "exclusive" := fun h => hfree ⟨h, fun hempty => by
        rw [ExtTreeMap.isEmpty_iff.1 hempty] at hother
        simp at hother⟩
      refine ⟨hmode, fun hother' => hshared ⟨by tauto, ?_⟩⟩
      exact any_eq_true.2 ⟨(id, other),
        ExtTreeMap.mem_toList_iff_getElem?_eq_some.2 hother, by simpa using hother'⟩

theorem releaseResourceLease_spec (resources : ResourceManager) (lease : ResourceLease)
    (currentStep : Option Nat) :
    wp (releaseResourceLease lease currentStep)
      (fun _ after => after.hub = resources.hub ∧ ∀ other, LeasedIn after.resourceCells other ↔
        LeasedIn resources.resourceCells other ∧ other ≠ lease)
      (fun _ after => after = resources) resources := by
  unfold releaseResourceLease
  rw [wp_bind, wp_read]
  split
  · exact rfl
  · next cell hcell =>
    rw [wp_bind]
    cases hvalid : validateResourceLease cell lease currentStep with
    | error _ => exact rfl
    | ok _ =>
      have hactive : cell.activeLeases[lease.leaseId]? = some lease := by
        unfold validateResourceLease at hvalid
        dsimp only at hvalid
        split at hvalid
        · cases hvalid
        · next active hactive =>
          split at hvalid
          · cases hvalid
          · next hsame => rw [hactive, not_not.1 (not_or.1 hsame).1]
      refine ⟨rfl, fun other => ?_⟩
      show LeasedIn (resources.resourceCells.insert lease.cellId _) other ↔ _
      rw [leasedIn_insert]
      split
      · next hcellId =>
        rw [hcellId] at hcell
        rw [leasedIn_of_cell hcell, getElem?_erase_ite]
        by_cases hid : lease.leaseId = other.leaseId
        · have hother : cell.activeLeases[other.leaseId]? = some lease := hid ▸ hactive
          simp [hid, hother, eq_comm]
        · have hne : other ≠ lease := fun h => hid (h ▸ rfl)
          simp [hid, hne]
      · next hcellId =>
        have hne : other ≠ lease := fun h => hcellId (h ▸ rfl)
        simp [hne]

theorem leasedIn_retain :
    LeasedIn (cells.map fun _ (cell : ResourceCellEntry) => cell.retain currentStep) lease ↔
      LeasedIn cells lease ∧ lease.expired currentStep = false := by
  unfold LeasedIn ResourceCellEntry.retain
  rw [ExtTreeMap.getElem?_map]
  cases cells[lease.cellId]? with
  | none => simp
  | some cell => simp [ExtTreeMap.getElem?_filter]

variable {resources : ResourceManager}

theorem mem_activeLeases_of_leasedIn (h : LeasedIn resources.resourceCells lease) :
    lease ∈ resources.activeLeases := by
  obtain ⟨cell, hcell, hlease⟩ := h
  refine mem_flatMap.2 ⟨cell, ?_, ?_⟩
  · exact mem_map.2 ⟨_, ExtTreeMap.mem_toList_iff_getElem?_eq_some.2 hcell, rfl⟩
  · exact mem_map.2 ⟨_, ExtTreeMap.mem_toList_iff_getElem?_eq_some.2 hlease, rfl⟩

theorem reclaimExpiredResourceLeases_spec (resources : ResourceManager) (currentStep : Nat) :
    wp (reclaimExpiredResourceLeases currentStep) (fun leases after => after.hub = resources.hub ∧
        (∀ lease, LeasedIn after.resourceCells lease ↔
          LeasedIn resources.resourceCells lease ∧ lease ∉ leases))
      (fun _ _ => False) resources := by
  refine ⟨rfl, fun lease => leasedIn_retain.trans (and_congr_right fun hleased => ?_)⟩
  rw [mem_insertionSort, mem_filter, not_and, Bool.not_eq_true]
  exact ⟨fun h _ => h, fun h => h (mem_activeLeases_of_leasedIn hleased)⟩

/-- A token is granted when the entry has no writer, and refused as exhausted only when it has
    one. -/
theorem acquireWriteLease_spec (resources : ResourceManager) (refId : RefId) (owner : String)
    (expiresAtStep : Option Nat) :
    wp (acquireWriteLease refId owner expiresAtStep)
      (fun token after => ∃ entry, resources.hub[refId]? = some entry ∧ entry.writer = none ∧
        token.refId = refId ∧ after.resourceCells = resources.resourceCells ∧
        after.hub = resources.hub.insert refId { entry with writer := some token })
      (fun error after => after = resources ∧ (error.code = errCapabilityExhausted →
        ∃ (entry : ResourceEntry) (token : LeaseToken), resources.hub[refId]? = some entry ∧
          entry.writer = some token)) resources := by
  unfold acquireWriteLease
  rw [wp_bind, wp_read]
  dsimp only
  split
  · exact ⟨rfl, fun hcode =>
      absurd hcode (show errResourceNotFound ≠ errCapabilityExhausted by decide)⟩
  · next entry hentry =>
    rw [wp_ite]
    refine ⟨fun hwriter => ⟨rfl, fun _ => ?_⟩, fun hwriter => ?_⟩
    · obtain ⟨token, htoken⟩ := Option.isSome_iff_exists.1 hwriter
      exact ⟨entry, token, hentry, htoken⟩
    · exact ⟨entry, hentry, Option.not_isSome_iff_eq_none.1 hwriter, rfl, rfl, rfl⟩

theorem releaseWriteLease_spec (resources : ResourceManager) (token : LeaseToken)
    (currentStep : Option Nat) :
    wp (releaseWriteLease token currentStep)
      (fun _ after => after.resourceCells = resources.resourceCells ∧
        ∀ other, WrittenIn after.hub other ↔ WrittenIn resources.hub other ∧ other ≠ token)
      (fun _ after => after = resources) resources := by
  unfold releaseWriteLease
  dsimp only
  rw [wp_bind, wp_read]
  split
  · exact rfl
  · next entry hentry =>
    rw [wp_ite, wp_ite]
    refine ⟨fun _ => rfl, fun _ => ⟨fun _ => rfl, fun hwriter => ⟨rfl, fun other => ?_⟩⟩⟩
    have hwriter : entry.writer = some token := not_not.1 hwriter
    show WrittenIn (resources.hub.insert token.refId _) other ↔ _
    rw [writtenIn_insert]
    split
    · next href =>
      rw [href] at hentry
      rw [writtenIn_of_entry hentry, hwriter]
      simp [eq_comm]
    · next href =>
      have hne : other ≠ token := fun h => href (h ▸ rfl)
      simp [hne]

/-- A call that leaves every lease and every writer where it was. -/
def KeepsHolders (resources after : ResourceManager) : Prop :=
  (∀ lease, LeasedIn after.resourceCells lease ↔ LeasedIn resources.resourceCells lease) ∧
    ∀ token, WrittenIn after.hub token ↔ WrittenIn resources.hub token

instance : IsPreorder ResourceManager KeepsHolders where
  refl _ := ⟨fun _ => Iff.rfl, fun _ => Iff.rfl⟩
  trans _ _ _ h h' :=
    ⟨fun lease => (h'.1 lease).trans (h.1 lease), fun token => (h'.2 token).trans (h.2 token)⟩

theorem keepsHolders_setEntry (h : ∀ token, token.refId = entry.descriptor.refId →
      (entry.writer = some token ↔ WrittenIn resources.hub token)) :
    KeepsHolders resources (setEntry entry resources) :=
  ⟨fun _ => Iff.rfl, writtenIn_insert_same h⟩

theorem not_writtenIn_of_none (token : LeaseToken)
    (h : ∀ entry : ResourceEntry, hub[token.refId]? = some entry → entry.writer = none) :
    ¬ WrittenIn hub token := by
  intro ⟨entry, hentry, hwriter⟩
  rw [h entry hentry] at hwriter
  cases hwriter

theorem registerResourceDescriptor_keeps (descriptor : ResourceRef) :
    Leads KeepsHolders (registerResourceDescriptor descriptor) := by
  refine .ite (.fail _) (.read_bind fun resources => ?_)
  split
  · exact refl_of KeepsHolders resources
  · next hnew =>
    refine keepsHolders_setEntry fun token href => ?_
    have hnone : resources.hub[token.refId]? = none := by
      rw [href]
      simpa using hnew
    simpa using not_writtenIn_of_none token (by simp [hnone])

theorem syncResourceDescriptor_keeps (descriptor : ResourceRef) :
    Leads KeepsHolders (syncResourceDescriptor descriptor) := by
  refine .ite (.fail _) (.read_bind fun resources => ?_)
  split
  · next hnone =>
    refine keepsHolders_setEntry fun token href => ?_
    rw [← href] at hnone
    simpa using not_writtenIn_of_none token (by simp [hnone])
  · next existing hexisting =>
    split
    · exact refl_of KeepsHolders resources
    · refine keepsHolders_setEntry fun token href => ?_
      rw [← href] at hexisting
      exact (writtenIn_of_entry hexisting).symm

theorem syncPlanReceipt_keeps (receipt : PlanReceipt) :
    Leads KeepsHolders (syncPlanReceipt receipt) :=
  .foldEach fun _ descriptor _ => .bind (syncResourceDescriptor_keeps descriptor) fun _ => .pure _

/-! ## The ledger -/

/-- What the ledger reads of a reply. -/
inductive ResourceReply where
  | done
  | leased (lease : ResourceLease)
  | returned (lease : ResourceLease)
  | reclaimed (leases : List ResourceLease)
  | writing (token : LeaseToken)
  | written (token : LeaseToken)

/-- The calls that change the manager, with their arguments. -/
inductive ResourceOp where
  | createCell (cellId resourceKind ownerPluginId schema reloadPolicy : String)
  | acquireLease (cellId : String) (borrowerTaskId : TaskId) (borrowerExecutorId mode : String)
      (expiresAtStep : Option Nat)
  | releaseLease (lease : ResourceLease) (currentStep : Option Nat)
  | reclaim (currentStep : Nat)
  | acquireWrite (refId : RefId) (owner : String) (expiresAtStep : Option Nat)
  | releaseWrite (token : LeaseToken) (currentStep : Option Nat)
  | register (descriptor : ResourceRef)
  | sync (descriptor : ResourceRef)
  | syncReceipt (receipt : PlanReceipt)
  | openStream (streamId schema providerId endpoint : String)
  | closeStream (refId : RefId)
  | packValue (schema : String) (bytes : Nat)
  | registerOccupancy (handle : SurfaceOccupancyHandle)
  | releaseOccupancy (handleId : String)

namespace ResourceOp

def exec : ResourceOp → Op ResourceReply
  | createCell cellId resourceKind ownerPluginId schema reloadPolicy => do
    let _ ← createResourceCell cellId resourceKind ownerPluginId schema reloadPolicy
    pure .done
  | acquireLease cellId borrowerTaskId borrowerExecutorId mode expiresAtStep => do
    let lease ←
      acquireResourceLease cellId borrowerTaskId borrowerExecutorId mode expiresAtStep
    pure (.leased lease)
  | releaseLease lease currentStep => do
    releaseResourceLease lease currentStep
    pure (.returned lease)
  | reclaim currentStep => do
    let leases ← reclaimExpiredResourceLeases currentStep
    pure (.reclaimed leases)
  | acquireWrite refId owner expiresAtStep => do
    let token ← acquireWriteLease refId owner expiresAtStep
    pure (.writing token)
  | releaseWrite token currentStep => do
    releaseWriteLease token currentStep
    pure (.written token)
  | register descriptor => do
    let _ ← registerResourceDescriptor descriptor
    pure .done
  | sync descriptor => do
    let _ ← syncResourceDescriptor descriptor
    pure .done
  | syncReceipt receipt => do
    let _ ← syncPlanReceipt receipt
    pure .done
  | openStream streamId schema providerId endpoint => do
    let _ ← createStreamResource streamId schema providerId endpoint
    pure .done
  | closeStream refId => do
    let _ ← closeStreamResource refId
    pure .done
  | packValue schema bytes => do
    let _ ← ResourceManager.packValue schema bytes
    pure .done
  | registerOccupancy handle => do
    registerSurfaceOccupancy handle
    pure .done
  | releaseOccupancy handleId => do
    let _ ← releaseSurfaceOccupancy handleId
    pure .done

/-- The entry that the operation replaces or removes, if there is one, holds no lease. -/
def spares (resources : ResourceManager) : ResourceOp → Bool
  | createCell cellId _ _ _ _ =>
    resources.resourceCells[cellId]?.all fun cell => cell.activeLeases.isEmpty
  | acquireLease cellId _ _ _ _ =>
    resources.resourceCells[cellId]?.all fun cell =>
      cell.activeLeases[resources.idAhead "resource-lease"]?.isNone
  | openStream _ _ _ _ =>
    resources.hub[resources.idAhead "resource"]?.all fun entry => entry.writer.isNone
  | closeStream refId =>
    resources.hub[refId]?.all fun entry =>
      !entry.descriptor.access.isStream || entry.writer.isNone
  | _ => true

end ResourceOp

/-- The manager, and the leases and write tokens that are out. -/
structure LeaseBook where
  resources : ResourceManager := {}
  leases : List ResourceLease := []
  writers : List LeaseToken := []

namespace LeaseBook

def record (book : LeaseBook) (resources : ResourceManager) : ResourceReply → LeaseBook
  | .done => { book with resources }
  | .leased lease => { book with resources, leases := lease :: book.leases }
  | .returned lease => { book with resources, leases := book.leases.erase lease }
  | .reclaimed leases =>
    { book with resources, leases := book.leases.filter (· ∉ leases) }
  | .writing token => { book with resources, writers := token :: book.writers }
  | .written token => { book with resources, writers := book.writers.erase token }

/-- One call; a call that fails grants nothing and takes nothing back. -/
def step (book : LeaseBook) (op : ResourceOp) : LeaseBook :=
  match op.exec.run book.resources with
  | (.ok reply, resources) => book.record resources reply
  | (_, resources) => { book with resources }

def run (book : LeaseBook) (ops : List ResourceOp) : LeaseBook := ops.foldl step book

/-- Every operation of the run spares the entries that hold leases. -/
def spared (book : LeaseBook) : List ResourceOp → Bool
  | [] => true
  | op :: ops => op.spares book.resources && spared (book.step op) ops

/-- An exclusive lease is alone on its cell, and a ref has one writer. -/
structure Exclusive (book : LeaseBook) : Prop where
  leases : book.leases.Pairwise ResourceLease.compatible
  writers : book.writers.Pairwise fun a b => a.refId ≠ b.refId

/-- The tables know what is out. -/
structure Sound (book : LeaseBook) : Prop where
  leases : Covered ResourceLease.compatible (LeasedIn book.resources.resourceCells) book.leases
  writers : Covered (fun a b => a.refId ≠ b.refId) (WrittenIn book.resources.hub) book.writers

variable {book : LeaseBook}

theorem Sound.exclusive (h : Sound book) : Exclusive book where
  leases := h.leases.pairwise
  writers := h.writers.pairwise

theorem sound_empty : Sound {} where
  leases := covered_nil fun lease ⟨_, h, _⟩ => by simp at h
  writers := covered_nil fun token ⟨_, h, _⟩ => by simp at h

variable {op : ResourceOp} {ops : List ResourceOp}

variable {after : ResourceManager}

/-- A call that leaves every lease and every writer where it was. -/
theorem Sound.kept (h : Sound book) (hkept : KeepsHolders book.resources after) :
    Sound { book with resources := after } :=
  ⟨h.leases.congr hkept.1, h.writers.congr hkept.2⟩

/-- A call that keeps all holders, and grants and takes back nothing. -/
theorem Sound.done (h : Sound book) {α : Type} {m : Op α}
    (hop : op.exec = m >>= fun _ => pure .done)
    (hm : KeepsHolders book.resources (m.run book.resources).2) : Sound (book.step op) := by
  have hkept := h.kept hm
  unfold step
  rw [hop, run_bind]
  generalize m.run book.resources = result at hkept ⊢
  obtain ⟨outcome, after⟩ := result
  cases outcome <;> exact hkept

theorem createResourceCell_keeps {cellId : String}
    (hspares : resources.resourceCells[cellId]?.all fun cell => cell.activeLeases.isEmpty)
    (resourceKind ownerPluginId schema reloadPolicy : String) :
    KeepsHolders resources ((createResourceCell cellId resourceKind ownerPluginId schema
      reloadPolicy).run resources).2 := by
  refine ⟨fun lease => leasedIn_insert.trans ?_, fun _ => Iff.rfl⟩
  split
  · next hcellId =>
    refine iff_of_false (by simp) fun ⟨cell, hcell, hlease⟩ => ?_
    rw [← hcellId] at hcell
    rw [ExtTreeMap.isEmpty_iff.1 ((Option.all_eq_true _ _).1 hspares cell hcell)] at hlease
    simp at hlease
  · rfl

theorem createStreamResource_keeps
    (hspares : resources.hub[resources.idAhead "resource"]?.all fun entry => entry.writer.isNone)
    (streamId schema providerId endpoint : String) : KeepsHolders resources
      ((createStreamResource streamId schema providerId endpoint).run resources).2 := by
  refine ⟨fun _ => Iff.rfl, writtenIn_insert_same fun token href => iff_of_false nofun ?_⟩
  have href : token.refId = resources.idAhead "resource" := href
  rw [← href] at hspares
  exact not_writtenIn_of_none token fun entry hentry =>
    Option.isNone_iff_eq_none.1 ((Option.all_eq_true _ _).1 hspares entry hentry)

theorem closeStreamResource_keeps (hspares : resources.hub[refId]?.all fun entry =>
      !entry.descriptor.access.isStream || entry.writer.isNone) :
    KeepsHolders resources ((closeStreamResource refId).run resources).2 := by
  unfold closeStreamResource
  rw [run_read_bind]
  split
  · next entry hentry =>
    split
    · next hstream =>
      refine ⟨fun _ => Iff.rfl, fun token => writtenIn_erase.trans ?_⟩
      refine and_iff_right_of_imp fun hwritten href => ?_
      have hfree := (Option.all_eq_true _ _).1 hspares entry hentry
      rw [href] at hentry
      rw [writtenIn_of_entry hentry] at hwritten
      simp [hstream, hwritten] at hfree
    · exact refl_of KeepsHolders resources
  · exact refl_of KeepsHolders resources

theorem leads_other {f : ResourceManager → ResourceManager}
    (hcells : ∀ resources, (f resources).resourceCells = resources.resourceCells)
    (hhub : ∀ resources, (f resources).hub = resources.hub) :
    Leads KeepsHolders (update f : Op Unit) :=
  .update fun resources => ⟨fun _ => by rw [hcells], fun _ => by rw [hhub]⟩

theorem packValue_keeps (schema : String) (bytes : Nat) :
    Leads KeepsHolders (ResourceManager.packValue schema bytes) :=
  .ite (.pure _) (.bind (.bind .read fun _ => .bind (leads_other (fun _ => rfl) fun _ => rfl)
    fun _ => .pure _) fun _ => .bind (leads_other (fun _ => rfl) fun _ => rfl) fun _ => .pure _)

theorem registerSurfaceOccupancy_keeps (handle : SurfaceOccupancyHandle) :
    Leads KeepsHolders (registerSurfaceOccupancy handle) :=
  .bind .read fun _ => .ite (.fail _) (leads_other (fun _ => rfl) fun _ => rfl)

theorem releaseSurfaceOccupancy_keeps (handleId : String) :
    Leads KeepsHolders (releaseSurfaceOccupancy handleId) := by
  refine .bind .read fun _ => ?_
  split
  · exact .fail _
  · exact .bind (leads_other (fun _ => rfl) fun _ => rfl) fun _ => .pure _

/-- A granted lease is in its table, beside leases it is compatible with. -/
theorem Sound.leased (h : Sound book)
    (hcell : book.resources.resourceCells[lease.cellId]? = some cell)
    (hnew : cell.activeLeases[lease.leaseId]? = none)
    (hothers : ∀ (id : String) (other : ResourceLease), cell.activeLeases[id]? = some other →
      lease.mode ≠ "exclusive" ∧ other.mode ≠ "exclusive") (hhub : after.hub = book.resources.hub)
    (hcells : after.resourceCells = book.resources.resourceCells.insert lease.cellId
      { cell with activeLeases := cell.activeLeases.insert lease.leaseId lease }) :
    Sound (book.record after (.leased lease)) := by
  refine ⟨h.leases.grant ?_ ?_ ?_, hhub.symm ▸ h.writers⟩
  · rw [leasedIn_of_cell hcell, hnew]
    nofun
  · intro other
    show LeasedIn after.resourceCells other ↔ _
    rw [hcells, leasedIn_insert]
    split
    · next hcellId =>
      rw [hcellId] at hcell
      rw [leasedIn_of_cell hcell, getElem?_insert_ite]
      split
      · next hid => simp [← hid, hnew, eq_comm]
      · next hid =>
        have hne : other ≠ lease := fun heq => hid (heq ▸ rfl)
        simp [hne]
    · next hcellId =>
      have hne : other ≠ lease := fun heq => hcellId (heq ▸ rfl)
      simp [hne]
  · intro other hother
    have hfree : lease.cellId = other.cellId →
        lease.mode ≠ "exclusive" ∧ other.mode ≠ "exclusive" := by
      intro hcellId
      rw [hcellId] at hcell
      exact hothers _ other ((leasedIn_of_cell hcell).1 hother)
    exact ⟨fun hcellId => (hfree hcellId.symm).symm, hfree⟩

theorem Sound.writing (h : Sound book) (hentry : book.resources.hub[token.refId]? = some entry)
    (hfree : entry.writer = none) (hcells : after.resourceCells = book.resources.resourceCells)
    (hhub : after.hub = book.resources.hub.insert token.refId { entry with writer := some token }) :
    Sound (book.record after (.writing token)) := by
  have hnone : ∀ other : LeaseToken, token.refId = other.refId →
      ¬ WrittenIn book.resources.hub other := by
    intro other href
    rw [href] at hentry
    rw [writtenIn_of_entry hentry, hfree]
    nofun
  refine ⟨hcells.symm ▸ h.leases, h.writers.grant (hnone token rfl) ?_ ?_⟩
  · intro other
    show WrittenIn after.hub other ↔ _
    rw [hhub, writtenIn_insert]
    split
    · next href => simp [hnone other href, eq_comm]
    · next href =>
      have hne : other ≠ token := fun heq => href (heq ▸ rfl)
      simp [hne]
  · intro other hother
    have hne : token.refId ≠ other.refId := fun href => hnone other href hother
    exact ⟨hne.symm, hne⟩

/-- A call that fails leaves the manager as it was. -/
theorem Sound.answered (h : Sound book) {α : Type} {m : Op α} {reply : α → ResourceReply}
    {Q : α → ResourceManager → Prop} {E : RuntimeError → ResourceManager → Prop}
    (hop : op.exec = m >>= fun a => pure (reply a)) (hm : wp m Q E book.resources)
    (hok : ∀ a after, Q a after → Sound (book.record after (reply a)))
    (herr : ∀ e after, E e after → after = book.resources) : Sound (book.step op) := by
  unfold step
  rw [hop, run_bind]
  rcases wp_outcome hm with ⟨a, after, hrun, hq⟩ | ⟨error, after, hrun, he⟩
  · rw [hrun]
    exact hok a after hq
  · rw [hrun, herr error after he]
    exact h

theorem sound_step (h : Sound book) (hspares : op.spares book.resources) :
    Sound (book.step op) := by
  cases op with
  | createCell =>
    exact h.done rfl (createResourceCell_keeps hspares _ _ _ _)
  | acquireLease =>
    refine h.answered rfl (acquireResourceLease_spec _ _ _ _ _ _) ?_ fun _ _ herr => herr.1
    intro lease after ⟨cell, hcell, hothers, hcellId, hmode, hid, hhub, hcells⟩
    subst hcellId hmode
    have hnew := Option.isNone_iff_eq_none.1 ((Option.all_eq_true _ _).1 hspares cell hcell)
    rw [← hid] at hnew
    exact h.leased hcell hnew hothers hhub hcells
  | releaseLease lease currentStep =>
    refine h.answered rfl (releaseResourceLease_spec _ lease currentStep) ?_ fun _ _ herr => herr
    intro _ after ⟨hhub, hleased⟩
    exact ⟨h.leases.drop hleased, hhub.symm ▸ h.writers⟩
  | reclaim currentStep =>
    refine h.answered rfl (reclaimExpiredResourceLeases_spec _ currentStep) ?_
      fun _ _ herr => herr.elim
    intro leases after ⟨hhub, hleased⟩
    exact ⟨h.leases.dropAll hleased, hhub.symm ▸ h.writers⟩
  | acquireWrite refId owner expiresAtStep =>
    refine h.answered rfl (acquireWriteLease_spec _ refId owner expiresAtStep) ?_
      fun _ _ herr => herr.1
    intro token after ⟨entry, hentry, hfree, href, hcells, hhub⟩
    subst href
    exact h.writing hentry hfree hcells hhub
  | releaseWrite token currentStep =>
    refine h.answered rfl (releaseWriteLease_spec _ token currentStep) ?_ fun _ _ herr => herr
    intro _ after ⟨hcells, hwritten⟩
    exact ⟨hcells.symm ▸ h.leases, h.writers.drop hwritten⟩
  | register descriptor => exact h.done rfl (registerResourceDescriptor_keeps descriptor _)
  | sync descriptor => exact h.done rfl (syncResourceDescriptor_keeps descriptor _)
  | syncReceipt receipt => exact h.done rfl (syncPlanReceipt_keeps receipt _)
  | openStream streamId schema providerId endpoint =>
    exact h.done rfl (createStreamResource_keeps hspares streamId schema providerId endpoint)
  | closeStream refId => exact h.done rfl (closeStreamResource_keeps hspares)
  | packValue schema bytes => exact h.done rfl (packValue_keeps schema bytes _)
  | registerOccupancy handle => exact h.done rfl (registerSurfaceOccupancy_keeps handle _)
  | releaseOccupancy handleId => exact h.done rfl (releaseSurfaceOccupancy_keeps handleId _)

theorem sound_run (h : Sound book) (hspared : book.spared ops) : Sound (book.run ops) := by
  induction ops generalizing book with
  | nil => exact h
  | cons op ops ih =>
    have hspared := Bool.and_eq_true_iff.1 hspared
    exact ih (sound_step h hspared.1) hspared.2

theorem spared_append {more : List ResourceOp} :
    book.spared (ops ++ more) = (book.spared ops && (book.run ops).spared more) := by
  induction ops generalizing book with
  | nil => rfl
  | cons op ops ih =>
    rw [cons_append, spared, spared, ih, Bool.and_assoc]
    rfl

/-- While no operation replaces or removes an entry that holds a lease, the leases that are out
    exclude each other, in every state the run goes through. -/
theorem outstanding_leases_exclusive {ops reached : List ResourceOp}
    (hspared : ({} : LeaseBook).spared ops) (hreached : reached <+: ops) :
    (({} : LeaseBook).run reached).Exclusive := by
  obtain ⟨rest, rfl⟩ := hreached
  rw [spared_append, Bool.and_eq_true] at hspared
  exact (sound_run sound_empty hspared.1).exclusive

/-- Two shared leases, a writer and a stream, all given back or swept; then an exclusive lease. -/
def sampleOps : List ResourceOp :=
  [ .createCell "cell" "kind" "plugin" "schema" "keep"
  , .acquireLease "cell" "t.1" "x" "shared" (some 3)
  , .acquireLease "cell" "t.2" "x" "shared" (some 3)
  , .register { refId := "doc", schema := "s", generation := 1 }
  , .acquireWrite "doc" "t.1" none
  , .sync { refId := "doc", schema := "s", generation := 1, version := 2 }
  , .openStream "frames" "s" "p" "tcp"
  , .acquireWrite "doc" "t.2" none
  , .reclaim 3
  , .createCell "cell" "kind" "plugin" "schema" "keep"
  , .acquireLease "cell" "t.3" "x" "exclusive" none
  , .acquireLease "cell" "t.4" "x" "shared" none ]

theorem outstanding_leases_exclusive_sample :
    (({} : LeaseBook).run sampleOps).leases.map (·.borrowerTaskId) = ["t.3"] ∧
      (({} : LeaseBook).run sampleOps).Exclusive :=
  ⟨by decide +kernel,
    outstanding_leases_exclusive (by decide +kernel : ({} : LeaseBook).spared sampleOps)
      (prefix_refl _)⟩

/-- The cell is made again while its lease is out. -/
def cellMadeAgain : List ResourceOp :=
  [ .createCell "cell" "kind" "plugin" "schema" "keep"
  , .acquireLease "cell" "t.1" "x" "exclusive" none
  , .createCell "cell" "kind" "plugin" "schema" "keep"
  , .acquireLease "cell" "t.2" "x" "exclusive" none ]

/-- A stream is opened under the ref id of a registered descriptor that has a writer. -/
def refMadeAgain : List ResourceOp :=
  [ .register { refId := "resource-00000000000000000000000002", schema := "s", generation := 1 }
  , .acquireWrite "resource-00000000000000000000000002" "t.1" none
  , .openStream "frames" "s" "p" "tcp"
  , .acquireWrite "resource-00000000000000000000000002" "t.2" none ]

theorem leases_out_together : ¬ (({} : LeaseBook).run cellMadeAgain).Exclusive ∧
      ¬ (({} : LeaseBook).run refMadeAgain).Exclusive :=
  ⟨fun h => absurd h.leases (by decide +kernel), fun h => absurd h.writers (by decide +kernel)⟩

end LeaseBook

/-! ## Expired holders -/

/-- No writer of the hub has expired. -/
def ResourceManager.WritersCurrent (resources : ResourceManager) (currentStep : Nat) : Prop :=
  ∀ (refId : RefId) (entry : ResourceEntry) (token : LeaseToken),
    resources.hub[refId]? = some entry → entry.writer = some token →
      token.expired currentStep = false

/-- Nothing is held by an expired lease, and an acquire is refused as exhausted only for a holder
    that has not expired. -/
structure ResourceManager.Swept (resources : ResourceManager) (currentStep : Nat) : Prop where
  cells : ∀ (cellId : String) (cell : ResourceCellEntry) (id : String) (lease : ResourceLease),
    resources.resourceCells[cellId]? = some cell → cell.activeLeases[id]? = some lease →
      lease.expired currentStep = false
  writers : resources.WritersCurrent currentStep
  acquire : ∀ (cellId : String) (borrowerTaskId : TaskId) (borrowerExecutorId mode : String)
    (expiresAtStep : Option Nat) (error : RuntimeError) (after : ResourceManager),
    (acquireResourceLease cellId borrowerTaskId borrowerExecutorId mode expiresAtStep).run
      resources = (.err error, after) → error.code = errCapabilityExhausted →
    ∃ (cell : ResourceCellEntry) (id : String) (lease : ResourceLease),
      resources.resourceCells[cellId]? = some cell ∧ cell.activeLeases[id]? = some lease ∧
      (mode = "exclusive" ∨ lease.mode = "exclusive") ∧ lease.expired currentStep = false
  acquireWrite : ∀ (refId : RefId) (owner : String) (expiresAtStep : Option Nat)
    (error : RuntimeError) (after : ResourceManager),
    (acquireWriteLease refId owner expiresAtStep).run resources = (.err error, after) →
      error.code = errCapabilityExhausted →
    ∃ (entry : ResourceEntry) (token : LeaseToken), resources.hub[refId]? = some entry ∧
      entry.writer = some token ∧ token.expired currentStep = false

/-- Once no holder has expired, no expired holder is in the way of an acquire. -/
theorem ResourceManager.swept_of_current
    (hcells : ∀ (cellId : String) (cell : ResourceCellEntry) (id : String)
      (lease : ResourceLease), resources.resourceCells[cellId]? = some cell →
      cell.activeLeases[id]? = some lease → lease.expired currentStep = false)
    (hwriters : resources.WritersCurrent currentStep) : resources.Swept currentStep where
  cells := hcells
  writers := hwriters
  acquire cellId borrowerTaskId borrowerExecutorId mode expiresAtStep error after hrun hcode := by
    have hspec := acquireResourceLease_spec resources cellId borrowerTaskId borrowerExecutorId
      mode expiresAtStep
    rw [wp_of_run_err hrun] at hspec
    obtain ⟨cell, id, lease, hcell, hlease, hmode⟩ := hspec.2 hcode
    exact ⟨cell, id, lease, hcell, hlease, hmode, hcells _ _ _ _ hcell hlease⟩
  acquireWrite refId owner expiresAtStep error after hrun hcode := by
    have hspec := acquireWriteLease_spec resources refId owner expiresAtStep
    rw [wp_of_run_err hrun] at hspec
    obtain ⟨entry, token, hentry, htoken⟩ := hspec.2 hcode
    exact ⟨entry, token, hentry, htoken, hwriters _ _ _ hentry htoken⟩

/-- The manager after `reclaim_expired_resource_leases`. -/
def ResourceManager.reclaimed (resources : ResourceManager) (currentStep : Nat) :
    ResourceManager :=
  ((reclaimExpiredResourceLeases currentStep).run resources).2

theorem ResourceManager.cells_reclaimed {id : String}
    (hcell : (resources.reclaimed currentStep).resourceCells[cellId]? = some cell)
    (hlease : cell.activeLeases[id]? = some lease) : lease.expired currentStep = false := by
  have hmap : (resources.reclaimed currentStep).resourceCells =
      resources.resourceCells.map fun _ cell => cell.retain currentStep := rfl
  rw [hmap, ExtTreeMap.getElem?_map] at hcell
  obtain ⟨before, -, rfl⟩ := Option.map_eq_some_iff.1 hcell
  unfold ResourceCellEntry.retain at hlease
  have hkept := ExtTreeMap.getElem?_filter (t := before.activeLeases) (k := id)
    (f := fun _ lease => !ResourceLease.expired lease currentStep)
  rw [hlease] at hkept
  obtain ⟨_, hlive⟩ := Option.pfilter_eq_some_iff.1 hkept.symm
  simpa using hlive

/-- The sweep frees everything expired exactly when no writer has expired: it goes over the cells,
    and leaves the writers in the hub. -/
theorem ResourceManager.reclaim_sweeps_iff (resources : ResourceManager) (currentStep : Nat) :
    (resources.reclaimed currentStep).Swept currentStep ↔ resources.WritersCurrent currentStep := by
  have hhub : (resources.reclaimed currentStep).hub = resources.hub := rfl
  constructor
  · intro h
    have hwriters := h.writers
    unfold WritersCurrent at hwriters
    rwa [hhub] at hwriters
  · intro h
    refine swept_of_current (fun _ _ _ _ => cells_reclaimed) ?_
    unfold WritersCurrent
    rwa [hhub]

/-- A writer that expires at step 1. -/
def expiringWriter : ResourceManager :=
  (({} : LeaseBook).run
    [ .register { refId := "doc", schema := "s", generation := 1 }
    , .acquireWrite "doc" "t.1" (some 1) ]).resources

/-- Its token. -/
def expiringToken : LeaseToken :=
  { tokenId := "lease-00000000000000000000000001", refId := "doc", owner := "t.1",
    mode := "exclusive_write", expiresAtStep := some 1, generation := 1 }

/-- After the sweep of step 5 the writer is still there, the next one is refused, and the token is
    too old to be given back. -/
theorem expired_writer_blocks : ¬ (expiringWriter.reclaimed 5).Swept 5 ∧
    ((acquireWriteLease "doc" "t.2" none).run (expiringWriter.reclaimed 5)).1 =
      .err (capabilityExhausted "resource.lease.doc") ∧
    ((releaseWriteLease expiringToken (some 5)).run (expiringWriter.reclaimed 5)).1 =
      .err (resourceError errResourceLeaseExpired "resource.write_lease.release.doc") := by
  refine ⟨fun h => ?_, by decide +kernel, by decide +kernel⟩
  have hcurrent := h.writers "doc"
    { descriptor := { refId := "doc", schema := "s", generation := 1 },
      writer := some expiringToken } expiringToken (by decide +kernel) rfl
  exact absurd hcurrent (by decide)

end MutsukiRuntime
