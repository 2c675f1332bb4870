/-
  DESCRIPTORS OVER RUNS OF THE RESOURCE MANAGER: registration, syncs from providers, and
  the writers that hold entries meanwhile.

  * `HubSound`: every entry lies under its ref, agrees with its resource id and has the
    generation of its writer.
  * `PlanReceipt.descriptors` keeps a newest descriptor of each ref the receipt names.
-/
import MutsukiRuntime.Core.ResourceLeases
import Mathlib.Data.Prod.Lex

namespace MutsukiRuntime

open Prog Buckets ResourceManager List
open Std (ExtTreeMap ReflCmp)

/-! ## Stamps -/

/-- What decides which of two descriptors is newer. -/
def ResourceRef.stamp (descriptor : ResourceRef) : Nat ×ₗ Nat :=
  toLex (descriptor.generation, descriptor.version)

variable {a b : ResourceRef} {op : ResourceOp}

theorem ResourceRef.stamp_le_iff : a.stamp ≤ b.stamp ↔
    a.generation < b.generation ∨ a.generation = b.generation ∧ a.version ≤ b.version :=
  Prod.Lex.toLex_le_toLex

theorem ResourceRef.stamp_lt_iff : a.stamp < b.stamp ↔
    a.generation < b.generation ∨ a.generation = b.generation ∧ a.version < b.version :=
  Prod.Lex.toLex_lt_toLex

variable {descriptor : ResourceRef}

theorem consistent_iff : consistent descriptor = true ↔
    descriptor.resourceId.generation = descriptor.generation ∧
      descriptor.resourceId.version = descriptor.version := by
  simp [consistent]

theorem outdated_iff {existing : ResourceEntry} :
    outdated descriptor existing = true ↔ descriptor.stamp < existing.descriptor.stamp ∨
      ∃ token, existing.writer = some token ∧ token.generation ≠ descriptor.generation := by
  rw [outdated, Bool.or_eq_true, Bool.or_eq_true, Bool.and_eq_true, ResourceRef.stamp_lt_iff]
  cases existing.writer <;> simp

/-! ## The hub -/

/-- An entry that may lie under a ref. -/
structure EntryOk (refId : RefId) (entry : ResourceEntry) : Prop where
  under : entry.descriptor.refId = refId
  generation : entry.descriptor.resourceId.generation = entry.descriptor.generation
  version : entry.descriptor.resourceId.version = entry.descriptor.version
  writer : ∀ token, entry.writer = some token →
    token.refId = refId ∧ token.generation = entry.descriptor.generation

def HubSound (hub : ExtTreeMap RefId ResourceEntry) : Prop :=
  ∀ (refId : RefId) (entry : ResourceEntry), hub[refId]? = some entry → EntryOk refId entry

/-- Every descriptor is still there or has been replaced by one that is not older. -/
def StampsKept (hub hub' : ExtTreeMap RefId ResourceEntry) : Prop :=
  ∀ (refId : RefId) (entry : ResourceEntry), hub[refId]? = some entry →
    ∃ entry' : ResourceEntry, hub'[refId]? = some entry' ∧
      entry.descriptor.stamp ≤ entry'.descriptor.stamp

theorem StampsKept.rfl {hub : ExtTreeMap RefId ResourceEntry} : StampsKept hub hub :=
  fun _ entry h => ⟨entry, h, le_rfl⟩

theorem StampsKept.trans {a b c : ExtTreeMap RefId ResourceEntry} (h : StampsKept a b)
    (h' : StampsKept b c) : StampsKept a c := by
  intro refId entry hentry
  obtain ⟨entry', hentry', hle⟩ := h refId entry hentry
  obtain ⟨entry'', hentry'', hle'⟩ := h' refId entry' hentry'
  exact ⟨entry'', hentry'', hle.trans hle'⟩

/-- What the calls on descriptors and writers do to a sound hub. -/
def Advances (resources after : ResourceManager) : Prop :=
  HubSound resources.hub → HubSound after.hub ∧ StampsKept resources.hub after.hub

instance : IsPreorder ResourceManager Advances where
  refl _ h := ⟨h, StampsKept.rfl⟩
  trans _ _ _ h h' hsound :=
    ⟨(h' (h hsound).1).1, (h hsound).2.trans (h' (h hsound).1).2⟩

theorem Advances.rfl {resources : ResourceManager} : Advances resources resources :=
  refl_of Advances resources

theorem Advances.insert (resources : ResourceManager) (refId : RefId)
    {after : ResourceManager} {entry : ResourceEntry}
    (hafter : after.hub = resources.hub.insert refId entry)
    (hok : HubSound resources.hub → EntryOk refId entry)
    (hstamp : ∀ old : ResourceEntry, resources.hub[refId]? = some old →
      old.descriptor.stamp ≤ entry.descriptor.stamp) : Advances resources after := by
  intro hsound
  rw [hafter]
  constructor
  · intro other found hfound
    rw [getElem?_insert_ite] at hfound
    split at hfound
    · next heq =>
      cases hfound
      exact heq ▸ hok hsound
    · exact hsound other found hfound
  · intro other old hold
    rw [getElem?_insert_ite]
    split
    · next heq =>
      subst heq
      exact ⟨entry, Eq.refl _, hstamp old hold⟩
    · exact ⟨old, hold, le_rfl⟩

/-! ## The calls -/

theorem entryOk_new {writer : Option LeaseToken} (hconsistent : consistent descriptor = true)
    (hwriter : ∀ token, writer = some token →
      token.refId = descriptor.refId ∧ token.generation = descriptor.generation) :
    EntryOk descriptor.refId { descriptor, writer } where
  under := rfl
  generation := (consistent_iff.1 hconsistent).1
  version := (consistent_iff.1 hconsistent).2
  writer := hwriter

theorem registerResourceDescriptor_advances (descriptor : ResourceRef) :
    Leads Advances (registerResourceDescriptor descriptor) := by
  intro resources
  refine wp_run ?_
  unfold registerResourceDescriptor
  dsimp only
  rw [wp_ite]
  refine ⟨fun _ => Advances.rfl, fun hconsistent => ?_⟩
  rw [wp_bind, wp_read, wp_ite]
  refine ⟨fun _ => Advances.rfl, fun hnew => ?_⟩
  refine Advances.insert resources descriptor.refId rfl (fun _ => ?_) fun old hold => ?_
  · exact entryOk_new (not_not.1 hconsistent) fun _ hnone => by cases hnone
  · exact absurd (ExtTreeMap.contains_iff_mem.2 ((mem_iff_exists _ _).2 ⟨old, hold⟩)) hnew

theorem syncResourceDescriptor_advances (descriptor : ResourceRef) :
    Leads Advances (syncResourceDescriptor descriptor) := by
  intro resources
  refine wp_run ?_
  unfold syncResourceDescriptor
  dsimp only
  rw [wp_ite]
  refine ⟨fun _ => Advances.rfl, fun hconsistent => ?_⟩
  rw [wp_bind, wp_read]
  split
  · next hnone =>
    refine Advances.insert resources descriptor.refId rfl (fun _ => ?_) fun old hold => ?_
    · exact entryOk_new (not_not.1 hconsistent) fun _ hnone => by cases hnone
    · rw [hnone] at hold
      cases hold
  · next existing hexisting =>
    rw [wp_ite]
    refine ⟨fun _ => Advances.rfl, fun hcurrent => ?_⟩
    rw [outdated_iff, not_or] at hcurrent
    refine Advances.insert resources descriptor.refId rfl (fun hsound => ?_) fun old hold => ?_
    · refine entryOk_new (not_not.1 hconsistent) fun token htoken => ?_
      refine ⟨((hsound _ existing hexisting).writer token htoken).1, ?_⟩
      exact by_contra fun hne => hcurrent.2 ⟨token, htoken, hne⟩
    · rw [hexisting] at hold
      cases hold
      exact le_of_not_gt hcurrent.1

theorem syncPlanReceipt_advances (receipt : PlanReceipt) :
    Leads Advances (ResourceManager.syncPlanReceipt receipt) :=
  .foldEach fun _ descriptor _ =>
    .bind (syncResourceDescriptor_advances descriptor) fun _ => .pure _

theorem acquireWriteLease_advances (refId : RefId) (owner : String) (expiresAtStep : Option Nat) :
    Leads Advances (acquireWriteLease refId owner expiresAtStep) := by
  intro resources
  refine wp_run ?_
  unfold acquireWriteLease
  rw [wp_bind, wp_read]
  dsimp only
  split
  · exact Advances.rfl
  · next entry hentry =>
    rw [wp_ite]
    refine ⟨fun _ => Advances.rfl, fun _ => ?_⟩
    refine Advances.insert resources refId rfl (fun hsound => ?_) ?_
    · refine { hsound refId entry hentry with writer := ?_ }
      rintro token ⟨⟩
      exact ⟨rfl, rfl⟩
    · intro old hold
      rw [hentry] at hold
      cases hold
      exact le_rfl

theorem releaseWriteLease_advances (token : LeaseToken) (currentStep : Option Nat) :
    Leads Advances (releaseWriteLease token currentStep) := by
  intro resources
  refine wp_run ?_
  unfold releaseWriteLease
  dsimp only
  rw [wp_bind, wp_read]
  split
  · exact Advances.rfl
  · next entry hentry =>
    rw [wp_ite, wp_ite]
    refine ⟨fun _ => Advances.rfl, fun _ => ⟨fun _ => Advances.rfl, fun _ => ?_⟩⟩
    refine Advances.insert resources token.refId rfl (fun hsound => ?_) ?_
    · refine { hsound _ entry hentry with writer := ?_ }
      intro _ hnone
      cases hnone
    · intro old hold
      rw [hentry] at hold
      cases hold
      exact le_rfl

/-! ## Receipts -/

/-- The descriptors a receipt names, in the order they are merged. -/
def PlanReceipt.named (receipt : PlanReceipt) : List ResourceRef :=
  receipt.resourceRef.toList ++ receipt.snapshotRef.toList ++ receipt.descriptorUpdates

/-- The table has a newest descriptor of every ref named so far. -/
structure Merged (named : List ResourceRef) (descriptors : ExtTreeMap RefId ResourceRef) :
    Prop where
  found : ∀ (refId : RefId) (descriptor : ResourceRef), descriptors[refId]? = some descriptor →
    descriptor ∈ named ∧ descriptor.refId = refId
  newest : ∀ descriptor ∈ named, ∃ kept : ResourceRef,
    descriptors[descriptor.refId]? = some kept ∧ descriptor.stamp ≤ kept.stamp

theorem Merged.empty : Merged [] ∅ where
  found := by simp
  newest := by simp

theorem mergeDescriptor_eq (descriptors : ExtTreeMap RefId ResourceRef)
    (descriptor : ResourceRef) : mergeDescriptor descriptors descriptor =
      if descriptors[descriptor.refId]?.all fun current : ResourceRef =>
        decide (current.stamp ≤ descriptor.stamp)
      then descriptors.insert descriptor.refId descriptor else descriptors := by
  unfold mergeDescriptor
  cases descriptors[descriptor.refId]? with
  | none => rfl
  | some current => simp [ResourceRef.stamp_le_iff, @eq_comm _ descriptor.generation]

variable {descriptors : ExtTreeMap RefId ResourceRef}

theorem Merged.merge {named : List ResourceRef} (h : Merged named descriptors)
    (descriptor : ResourceRef) :
    Merged (named ++ [descriptor]) (mergeDescriptor descriptors descriptor) := by
  rw [mergeDescriptor_eq]
  split
  · next hnewer =>
    constructor
    · intro refId found hfound
      rw [getElem?_insert_ite] at hfound
      split at hfound
      · next heq =>
        cases hfound
        exact ⟨by simp, heq⟩
      · obtain ⟨hmem, href⟩ := h.found refId found hfound
        exact ⟨mem_append_left _ hmem, href⟩
    · intro other hother
      rw [getElem?_insert_ite]
      rcases mem_append.1 hother with hother | hother
      · obtain ⟨kept, hkept, hle⟩ := h.newest other hother
        split
        · next heq =>
          rw [heq, hkept, Option.all_some, decide_eq_true_iff] at hnewer
          exact ⟨descriptor, rfl, hle.trans hnewer⟩
        · exact ⟨kept, hkept, hle⟩
      · rw [mem_singleton.1 hother, if_pos rfl]
        exact ⟨descriptor, rfl, le_rfl⟩
  · next holder =>
    constructor
    · intro refId found hfound
      obtain ⟨hmem, href⟩ := h.found refId found hfound
      exact ⟨mem_append_left _ hmem, href⟩
    · intro other hother
      rcases mem_append.1 hother with hother | hother
      · exact h.newest other hother
      · rw [mem_singleton.1 hother]
        cases hkept : descriptors[descriptor.refId]? with
        | none => simp [hkept] at holder
        | some kept =>
          rw [hkept, Option.all_some, decide_eq_true_iff] at holder
          exact ⟨kept, rfl, le_of_not_ge holder⟩

theorem Merged.foldl {named more : List ResourceRef} (h : Merged named descriptors) :
    Merged (named ++ more) (more.foldl mergeDescriptor descriptors) := by
  induction more generalizing named descriptors with
  | nil => rwa [append_nil]
  | cons descriptor more ih =>
    rw [foldl_cons, append_cons]
    exact ih (h.merge descriptor)

/-- `kept` has one descriptor of every ref that `named` has, and none of `named` is newer. -/
structure KeepsNewest (named kept : List ResourceRef) : Prop where
  mem : ∀ descriptor ∈ kept, descriptor ∈ named
  newest : ∀ descriptor ∈ named, ∃ newer ∈ kept,
    newer.refId = descriptor.refId ∧ descriptor.stamp ≤ newer.stamp
  once : kept.Pairwise fun a b => a.refId ≠ b.refId

theorem PlanReceipt.descriptors_newest (receipt : PlanReceipt) :
    KeepsNewest receipt.named receipt.descriptors := by
  have h : Merged receipt.named (receipt.named.foldl mergeDescriptor ∅) := Merged.empty.foldl
  have hkept : ∀ e : RefId × ResourceRef, e ∈ (receipt.named.foldl mergeDescriptor ∅).toList ↔
        (receipt.named.foldl mergeDescriptor ∅)[e.1]? = some e.2 :=
    fun _ => ExtTreeMap.mem_toList_iff_getElem?_eq_some
  change KeepsNewest _ ((receipt.named.foldl mergeDescriptor ∅).toList.map (·.2))
  generalize receipt.named.foldl mergeDescriptor ∅ = descriptors at h hkept
  constructor
  · intro descriptor hmem
    obtain ⟨e, he, rfl⟩ := mem_map.1 hmem
    exact (h.found e.1 e.2 ((hkept e).1 he)).1
  · intro descriptor hmem
    obtain ⟨kept, hget, hle⟩ := h.newest descriptor hmem
    exact ⟨kept, mem_map.2 ⟨(descriptor.refId, kept), (hkept _).2 hget, rfl⟩,
      (h.found _ _ hget).2, hle⟩
  · rw [pairwise_map]
    refine (List.Pairwise.and_mem.1 descriptors.distinct_keys_toList).imp ?_
    rintro e e' ⟨he, he', hne⟩ hsame
    rw [(h.found e.1 e.2 ((hkept e).1 he)).2, (h.found e'.1 e'.2 ((hkept e').1 he')).2] at hsame
    exact hne (hsame ▸ ReflCmp.compare_self)

/-! ## Runs -/

/-- The calls on descriptors and their writers. -/
def ResourceOp.describes : ResourceOp → Bool
  | register _ | sync _ | syncReceipt _ | acquireWrite _ _ _ | releaseWrite _ _ => true
  | _ => false

theorem ResourceOp.exec_advances (hop : op.describes = true) : Leads Advances op.exec := by
  cases op with
  | register descriptor =>
    exact .bind (registerResourceDescriptor_advances descriptor) fun _ => .pure _
  | sync descriptor =>
    exact .bind (syncResourceDescriptor_advances descriptor) fun _ => .pure _
  | syncReceipt receipt => exact .bind (syncPlanReceipt_advances receipt) fun _ => .pure _
  | acquireWrite refId owner expiresAtStep =>
    exact .bind (acquireWriteLease_advances refId owner expiresAtStep) fun _ => .pure _
  | releaseWrite token currentStep =>
    exact .bind (releaseWriteLease_advances token currentStep) fun _ => .pure _
  | _ => cases hop

theorem LeaseBook.resources_step (book : LeaseBook) (op : ResourceOp) :
    (book.step op).resources = (op.exec.run book.resources).2 := by
  unfold LeaseBook.step
  split
  · next reply resources hrun =>
    rw [hrun]
    cases reply <;> rfl
  · next resources _ hrun => rw [hrun]

theorem LeaseBook.run_advances (book : LeaseBook) {ops : List ResourceOp}
    (hops : ∀ op ∈ ops, op.describes = true) :
    Advances book.resources (book.run ops).resources := by
  induction ops generalizing book with
  | nil => exact Advances.rfl
  | cons op ops ih =>
    have hstep : Advances book.resources (book.step op).resources := by
      rw [LeaseBook.resources_step]
      exact ResourceOp.exec_advances (hops op (by simp)) _
    exact trans_of Advances hstep (ih (book.step op) fun op' h => hops op' (by simp [h]))

theorem hubSound_empty : HubSound ∅ := by
  intro refId entry h
  simp at h

/-- The two calls that bring descriptors from a provider. -/
def ResourceOp.Syncs (op : ResourceOp) : Prop :=
  (∃ descriptor, op = .sync descriptor) ∨ ∃ receipt, op = .syncReceipt receipt

theorem ResourceOp.Syncs.describes (h : op.Syncs) : op.describes = true := by
  obtain ⟨descriptor, rfl⟩ | ⟨receipt, rfl⟩ := h
  · rfl
  · rfl

theorem ResourceOp.Syncs.keeps (h : op.Syncs) (book : LeaseBook) :
    KeepsHolders book.resources (book.step op).resources := by
  rw [LeaseBook.resources_step]
  obtain ⟨descriptor, rfl⟩ | ⟨receipt, rfl⟩ := h
  · exact Leads.bind (syncResourceDescriptor_keeps descriptor) (fun _ => .pure _) _
  · exact Leads.bind (syncPlanReceipt_keeps receipt) (fun _ => .pure _) _

/-- In every run of registrations, syncs and write leases the hub stays sound and no stamp goes
    back; a sync leaves every writer in place, with the generation of the descriptor; and of the
    descriptors that a receipt names the newest ones are synced. -/
theorem descriptors_advance (ops more : List ResourceOp)
    (hops : ∀ op ∈ ops ++ more, op.describes = true) :
    let hub := (({} : LeaseBook).run ops).resources.hub
    HubSound hub ∧ StampsKept hub (({} : LeaseBook).run (ops ++ more)).resources.hub ∧
    (∀ (op : ResourceOp) (token : LeaseToken),
      op.Syncs → WrittenIn hub token → ∃ entry : ResourceEntry,
        (({} : LeaseBook).run (ops ++ [op])).resources.hub[token.refId]? = some entry ∧
        entry.writer = some token ∧ token.generation = entry.descriptor.generation) ∧
    ∀ receipt : PlanReceipt, KeepsNewest receipt.named receipt.descriptors := by
  intro hub
  have hrun : ∀ more' : List ResourceOp, ({} : LeaseBook).run (ops ++ more') =
      (({} : LeaseBook).run ops).run more' := fun more' => foldl_append
  have hsound : HubSound hub :=
    (LeaseBook.run_advances {} (fun op h => hops op (mem_append_left _ h)) hubSound_empty).1
  refine ⟨hsound, ?_, ?_, PlanReceipt.descriptors_newest⟩
  · rw [hrun]
    exact (LeaseBook.run_advances _ (fun op h => hops op (mem_append_right _ h)) hsound).2
  · intro op token hsync hwritten
    rw [hrun]
    have hstep : Advances (({} : LeaseBook).run ops).resources
        ((({} : LeaseBook).run ops).step op).resources := by
      rw [LeaseBook.resources_step]
      exact ResourceOp.exec_advances hsync.describes _
    obtain ⟨entry, hentry, hwriter⟩ := ((hsync.keeps (({} : LeaseBook).run ops)).2 token).2 hwritten
    exact ⟨entry, hentry, hwriter, (((hstep hsound).1 _ entry hentry).writer token hwriter).2⟩

/-- A registration, a writer, a sync of a newer version, a receipt that names the ref twice, and a
    late sync that is refused. -/
def descriptorOps : List ResourceOp :=
  [ .register { refId := "doc", schema := "s", generation := 1 }
  , .acquireWrite "doc" "t.1" none
  , .sync { refId := "doc", schema := "s", generation := 1, version := 2 }
  , .syncReceipt
      { resourceRef := some { refId := "doc", schema := "s", generation := 1, version := 4 }
        snapshotRef := none
        descriptorUpdates := [{ refId := "doc", schema := "s", generation := 1, version := 3 }] }
  , .sync { refId := "doc", schema := "s", generation := 1, version := 2 } ]

theorem descriptors_advance_sample :
    let early := (({} : LeaseBook).run (descriptorOps.take 2)).resources.hub
    let late := (({} : LeaseBook).run descriptorOps).resources.hub
    early["doc"]?.map (·.descriptor.version) = some 1 ∧
      late["doc"]?.map (·.descriptor.version) = some 4 ∧
      HubSound early ∧ StampsKept early late := by
  have hadvance := descriptors_advance (descriptorOps.take 2) (descriptorOps.drop 2)
    (by decide +kernel)
  rw [take_append_drop] at hadvance
  exact ⟨by decide +kernel, by decide +kernel, hadvance.1, hadvance.2.1⟩

end MutsukiRuntime
