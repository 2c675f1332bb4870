/-
  THE RESOURCE PLAN OF A BATCH: what `build_work_resource_plan` makes of the requirements
  that the tasks of a batch declare.

  * `getElem?_batchEntries`, `mem_requirementIndices`: the running offsets lead from a place
    back to the entry that declared it.
  * `mem_conflictEntryIndices`: the entries flagged are those that write a ref some second
    write requirement names too, of the same entry or of another.
-/
import MutsukiRuntime.Core.Runtime.Batch
import MutsukiRuntime.Lib.Offsets

namespace MutsukiRuntime

open Std Buckets Offsets List Option

/-! ## Views and locks -/

/-- The requirements of a batch, one task after the other. -/
def requirementsOf (tasks : List Task) : List ResourceRequirement :=
  tasks.flatMap (·.resourceRequirements)

/-- The places of the requirements of one ref that satisfy `select`. -/
def placesOf (requirements : List ResourceRequirement) (select : ResourceRequirement → Bool)
    (refId : RefId) : List Nat :=
  (List.range requirements.length).filter fun k =>
    requirements[k]?.any fun r => select r && r.refId == refId

section Views

variable {requirements : List ResourceRequirement} {select : ResourceRequirement → Bool}

variable {refId : RefId}

theorem mem_placesOf {k : Nat} : k ∈ placesOf requirements select refId ↔
      ∃ r, requirements[k]? = some r ∧ select r = true ∧ r.refId = refId := by
  rw [placesOf, mem_filter, mem_range]
  cases hk : requirements[k]? with
  | none =>
    have hpast := List.getElem?_eq_none_iff.1 hk
    simp
  | some r =>
    have hlt := (List.getElem?_eq_some_iff.1 hk).1
    simp [hlt]

theorem nodup_placesOf (refId : RefId) : (placesOf requirements select refId).Nodup :=
  nodup_range.filter _

theorem placesOf_concat (r : ResourceRequirement) (refId : RefId) :
    placesOf (requirements ++ [r]) select refId = placesOf requirements select refId ++
      if select r && r.refId == refId then [requirements.length] else [] := by
  have hbefore : ∀ k ∈ List.range requirements.length,
      ((requirements ++ [r])[k]?.any fun r => select r && r.refId == refId) =
        requirements[k]?.any fun r => select r && r.refId == refId := by
    intro k hk
    rw [getElem?_append_left (mem_range.1 hk)]
  rw [placesOf, length_append, length_singleton, range_succ, filter_append,
    filter_congr hbefore, placesOf]
  congr 1
  simp only [filter_cons, getElem?_concat_length, any_some, filter_nil]

theorem requirementsByRef_concat (r : ResourceRequirement) :
    requirementsByRef (requirements ++ [r]) select =
      if select r then upsert (requirementsByRef requirements select) r.refId
        (· ++ [requirements.length]) else requirementsByRef requirements select := by
  simp only [requirementsByRef, mapIdx_concat, foldl_append, foldl_cons, foldl_nil]

theorem bucket_requirementsByRef (refId : RefId) :
    bucket (requirementsByRef requirements select) refId = placesOf requirements select refId := by
  induction requirements using List.reverseRecOn with
  | nil => rfl
  | append_singleton requirements r ih =>
    rw [requirementsByRef_concat, placesOf_concat]
    by_cases hselect : select r = true
    · rw [if_pos hselect, bucket_upsert]
      by_cases href : r.refId = refId
      · subst href
        simp [hselect, ih]
      · simp [href, ih]
    · simp [hselect, ih]

theorem pruned_requirementsByRef :
    Pruned (fun _ => True) (requirementsByRef requirements select) := by
  induction requirements using List.reverseRecOn with
  | nil => exact Pruned.empty
  | append_singleton requirements r ih =>
    rw [requirementsByRef_concat]
    split
    · exact ih.upsert _ _ (by simp [Bucket.empty]) trivial
    · exact ih

/-- A view or lock lists the places of its ref, and there is none without places. -/
theorem requirementsByRef_eq_some {indices : List Nat} :
    (requirementsByRef requirements select)[refId]? = some indices ↔
      indices ≠ [] ∧ indices = placesOf requirements select refId := by
  constructor
  · intro h
    rw [← bucket_requirementsByRef, bucket_of_some _ _ _ h]
    exact ⟨(pruned_requirementsByRef refId indices h).1, rfl⟩
  · rintro ⟨hne, rfl⟩
    cases hget : (requirementsByRef requirements select)[refId]? with
    | none =>
      rw [← bucket_requirementsByRef, bucket_of_none _ _ hget] at hne
      exact absurd rfl hne
    | some indices =>
      rw [← bucket_requirementsByRef, bucket_of_some _ _ _ hget]

theorem mem_requirementsByRef {e : RefId × List Nat}
    (he : e ∈ (requirementsByRef requirements select).toList) :
    e.2 = placesOf requirements select e.1 := by
  have hget := ExtTreeMap.mem_toList_iff_getElem?_eq_some.1 he
  exact (requirementsByRef_eq_some.1 hget).2

/-- The places of a group are of its ref. -/
theorem refId_of_mem {e : RefId × List Nat} {k : Nat}
    (he : e ∈ (requirementsByRef requirements select).toList) (hk : k ∈ e.2) :
    ∃ r, requirements[k]? = some r ∧ r.refId = e.1 := by
  rw [mem_requirementsByRef he] at hk
  obtain ⟨r, hr, -, href⟩ := mem_placesOf.1 hk
  exact ⟨r, hr, href⟩

theorem requirementsByRef_perm : ((requirementsByRef requirements select).toList.flatMap (·.2)).Perm
      ((List.range requirements.length).filter fun k => requirements[k]?.any select) := by
  refine (perm_ext_iff_of_nodup ?_ (nodup_range.filter _)).2 ?_
  · rw [nodup_flatMap]
    refine ⟨fun e he => mem_requirementsByRef he ▸ nodup_placesOf e.1, ?_⟩
    have hkeys := (requirementsByRef requirements select).distinct_keys_toList
    refine (List.Pairwise.and_mem.1 hkeys).imp ?_
    rintro e e' ⟨he, he', hne⟩ k hk hk'
    -- a place has one ref only
    obtain ⟨r, hr, href⟩ := refId_of_mem he hk
    obtain ⟨r', hr', href'⟩ := refId_of_mem he' hk'
    rw [hr, some.injEq] at hr'
    subst hr'
    exact hne (by rw [← href, ← href']; exact ReflCmp.compare_self)
  · intro k
    rw [mem_flatMap, mem_filter, mem_range]
    constructor
    · rintro ⟨e, he, hk⟩
      rw [mem_requirementsByRef he] at hk
      obtain ⟨r, hr, hselect, -⟩ := mem_placesOf.1 hk
      exact ⟨(List.getElem?_eq_some_iff.1 hr).1, by simp [hr, hselect]⟩
    · rintro ⟨hlt, hany⟩
      have hr : requirements[k]? = some requirements[k] := getElem?_eq_getElem hlt
      rw [hr, any_some] at hany
      have hmem : k ∈ placesOf requirements select requirements[k].refId :=
        mem_placesOf.2 ⟨_, hr, hany, rfl⟩
      refine ⟨(requirements[k].refId, _), ExtTreeMap.mem_toList_iff_getElem?_eq_some.2
        (requirementsByRef_eq_some.2 ⟨ne_nil_of_mem hmem, rfl⟩), hmem⟩

end Views

/-! ## Entries -/

/-- The number of places of a task. -/
abbrev requirementCount (task : Task) : Nat := task.resourceRequirements.length

/-- The entry of one task. -/
def batchEntry (payloadIndex resourceStart : Nat) (task : Task) : BatchEntry where
  entryId := task.taskId
  taskId := task.taskId
  traceId := task.traceId
  parentId := none
  payloadIndex
  resourceRequirementIndices := List.range' resourceStart (requirementCount task)
  cancelIndex := some payloadIndex
  deadlineTick := none
  priority := task.priority
  lane := task.dispatchLane
  ordering := task.ordering

theorem getElem?_batchEntries (payloadIndex resourceStart : Nat) (tasks : List Task) (j : Nat) :
    (batchEntries payloadIndex resourceStart tasks)[j]? = tasks[j]?.map
      (batchEntry (payloadIndex + j) (resourceStart + offset requirementCount tasks j)) := by
  induction tasks generalizing payloadIndex resourceStart j with
  | nil => rfl
  | cons task tasks ih =>
    cases j with
    | zero => rfl
    | succ j =>
      have hindex : payloadIndex + 1 + j = payloadIndex + (j + 1) := by omega
      rw [batchEntries, getElem?_cons_succ, getElem?_cons_succ, ih, hindex,
        offset_cons_succ, Nat.add_assoc]

theorem length_requirementsOf (tasks : List Task) :
    (requirementsOf tasks).length = (tasks.map requirementCount).sum := by
  rw [requirementsOf, length_flatMap]

theorem getElem?_requirementEntryIndices (tasks : List Task) (k j : Nat) :
    (requirementEntryIndices tasks)[k]? = some j ↔ ∃ i, At requirementCount tasks k j i :=
  getElem?_owners tasks k j

variable {tasks : List Task} {j : Nat} {entry : BatchEntry}

variable {i k : Nat}

/-- The entry in place `j` lists the places of block `j`. -/
theorem getElem?_requirementIndices (hentry : (batchEntries 0 0 tasks)[j]? = some entry) :
    entry.resourceRequirementIndices[i]? = some k ↔ At requirementCount tasks k j i := by
  rw [getElem?_batchEntries, map_eq_some_iff] at hentry
  obtain ⟨task, htask, rfl⟩ := hentry
  have hread : (batchEntry (0 + j) (0 + offset requirementCount tasks j)
      task).resourceRequirementIndices[i]? = some k ↔
        i < requirementCount task ∧ k = offset requirementCount tasks j + i := by
    rw [batchEntry, List.getElem?_eq_some_iff]
    simp only [length_range', getElem_range', exists_prop]
    omega
  rw [hread]
  constructor
  · rintro ⟨hi, hk⟩
    exact ⟨task, htask, hi, hk⟩
  · rintro ⟨task', htask', hi, hk⟩
    rw [htask, some.injEq] at htask'
    subst htask'
    exact ⟨hi, hk⟩

theorem mem_requirementIndices (tasks : List Task) (k j : Nat) :
    (requirementEntryIndices tasks)[k]? = some j ↔ ∃ entry,
      (batchEntries 0 0 tasks)[j]? = some entry ∧ k ∈ entry.resourceRequirementIndices := by
  rw [getElem?_requirementEntryIndices]
  constructor
  · rintro ⟨i, hat⟩
    obtain ⟨task, htask, -⟩ := id hat
    have hentry := getElem?_batchEntries 0 0 tasks j
    rw [htask, map_some] at hentry
    exact ⟨_, hentry, mem_of_getElem? ((getElem?_requirementIndices hentry).2 hat)⟩
  · rintro ⟨entry, hentry, hk⟩
    obtain ⟨i, hi⟩ := mem_iff_getElem?.1 hk
    exact ⟨i, (getElem?_requirementIndices hentry).1 hi⟩

/-! ## The partition -/

/-- The three sets of a plan. -/
inductive Placement
  | conflict
  | serial
  | parallel
  deriving DecidableEq

/-- The ids of the entries with a given placement. -/
def placedEntries (entries : List BatchEntry) (place : Nat → Placement) (placement : Placement) :
    List EntryId :=
  ((entries.mapIdx fun index entry => (index, entry)).filter fun e =>
    decide (place e.1 = placement)).map (·.2.entryId)

/-- The plan of a batch sorts its entries and the places of its requirements. -/
structure PlanPartition (batch : WorkBatch) : Prop where
  /-- One placement of the entries gives all three sets. -/
  sorted : ∃ place : Nat → Placement,
    batch.resourcePlan.conflictEntries = placedEntries batch.entries place .conflict ∧
    batch.resourcePlan.serialGroups =
      (placedEntries batch.entries place .serial).map (fun entryId => [entryId]) ∧
    batch.resourcePlan.parallelGroups =
      (if (placedEntries batch.entries place .parallel).isEmpty then []
        else [placedEntries batch.entries place .parallel])
  /-- Every place of a read is in one view, once, and in no other place of any view. -/
  views : (batch.resourcePlan.readViews.flatMap (·.requirementIndices)).Perm
    ((List.range (requirementsOf batch.payload).length).filter fun k =>
      (requirementsOf batch.payload)[k]?.any fun r => r.mode == .read)
  locks : (batch.resourcePlan.writeLocks.flatMap (·.requirementIndices)).Perm
    ((List.range (requirementsOf batch.payload).length).filter fun k =>
      (requirementsOf batch.payload)[k]?.any fun r => r.mode != .read)
  view_ref : ∀ view ∈ batch.resourcePlan.readViews, ∀ k ∈ view.requirementIndices,
    ∃ r, (requirementsOf batch.payload)[k]? = some r ∧ r.refId = view.refId
  lock_ref : ∀ lock ∈ batch.resourcePlan.writeLocks, ∀ k ∈ lock.requirementIndices,
    ∃ r, (requirementsOf batch.payload)[k]? = some r ∧ r.refId = lock.refId
  /-- Every place has an owner, the one entry that lists it. -/
  owned : ∀ k < (requirementsOf batch.payload).length,
    ∃ j, (requirementEntryIndices batch.payload)[k]? = some j
  owner : ∀ k j, (requirementEntryIndices batch.payload)[k]? = some j ↔
    ∃ entry : BatchEntry,
      batch.entries[j]? = some entry ∧ k ∈ entry.resourceRequirementIndices
  /-- The `i`-th place of an entry holds the `i`-th requirement of its task. -/
  declared : ∀ (j i k : Nat) (entry : BatchEntry), batch.entries[j]? = some entry →
    entry.resourceRequirementIndices[i]? = some k → ∃ task r,
      batch.payload[j]? = some task ∧ entry.payloadIndex = j ∧ entry.taskId = task.taskId ∧
      task.resourceRequirements[i]? = some r ∧ (requirementsOf batch.payload)[k]? = some r

theorem isWriteAccess_eq (r : ResourceRequirement) : isWriteAccess r = (r.mode != .read) := by
  rcases r with ⟨refId, mode, expectedVersion⟩
  cases mode <;> rfl

variable {entries : List BatchEntry}

theorem mem_indexed {e : Nat × BatchEntry}
    (h : e ∈ entries.mapIdx fun index entry => (index, entry)) : entries[e.1]? = some e.2 := by
  obtain ⟨index, hlt, rfl⟩ := mem_mapIdx.1 h
  exact getElem?_eq_getElem hlt

/-- Where the plan puts an entry. -/
def placeOf (entries : List BatchEntry) (conflicting : List Nat) (index : Nat) : Placement :=
  if conflicting.contains index then .conflict
  else if entries[index]?.any fun entry => entry.ordering == .none then .parallel
  else .serial

theorem placeOf_eq_conflict {conflicting : List Nat} :
    placeOf entries conflicting j = .conflict ↔ conflicting.contains j := by
  unfold placeOf
  split
  · simp_all
  · split <;> simp_all

/-- The entries that are not flagged, cut by a test of their own. -/
theorem placedEntries_free {conflicting : List Nat} {placement : Placement}
    {test : BatchEntry → Bool}
    (hplace : ∀ e : Nat × BatchEntry, entries[e.1]? = some e.2 →
      (placeOf entries conflicting e.1 = placement ↔
        conflicting.contains e.1 = false ∧ test e.2 = true)) :
    ((((entries.mapIdx fun index entry => (index, entry)).filter fun e =>
      !conflicting.contains e.1).map (·.2)).filter test).map (·.entryId) =
        placedEntries entries (placeOf entries conflicting) placement := by
  rw [List.filter_map, List.filter_filter, List.map_map, placedEntries]
  congr 1
  refine filter_congr fun e he => ?_
  rw [Bool.eq_iff_iff, decide_eq_true_iff, hplace e (mem_indexed he)]
  simp only [Bool.and_eq_true, Bool.not_eq_true', Function.comp_apply]
  exact And.comm

theorem buildWorkResourcePlan_sorted (entries : List BatchEntry)
    (requirements : List ResourceRequirement) (entryIndices : List Nat) :
    let conflicting := conflictEntryIndices
      (requirementsByRef requirements isWriteAccess).toList entryIndices
    let placed := placedEntries entries (placeOf entries conflicting)
    let plan := buildWorkResourcePlan entries requirements entryIndices
    plan.conflictEntries = placed .conflict ∧
    plan.serialGroups = (placed .serial).map (fun entryId => [entryId]) ∧
    plan.parallelGroups = (if (placed .parallel).isEmpty then [] else [placed .parallel]) := by
  intro conflicting placed plan
  have hparallel := @placedEntries_free entries conflicting .parallel
    (fun entry => entry.ordering == .none) (by
      rintro ⟨index, entry⟩ hget
      dsimp only at hget
      unfold placeOf
      split <;> simp_all)
  have hserial := @placedEntries_free entries conflicting .serial
    (fun entry => entry.ordering != .none) (by
      rintro ⟨index, entry⟩ hget
      dsimp only at hget
      unfold placeOf
      split <;> simp_all)
  refine ⟨?_, ?_, ?_⟩
  · change ((entries.mapIdx fun index entry => (index, entry)).filter fun e =>
      conflicting.contains e.1).map (·.2.entryId) = _
    congr 1
    refine filter_congr fun e he => ?_
    rw [Bool.eq_iff_iff, decide_eq_true_iff, placeOf_eq_conflict]
  · change _ = (placedEntries _ _ _).map _
    rw [← hserial, List.map_map]
    rfl
  · change _ = if (placedEntries _ _ _).isEmpty then [] else [placedEntries _ _ _]
    rw [← hparallel]
    rfl

theorem owned_of_lt (hk : k < (requirementsOf tasks).length) :
    ∃ j i, At requirementCount tasks k j i :=
  exists_at (length_requirementsOf tasks ▸ hk)

variable {task : Task}

/-- What stands at a place is what the owner's task declares there. -/
theorem getElem?_requirementsOf (hat : At requirementCount tasks k j i)
    (htask : tasks[j]? = some task) :
    (requirementsOf tasks)[k]? = task.resourceRequirements[i]? :=
  getElem?_flatMap_of_at hat htask

theorem readViews_perm (entries : List BatchEntry) (requirements : List ResourceRequirement)
    (entryIndices : List Nat) :
    ((buildWorkResourcePlan entries requirements entryIndices).readViews.flatMap
      (·.requirementIndices)).Perm ((List.range requirements.length).filter fun k =>
          requirements[k]?.any fun r => r.mode == .read) := by
  have hread : (fun r => !isWriteAccess r) = fun r => r.mode == .read := by
    funext r
    rw [isWriteAccess_eq, bne, Bool.not_not]
  simp only [buildWorkResourcePlan, flatMap_map, hread]
  exact requirementsByRef_perm

theorem writeLocks_perm (entries : List BatchEntry) (requirements : List ResourceRequirement)
    (entryIndices : List Nat) :
    ((buildWorkResourcePlan entries requirements entryIndices).writeLocks.flatMap
      (·.requirementIndices)).Perm ((List.range requirements.length).filter fun k =>
          requirements[k]?.any fun r => r.mode != .read) := by
  have hwrite : isWriteAccess = fun r => r.mode != .read := funext isWriteAccess_eq
  simp only [buildWorkResourcePlan, flatMap_map, hwrite]
  exact requirementsByRef_perm

/-- The plan of every batch sorts its entries into the three sets and the places of its requirements
    into views and locks, and leads from each place back to the task that declared it. -/
theorem plan_partition (currentStep : Nat) (batchId : BatchId) (descriptor : RunnerDescriptor)
    (leasedTasks : List (TaskLease × Task)) :
    PlanPartition (buildWorkBatch currentStep batchId descriptor leasedTasks) where
  sorted := ⟨_, buildWorkResourcePlan_sorted _ _ _⟩
  views := readViews_perm _ _ _
  locks := writeLocks_perm _ _ _
  view_ref := by
    intro view hview k hk
    obtain ⟨e, he, rfl⟩ := List.mem_map.1 hview
    exact refId_of_mem he hk
  lock_ref := by
    intro lock hlock k hk
    obtain ⟨e, he, rfl⟩ := List.mem_map.1 hlock
    exact refId_of_mem he hk
  owned := by
    intro k hk
    obtain ⟨j, hat⟩ := owned_of_lt hk
    exact ⟨j, (getElem?_requirementEntryIndices _ k j).2 hat⟩
  owner := mem_requirementIndices _
  declared := by
    intro j i k entry hentry hk
    have hat := (getElem?_requirementIndices hentry).1 hk
    obtain ⟨task, htask, hi, -⟩ := id hat
    have hplace := getElem?_batchEntries 0 0 (leasedTasks.map (·.2)) j
    rw [htask, map_some] at hplace
    obtain rfl := some.inj (hentry.symm.trans hplace)
    have hget := getElem?_eq_getElem hi
    exact ⟨task, _, htask, Nat.zero_add j, rfl, hget,
      (getElem?_requirementsOf hat htask).trans hget⟩

/-! ## Conflicts -/

theorem writeRequirementRefs_eq (task : Task) : writeRequirementRefs task =
    (task.resourceRequirements.filter isWriteAccess).map (·.refId) := by
  rw [writeRequirementRefs]
  congr 2
  funext r
  rcases r with ⟨refId, mode, expectedVersion⟩
  cases mode <;> rfl

theorem mem_writeRequirementRefs {refId : RefId} :
    refId ∈ writeRequirementRefs task ↔ ∃ (i : Nat) (r : ResourceRequirement),
      task.resourceRequirements[i]? = some r ∧ isWriteAccess r = true ∧ r.refId = refId := by
  rw [writeRequirementRefs_eq, List.mem_map]
  constructor
  · rintro ⟨r, hr, rfl⟩
    obtain ⟨hmem, hw⟩ := mem_filter.1 hr
    obtain ⟨i, hi⟩ := mem_iff_getElem?.1 hmem
    exact ⟨i, r, hi, hw, rfl⟩
  · rintro ⟨i, r, hi, hw, rfl⟩
    exact ⟨r, mem_filter.2 ⟨mem_of_getElem? hi, hw⟩, rfl⟩

theorem not_nodup_writeRequirementRefs :
    ¬ (writeRequirementRefs task).Nodup ↔ ∃ (i i' : Nat) (r r' : ResourceRequirement), i ≠ i' ∧
      task.resourceRequirements[i]? = some r ∧ isWriteAccess r = true ∧
      task.resourceRequirements[i']? = some r' ∧ isWriteAccess r' = true ∧
      r.refId = r'.refId := by
  rw [writeRequirementRefs_eq, List.Nodup, pairwise_map, pairwise_filter, pairwise_iff_getElem]
  push Not
  constructor
  · rintro ⟨i, i', hi, hi', hlt, hw, hw', href⟩
    exact ⟨i, i', _, _, hlt.ne, getElem?_eq_getElem hi, hw, getElem?_eq_getElem hi', hw', href⟩
  · rintro ⟨i, i', r, r', hne, hr, hw, hr', hw', href⟩
    obtain ⟨hi, rfl⟩ := List.getElem?_eq_some_iff.1 hr
    obtain ⟨hi', rfl⟩ := List.getElem?_eq_some_iff.1 hr'
    rcases Nat.lt_or_gt_of_ne hne with hlt | hlt
    · exact ⟨i, i', hi, hi', hlt, hw, hw', href⟩
    · exact ⟨i', i, hi', hi, hlt, hw', hw, href.symm⟩

/-- The task of entry `j` writes a ref that the task of another entry writes. -/
def SharesWrite (tasks : List Task) (j : Nat) : Prop :=
  ∃ i task other, i ≠ j ∧ tasks[j]? = some task ∧ tasks[i]? = some other ∧
    ∃ refId ∈ writeRequirementRefs task, refId ∈ writeRequirementRefs other

/-- Two tasks use a ref that one of them writes. -/
def Clash (task other : Task) : Prop :=
  (∃ refId ∈ writeRequirementRefs task, refId ∈ other.resourceRequirements.map (·.refId)) ∨
  (∃ refId ∈ writeRequirementRefs other, refId ∈ task.resourceRequirements.map (·.refId))

instance (task other : Task) : Decidable (Clash task other) :=
  inferInstanceAs (Decidable (_ ∨ _))

/-- The task of entry `j` clashes with the task of another entry. -/
def Clashes (tasks : List Task) (j : Nat) : Prop :=
  ∃ i task other, i ≠ j ∧ tasks[j]? = some task ∧ tasks[i]? = some other ∧ Clash task other

/-- Two places of writes to one ref, the first of entry `j`. -/
def WritesTwice (tasks : List Task) (j : Nat) : Prop :=
  ∃ (k k' : Nat) (r r' : ResourceRequirement),
    k ≠ k' ∧ (requirementEntryIndices tasks)[k]? = some j ∧
    (requirementsOf tasks)[k]? = some r ∧ isWriteAccess r = true ∧
    (requirementsOf tasks)[k']? = some r' ∧ isWriteAccess r' = true ∧ r.refId = r'.refId

theorem one_lt_length_iff {l : List Nat} (hl : l.Nodup) (hk : k ∈ l) :
    1 < l.length ↔ ∃ k' ∈ l, k ≠ k' := by
  have hlength := (perm_cons_erase hk).length_eq
  rw [hlength, length_cons, Nat.lt_add_left_iff_pos, length_pos_iff_exists_mem]
  simp only [hl.mem_erase_iff, ne_comm, and_comm]

theorem mem_conflictEntryIndices (tasks : List Task) (j : Nat) :
    j ∈ conflictEntryIndices (requirementsByRef (requirementsOf tasks) isWriteAccess).toList
      (requirementEntryIndices tasks) ↔ WritesTwice tasks j := by
  simp only [conflictEntryIndices, mem_flatMap, mem_filter, decide_eq_true_iff, mem_filterMap]
  constructor
  · rintro ⟨⟨refId, indices⟩, ⟨hlock, hlen⟩, k, hk, howner⟩
    obtain rfl : indices = placesOf _ _ refId := mem_requirementsByRef hlock
    obtain ⟨r, hr, hw, href⟩ := mem_placesOf.1 hk
    -- a lock with two places has one besides `k`
    obtain ⟨k', hk', hne⟩ := (one_lt_length_iff (nodup_placesOf refId) hk).1 hlen
    obtain ⟨r', hr', hw', href'⟩ := mem_placesOf.1 hk'
    exact ⟨k, k', r, r', hne, howner, hr, hw, hr', hw', href.trans href'.symm⟩
  · rintro ⟨k, k', r, r', hne, howner, hr, hw, hr', hw', href⟩
    have hk : k ∈ placesOf (requirementsOf tasks) isWriteAccess r.refId :=
      mem_placesOf.2 ⟨r, hr, hw, rfl⟩
    have hk' : k' ∈ placesOf (requirementsOf tasks) isWriteAccess r.refId :=
      mem_placesOf.2 ⟨r', hr', hw', href.symm⟩
    refine ⟨(r.refId, _), ⟨ExtTreeMap.mem_toList_iff_getElem?_eq_some.2
      (requirementsByRef_eq_some.2 ⟨ne_nil_of_mem hk, rfl⟩), ?_⟩, k, hk, howner⟩
    exact (one_lt_length_iff (nodup_placesOf _) hk).2 ⟨k', hk', hne⟩

/-- An entry is flagged if it shares a written ref with another entry, or writes a ref twice
    itself. -/
theorem writesTwice_iff (tasks : List Task) (j : Nat) : WritesTwice tasks j ↔ SharesWrite tasks j ∨
      ∃ task, tasks[j]? = some task ∧ ¬ (writeRequirementRefs task).Nodup := by
  constructor
  · rintro ⟨k, k', r, r', hne, howner, hr, hw, hr', hw', href⟩
    obtain ⟨i, hat⟩ := (getElem?_requirementEntryIndices tasks k j).1 howner
    obtain ⟨j', i', hat'⟩ := owned_of_lt (List.getElem?_eq_some_iff.1 hr').1
    obtain ⟨task, htask, -, hk⟩ := id hat
    obtain ⟨other, hother, -, hk'⟩ := id hat'
    rw [getElem?_requirementsOf hat htask] at hr
    rw [getElem?_requirementsOf hat' hother] at hr'
    by_cases hj : j' = j
    · subst hj
      obtain rfl := some.inj (hother.symm.trans htask)
      exact .inr ⟨other, hother, not_nodup_writeRequirementRefs.2
        ⟨i, i', r, r', by omega, hr, hw, hr', hw', href⟩⟩
    · exact .inl ⟨j', task, other, hj, htask, hother, r.refId,
        mem_writeRequirementRefs.2 ⟨i, r, hr, hw, rfl⟩,
        mem_writeRequirementRefs.2 ⟨i', r', hr', hw', href.symm⟩⟩
  · -- a requirement of a task stands at a place of its entry
    have hplace : ∀ {j i : Nat} {task : Task} {r : ResourceRequirement}, tasks[j]? = some task →
        task.resourceRequirements[i]? = some r →
          At requirementCount tasks (offset requirementCount tasks j + i) j i ∧
          (requirementsOf tasks)[offset requirementCount tasks j + i]? = some r := by
      intro j i task r htask hr
      have hat : At requirementCount tasks (offset requirementCount tasks j + i) j i :=
        ⟨task, htask, (List.getElem?_eq_some_iff.1 hr).1, rfl⟩
      exact ⟨hat, (getElem?_requirementsOf hat htask).trans hr⟩
    rintro (⟨j', task, other, hj, htask, hother, refId, hmem, hmem'⟩ | ⟨task, htask, htwice⟩)
    · obtain ⟨i, r, hr, hw, rfl⟩ := mem_writeRequirementRefs.1 hmem
      obtain ⟨i', r', hr', hw', href⟩ := mem_writeRequirementRefs.1 hmem'
      obtain ⟨hat, hget⟩ := hplace htask hr
      obtain ⟨hat', hget'⟩ := hplace hother hr'
      refine ⟨_, _, r, r', ?_, (getElem?_requirementEntryIndices tasks _ j).2 ⟨i, hat⟩, hget,
        hw, hget', hw', href.symm⟩
      intro he
      exact hj ((he ▸ hat).unique hat').1.symm
    · obtain ⟨i, i', r, r', hne, hr, hw, hr', hw', href⟩ := not_nodup_writeRequirementRefs.1 htwice
      obtain ⟨hat, hget⟩ := hplace htask hr
      obtain ⟨hat', hget'⟩ := hplace htask hr'
      exact ⟨_, _, r, r', by omega, (getElem?_requirementEntryIndices tasks _ j).2 ⟨i, hat⟩,
        hget, hw, hget', hw', href⟩

theorem SharesWrite.clashes (h : SharesWrite tasks j) : Clashes tasks j := by
  obtain ⟨i, task, other, hi, htask, hother, refId, hmem, hmem'⟩ := h
  obtain ⟨place, r, hr, -, href⟩ := mem_writeRequirementRefs.1 hmem'
  exact ⟨i, task, other, hi, htask, hother,
    .inl ⟨refId, hmem, List.mem_map.2 ⟨r, mem_of_getElem? hr, href⟩⟩⟩

theorem mem_placedEntries {place : Nat → Placement} {placement : Placement}
    (hids : (entries.map (·.entryId)).Nodup) (hentry : entries[j]? = some entry) :
    entry.entryId ∈ placedEntries entries place placement ↔ place j = placement := by
  rw [placedEntries, List.mem_map]
  constructor
  · rintro ⟨⟨j', entry'⟩, he, hid⟩
    obtain ⟨hmem, hplace⟩ := mem_filter.1 he
    have hentry' := mem_indexed hmem
    have hlt : j' < (entries.map (·.entryId)).length := by
      simpa using (List.getElem?_eq_some_iff.1 hentry').1
    have hsame : j' = j := by
      refine (getElem?_inj hlt hids).1 ?_
      rw [getElem?_map, getElem?_map, hentry, hentry', map_some, map_some, hid]
    exact hsame ▸ of_decide_eq_true hplace
  · intro hplace
    obtain ⟨hj, rfl⟩ := List.getElem?_eq_some_iff.1 hentry
    exact ⟨(j, entries[j]), mem_filter.2 ⟨mem_mapIdx.2 ⟨j, hj, rfl⟩, decide_eq_true hplace⟩, rfl⟩

theorem map_entryId_batchEntries (payloadIndex resourceStart : Nat) (tasks : List Task) :
    (batchEntries payloadIndex resourceStart tasks).map (·.entryId) = tasks.map (·.taskId) := by
  induction tasks generalizing payloadIndex resourceStart with
  | nil => rfl
  | cons task tasks ih => rw [batchEntries, map_cons, ih, map_cons]

/-- The entries flagged are those that clash with another entry, and no parallel group has two
    entries that clash. -/
structure ExactConflicts (batch : WorkBatch) : Prop where
  flagged : ∀ (j : Nat) (entry : BatchEntry), batch.entries[j]? = some entry →
    (entry.entryId ∈ batch.resourcePlan.conflictEntries ↔ Clashes batch.payload j)
  parallel : ∀ group ∈ batch.resourcePlan.parallelGroups, ∀ (i j : Nat) (task other : Task),
    i ≠ j → batch.payload[i]? = some task → batch.payload[j]? = some other →
    task.taskId ∈ group → other.taskId ∈ group → ¬ Clash task other

theorem getElem?_entry (htask : tasks[j]? = some task) :
    ∃ entry, (batchEntries 0 0 tasks)[j]? = some entry ∧ entry.entryId = task.taskId := by
  have hentry := getElem?_batchEntries 0 0 tasks j
  rw [htask, map_some] at hentry
  exact ⟨_, hentry, rfl⟩

section Flagged

variable {currentStep : Nat} {batchId : BatchId} {descriptor : RunnerDescriptor}
  {leasedTasks : List (TaskLease × Task)} (hids : (leasedTasks.map (·.2.taskId)).Nodup)

include hids

theorem nodup_entryIds :
    ((batchEntries 0 0 (leasedTasks.map (·.2))).map (·.entryId)).Nodup := by
  rw [map_entryId_batchEntries, List.map_map]
  exact hids

theorem mem_conflictEntries
    (hentry : (batchEntries 0 0 (leasedTasks.map (·.2)))[j]? = some entry) :
    entry.entryId ∈ (buildWorkBatch currentStep batchId descriptor
      leasedTasks).resourcePlan.conflictEntries ↔ WritesTwice (leasedTasks.map (·.2)) j := by
  have hplan := (buildWorkResourcePlan_sorted (batchEntries 0 0 (leasedTasks.map (·.2)))
    (requirementsOf (leasedTasks.map (·.2))) (requirementEntryIndices (leasedTasks.map (·.2)))).1
  change entry.entryId ∈ (buildWorkResourcePlan _ (requirementsOf _) _).conflictEntries ↔ _
  rw [hplan, mem_placedEntries (nodup_entryIds hids) hentry, placeOf_eq_conflict,
    ← mem_conflictEntryIndices, contains_iff_mem]

theorem not_writesTwice_of_mem_parallel {group : List EntryId}
    (hgroup : group ∈ (buildWorkBatch currentStep batchId descriptor
      leasedTasks).resourcePlan.parallelGroups) (htask : (leasedTasks.map (·.2))[j]? = some task)
    (hmem : task.taskId ∈ group) :
    ¬ WritesTwice (leasedTasks.map (·.2)) j := by
  obtain ⟨entry, hentry, hid⟩ := getElem?_entry htask
  have hplan := (buildWorkResourcePlan_sorted (batchEntries 0 0 (leasedTasks.map (·.2)))
    (requirementsOf (leasedTasks.map (·.2)))
    (requirementEntryIndices (leasedTasks.map (·.2)))).2.2
  change group ∈ (buildWorkResourcePlan _ (requirementsOf _) _).parallelGroups at hgroup
  rw [hplan] at hgroup
  split at hgroup
  · exact absurd hgroup not_mem_nil
  · rw [mem_singleton.1 hgroup, ← hid, mem_placedEntries (nodup_entryIds hids) hentry] at hmem
    rw [← mem_conflictEntryIndices, ← contains_iff_mem, ← placeOf_eq_conflict, hmem]
    nofun

theorem exactConflicts_iff_flagged :
    ExactConflicts (buildWorkBatch currentStep batchId descriptor leasedTasks) ↔
      ∀ (j : Nat) (task : Task), (leasedTasks.map (·.2))[j]? = some task →
        (WritesTwice (leasedTasks.map (·.2)) j ↔ Clashes (leasedTasks.map (·.2)) j) := by
  constructor
  · intro h j task htask
    obtain ⟨entry, hentry, -⟩ := getElem?_entry htask
    exact (mem_conflictEntries hids hentry).symm.trans (h.flagged j entry hentry)
  · intro h
    refine ⟨?_, ?_⟩
    · intro j entry hentry
      have hget := hentry
      change (batchEntries 0 0 (leasedTasks.map (·.2)))[j]? = some entry at hget
      rw [getElem?_batchEntries, map_eq_some_iff] at hget
      obtain ⟨task, htask, -⟩ := hget
      exact (mem_conflictEntries hids hentry).trans (h j task htask)
    · intro group hgroup i j task other hne htask hother hmem _ hclash
      have hfree := not_writesTwice_of_mem_parallel hids hgroup htask hmem
      exact hfree ((h i task htask).2 ⟨j, task, other, hne.symm, htask, hother, hclash⟩)

end Flagged

theorem writesTwice_iff_clashes (htask : tasks[j]? = some task) :
    (WritesTwice tasks j ↔ Clashes tasks j) ↔ SharesWrite tasks j ∨
      ((writeRequirementRefs task).Nodup ↔ ¬ Clashes tasks j) := by
  have hown : (∃ task, tasks[j]? = some task ∧ ¬ (writeRequirementRefs task).Nodup) ↔
      ¬ (writeRequirementRefs task).Nodup := by
    simp [htask]
  have hshares : SharesWrite tasks j → Clashes tasks j := SharesWrite.clashes
  rw [writesTwice_iff, hown]
  tauto

/-- A plan flags exactly the entries that clash with another one if and only if every entry that
    writes no ref another entry writes is free of clashes just when it writes no ref twice. -/
theorem conflicts_exact_iff (currentStep : Nat) (batchId : BatchId)
    (descriptor : RunnerDescriptor) (leasedTasks : List (TaskLease × Task))
    (hids : (leasedTasks.map (·.2.taskId)).Nodup) :
    ExactConflicts (buildWorkBatch currentStep batchId descriptor leasedTasks) ↔
      ∀ (j : Nat) (task : Task), (leasedTasks.map (·.2))[j]? = some task →
        SharesWrite (leasedTasks.map (·.2)) j ∨
          ((writeRequirementRefs task).Nodup ↔ ¬ Clashes (leasedTasks.map (·.2)) j) := by
  rw [exactConflicts_iff_flagged hids]
  refine forall_congr' fun j => forall_congr' fun task => forall_congr' fun htask => ?_
  exact writesTwice_iff_clashes htask

/-- A task of the sample batches and its lease. -/
def planned (taskId : TaskId) (requirements : List (RefId × ResourceAccessMode)) :
    TaskLease × Task :=
  ({ leaseId := taskId, taskId, attemptGeneration := 1, runnerId := "work"
     executorId := "executor:work", registryGeneration := 1, acquiredAtStep := 1
     expiresAtStep := none },
   { taskId, protocolId := "p.work", payload := .null
     resourceRequirements := requirements.map fun r =>
       { refId := r.1, mode := r.2, expectedVersion := none } })

def plannedDescriptor : RunnerDescriptor where
  runnerId := "work"
  pluginId := "plugin"
  pluginGeneration := 1
  acceptedProtocolIds := ["p.work"]
  purity := .pure
  executionClass := .cpu

/-- A reader and a writer of one ref share a parallel group, and a task that names one ref twice for
    writing is flagged although it is alone. -/
theorem conflicts_missed :
    let pair := [planned "t.1" [("r", .read)], planned "t.2" [("r", .write)]]
    let single := [planned "t.1" [("r", .write), ("r", .write)]]
    (buildWorkBatch 1 "b" plannedDescriptor pair).resourcePlan.conflictEntries = [] ∧
    (buildWorkBatch 1 "b" plannedDescriptor pair).resourcePlan.parallelGroups = [["t.1", "t.2"]] ∧
    Clash (planned "t.1" [("r", .read)]).2 (planned "t.2" [("r", .write)]).2 ∧
    (buildWorkBatch 1 "b" plannedDescriptor single).resourcePlan.conflictEntries = ["t.1"] := by
  refine ⟨by decide +kernel, by decide +kernel, ?_, by decide +kernel⟩
  exact .inr ⟨"r", by decide, by decide⟩

theorem Clashes.of_pair {other : Task} (h : Clashes [task, other] j) : Clash task other := by
  obtain ⟨i, task', other', hne, htask, hother, hclash⟩ := h
  have hj : j < 2 := (List.getElem?_eq_some_iff.1 htask).1
  have hi : i < 2 := (List.getElem?_eq_some_iff.1 hother).1
  obtain ⟨rfl, rfl⟩ | ⟨rfl, rfl⟩ : i = 1 ∧ j = 0 ∨ i = 0 ∧ j = 1 := by omega
  · cases htask
    cases hother
    exact hclash
  · cases htask
    cases hother
    exact Or.symm hclash

theorem conflicts_exact_two_readers : ExactConflicts (buildWorkBatch 1 "b" plannedDescriptor
      [planned "t.1" [("r", .read), ("s", .write)], planned "t.2" [("r", .read)]]) := by
  have hfree : ¬ Clash (planned "t.1" [("r", .read), ("s", .write)]).2
      (planned "t.2" [("r", .read)]).2 := by decide
  refine (conflicts_exact_iff _ _ _ _ (by decide)).2 fun j task htask => .inr ?_
  refine iff_of_true ?_ fun hclash => hfree hclash.of_pair
  have hmem : task ∈ [_, _] := mem_of_getElem? htask
  simp only [mem_cons, not_mem_nil, or_false] at hmem
  rcases hmem with rfl | rfl
  · decide
  · decide

end MutsukiRuntime
