/-
  THE DESCRIPTORS OF A FROZEN REGISTRY: `RunnerRegistry.build` lists one descriptor per
  runner id, and each accepts a protocol at most once (`build_snapshot`); each is the
  normalized descriptor of a runner or handler that was given (`build_listed`).
-/
import MutsukiRuntime.Core.Registry
import MutsukiRuntime.Lib.Checks

namespace MutsukiRuntime

open Std List

/-- The descriptors of a frozen registry. -/
structure SnapshotOk (snapshot : List RunnerDescriptor) : Prop where
  nodup : (snapshot.map (·.runnerId)).Nodup
  accepted : ∀ descriptor ∈ snapshot, descriptor.acceptedProtocolIds.Nodup

namespace RunnerRegistry

theorem mem_dedupSorted {a : String} {l : List String} (h : a ∈ dedupSorted l) : a ∈ l := by
  induction l using dedupSorted.induct with
  | case1 | case2 => exact h
  | case3 b rest ih =>
    rw [dedupSorted, if_pos rfl] at h
    exact mem_cons_of_mem _ (ih h)
  | case4 b c rest hne ih =>
    rw [dedupSorted, if_neg hne] at h
    rcases mem_cons.1 h with rfl | h
    · simp
    · exact mem_cons_of_mem _ (ih h)

/-- On a sorted list `dedup` leaves no repetition. -/
theorem nodup_dedupSorted {l : List String} (h : l.Pairwise (· ≤ ·)) : (dedupSorted l).Nodup := by
  induction l using dedupSorted.induct with
  | case1 | case2 => simp [dedupSorted]
  | case3 b rest ih =>
    rw [dedupSorted, if_pos rfl]
    exact ih h.tail
  | case4 b c rest hne ih =>
    rw [dedupSorted, if_neg hne]
    refine nodup_cons.2 ⟨fun hmem => ?_, ih h.tail⟩
    have hle : c ≤ b := by
      rcases mem_cons.1 (mem_dedupSorted hmem) with rfl | hrest
      · exact String.le_refl _
      · exact (pairwise_cons.1 h.tail).1 b hrest
    have hge : b ≤ c := (pairwise_cons.1 h).1 c (by simp)
    exact hne (String.le_antisymm hge hle)

theorem nodup_normalized (descriptor : RunnerDescriptor) :
    (normalizedDescriptor descriptor).acceptedProtocolIds.Nodup :=
  nodup_dedupSorted (pairwise_insertionSort _ _)

/-- The table a registration keeps: descriptors under their own ids, normalized, and listed in
    the snapshot. -/
structure TableOk (reg : RunnerRegistry) : Prop where
  keyed : ∀ (runnerId : RunnerId) (descriptor : RunnerDescriptor),
    reg.descriptors[runnerId]? = some descriptor →
      descriptor.runnerId = runnerId ∧ descriptor.acceptedProtocolIds.Nodup
  listed : reg.descriptorSnapshot.Perm (reg.descriptors.toList.map (·.2))

theorem tableOk_empty : TableOk {} where
  keyed := by simp
  listed := by simp

variable {reg reg' : RunnerRegistry}

theorem TableOk.insert (h : TableOk reg) (descriptor : RunnerDescriptor)
    (hdescriptors : reg'.descriptors = reg.descriptors.insert descriptor.runnerId
      (normalizedDescriptor descriptor)) : TableOk reg'.rebuildDescriptorSnapshot where
  keyed := by
    intro runnerId d hd
    rw [show reg'.rebuildDescriptorSnapshot.descriptors = reg'.descriptors from rfl, hdescriptors,
      Buckets.getElem?_insert_ite] at hd
    split at hd
    next he =>
      cases hd
      exact ⟨he, nodup_normalized descriptor⟩
    · exact h.keyed runnerId d hd
  listed := perm_insertionSort _ _

/-- A registration enters the normalized descriptor, and lists it. -/
def Enters (descriptor : RunnerDescriptor) (reg reg' : RunnerRegistry) : Prop :=
  ∃ entered : RunnerRegistry, reg' = entered.rebuildDescriptorSnapshot ∧
    entered.descriptors =
      reg.descriptors.insert descriptor.runnerId (normalizedDescriptor descriptor)

theorem register_enters {runner : Runner} (hr : reg.register runner = .ok reg') :
    Enters runner.descriptor reg reg' := by
  unfold RunnerRegistry.register at hr
  dsimp only at hr
  split at hr
  · cases hr
  split at hr
  · cases hr
  split at hr
  · cases hr
  split at hr
  · cases hr
  · cases hr
    exact ⟨_, rfl, rfl⟩

theorem registerAsyncHandler_enters {handler : AsyncBatchHandler}
    (hr : reg.registerAsyncHandler handler = .ok reg') : Enters handler.descriptor reg reg' := by
  unfold RunnerRegistry.registerAsyncHandler at hr
  dsimp only at hr
  split at hr
  · cases hr
  split at hr
  · cases hr
  split at hr
  · cases hr
  · cases hr
    exact ⟨_, rfl, rfl⟩

/-- Every descriptor of the table is the normalized form of a given one. -/
def FromGiven (given : List RunnerDescriptor) (reg : RunnerRegistry) : Prop :=
  ∀ (runnerId : RunnerId) (descriptor : RunnerDescriptor),
    reg.descriptors[runnerId]? = some descriptor →
      ∃ source ∈ given, descriptor = normalizedDescriptor source

/-- What the registrations so far have made of the given descriptors. -/
structure Registered (given : List RunnerDescriptor) (reg : RunnerRegistry) : Prop where
  table : TableOk reg
  given : FromGiven given reg

theorem Registered.enters {given : List RunnerDescriptor} {descriptor : RunnerDescriptor}
    (h : Registered given reg) (henters : Enters descriptor reg reg') :
    Registered (given ++ [descriptor]) reg' := by
  obtain ⟨entered, rfl, hdescriptors⟩ := henters
  refine ⟨h.table.insert descriptor hdescriptors, fun runnerId d hd => ?_⟩
  rw [show entered.rebuildDescriptorSnapshot.descriptors = entered.descriptors from rfl,
    hdescriptors, Buckets.getElem?_insert_ite] at hd
  split at hd
  · cases hd
    exact ⟨descriptor, by simp, rfl⟩
  · obtain ⟨source, hsource, hnormal⟩ := h.given runnerId d hd
    exact ⟨source, by simp [hsource], hnormal⟩

theorem TableOk.snapshot (h : TableOk reg) : SnapshotOk reg.descriptorSnapshot where
  nodup := by
    have hkeys : (reg.descriptors.toList.map (·.2)).map (·.runnerId) =
        reg.descriptors.toList.map (·.1) := by
      rw [map_map]
      refine map_congr_left fun e he => ?_
      exact (h.keyed e.1 e.2 (ExtTreeMap.mem_toList_iff_getElem?_eq_some.1 he)).1
    rw [(h.listed.map _).nodup_iff, hkeys, ExtTreeMap.map_fst_toList_eq_keys]
    exact ExtTreeMap.nodup_keys
  accepted := by
    intro descriptor hmem
    obtain ⟨e, he, rfl⟩ := mem_map.1 (h.listed.mem_iff.1 hmem)
    exact (h.keyed e.1 e.2 (ExtTreeMap.mem_toList_iff_getElem?_eq_some.1 he)).2

variable {runners : List Runner} {handlers : List AsyncBatchHandler}

theorem build_registered (h : build runners handlers = .ok reg) :
    Registered (runners.map (·.descriptor) ++ handlers.map (·.descriptor)) reg := by
  unfold build at h
  obtain ⟨reg₁, h₁, h⟩ := Prog.except_bind_eq_ok.1 h
  obtain ⟨reg₂, h₂, h⟩ := Prog.except_bind_eq_ok.1 h
  obtain ⟨_, -, h⟩ := Prog.except_bind_eq_ok.1 h
  cases h
  let afterRunners (done : List Runner) : RunnerRegistry → Prop :=
    Registered (done.map (·.descriptor))
  let afterHandlers (done : List AsyncBatchHandler) : RunnerRegistry → Prop :=
    Registered (runners.map (·.descriptor) ++ done.map (·.descriptor))
  have hempty : afterRunners [] {} := ⟨tableOk_empty, by simp [FromGiven]⟩
  have hrunners : afterRunners ([] ++ runners) reg₁ := by
    refine Checks.foldlM_invariant afterRunners (fun done runner reg reg' hreg hr => ?_) hempty h₁
    show Registered ((done ++ [runner]).map (·.descriptor)) reg'
    rw [map_append]
    exact hreg.enters (register_enters hr)
  have hnone : afterHandlers [] reg₁ := by
    show Registered (runners.map (·.descriptor) ++ []) reg₁
    rw [append_nil]
    exact hrunners
  have hall : afterHandlers ([] ++ handlers) reg₂ := by
    refine Checks.foldlM_invariant afterHandlers (fun done handler reg reg' hreg hr => ?_) hnone h₂
    show Registered (runners.map (·.descriptor) ++ (done ++ [handler]).map (·.descriptor)) reg'
    rw [map_append, ← append_assoc]
    exact hreg.enters (registerAsyncHandler_enters hr)
  exact ⟨⟨hall.table.keyed, hall.table.listed⟩, hall.given⟩

theorem build_snapshot (h : build runners handlers = .ok reg) : SnapshotOk reg.descriptorSnapshot :=
  (build_registered h).table.snapshot

theorem build_listed (h : build runners handlers = .ok reg) {descriptor : RunnerDescriptor}
    (hmem : descriptor ∈ reg.descriptorSnapshot) :
    ∃ source ∈ runners.map (·.descriptor) ++ handlers.map (·.descriptor),
      descriptor = normalizedDescriptor source := by
  have hreg := build_registered h
  obtain ⟨e, he, rfl⟩ := mem_map.1 (hreg.table.listed.mem_iff.1 hmem)
  exact hreg.given e.1 e.2 (ExtTreeMap.mem_toList_iff_getElem?_eq_some.1 he)

end RunnerRegistry

end MutsukiRuntime
