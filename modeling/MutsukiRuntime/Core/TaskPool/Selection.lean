/-
  SELECTION: what a claim takes, stated without indexes.  Over a well-formed pool the merge
  of the ready queues selects exactly that, for a runner that accepts each protocol once.
-/
import MutsukiRuntime.Core.TaskPool.Sweeps

namespace MutsukiRuntime

open Std Buckets Prog List

namespace TaskPool

/-! ## The naive specification -/

/-- A record the runner may claim in a pass at `step` over generation `registryGeneration`. -/
def eligible (runner : RunnerDescriptor) (step registryGeneration : Nat) (r : TaskRecord) : Bool :=
  r.status == .ready && runner.acceptedProtocolIds.contains r.task.protocolId &&
    (r.task.runnerHint == none || r.task.runnerHint == some runner.runnerId) &&
    (r.ownerRunner == none || r.ownerRunner == some runner.runnerId) &&
    decide (r.task.readyAtStep.getD 0 ≤ step) &&
    (r.task.registryGeneration == 0 || registryGeneration == 0 ||
      r.task.registryGeneration == registryGeneration)

/-- The claim order: ready step, then priority from high to low, then age, then id. -/
def ClaimsBefore (a b : TaskRecord) : Prop :=
  a.task.readyAtStep.getD 0 < b.task.readyAtStep.getD 0 ∨
  a.task.readyAtStep.getD 0 = b.task.readyAtStep.getD 0 ∧
    (b.task.priority < a.task.priority ∨
    a.task.priority = b.task.priority ∧
      (a.task.createdSequence < b.task.createdSequence ∨
      a.task.createdSequence = b.task.createdSequence ∧ a.task.taskId ≤ b.task.taskId))

instance : DecidableRel ClaimsBefore := fun _ _ =>
  inferInstanceAs (Decidable (_ ∨ _ ∧ (_ ∨ _ ∧ (_ ∨ _ ∧ _))))

/-- One more record fits next to those taken. -/
def fits (budget : Option DispatchBudget) (sizeOf : TaskId → Nat) (taken : List TaskRecord)
    (r : TaskRecord) : Bool :=
  match budget with
  | none => true
  | some b =>
    decide (min ((taken.map fun t => sizeOf t.task.taskId).sum + sizeOf r.task.taskId) u64Max ≤
      b.maxBytes) &&
    match b.laneBudget r.task.dispatchLane with
    | none => true
    | some lane =>
      decide ((taken.filter fun t => t.task.dispatchLane = r.task.dispatchLane).length <
        lane.maxEntries)

/-- Takes records in order, skipping those that do not fit, until `maxEntries` are taken. -/
def greedyScan (budget : Option DispatchBudget) (maxEntries : Nat) (sizeOf : TaskId → Nat) :
    List TaskRecord → List TaskRecord → List TaskRecord
  | [], taken => taken
  | r :: rest, taken =>
    if maxEntries ≤ taken.length then taken
    else if fits budget sizeOf taken r then
      greedyScan budget maxEntries sizeOf rest (taken ++ [r])
    else greedyScan budget maxEntries sizeOf rest taken

/-- Filter, sort, scan. -/
def naiveSelection (pool : TaskPool) (runner : RunnerDescriptor)
    (step registryGeneration limit : Nat) (budget : Option DispatchBudget) : List TaskId :=
  if limit = 0 ∨ ∃ b ∈ budget, b.maxBatches = 0 ∨ b.maxEntries = 0 ∨ b.maxBytes = 0 then []
  else
    let maxEntries := match budget with
      | some b => min limit b.maxEntries
      | none => limit
    let candidates :=
      ((recordsOf pool.tasks).filter (eligible runner step registryGeneration)).insertionSort
        ClaimsBefore
    (greedyScan budget maxEntries (fun taskId => pool.payloadWireBytes.getD taskId 0)
      candidates []).map (·.task.taskId)

/-! ## The claim order is the order of the ready keys -/

variable {pool : TaskPool}

theorem isLE_compare_string (a b : String) : (compare a b).isLE = true ↔ a ≤ b := by
  show (compareOfLessAndEq a b).isLE = true ↔ a ≤ b
  unfold compareOfLessAndEq
  by_cases hlt : a < b
  · rw [if_pos hlt, ← not_iff_not, String.not_le]
    simpa using String.lt_asymm hlt
  · by_cases he : a = b
    · simp [he]
    · have hba : b ≤ a := Decidable.not_not.1 fun hn => hlt (String.not_le.1 hn)
      rw [if_neg hlt, if_neg he]
      simp only [Ordering.isLE_gt, Bool.false_eq_true, false_iff]
      exact fun hab => he (String.le_antisymm hab hba)

theorem isLE_compareLex {α : Type} {c c' : α → α → Ordering} {a b : α} :
    (compareLex c c' a b).isLE = true ↔
      c a b = .lt ∨ (c a b = .eq ∧ (c' a b).isLE = true) := by
  unfold compareLex
  cases h : c a b <;> simp [Ordering.then]

theorem claimsBefore_iff (a b : TaskRecord) :
    ClaimsBefore a b ↔ KMerge.le (readyKeyOf a) (readyKeyOf b) := by
  unfold KMerge.le
  show _ ↔ (compareLex _ _ (readyKeyOf a) (readyKeyOf b)).isLE = true
  rw [isLE_compareLex, isLE_compareLex, isLE_compareLex]
  simp only [compareOn, readyKeyOf, Std.compare_eq_lt, Std.compare_eq_iff_eq,
    isLE_compare_string, ClaimsBefore, eq_comm (a := b.task.priority)]

theorem readyKeyOf_injOn (h : Keyed pool.tasks) {a b : TaskRecord} (ha : a ∈ recordsOf pool.tasks)
    (hb : b ∈ recordsOf pool.tasks) (hkey : readyKeyOf a = readyKeyOf b) : a = b := by
  rw [mem_recordsOf pool.tasks h] at ha hb
  have hid : a.task.taskId = b.task.taskId := congrArg ReadyKey.taskId hkey
  rw [hid, hb] at ha
  exact (Option.some.inj ha).symm

/-! ## The scan -/

/-- The counters of the closure after taking `taken`. -/
def selectionOf (budget : Option DispatchBudget) (sizeOf : TaskId → Nat)
    (taken : List TaskRecord) : Selection where
  laneCounts lane := (taken.filter fun t => t.task.dispatchLane = lane).length
  selectedBytes :=
    if budget.isSome then min (taken.map fun t => sizeOf t.task.taskId).sum u64Max else 0
  selected := taken.map (·.task.taskId)

theorem selectionOf_append (budget : Option DispatchBudget) (sizeOf : TaskId → Nat)
    (taken : List TaskRecord) (r : TaskRecord) :
    selectionOf budget sizeOf (taken ++ [r]) =
      { laneCounts := fun lane =>
          if lane = r.task.dispatchLane then (selectionOf budget sizeOf taken).laneCounts lane + 1
          else (selectionOf budget sizeOf taken).laneCounts lane
        selectedBytes := satAdd (selectionOf budget sizeOf taken).selectedBytes
          (if budget.isSome then sizeOf r.task.taskId else 0)
        selected := (selectionOf budget sizeOf taken).selected ++ [r.task.taskId] } := by
  unfold selectionOf
  congr 1
  · funext lane
    rw [filter_append, length_append]
    by_cases hl : r.task.dispatchLane = lane
    · simp [hl]
    · have hl' : ¬ lane = r.task.dispatchLane := fun he => hl he.symm
      simp [hl, hl']
  · cases budget with
    | none => simp [satAdd]
    | some b =>
      simp only [Option.isSome_some, if_true, map_append, sum_append, satAdd,
        map_cons, map_nil, sum_cons, sum_nil]
      omega
  · simp

theorem any_overBudget (budget : Option DispatchBudget) (sizeOf : TaskId → Nat)
    (taken : List TaskRecord) (r : TaskRecord) :
    budget.any (overBudget · (selectionOf budget sizeOf taken) r.task.dispatchLane
      (if budget.isSome then sizeOf r.task.taskId else 0)) = !fits budget sizeOf taken r := by
  cases budget with
  | none => rfl
  | some b =>
    have hbytes : satAdd (min (taken.map fun t => sizeOf t.task.taskId).sum u64Max)
        (sizeOf r.task.taskId) =
        min ((taken.map fun t => sizeOf t.task.taskId).sum + sizeOf r.task.taskId) u64Max := by
      unfold satAdd
      omega
    simp only [Option.any_some, overBudget, fits, selectionOf, Option.isSome_some, if_true,
      hbytes, Bool.not_and]
    congr 1
    · rw [← decide_not]
      exact decide_eq_decide.2 Nat.not_le.symm
    · cases b.laneBudget r.task.dispatchLane with
      | none => rfl
      | some lane =>
        rw [← decide_not]
        exact decide_eq_decide.2 Nat.not_lt.symm

variable {budget : Option DispatchBudget}

theorem greedyScan_full {maxEntries : Nat} {sizeOf : TaskId → Nat} {taken : List TaskRecord}
    (h : maxEntries ≤ taken.length) (records : List TaskRecord) :
    greedyScan budget maxEntries sizeOf records taken = taken := by
  cases records with
  | nil => rfl
  | cons => rw [greedyScan, if_pos h]

theorem visitAll_visitCandidate (budget : Option DispatchBudget) (maxEntries : Nat)
    (sizeOf : TaskId → Nat) (records taken : List TaskRecord) :
    KMerge.visitAll (visitCandidate budget maxEntries sizeOf) records
        (selectionOf budget sizeOf taken) =
      selectionOf budget sizeOf (greedyScan budget maxEntries sizeOf records taken) := by
  induction records generalizing taken with
  | nil => rfl
  | cons r records ih =>
    have hlen : (selectionOf budget sizeOf taken).selected.length = taken.length := by
      simp [selectionOf]
    rw [KMerge.visitAll, greedyScan, visitCandidate, hlen]
    by_cases hfull : maxEntries ≤ taken.length
    · rw [if_pos hfull, if_pos hfull]
      rfl
    · rw [if_neg hfull, if_neg hfull]
      simp only [any_overBudget]
      cases hfits : fits budget sizeOf taken r with
      | false => exact ih taken
      | true =>
        simp only [Bool.not_true, Bool.false_eq_true, if_false, if_true,
          ← selectionOf_append]
        have hlen' : ((selectionOf budget sizeOf taken).selected ++ [r.task.taskId]).length =
            taken.length + 1 := by simp [selectionOf]
        rw [hlen']
        by_cases hroom : taken.length + 1 < maxEntries
        · rw [if_pos (decide_eq_true hroom)]
          exact ih (taken ++ [r])
        · rw [if_neg (by simpa using hroom), greedyScan_full (by simp; omega)]

/-! ## The merge -/

theorem isDue_down (step : Nat) (a b : ReadyKey) (h : KMerge.le a b)
    (hb : b.isDue step = true) : a.isDue step = true := by
  have hle : a.readyAtStep ≤ b.readyAtStep := by
    unfold KMerge.le at h
    rw [show compare a b = compareLex _ _ a b from rfl, isLE_compareLex] at h
    simp only [compareOn, Std.compare_eq_lt, Std.compare_eq_iff_eq] at h
    omega
  simp only [ReadyKey.isDue, decide_eq_true_eq] at hb ⊢
  omega

theorem sorted_toList (queue : ExtTreeSet ReadyKey) : queue.toList.Pairwise KMerge.le := by
  refine ExtTreeSet.ordered_toList.imp ?_
  intro a b h
  rw [KMerge.le, h]
  rfl

/-- The keys of the runner's queues, protocol by protocol and selector by selector. -/
theorem flatMap_readyDispatchQueues (idx : TaskIndexes) (runner : RunnerDescriptor)
    (f : ExtTreeSet ReadyKey → List ReadyKey) (hf : f Bucket.empty = []) :
    (idx.readyDispatchQueues runner).flatMap f =
      runner.acceptedProtocolIds.flatMap fun p =>
        (buildReadySelectors runner.runnerId).flatMap fun s =>
          f (queueAt idx.readyByProtocol p s) := by
  unfold TaskIndexes.readyDispatchQueues
  rw [flatMap_assoc]
  apply flatMap_congr
  intro p _
  cases hp : idx.readyByProtocol[p]? with
  | none =>
    have hempty : ∀ s, queueAt idx.readyByProtocol p s = Bucket.empty := by
      intro s
      rw [queueAt, bucket_of_none _ _ hp]
      exact bucket_empty s
    simp [hempty, hf]
  | some bySelector =>
    have hqueue : ∀ s, queueAt idx.readyByProtocol p s = bucket bySelector s := by
      intro s
      rw [queueAt, bucket_of_some _ _ _ hp]
    simp only [hqueue]
    exact flatMap_stored bySelector _ f hf

theorem mem_buildReadySelectors (runnerId : String) (r : TaskRecord) :
    readySelectorOf r ∈ buildReadySelectors runnerId ↔
      (r.task.runnerHint = none ∨ r.task.runnerHint = some runnerId) ∧
        (r.ownerRunner = none ∨ r.ownerRunner = some runnerId) := by
  unfold buildReadySelectors readySelectorOf
  cases hh : r.task.runnerHint <;> cases ho : r.ownerRunner <;>
    simp [ReadySelector.mk.injEq]

theorem nodup_buildReadySelectors (runnerId : String) : (buildReadySelectors runnerId).Nodup := by
  simp [buildReadySelectors, ReadySelector.mk.injEq]

/-- `eligible` in any generation, as the queues see it. -/
theorem eligible_zero_iff (runner : RunnerDescriptor) (step : Nat) (r : TaskRecord) :
    eligible runner step 0 r = true ↔
      r.status = .ready ∧ r.task.protocolId ∈ runner.acceptedProtocolIds ∧
        readySelectorOf r ∈ buildReadySelectors runner.runnerId ∧
        (readyKeyOf r).isDue step = true := by
  rw [mem_buildReadySelectors]
  simp only [eligible, ReadyKey.isDue, readyKeyOf, Bool.and_eq_true, Bool.or_eq_true,
    beq_iff_eq, beq_self_eq_true, contains_iff_mem, and_assoc, or_true, true_or, and_true]
  exact Iff.rfl

theorem eligible_iff (runner : RunnerDescriptor) (step registryGeneration : Nat)
    (r : TaskRecord) :
    eligible runner step registryGeneration r =
      (eligible runner step 0 r && runnerAcceptsIndexedTask r.task registryGeneration) := by
  unfold eligible runnerAcceptsIndexedTask
  rw [Bool.eq_iff_iff]
  simp only [Bool.and_eq_true, Bool.or_eq_true, beq_iff_eq, decide_eq_true_eq,
    Bool.not_eq_true', Bool.and_eq_false_iff, bne_eq_false_iff_eq]
  tauto

/-- The due keys of the runner's queues are the keys of the eligible records. -/
theorem mem_dueKeys (h : Good pool) (runner : RunnerDescriptor) (step : Nat) (k : ReadyKey) :
    (k ∈ (pool.indexes.readyDispatchQueues runner).flatMap fun queue =>
        queue.toList.filter (·.isDue step)) ↔
      ∃ r ∈ recordsOf pool.tasks, eligible runner step 0 r = true ∧ readyKeyOf r = k := by
  rw [flatMap_readyDispatchQueues _ _ _ (by simp [Bucket.empty])]
  simp only [mem_flatMap, mem_filter, ExtTreeSet.mem_toList]
  constructor
  · rintro ⟨p, hp, s, hs, hk, hdue⟩
    obtain ⟨r, hr, ⟨hready, rfl, rfl⟩, rfl⟩ := (h.indexes.queues.mem_iff p s k).1 hk
    exact ⟨r, (mem_recordsOf pool.tasks h.keyed r).2 hr,
      (eligible_zero_iff runner step r).2 ⟨hready, hp, hs, hdue⟩, rfl⟩
  · rintro ⟨r, hr, he, rfl⟩
    obtain ⟨hready, hp, hs, hdue⟩ := (eligible_zero_iff runner step r).1 he
    exact ⟨_, hp, _, hs, (h.indexes.queues.mem_iff _ _ _).2
      ⟨r, (mem_recordsOf pool.tasks h.keyed r).1 hr, ⟨hready, rfl, rfl⟩, rfl⟩, hdue⟩

variable {runner : RunnerDescriptor}

/-- No key is queued twice for a runner that accepts each protocol once. -/
theorem nodup_dueKeys (h : Good pool) (hnd : runner.acceptedProtocolIds.Nodup) (step : Nat) :
    ((pool.indexes.readyDispatchQueues runner).flatMap fun queue =>
      queue.toList.filter (·.isDue step)).Nodup := by
  rw [flatMap_readyDispatchQueues _ _ _ (by simp [Bucket.empty])]
  -- a key determines its record, which has one protocol and one selector
  have hown : ∀ {p p' : String} {s s' : ReadySelector} {k : ReadyKey},
      k ∈ queueAt pool.indexes.readyByProtocol p s →
      k ∈ queueAt pool.indexes.readyByProtocol p' s' → p = p' ∧ s = s' := by
    intro p p' s s' k hk hk'
    obtain ⟨r, hr, ⟨-, hp, hs⟩, -⟩ := (h.indexes.queues.mem_iff p s k).1 hk
    obtain ⟨r', hr', ⟨-, hp', hs'⟩, -⟩ := (h.indexes.queues.mem_iff p' s' k).1 hk'
    rw [hr] at hr'
    cases hr'
    exact ⟨hp.symm.trans hp', hs.symm.trans hs'⟩
  have hmem : ∀ {p : String} {s : ReadySelector} {k : ReadyKey},
      k ∈ (queueAt pool.indexes.readyByProtocol p s).toList.filter (·.isDue step) →
      k ∈ queueAt pool.indexes.readyByProtocol p s := by
    intro p s k hk
    exact ExtTreeSet.mem_toList.1 (mem_filter.1 hk).1
  rw [nodup_flatMap]
  refine ⟨fun p _ => ?_, ?_⟩
  · rw [nodup_flatMap]
    refine ⟨fun s _ => (nodup_set_toList _).filter _, ?_⟩
    refine (nodup_buildReadySelectors runner.runnerId).imp ?_
    intro s s' hne k hk hk'
    exact hne (hown (hmem hk) (hmem hk')).2
  · refine hnd.imp ?_
    intro p p' hne k hk hk'
    obtain ⟨s, -, hk⟩ := mem_flatMap.1 hk
    obtain ⟨s', -, hk'⟩ := mem_flatMap.1 hk'
    exact hne (hown (hmem hk) (hmem hk')).1

instance : Std.Total ClaimsBefore where
  total a b := by
    rw [claimsBefore_iff, claimsBefore_iff]
    exact KMerge.le_total' _ _

instance : IsTrans TaskRecord ClaimsBefore where
  trans a b c := by
    rw [claimsBefore_iff, claimsBefore_iff, claimsBefore_iff]
    exact KMerge.le_trans'

theorem claimsBefore_antisymm (h : Keyed pool.tasks) {a b : TaskRecord}
    (ha : a ∈ recordsOf pool.tasks) (hb : b ∈ recordsOf pool.tasks) (hab : ClaimsBefore a b)
    (hba : ClaimsBefore b a) : a = b := by
  rw [claimsBefore_iff] at hab hba
  exact readyKeyOf_injOn h ha hb
    (LawfulEqOrd.eq_of_compare (OrientedCmp.isLE_antisymm hab hba))

/-- The eligible records in claim order. -/
def candidates (pool : TaskPool) (runner : RunnerDescriptor) (step registryGeneration : Nat) :
    List TaskRecord :=
  ((recordsOf pool.tasks).filter (eligible runner step registryGeneration)).insertionSort
    ClaimsBefore

theorem candidates_perm (runner : RunnerDescriptor) (step registryGeneration : Nat) :
    (pool.candidates runner step registryGeneration).Perm
      ((recordsOf pool.tasks).filter (eligible runner step registryGeneration)) :=
  perm_insertionSort _ _

theorem sorted_candidates (runner : RunnerDescriptor) (step registryGeneration : Nat) :
    (pool.candidates runner step registryGeneration).Pairwise ClaimsBefore :=
  pairwise_insertionSort _ _

variable {registryGeneration : Nat}

theorem mem_candidates {step : Nat} {r : TaskRecord}
    (hr : r ∈ pool.candidates runner step registryGeneration) :
    r ∈ recordsOf pool.tasks ∧ eligible runner step registryGeneration r = true := by
  rw [(candidates_perm runner step registryGeneration).mem_iff] at hr
  exact mem_filter.1 hr

theorem nodup_recordsOf (h : Keyed pool.tasks) : (recordsOf pool.tasks).Nodup :=
  Nodup.of_map _ (nodup_ids_recordsOf pool.tasks h)

theorem nodup_candidates (h : Keyed pool.tasks) (runner : RunnerDescriptor)
    (step registryGeneration : Nat) : (pool.candidates runner step registryGeneration).Nodup :=
  (candidates_perm runner step registryGeneration).nodup_iff.2 ((nodup_recordsOf h).filter _)

theorem candidates_filter (h : Keyed pool.tasks) (runner : RunnerDescriptor)
    (step registryGeneration : Nat) :
    (pool.candidates runner step 0).filter
        (fun r => runnerAcceptsIndexedTask r.task registryGeneration) =
      pool.candidates runner step registryGeneration := by
  refine Perm.eq_of_pairwise ?_ ((sorted_candidates runner step 0).filter _)
    (sorted_candidates runner step registryGeneration) ?_
  · intro a b ha hb
    exact claimsBefore_antisymm h (mem_candidates (mem_filter.1 ha).1).1
      (mem_candidates hb).1
  · refine ((candidates_perm runner step 0).filter _).trans
      (List.Perm.trans ?_ (candidates_perm runner step registryGeneration).symm)
    rw [filter_filter]
    apply Perm.of_eq
    apply filter_congr
    intro r _
    rw [eligible_iff runner step registryGeneration, Bool.and_comm]

/-- The sorted keys of the eligible records are what the merge visits. -/
theorem keys_candidates_perm (h : Good pool) (hnd : runner.acceptedProtocolIds.Nodup) (step : Nat) :
    ((pool.candidates runner step 0).map readyKeyOf).Perm
      (((pool.indexes.readyDispatchQueues runner).map (·.toList)).flatMap
        (·.takeWhile (·.isDue step))) := by
  rw [flatMap_map]
  have hfilter : ((pool.indexes.readyDispatchQueues runner).flatMap fun queue =>
      queue.toList.takeWhile (·.isDue step)) =
      (pool.indexes.readyDispatchQueues runner).flatMap fun queue =>
        queue.toList.filter (·.isDue step) := by
    apply flatMap_congr
    intro queue _
    exact KMerge.takeWhile_eq_filter (isDue_down step) (sorted_toList queue)
  rw [hfilter]
  refine (perm_ext_iff_of_nodup ?_ (nodup_dueKeys h hnd step)).2 ?_
  · refine Nodup.map_on ?_ (nodup_candidates h.keyed runner step 0)
    intro a ha b hb
    exact readyKeyOf_injOn h.keyed (mem_candidates ha).1 (mem_candidates hb).1
  · intro k
    rw [mem_dueKeys h, mem_map]
    simp only [(candidates_perm runner step 0).mem_iff, mem_filter, and_assoc]

theorem visitCandidateRecords_eq {β : Type} (h : Good pool) (hnd : runner.acceptedProtocolIds.Nodup)
    (step registryGeneration : Nat) (visit : β → TaskRecord → β × Bool) (acc : β) :
    pool.visitCandidateRecords runner step registryGeneration visit acc =
      KMerge.visitAll visit (pool.candidates runner step registryGeneration) acc := by
  have hsorted : ((pool.candidates runner step 0).map readyKeyOf).Pairwise KMerge.le := by
    rw [pairwise_map]
    exact (sorted_candidates runner step 0).imp fun hab => (claimsBefore_iff _ _).1 hab
  have hqueues : ∀ queue ∈ (pool.indexes.readyDispatchQueues runner).map (·.toList),
      queue.Pairwise KMerge.le := by
    intro queue hq
    obtain ⟨q, -, rfl⟩ := mem_map.1 hq
    exact sorted_toList q
  unfold visitCandidateRecords
  rw [KMerge.merge_eq_visitAll hqueues hsorted (keys_candidates_perm h hnd step),
    KMerge.visitAll_map, ← candidates_filter h.keyed runner step registryGeneration]
  -- a stored record is looked up under its own key
  have hlookup : ∀ r ∈ pool.candidates runner step 0,
      pool.tasks[(readyKeyOf r).taskId]? = some r := fun r hr =>
    (mem_recordsOf pool.tasks h.keyed r).1 (mem_candidates hr).1
  refine KMerge.visitAll_filter ?_ ?_ acc
  · intro acc r hr hp
    simp only [visitKey, hlookup r hr, hp]
    rfl
  · intro acc r hr hp
    simp only [visitKey, hlookup r hr, hp]
    rfl

theorem budgetClosed_iff (limit : Nat) (budget : Option DispatchBudget) :
    budgetClosed limit budget = true ↔
      limit = 0 ∨ ∃ b ∈ budget, b.maxBatches = 0 ∨ b.maxEntries = 0 ∨ b.maxBytes = 0 := by
  cases budget <;> simp [budgetClosed, or_assoc]

/-- The merge under a budget selects what the naive specification selects. -/
theorem selectCandidateIds_eq (h : Good pool) (hnd : runner.acceptedProtocolIds.Nodup)
    (step registryGeneration limit : Nat) (budget : Option DispatchBudget) :
    pool.selectCandidateIds runner step registryGeneration limit budget =
      pool.naiveSelection runner step registryGeneration limit budget := by
  unfold selectCandidateIds naiveSelection
  by_cases hclosed : budgetClosed limit budget = true
  · rw [if_pos hclosed, if_pos ((budgetClosed_iff limit budget).1 hclosed)]
  · rw [if_neg hclosed, if_neg fun hc => hclosed ((budgetClosed_iff limit budget).2 hc)]
    have hstart : ∀ sizeOf, ({} : Selection) = selectionOf budget sizeOf [] := by
      intro sizeOf
      unfold selectionOf
      simp
    simp only [visitCandidateRecords_eq h hnd]
    rw [hstart fun taskId => pool.payloadWireBytes.getD taskId 0, visitAll_visitCandidate]
    rfl

theorem greedyScan_sublist (budget : Option DispatchBudget) (maxEntries : Nat)
    (sizeOf : TaskId → Nat) (records taken : List TaskRecord) :
    (greedyScan budget maxEntries sizeOf records taken).Sublist (taken ++ records) := by
  induction records generalizing taken with
  | nil => simp [greedyScan]
  | cons r records ih =>
    rw [greedyScan]
    split
    · exact sublist_append_left _ _
    · split
      · simpa using ih (taken ++ [r])
      · exact (ih taken).trans (Sublist.append_left (sublist_cons_self r records) taken)

theorem nodup_naiveSelection (h : Good pool) (runner : RunnerDescriptor)
    (step registryGeneration limit : Nat) (budget : Option DispatchBudget) :
    (pool.naiveSelection runner step registryGeneration limit budget).Nodup := by
  unfold naiveSelection
  split
  · exact nodup_nil
  · refine Nodup.sublist ((greedyScan_sublist _ _ _ _ []).map _) ?_
    rw [nil_append, ((perm_insertionSort _ _).map _).nodup_iff]
    exact (nodup_ids_recordsOf pool.tasks h.keyed).sublist (filter_sublist.map _)

theorem mem_naiveSelection {step limit : Nat} {id : TaskId}
    (hid : id ∈ pool.naiveSelection runner step registryGeneration limit budget) :
    ∃ r ∈ recordsOf pool.tasks, r.task.taskId = id ∧
      eligible runner step registryGeneration r = true := by
  unfold naiveSelection at hid
  split at hid
  · cases hid
  · obtain ⟨r, hr, rfl⟩ := mem_map.1 hid
    have hmem := (greedyScan_sublist _ _ _ _ _).mem hr
    rw [nil_append] at hmem
    obtain ⟨hstored, he⟩ : r ∈ recordsOf pool.tasks ∧
        eligible runner step registryGeneration r = true := mem_candidates hmem
    exact ⟨r, hstored, rfl, he⟩

/-! ## Any runner -/

theorem visitCandidate_selected (budget : Option DispatchBudget) (maxEntries : Nat)
    (sizeOf : TaskId → Nat) (sel : Selection) (r : TaskRecord) :
    (visitCandidate budget maxEntries sizeOf sel r).1.selected = sel.selected ∨
      (visitCandidate budget maxEntries sizeOf sel r).1.selected =
        sel.selected ++ [r.task.taskId] := by
  unfold visitCandidate
  split
  · exact Or.inl rfl
  · generalize (if budget.isSome then sizeOf r.task.taskId else 0) = payloadWireBytes
    dsimp only
    split
    · exact Or.inl rfl
    · exact Or.inr rfl

/-- Only ready records that no other runner owns are selected, also for a runner that accepts a
    protocol twice. -/
theorem mem_selectCandidateIds (h : Good pool) {step limit : Nat} {id : TaskId}
    (hid : id ∈ pool.selectCandidateIds runner step registryGeneration limit budget) :
    ∃ r, pool.tasks[id]? = some r ∧ r.status = .ready ∧
      readySelectorOf r ∈ buildReadySelectors runner.runnerId := by
  unfold selectCandidateIds at hid
  split at hid
  · cases hid
  · refine KMerge.merge_invariant
      (fun k => ∃ r, pool.tasks[k.taskId]? = some r ∧ r.status = .ready ∧
        readySelectorOf r ∈ buildReadySelectors runner.runnerId)
      (fun sel : Selection => ∀ id ∈ sel.selected, ∃ r, pool.tasks[id]? = some r ∧
        r.status = .ready ∧ readySelectorOf r ∈ buildReadySelectors runner.runnerId)
      ?_ ?_ {} (by simp) id hid
    · intro queue hq k hk
      obtain ⟨q, hq', rfl⟩ := mem_map.1 hq
      obtain ⟨p, -, hq'⟩ := mem_flatMap.1 hq'
      cases hp : pool.indexes.readyByProtocol[p]? with
      | none => rw [hp] at hq'; cases hq'
      | some =>
        rw [hp] at hq'
        obtain ⟨s, hselector, hs⟩ := mem_filterMap.1 hq'
        have hmem : k ∈ queueAt pool.indexes.readyByProtocol p s := by
          rw [queueAt, bucket_of_some _ _ _ hp, bucket_of_some _ _ _ hs]
          exact ExtTreeSet.mem_toList.1 hk
        obtain ⟨r, hr, hqueue, -⟩ := (h.indexes.queues.mem_iff p s k).1 hmem
        rw [← hqueue.2.2] at hselector
        exact ⟨r, hr, hqueue.1, hselector⟩
    · rintro sel k ⟨r, hr, hready⟩ hsel
      simp only [visitKey, hr]
      split
      · rcases visitCandidate_selected _ _ _ sel r with he | he <;> rw [he]
        · exact hsel
        · refine forall_mem_append.2 ⟨hsel, forall_mem_singleton.2 ⟨r, ?_, hready⟩⟩
          rw [h.keyed k.taskId r hr]
          exact hr
      · exact hsel

/-! ## Leasing -/

section Leasing

variable {allowed : Move → Prop} {b : Board} {debugAssertions : Bool} {runner : RunnerDescriptor}
  {executorId : ExecutorId} {step registryGeneration limit : Nat} {budget : Option DispatchBudget}
  {expiresAtStep : Option Nat}

theorem claimTask_run {taskId : TaskId} {r : TaskRecord} (counters : ClaimCounters)
    (hr : pool.tasks[taskId]? = some r) (hready : debugAssertions = true → r.status = .ready) :
    let l := newLease runner executorId step registryGeneration expiresAtStep r
    (claimTask debugAssertions runner executorId step registryGeneration expiresAtStep counters
      taskId).run pool =
      (.ok
        { leased := counters.leased ++ [(l, (leaseRecord runner l r).task)]
          queueSteps := satAdd counters.queueSteps (step - r.readySinceStep)
          attemptsStarted := satAdd counters.attemptsStarted 1 },
        (pool.replaceRecord taskId r (leaseRecord runner l r)).countTransition .ready
          .running) := by
  have hasserted : ¬ (debugAssertions = true ∧ r.status ≠ .ready) := fun h => h.2 (hready h.1)
  simp only [claimTask, updateRecordIndexes, run_update_bind, run_read_bind, hr]
  rw [if_neg hasserted]
  simp [replaceRecord, setRecord]

theorem recordOk_leaseRecord (r : TaskRecord) :
    RecordOk (leaseRecord runner
      (newLease runner executorId step registryGeneration expiresAtStep r) r) where
  created := by simp [leaseRecord]
  running := by simp [leaseRecord]
  claimed := rfl
  leased := by
    intro l hl
    cases hl
    rfl

theorem Tracks.leaseRecord (h : Settled allowed b pool) {taskId : TaskId} {r : TaskRecord}
    (hr : pool.tasks[taskId]? = some r) (c : Change)
    (hc : c.Allows r (TaskPool.leaseRecord runner
      (newLease runner executorId step registryGeneration expiresAtStep r) r))
    (hstatus : r.status = .ready ∨ r.status = .running) (hm : allowed (.change taskId c)) :
    Settled allowed b ((pool.replaceRecord taskId r (TaskPool.leaseRecord runner
      (newLease runner executorId step registryGeneration expiresAtStep r) r)).countTransition
        .ready .running) := by
  have hlive : isTerminalStatus r.status = false := by
    rcases hstatus with hs | hs <;> simp [hs, isTerminalStatus]
  have hwait : r.status ≠ .waiting := by rcases hstatus with hs | hs <;> simp [hs]
  have hsame : SameTask c.rebinds r (TaskPool.leaseRecord runner
      (newLease runner executorId step registryGeneration expiresAtStep r) r) := by
    cases c.rebinds <;> rfl
  have hchange := h.change_unlinked c _ hr hlive hwait hc (recordOk_leaseRecord r) hsame hm
  rw [without_noneTaken, unlisted_of_live (r := TaskPool.leaseRecord runner _ r) _ rfl] at hchange
  exact hchange.withStatistics _

/-- What a claim of `pool` finds when it comes to a task: the record is the runner's, and ready
    unless a runner that accepts a protocol twice has just leased it. -/
structure Claimable (runner : RunnerDescriptor) (pool p : TaskPool) (id : TaskId)
    (r : TaskRecord) : Prop where
  stored : p.tasks[id]? = some r
  keyed : r.task.taskId = id
  selector : readySelectorOf r ∈ buildReadySelectors runner.runnerId
  status : r.status = .ready ∨ ¬ runner.acceptedProtocolIds.Nodup ∧ r.status = .running
  selected : ∃ r, pool.tasks[id]? = some r ∧
    readySelectorOf r ∈ buildReadySelectors runner.runnerId

/-- A property of the leases and the pool that each lease of a claim keeps holds after it. -/
theorem wp_claimSelected (I : List (TaskLease × Task) → TaskPool → Prop) (h : Good pool)
    (honce : runner.acceptedProtocolIds.Nodup ∨ debugAssertions = false) (hstart : I [] pool)
    (hclaim : ∀ id r leased p, I leased p → Claimable runner pool p id r →
      let l := newLease runner executorId step registryGeneration expiresAtStep r
      I (leased ++ [(l, (leaseRecord runner l r).task)])
        ((p.replaceRecord id r (leaseRecord runner l r)).countTransition .ready .running))
    (hcount : ∀ leased p attemptsStarted cumulativeQueueSteps, I leased p → I leased { p with
      statistics := { p.statistics with attemptsStarted, cumulativeQueueSteps } }) :
    wp (claimSelected debugAssertions runner executorId step registryGeneration limit budget
      expiresAtStep) I (fun _ _ => False) pool := by
  unfold claimSelected
  rw [wp_bind, wp_read, wp_bind]
  refine wp_total (wp_foldEach (fun rest counters p => I counters.leased p ∧
      (runner.acceptedProtocolIds.Nodup → rest.Nodup) ∧
        ∀ id ∈ rest, ∃ r, Claimable runner pool p id r) ⟨hstart, ?_, ?_⟩ ?_)
    fun _ _ hI => hcount _ _ _ _ hI.1
  · intro hnd
    rw [selectCandidateIds_eq h hnd]
    exact nodup_naiveSelection h _ _ _ _ _
  · intro id hid
    obtain ⟨r, hr, hready, hselector⟩ := mem_selectCandidateIds h hid
    exact ⟨r, hr, h.keyed id r hr, hselector, .inl hready, r, hr, hselector⟩
  · rintro id rest counters p ⟨hI, hids, hrest⟩
    obtain ⟨r, hr⟩ := hrest id mem_cons_self
    have hready : debugAssertions = true → r.status = .ready := by
      intro hon
      have hnd := honce.resolve_right (by simp [hon])
      exact hr.status.resolve_right fun hs => hs.1 hnd
    rw [wp_of_run_ok (claimTask_run counters hr.stored hready)]
    refine ⟨hclaim id r _ p hI hr, fun hnd => (nodup_cons.1 (hids hnd)).2, fun id' hid' => ?_⟩
    by_cases he : id = id'
    · subst he
      have hhint := ((mem_buildReadySelectors _ _).1 hr.selector).1
      exact ⟨_, (getElem?_replaceRecord p id r _ id).trans (if_pos rfl), hr.keyed,
        (mem_buildReadySelectors _ _).2 ⟨hhint, .inr rfl⟩,
        .inr ⟨fun hnd => (nodup_cons.1 (hids hnd)).1 hid', rfl⟩, hr.selected⟩
    · obtain ⟨r', hr'⟩ := hrest id' (mem_cons_of_mem id hid')
      exact ⟨r', { hr' with
        stored := (getElem?_replaceRecord p id r _ id').trans ((if_neg he).trans hr'.stored) }⟩

/-- Claiming takes up one lease of the runner at this step for each selected task.  Only a runner
    that accepts a protocol twice could take over a lease it has just taken up. -/
theorem claimSelected_tracks (h : Settled allowed b pool)
    (hclaim : ∀ id l, l.runnerId = runner.runnerId → l.acquiredAtStep = step →
      allowed (.change id (.claim l)))
    (hother : runner.acceptedProtocolIds.Nodup ∨
      (debugAssertions = false ∧ ∀ id l, allowed (.change id (.takeOver l)))) :
    wp (claimSelected debugAssertions runner executorId step registryGeneration limit budget
      expiresAtStep) (fun _ => Settled allowed b) (fun _ _ => False) pool := by
  refine wp_claimSelected (fun _ => Settled allowed b) h.wf (hother.imp_right (·.1)) h ?_
    (fun _ _ _ _ hp => hp.withStatistics _)
  intro id r _ p hp hr
  rcases hr.status with hs | ⟨htwice, hs⟩
  · exact hp.leaseRecord hr.stored (.claim _) ⟨hs, rfl, rfl⟩ (.inl hs) (hclaim id _ rfl rfl)
  · exact hp.leaseRecord hr.stored (.takeOver _) ⟨hs, rfl, rfl⟩ (.inr hs)
      ((hother.resolve_left htwice).2 id _)

theorem eligible_accepted {r : TaskRecord}
    (h : eligible runner step registryGeneration r = true) :
    r.status = .ready ∧ r.task.protocolId ∈ runner.acceptedProtocolIds := by
  rw [eligible_iff, Bool.and_eq_true] at h
  obtain ⟨hready, haccepted, -⟩ := (eligible_zero_iff runner step r).1 h.1
  exact ⟨hready, haccepted⟩

/-- The id `newLease` gives a lease. -/
def leaseName (step : Nat) (taskId : TaskId) (attemptGeneration : Nat) : String :=
  s!"task-lease-{step}-{taskId}-{attemptGeneration}"

theorem digits_ne_dash {n : Nat} {c : Char} (h : c ∈ (toString n).toList) : (c != '-') = true := by
  have hdigit : c.isDigit = true := by
    have hc : c ∈ Nat.toDigits 10 n := by simpa using h
    exact Nat.isDigit_of_mem_toDigits (by decide) (by decide) hc
  rw [bne_iff_ne]
  rintro rfl
  cases hdigit

theorem digits_inj {n m : Nat} (h : (toString n).toList = (toString m).toList) : n = m := by
  have hdigits : Nat.toDigits 10 n = Nat.toDigits 10 m := by simpa using h
  have hread := congrArg (fun l => Nat.ofDigitChars 10 l 0) hdigits
  simpa using hread

section LeaseNames

variable {step step' : Nat} {taskId taskId' : TaskId} {attempt attempt' : Nat}

variable (h : leaseName step taskId attempt = leaseName step' taskId' attempt')

include h

theorem leaseName_toList :
    (toString step).toList ++ '-' :: (taskId.toList ++ '-' :: (toString attempt).toList) =
      (toString step').toList ++ '-' :: (taskId'.toList ++ '-' :: (toString attempt').toList) := by
  have hname : ∀ step taskId attempt, (leaseName step taskId attempt).toList =
      "task-lease-".toList ++ ((toString step).toList ++
        '-' :: (taskId.toList ++ '-' :: (toString attempt).toList)) := by
    intro step taskId attempt
    simp [leaseName, toString]
  have hlists := congrArg String.toList h
  rwa [hname, hname, append_cancel_left_eq] at hlists

theorem leaseName_step : step = step' := by
  have hfront := congrArg (List.takeWhile (· != '-')) (leaseName_toList h)
  rw [takeWhile_append_of_pos fun c hc => digits_ne_dash hc,
    takeWhile_append_of_pos fun c hc => digits_ne_dash hc] at hfront
  exact digits_inj (by simpa using hfront)

/-- A lease id names its task: after the last dash stands the attempt. -/
theorem leaseName_taskId : taskId = taskId' := by
  have hlists := leaseName_toList h
  obtain rfl := leaseName_step h
  rw [append_cancel_left_eq, cons_inj_right] at hlists
  have hback := congrArg (fun l => List.dropWhile (· != '-') (List.reverse l)) hlists
  simp only [reverse_append, reverse_cons, append_assoc] at hback
  rw [dropWhile_append_of_pos fun c hc => digits_ne_dash (mem_reverse.1 hc),
    dropWhile_append_of_pos fun c hc => digits_ne_dash (mem_reverse.1 hc)] at hback
  have hids : taskId.toList = taskId'.toList := by simpa using hback
  exact String.toList_inj.1 hids

theorem leaseName_attempt : attempt = attempt' := by
  have hlists := leaseName_toList h
  obtain rfl := leaseName_step h
  obtain rfl := leaseName_taskId h
  rw [append_cancel_left_eq, cons_inj_right, append_cancel_left_eq, cons_inj_right] at hlists
  exact digits_inj hlists

end LeaseNames

/-- Lease ids are equal only for equal steps, task ids and attempts, whatever dashes and digits
    the task ids hold. -/
theorem leaseIds_decodable (step step' : Nat) (taskId taskId' : TaskId) (attempt attempt' : Nat) :
    (leaseName step taskId attempt = leaseName step' taskId' attempt' ↔
      step = step' ∧ taskId = taskId' ∧ attempt = attempt') ∧
    ∀ runner executorId registryGeneration expiresAtStep r,
      let lease := newLease runner executorId step registryGeneration expiresAtStep r
      lease.leaseId = leaseName step lease.taskId lease.attemptGeneration := by
  refine ⟨⟨fun h => ?_, ?_⟩, fun _ _ _ _ _ => rfl⟩
  · exact ⟨leaseName_step h, leaseName_taskId h, leaseName_attempt h⟩
  · rintro ⟨rfl, rfl, rfl⟩
    rfl

/-- What a claim does: it leases each of `leased` to the runner, and touches no other record. -/
structure Leases (runner : RunnerDescriptor) (step registryGeneration : Nat)
    (pool pool' : TaskPool) (leased : List (TaskLease × Task)) : Prop where
  taken : ∀ e ∈ leased, ∃ r, pool.tasks[e.1.taskId]? = some r ∧
    eligible runner step registryGeneration r = true ∧ e.1.runnerId = runner.runnerId ∧
    e.1.acquiredAtStep = step ∧ e.2 = (leaseRecord runner e.1 r).task ∧
    pool'.tasks[e.1.taskId]? = some (leaseRecord runner e.1 r)
  kept : ∀ id, (∀ e ∈ leased, e.1.taskId ≠ id) → pool'.tasks[id]? = pool.tasks[id]?
  named : ∀ e ∈ leased, e.1.leaseId =
    leaseName e.1.acquiredAtStep e.1.taskId e.1.attemptGeneration
  generation : ∀ e ∈ leased, e.1.registryGeneration = registryGeneration

theorem Leases.claim {step registryGeneration : Nat} {p : TaskPool} {id : TaskId} {r : TaskRecord}
    {leased : List (TaskLease × Task)} (h : Leases runner step registryGeneration pool p leased)
    (executorId : ExecutorId) (expiresAtStep : Option Nat) (hr : pool.tasks[id]? = some r)
    (hid : r.task.taskId = id) (helig : eligible runner step registryGeneration r = true)
    (hfresh : ∀ e ∈ leased, e.1.taskId ≠ id) :
    let lease := newLease runner executorId step registryGeneration expiresAtStep r
    let leasedRecord := TaskPool.leaseRecord runner lease r
    Leases runner step registryGeneration pool
      ((p.replaceRecord id r leasedRecord).countTransition .ready .running)
      (leased ++ [(lease, leasedRecord.task)]) := by
  intro lease leasedRecord
  have hget : ∀ id' : TaskId,
      ((p.replaceRecord id r leasedRecord).countTransition .ready .running).tasks[id']? =
        if id = id' then some leasedRecord else p.tasks[id']? := fun id' =>
    getElem?_replaceRecord p id r _ id'
  refine ⟨?_, fun id' hid' => ?_, ?_, ?_⟩
  · refine forall_mem_append.2 ⟨fun e he => ?_, forall_mem_singleton.2 ?_⟩
    · obtain ⟨v, hv, hvs, hrunner, hstep, htask, hstored⟩ := h.taken e he
      refine ⟨v, hv, hvs, hrunner, hstep, htask, ?_⟩
      rw [hget, if_neg (hfresh e he).symm]
      exact hstored
    · have hlease : pool.tasks[lease.taskId]? = some r := (congrArg (pool.tasks[·]?) hid).trans hr
      exact ⟨r, hlease, helig, rfl, rfl, rfl, (hget _).trans (if_pos hid.symm)⟩
  · obtain ⟨hleased, hnew⟩ := forall_mem_append.1 hid'
    rw [hget, if_neg fun he => forall_mem_singleton.1 hnew (hid.trans he)]
    exact h.kept id' hleased
  · exact forall_mem_append.2 ⟨h.named, forall_mem_singleton.2 rfl⟩
  · exact forall_mem_append.2 ⟨h.generation, forall_mem_singleton.2 rfl⟩

/-- The leases a claim returns are those of the selected tasks, in order, and each task runs
    under its own. -/
theorem claimSelected_leased (h : Good pool) (hnd : runner.acceptedProtocolIds.Nodup) :
    wp (claimSelected debugAssertions runner executorId step registryGeneration limit budget
        expiresAtStep)
      (fun leased pool' =>
        leased.map (·.1.taskId) =
          pool.selectCandidateIds runner step registryGeneration limit budget ∧
        Leases runner step registryGeneration pool pool' leased)
      (fun _ _ => False) pool := by
  have heq := selectCandidateIds_eq h hnd step registryGeneration limit budget
  have hids : (pool.selectCandidateIds runner step registryGeneration limit budget).Nodup := by
    rw [heq]
    exact nodup_naiveSelection h _ _ _ _ _
  unfold claimSelected
  rw [wp_bind, wp_read, wp_bind]
  -- the ids still to come are as they were
  refine wp_total (wp_foldEach (fun rest counters p =>
      counters.leased.map (·.1.taskId) ++ rest =
        pool.selectCandidateIds runner step registryGeneration limit budget ∧
      Leases runner step registryGeneration pool p counters.leased)
    ⟨by simp, by simp, fun _ _ => rfl, by simp, by simp⟩ ?_) ?_
  · rintro id rest counters p ⟨hsplit, hleases⟩
    have hsel : id ∈ pool.selectCandidateIds runner step registryGeneration limit budget := by
      rw [← hsplit]
      simp
    rw [heq] at hsel
    obtain ⟨r, hmem, hrid, helig⟩ := mem_naiveSelection hsel
    have hr : pool.tasks[id]? = some r := by
      rw [← hrid]
      exact (mem_recordsOf pool.tasks h.keyed r).1 hmem
    rw [← hsplit, nodup_append, nodup_cons] at hids
    obtain ⟨-, -, hdisj⟩ := hids
    have hfresh : ∀ e ∈ counters.leased, e.1.taskId ≠ id := fun e he =>
      hdisj e.1.taskId (mem_map.2 ⟨e, he, rfl⟩) id (by simp)
    have hrp := (hleases.kept id hfresh).trans hr
    rw [wp_of_run_ok (claimTask_run counters hrp fun _ => (eligible_accepted helig).1)]
    refine ⟨?_, hleases.claim executorId expiresAtStep hr hrid helig hfresh⟩
    rw [← hsplit, map_append, append_assoc]
    exact congrArg (fun id' => counters.leased.map (·.1.taskId) ++ id' :: rest) hrid
  · rintro counters p ⟨hsplit, hleases⟩
    rw [append_nil] at hsplit
    exact ⟨hsplit, { hleases with }⟩

/-- A claim with room for its selection returns what it has selected. -/
theorem claimReady_leased (h : Good pool) (hnd : runner.acceptedProtocolIds.Nodup)
    (hroom : Reservable limit budget) :
    ∃ leased pool', (claimReadyForExecutorWithBudget debugAssertions runner executorId step
        registryGeneration limit budget expiresAtStep).run pool = (.ok leased, pool') ∧
      leased.map (·.1.taskId) =
        pool.selectCandidateIds runner step registryGeneration limit budget := by
  have hleased : wp (claimSelected debugAssertions runner executorId step registryGeneration limit
      budget expiresAtStep) _ _ pool := claimSelected_leased h hnd
  unfold claimReadyForExecutorWithBudget
  rw [if_pos hroom]
  rcases wp_outcome hleased with ⟨leased, pool', hrun, hids, -⟩ | ⟨_, _, -, hf⟩
  · exact ⟨leased, pool', hrun, hids⟩
  · exact hf.elim

theorem claimReady_run_of_not (h : ¬ Reservable limit budget) :
    (claimReadyForExecutorWithBudget debugAssertions runner executorId step registryGeneration limit
      budget expiresAtStep).run pool = (.panic capacityOverflow, pool) := by
  unfold claimReadyForExecutorWithBudget
  rw [if_neg h]
  rfl

theorem claimReady_of_ok {leased : List (TaskLease × Task)}
    (hok : ((claimReadyForExecutorWithBudget debugAssertions runner executorId step
      registryGeneration limit budget expiresAtStep).run pool).1 = .ok leased) :
    claimReadyForExecutorWithBudget debugAssertions runner executorId step registryGeneration limit
      budget expiresAtStep = claimSelected debugAssertions runner executorId step registryGeneration
        limit budget expiresAtStep := by
  by_cases hroom : Reservable limit budget
  · exact if_pos hroom
  · rw [claimReady_run_of_not hroom] at hok
    cases hok

/-- A claim without room for its selection changes nothing. -/
theorem claimReady_state {P : TaskPool → Prop} (h : P pool)
    (hselected : P ((claimSelected debugAssertions runner executorId step registryGeneration limit
      budget expiresAtStep).run pool).2) :
    P ((claimReadyForExecutorWithBudget debugAssertions runner executorId step registryGeneration
      limit budget expiresAtStep >>= fun _ => pure ()).run pool).2 := by
  rw [state_discard]
  by_cases hroom : Reservable limit budget
  · rw [claimReadyForExecutorWithBudget, if_pos hroom]
    exact hselected
  · rw [claimReady_run_of_not hroom]
    exact h

end Leasing

end TaskPool

end MutsukiRuntime
