/-
  THE INDEX INVARIANT: what the eight indexes of the pool say about the records.

  * A *slot index* maps a slot (a step or a runner) to the ids of the records that
    occupy it: `SlotIndex m tasks slot taken`.  The ids in `taken` have been cut out
    of the index by `takeDueBuckets` and are still to be put back.
  * The ready queues and the ready counts have an invariant of their own
    (`QueueIndex`, `CountIndex`).
-/
import MutsukiRuntime.Core.TaskPool.Indexes

namespace MutsukiRuntime

open Std Buckets List

abbrev TaskMap := ExtTreeMap TaskId TaskRecord

/-- Every record is stored under its own id. -/
def Keyed (tasks : TaskMap) : Prop :=
  ∀ (taskId : TaskId) (r : TaskRecord), tasks[taskId]? = some r → r.task.taskId = taskId

/-! ## Slots of a record -/

namespace TaskRecord

def readyStep (r : TaskRecord) : Option Nat :=
  if r.status = .ready then r.task.readyAtStep else none

def wakeStep (r : TaskRecord) : Option Nat :=
  if r.status = .waiting ∨ r.status = .blocked then r.task.readyAtStep else none

def runningUnder (r : TaskRecord) : Option String :=
  if r.status = .running then r.claimedBy else none

def waitingUnder (r : TaskRecord) : Option String :=
  if r.status = .waiting then r.ownerRunner else none

def leaseExpiry (r : TaskRecord) : Option Nat :=
  if r.status = .running then r.lease.bind (·.expiresAtStep) else none

def hasExpectations (r : TaskRecord) : Prop :=
  r.status = .ready ∧ r.task.expectedVersions ≠ []

instance (r : TaskRecord) : Decidable r.hasExpectations :=
  inferInstanceAs (Decidable (_ ∧ _))

/-- The record queues for `protocolId` under `selector`. -/
def queuesAt (r : TaskRecord) (protocolId : String) (selector : ReadySelector) : Prop :=
  r.status = .ready ∧ r.task.protocolId = protocolId ∧ readySelectorOf r = selector

instance (r : TaskRecord) (protocolId : String) (selector : ReadySelector) :
    Decidable (r.queuesAt protocolId selector) :=
  inferInstanceAs (Decidable (_ ∧ _ ∧ _))

def countBucket (r : TaskRecord) : CountBucket :=
  ⟨r.task.readyAtStep.getD 0, r.task.registryGeneration⟩

/-- The record counts for `protocolId`, `selector` and `b`. -/
def countsAt (protocolId : String) (selector : ReadySelector) (b : CountBucket)
    (r : TaskRecord) : Bool :=
  decide (r.queuesAt protocolId selector) && decide (r.countBucket = b)

end TaskRecord

/-! ## Slot indexes -/

variable {taskId : TaskId} {r : TaskRecord}

section Slot

variable {κ : Type} [Ord κ] [TransOrd κ] [LawfulEqOrd κ] [DecidableEq κ]

def setSlot (m : ExtTreeMap κ (ExtTreeSet TaskId)) (slot : Option κ) (taskId : TaskId)
    (present : Bool) : ExtTreeMap κ (ExtTreeSet TaskId) :=
  match slot with
  | some key => setMapValue m key taskId present
  | none => m

theorem mem_bucket_setMapValue (m : ExtTreeMap κ (ExtTreeSet TaskId)) (key a : κ)
    (taskId b : TaskId) (present : Bool) :
    b ∈ bucket (setMapValue m key taskId present) a ↔
      if key = a ∧ taskId = b then present = true else b ∈ bucket m a := by
  unfold setMapValue
  cases present with
  | true =>
    rw [if_pos rfl, bucket_upsert]
    by_cases hk : key = a
    · subst hk
      by_cases hb : taskId = b <;> simp [hb]
    · simp [hk]
  | false =>
    rw [if_neg (by simp), bucket_shrink _ _ _ _ (by simp [Bucket.empty])]
    by_cases hk : key = a
    · subst hk
      by_cases hb : taskId = b <;> simp [hb]
    · simp [hk]

theorem mem_bucket_setSlot (m : ExtTreeMap κ (ExtTreeSet TaskId)) (slot : Option κ) (a : κ)
    (taskId b : TaskId) (present : Bool) :
    b ∈ bucket (setSlot m slot taskId present) a ↔
      if slot = some a ∧ taskId = b then present = true else b ∈ bucket m a := by
  cases slot with
  | none => simp [setSlot]
  | some key => simp [setSlot, mem_bucket_setMapValue]

omit [DecidableEq κ] in
theorem pruned_setSlot {m : ExtTreeMap κ (ExtTreeSet TaskId)} (hm : Pruned (fun _ => True) m)
    (slot : Option κ) (taskId : TaskId) (present : Bool) :
    Pruned (fun _ => True) (setSlot m slot taskId present) := by
  cases slot with
  | none => exact hm
  | some key =>
    cases present with
    | true =>
      show Pruned _ (upsert m key (·.insert taskId))
      refine hm.upsert key _ ?_ trivial
      intro hempty
      have hmem : taskId ∈ (bucket m key).insert taskId := by simp
      rw [hempty] at hmem
      exact absurd hmem (by simp [Bucket.empty])
    | false => exact hm.shrink key _ (fun _ _ => trivial)

/-- `m` lists under each slot the ids of the records in it, except the ids in `taken`. -/
structure SlotIndex (m : ExtTreeMap κ (ExtTreeSet TaskId)) (tasks : TaskMap)
    (slot : TaskRecord → Option κ) (taken : TaskId → Prop) : Prop where
  pruned : Pruned (fun _ => True) m
  mem_iff : ∀ (key : κ) (taskId : TaskId), taskId ∈ bucket m key ↔
    ∃ r, tasks[taskId]? = some r ∧ slot r = some key ∧ ¬ taken taskId

namespace SlotIndex

variable {m m' : ExtTreeMap κ (ExtTreeSet TaskId)} {tasks : TaskMap}
  {slot : TaskRecord → Option κ} {taken : TaskId → Prop}

omit [LawfulEqOrd κ] [DecidableEq κ] in
theorem empty (taken : TaskId → Prop) : SlotIndex (κ := κ) ∅ ∅ slot taken where
  pruned := Pruned.empty
  mem_iff key taskId := by simp [Bucket.empty]

theorem insert (h : SlotIndex m tasks slot taken) (r : TaskRecord) (hnew : tasks[taskId]? = none) :
    SlotIndex (setSlot m (slot r) taskId true) (tasks.insert taskId r) slot
      (fun id => taken id ∧ id ≠ taskId) where
  pruned := pruned_setSlot h.pruned _ _ _
  mem_iff key id := by
    rw [mem_bucket_setSlot, getElem?_insert_ite, h.mem_iff]
    by_cases hid : taskId = id
    · subst hid
      by_cases hs : slot r = some key <;> simp [hs, hnew]
    · have hne : id ≠ taskId := fun he => hid he.symm
      simp [hid, hne]

theorem remove (h : SlotIndex m tasks slot taken) (hr : tasks[taskId]? = some r) :
    SlotIndex (setSlot m (slot r) taskId false) (tasks.erase taskId) slot taken where
  pruned := pruned_setSlot h.pruned _ _ _
  mem_iff key id := by
    rw [mem_bucket_setSlot, getElem?_erase_ite, h.mem_iff]
    by_cases hid : taskId = id
    · subst hid
      by_cases hs : slot r = some key <;> simp [hs, hr]
    · simp [hid]

omit [DecidableEq κ] in
theorem ext (h : SlotIndex m tasks slot taken) (h' : SlotIndex m' tasks slot taken) : m = m' := by
  refine h.pruned.ext h'.pruned ?_
  intro key
  apply ExtTreeSet.ext_mem
  intro taskId
  rw [h.mem_iff, h'.mem_iff]

end SlotIndex

end Slot

/-! ## Ready queues -/

/-- The queue of a protocol and selector. -/
def queueAt (m : ReadyQueues) (protocolId : String) (selector : ReadySelector) :
    ExtTreeSet ReadyKey :=
  bucket (bucket m protocolId) selector

theorem mem_queueAt_setReady (m : ReadyQueues) (p a : String) (s b : ReadySelector)
    (key k : ReadyKey) (present : Bool) :
    k ∈ queueAt (setReady m p s key present) a b ↔
      if p = a ∧ s = b ∧ key = k then present = true else k ∈ queueAt m a b := by
  unfold setReady queueAt
  cases present with
  | true =>
    rw [if_pos rfl, bucket_upsert]
    by_cases hp : p = a
    · subst hp
      rw [if_pos rfl, bucket_upsert]
      by_cases hs : s = b
      · subst hs
        by_cases hk : key = k <;> simp [hk]
      · simp [hs]
    · simp [hp]
  | false =>
    have hinner : ∀ q : ExtTreeSet ReadyKey, q = Bucket.empty → q.erase key = Bucket.empty := by
      intro q hq
      subst hq
      simp [Bucket.empty]
    have houter : shrink (Bucket.empty : ExtTreeMap ReadySelector (ExtTreeSet ReadyKey)) s
        (·.erase key) = Bucket.empty := by
      simp [shrink, Bucket.empty]
    rw [if_neg (by simp), bucket_shrink _ _ _ _ houter]
    by_cases hp : p = a
    · subst hp
      rw [if_pos rfl, bucket_shrink _ _ _ _ (hinner _ rfl)]
      by_cases hs : s = b
      · subst hs
        by_cases hk : key = k <;> simp [hk]
      · simp [hs]
    · simp [hp]

/-- The inner maps of the ready queues are pruned too. -/
abbrev PrunedQueues (m : ReadyQueues) : Prop := Pruned (Pruned fun _ => True) m

theorem upsert_ne_empty {κ β : Type} [Ord κ] [TransOrd κ] [LawfulEqOrd κ] [Bucket β]
    (m : ExtTreeMap κ β) (k : κ) (f : β → β) : upsert m k f ≠ Bucket.empty := by
  intro h
  have hmem : k ∈ upsert m k f := by simp [upsert]
  rw [h] at hmem
  simp [Bucket.empty] at hmem

theorem prunedQueues_setReady {m : ReadyQueues} (hm : PrunedQueues m) (p : String)
    (s : ReadySelector) (key : ReadyKey) (present : Bool) :
    PrunedQueues (setReady m p s key present) := by
  unfold setReady
  cases present with
  | true =>
    rw [if_pos rfl]
    refine hm.upsert p _ (upsert_ne_empty _ _ _) ?_
    refine (hm.bucket_of Pruned.empty p).upsert s _ ?_ trivial
    intro hempty
    have hmem : key ∈ (bucket (bucket m p) s).insert key := by simp
    rw [hempty] at hmem
    exact absurd hmem (by simp [Bucket.empty])
  | false =>
    rw [if_neg (by simp)]
    exact hm.shrink p _ (fun q hq => hq.shrink s _ (fun _ _ => trivial))

/-- The ready queues hold the keys of the ready records, under their protocol and selector. -/
structure QueueIndex (m : ReadyQueues) (tasks : TaskMap) : Prop where
  pruned : PrunedQueues m
  mem_iff : ∀ (p : String) (s : ReadySelector) (k : ReadyKey), k ∈ queueAt m p s ↔
    ∃ r, tasks[k.taskId]? = some r ∧ r.queuesAt p s ∧ readyKeyOf r = k

namespace QueueIndex

variable {m m' : ReadyQueues} {tasks : TaskMap}

theorem empty : QueueIndex ∅ ∅ where
  pruned := Pruned.empty
  mem_iff p s k := by simp [queueAt, Bucket.empty]

theorem ext (h : QueueIndex m tasks) (h' : QueueIndex m' tasks) : m = m' := by
  refine h.pruned.ext h'.pruned ?_
  intro p
  refine (h.pruned.bucket_of Pruned.empty p).ext (h'.pruned.bucket_of Pruned.empty p) ?_
  intro s
  apply ExtTreeSet.ext_mem
  intro k
  have h1 := h.mem_iff p s k
  have h2 := h'.mem_iff p s k
  unfold queueAt at h1 h2
  rw [h1, h2]

/-- What `updateRecord` does to the queues. -/
def edit (m : ReadyQueues) (r : TaskRecord) (present : Bool) : ReadyQueues :=
  if r.status = .ready then
    setReady m r.task.protocolId (readySelectorOf r) (readyKeyOf r) present
  else m

theorem mem_edit (m : ReadyQueues) (r : TaskRecord) (present : Bool) (p : String)
    (s : ReadySelector) (k : ReadyKey) :
    k ∈ queueAt (edit m r present) p s ↔
      if r.queuesAt p s ∧ readyKeyOf r = k then present = true else k ∈ queueAt m p s := by
  unfold edit TaskRecord.queuesAt
  by_cases hr : r.status = .ready
  · rw [if_pos hr, mem_queueAt_setReady]
    simp [hr, and_assoc]
  · simp [hr]

theorem pruned_edit (h : PrunedQueues m) (r : TaskRecord) (present : Bool) :
    PrunedQueues (edit m r present) := by
  unfold edit
  split
  · exact prunedQueues_setReady h _ _ _ _
  · exact h

theorem insert (h : QueueIndex m tasks) (hnew : tasks[r.task.taskId]? = none) :
    QueueIndex (edit m r true) (tasks.insert r.task.taskId r) where
  pruned := pruned_edit h.pruned r true
  mem_iff p s k := by
    rw [mem_edit, getElem?_insert_ite, h.mem_iff]
    by_cases hid : r.task.taskId = k.taskId
    · rw [if_pos hid, ← hid, hnew]
      by_cases hs : r.queuesAt p s ∧ readyKeyOf r = k <;> simp [hs]
    · have hk : readyKeyOf r ≠ k := fun he => hid (by rw [← he]; rfl)
      simp [hid, hk]

theorem remove (h : QueueIndex m tasks) (hr : tasks[r.task.taskId]? = some r) :
    QueueIndex (edit m r false) (tasks.erase r.task.taskId) where
  pruned := pruned_edit h.pruned r false
  mem_iff p s k := by
    rw [mem_edit, getElem?_erase_ite, h.mem_iff]
    by_cases hid : r.task.taskId = k.taskId
    · rw [if_pos hid, ← hid, hr]
      by_cases hs : r.queuesAt p s ∧ readyKeyOf r = k
      · simp [hs]
      · rw [if_neg hs]
        simpa using fun h1 h2 => hs ⟨h1, h2⟩
    · have hk : readyKeyOf r ≠ k := fun he => hid (by rw [← he]; rfl)
      simp [hid, hk]

end QueueIndex

/-! ## Ready counts -/

/-- The count of a protocol, selector and bucket. -/
def countAt (m : ReadyCounts) (protocolId : String) (selector : ReadySelector)
    (b : CountBucket) : Nat :=
  bucket (bucket (bucket m protocolId) selector) b

theorem countAt_setReadyCount (m : ReadyCounts) (p a : String) (s b : ReadySelector)
    (step generation : Nat) (c : CountBucket) (present : Bool) :
    countAt (setReadyCount m p s step generation present) a b c =
      if p = a ∧ s = b ∧ (⟨step, generation⟩ : CountBucket) = c then
        (if present then countAt m a b c + 1 else countAt m a b c - 1)
      else countAt m a b c := by
  unfold setReadyCount countAt
  cases present with
  | true =>
    rw [if_pos rfl, bucket_upsert]
    by_cases hp : p = a
    · subst hp
      rw [if_pos rfl, bucket_upsert]
      by_cases hs : s = b
      · subst hs
        rw [if_pos rfl, bucket_upsert]
        by_cases hc : (⟨step, generation⟩ : CountBucket) = c <;> simp [hc]
      · simp [hs]
    · simp [hp]
  | false =>
    have h1 : shrink (Bucket.empty : ExtTreeMap CountBucket Nat) ⟨step, generation⟩ (· - 1) =
        Bucket.empty := by simp [shrink, Bucket.empty]
    have h2 : shrink (Bucket.empty : ExtTreeMap ReadySelector (ExtTreeMap CountBucket Nat)) s
        (shrink · ⟨step, generation⟩ (· - 1)) = Bucket.empty := by simp [shrink, Bucket.empty]
    rw [if_neg (by simp), bucket_shrink _ _ _ _ h2]
    by_cases hp : p = a
    · subst hp
      rw [if_pos rfl, bucket_shrink _ _ _ _ h1]
      by_cases hs : s = b
      · subst hs
        rw [if_pos rfl, bucket_shrink _ _ _ _ (by simp [Bucket.empty])]
        by_cases hc : (⟨step, generation⟩ : CountBucket) = c <;> simp [hc]
      · simp [hs]
    · simp [hp]

/-- All three levels of the ready counts are pruned. -/
abbrev PrunedCounts (m : ReadyCounts) : Prop := Pruned (Pruned (Pruned fun _ => True)) m

theorem prunedCounts_setReadyCount {m : ReadyCounts} (hm : PrunedCounts m) (p : String)
    (s : ReadySelector) (step generation : Nat) (present : Bool) :
    PrunedCounts (setReadyCount m p s step generation present) := by
  unfold setReadyCount
  cases present with
  | true =>
    rw [if_pos rfl]
    have h1 := hm.bucket_of Pruned.empty p
    have h2 := h1.bucket_of Pruned.empty s
    refine hm.upsert p _ (upsert_ne_empty _ _ _) ?_
    refine h1.upsert s _ (upsert_ne_empty _ _ _) ?_
    exact h2.upsert _ _ (Nat.succ_ne_zero _) trivial
  | false =>
    rw [if_neg (by simp)]
    exact hm.shrink p _ (fun q hq => hq.shrink s _ (fun c hc => hc.shrink _ _ (fun _ _ => trivial)))

/-- The ready counts count the ready records. -/
structure CountIndex (m : ReadyCounts) (tasks : TaskMap) : Prop where
  pruned : PrunedCounts m
  count_eq : ∀ (p : String) (s : ReadySelector) (b : CountBucket),
    countAt m p s b = (recordsOf tasks).countP (TaskRecord.countsAt p s b)

theorem recordsOf_insert_perm {tasks : TaskMap} (r : TaskRecord) (hnew : tasks[taskId]? = none) :
    (recordsOf (tasks.insert taskId r)).Perm (r :: recordsOf tasks) :=
  (toList_insert_perm tasks taskId r hnew).map _

theorem recordsOf_perm_erase {tasks : TaskMap} (hr : tasks[taskId]? = some r) :
    (recordsOf tasks).Perm (r :: recordsOf (tasks.erase taskId)) :=
  (toList_perm_of_getElem? tasks taskId r hr).map _

namespace CountIndex

variable {m m' : ReadyCounts} {tasks : TaskMap}

theorem empty : CountIndex ∅ ∅ where
  pruned := Pruned.empty
  count_eq p s b := by
    have hnil : recordsOf ∅ = [] := by simp [recordsOf, ExtTreeMap.toList_eq_nil_iff]
    simp [countAt, hnil, Bucket.empty]

theorem ext (h : CountIndex m tasks) (h' : CountIndex m' tasks) : m = m' := by
  refine h.pruned.ext h'.pruned ?_
  intro p
  have hp := h.pruned.bucket_of Pruned.empty p
  have hp' := h'.pruned.bucket_of Pruned.empty p
  refine hp.ext hp' ?_
  intro s
  refine (hp.bucket_of Pruned.empty s).ext (hp'.bucket_of Pruned.empty s) ?_
  intro b
  have h1 := h.count_eq p s b
  have h2 := h'.count_eq p s b
  unfold countAt at h1 h2
  rw [h1, h2]

/-- What `updateRecord` does to the counts. -/
def edit (m : ReadyCounts) (r : TaskRecord) (present : Bool) : ReadyCounts :=
  if r.status = .ready then
    setReadyCount m r.task.protocolId (readySelectorOf r) (r.task.readyAtStep.getD 0)
      r.task.registryGeneration present
  else m

theorem countAt_edit (m : ReadyCounts) (r : TaskRecord) (present : Bool) (p : String)
    (s : ReadySelector) (b : CountBucket) :
    countAt (edit m r present) p s b =
      if r.countsAt p s b then
        (if present then countAt m p s b + 1 else countAt m p s b - 1)
      else countAt m p s b := by
  unfold edit TaskRecord.countsAt TaskRecord.queuesAt TaskRecord.countBucket
  by_cases hr : r.status = .ready
  · rw [if_pos hr, countAt_setReadyCount]
    simp [hr, and_assoc]
  · simp [hr]

theorem pruned_edit (h : PrunedCounts m) (r : TaskRecord) (present : Bool) :
    PrunedCounts (edit m r present) := by
  unfold edit
  split
  · exact prunedCounts_setReadyCount h _ _ _ _ _
  · exact h

theorem insert (h : CountIndex m tasks) (r : TaskRecord) (hnew : tasks[taskId]? = none) :
    CountIndex (edit m r true) (tasks.insert taskId r) where
  pruned := pruned_edit h.pruned r true
  count_eq p s b := by
    rw [countAt_edit, (recordsOf_insert_perm r hnew).countP_eq, countP_cons, h.count_eq]
    by_cases hc : r.countsAt p s b = true <;> simp [hc]

theorem remove (h : CountIndex m tasks) (hr : tasks[taskId]? = some r) :
    CountIndex (edit m r false) (tasks.erase taskId) where
  pruned := pruned_edit h.pruned r false
  count_eq p s b := by
    have hcount := (recordsOf_perm_erase hr).countP_eq (TaskRecord.countsAt p s b)
    rw [countP_cons] at hcount
    rw [countAt_edit, h.count_eq, hcount]
    by_cases hc : r.countsAt p s b = true <;> simp [hc]

end CountIndex

/-! ## All indexes together -/

/-- `idx` is the index of `tasks`, up to the wake and lease entries still cut out. -/
structure Describes (idx : TaskIndexes) (tasks : TaskMap) (wakeTaken leaseTaken : TaskId → Prop) :
    Prop where
  queues : QueueIndex idx.readyByProtocol tasks
  counts : CountIndex idx.readyCountsByProtocol tasks
  readyStep : SlotIndex idx.readyByStep tasks TaskRecord.readyStep fun _ => False
  expectations : ∀ taskId, taskId ∈ idx.readyWithExpectations ↔
    ∃ r, tasks[taskId]? = some r ∧ r.hasExpectations
  wake : SlotIndex idx.wakeByStep tasks TaskRecord.wakeStep wakeTaken
  running : SlotIndex idx.runningByRunner tasks TaskRecord.runningUnder fun _ => False
  waiting : SlotIndex idx.waitingByRunner tasks TaskRecord.waitingUnder fun _ => False
  leases : SlotIndex idx.leasesByExpiry tasks TaskRecord.leaseExpiry leaseTaken

namespace TaskIndexes

variable (idx : TaskIndexes) (r : TaskRecord) (present : Bool)

theorem updateRecord_readyByProtocol : (idx.updateRecord r present).readyByProtocol =
    QueueIndex.edit idx.readyByProtocol r present := by
  unfold updateRecord QueueIndex.edit updateReady updateRunning updateWaiting updateWake
  cases hs : r.status <;> simp <;> cases r.task.readyAtStep <;> rfl

theorem updateRecord_readyCounts : (idx.updateRecord r present).readyCountsByProtocol =
    CountIndex.edit idx.readyCountsByProtocol r present := by
  unfold updateRecord CountIndex.edit updateReady updateRunning updateWaiting updateWake
  cases hs : r.status <;> simp <;> cases r.task.readyAtStep <;> rfl

theorem updateRecord_readyByStep : (idx.updateRecord r present).readyByStep =
    setSlot idx.readyByStep r.readyStep r.task.taskId present := by
  unfold updateRecord TaskRecord.readyStep updateReady updateRunning updateWaiting updateWake
  cases hs : r.status <;> simp <;> cases r.task.readyAtStep <;> rfl

theorem updateRecord_wakeByStep : (idx.updateRecord r present).wakeByStep =
    setSlot idx.wakeByStep r.wakeStep r.task.taskId present := by
  unfold updateRecord TaskRecord.wakeStep updateReady updateRunning updateWaiting updateWake
  cases hs : r.status <;> simp <;> cases r.task.readyAtStep <;> rfl

theorem updateRecord_runningByRunner : (idx.updateRecord r present).runningByRunner =
    setSlot idx.runningByRunner r.runningUnder r.task.taskId present := by
  unfold updateRecord TaskRecord.runningUnder updateReady updateRunning updateWaiting updateWake
  cases hs : r.status <;> simp <;> cases r.task.readyAtStep <;> cases r.claimedBy <;> rfl

theorem updateRecord_waitingByRunner : (idx.updateRecord r present).waitingByRunner =
    setSlot idx.waitingByRunner r.waitingUnder r.task.taskId present := by
  unfold updateRecord TaskRecord.waitingUnder updateReady updateRunning updateWaiting updateWake
  cases hs : r.status <;> simp <;> cases r.task.readyAtStep <;> cases r.ownerRunner <;> rfl

theorem updateRecord_leasesByExpiry : (idx.updateRecord r present).leasesByExpiry =
    setSlot idx.leasesByExpiry r.leaseExpiry r.task.taskId present := by
  unfold updateRecord TaskRecord.leaseExpiry updateReady updateRunning updateWaiting updateWake
  cases hs : r.status <;> simp <;> first
    | (cases r.task.readyAtStep <;> rfl)
    | (cases r.lease.bind (·.expiresAtStep) <;> rfl)

theorem mem_updateRecord_expectations (taskId : TaskId) :
    taskId ∈ (idx.updateRecord r present).readyWithExpectations ↔
      if r.hasExpectations ∧ r.task.taskId = taskId then present = true
      else taskId ∈ idx.readyWithExpectations := by
  by_cases hr : r.hasExpectations
  · have hset : (idx.updateRecord r present).readyWithExpectations =
        setValue idx.readyWithExpectations r.task.taskId present := by
      simp [updateRecord, updateReady, hr.1, hr.2]
    rw [hset]
    cases present <;> by_cases hid : r.task.taskId = taskId <;> simp [hr, hid, setValue]
  · have hset : (idx.updateRecord r present).readyWithExpectations =
        idx.readyWithExpectations := by
      unfold updateRecord updateReady updateRunning updateWaiting updateWake
      split
      · rename_i hs
        have hnil : r.task.expectedVersions = [] := by
          by_contra hne
          exact hr ⟨hs, hne⟩
        simp [hnil]
      all_goals first
        | rfl
        | (cases r.task.readyAtStep <;> rfl)
    simp [hset, hr]

end TaskIndexes

namespace Describes

variable {idx idx' : TaskIndexes} {tasks : TaskMap} {wakeTaken leaseTaken : TaskId → Prop}

theorem empty : Describes {} ∅ wakeTaken leaseTaken where
  queues := QueueIndex.empty
  counts := CountIndex.empty
  readyStep := SlotIndex.empty _
  expectations taskId := by simp
  wake := SlotIndex.empty _
  running := SlotIndex.empty _
  waiting := SlotIndex.empty _
  leases := SlotIndex.empty _

section Edits

variable (h : Describes idx tasks wakeTaken leaseTaken)

include h

theorem ext (h' : Describes idx' tasks wakeTaken leaseTaken) : idx = idx' := by
  have hexp : idx.readyWithExpectations = idx'.readyWithExpectations := by
    apply ExtTreeSet.ext_mem
    intro taskId
    rw [h.expectations, h'.expectations]
  have h1 := h.queues.ext h'.queues
  have h2 := h.counts.ext h'.counts
  have h3 := h.readyStep.ext h'.readyStep
  have h4 := h.wake.ext h'.wake
  have h5 := h.running.ext h'.running
  have h6 := h.waiting.ext h'.waiting
  have h7 := h.leases.ext h'.leases
  cases idx; cases idx'
  simp_all

theorem insert (hnew : tasks[r.task.taskId]? = none) :
    Describes (idx.updateRecord r true) (tasks.insert r.task.taskId r)
      (fun id => wakeTaken id ∧ id ≠ r.task.taskId)
      (fun id => leaseTaken id ∧ id ≠ r.task.taskId) where
  queues := by
    rw [TaskIndexes.updateRecord_readyByProtocol]
    exact h.queues.insert hnew
  counts := by
    rw [TaskIndexes.updateRecord_readyCounts]
    exact h.counts.insert r hnew
  readyStep := by
    rw [TaskIndexes.updateRecord_readyByStep]
    simpa using h.readyStep.insert r hnew
  expectations taskId := by
    rw [TaskIndexes.mem_updateRecord_expectations, getElem?_insert_ite, h.expectations]
    by_cases hid : r.task.taskId = taskId
    · subst hid
      by_cases hr : r.hasExpectations <;> simp [hr, hnew]
    · simp [hid]
  wake := by
    rw [TaskIndexes.updateRecord_wakeByStep]
    exact h.wake.insert r hnew
  running := by
    rw [TaskIndexes.updateRecord_runningByRunner]
    simpa using h.running.insert r hnew
  waiting := by
    rw [TaskIndexes.updateRecord_waitingByRunner]
    simpa using h.waiting.insert r hnew
  leases := by
    rw [TaskIndexes.updateRecord_leasesByExpiry]
    exact h.leases.insert r hnew

theorem remove (hr : tasks[r.task.taskId]? = some r) :
    Describes (idx.updateRecord r false) (tasks.erase r.task.taskId) wakeTaken leaseTaken where
  queues := by
    rw [TaskIndexes.updateRecord_readyByProtocol]
    exact h.queues.remove hr
  counts := by
    rw [TaskIndexes.updateRecord_readyCounts]
    exact h.counts.remove hr
  readyStep := by
    rw [TaskIndexes.updateRecord_readyByStep]
    exact h.readyStep.remove hr
  expectations taskId := by
    rw [TaskIndexes.mem_updateRecord_expectations, getElem?_erase_ite, h.expectations]
    by_cases hid : r.task.taskId = taskId
    · subst hid
      by_cases he : r.hasExpectations <;> simp [he, hr]
    · simp [hid]
  wake := by
    rw [TaskIndexes.updateRecord_wakeByStep]
    exact h.wake.remove hr
  running := by
    rw [TaskIndexes.updateRecord_runningByRunner]
    exact h.running.remove hr
  waiting := by
    rw [TaskIndexes.updateRecord_waitingByRunner]
    exact h.waiting.remove hr
  leases := by
    rw [TaskIndexes.updateRecord_leasesByExpiry]
    exact h.leases.remove hr

/-- Replacing a record: unindex the old one, store and index the new one. -/
theorem replace {r' : TaskRecord}
    (hr : tasks[r.task.taskId]? = some r) (hid : r'.task.taskId = r.task.taskId) :
    Describes ((idx.updateRecord r false).updateRecord r' true) (tasks.insert r.task.taskId r')
      (fun id => wakeTaken id ∧ id ≠ r.task.taskId)
      (fun id => leaseTaken id ∧ id ≠ r.task.taskId) := by
  have hnew : (tasks.erase r.task.taskId)[r'.task.taskId]? = none := by simp [hid]
  have hins := (h.remove hr).insert hnew
  have hmap : (tasks.erase r.task.taskId).insert r'.task.taskId r' =
      tasks.insert r.task.taskId r' := by
    apply ExtTreeMap.ext_getElem?
    intro a
    rw [getElem?_insert_ite, getElem?_insert_ite, getElem?_erase_ite, hid]
    by_cases ha : r.task.taskId = a <;> simp [ha]
  rw [hmap, hid] at hins
  exact hins

theorem restore (hr : tasks[r.task.taskId]? = some r)
    (hw : ¬ wakeTaken r.task.taskId) (hl : ¬ leaseTaken r.task.taskId) :
    (idx.updateRecord r false).updateRecord r true = idx := by
  have hrep := h.replace hr (rfl : r.task.taskId = r.task.taskId)
  rw [insert_eq_self tasks _ _ hr] at hrep
  have hfree : ∀ {taken : TaskId → Prop}, ¬ taken r.task.taskId →
      (fun id => taken id ∧ id ≠ r.task.taskId) = taken := by
    intro taken htaken
    funext id
    simp only [eq_iff_iff, and_iff_left_iff_imp]
    intro hid heq
    exact htaken (heq ▸ hid)
  rw [hfree hw, hfree hl] at hrep
  exact hrep.ext h

end Edits

end Describes

/-! ## Building the indexes from the records -/

/-- No entry is cut out of the indexes. -/
def noneTaken : TaskId → Prop := fun _ => False

theorem noneTaken_and (P : TaskId → Prop) : (fun id => noneTaken id ∧ P id) = noneTaken := by
  funext id
  simp [noneTaken]

/-- Storing records with distinct new ids one by one. -/
def storeAll (records : List TaskRecord) (tasks : TaskMap) : TaskMap :=
  records.foldl (fun m r => m.insert r.task.taskId r) tasks

theorem getElem?_storeAll (records : List TaskRecord) (tasks : TaskMap)
    (hnd : (records.map (·.task.taskId)).Nodup)
    (hnew : ∀ r ∈ records, tasks[r.task.taskId]? = none) (taskId : TaskId) (v : TaskRecord) :
    (storeAll records tasks)[taskId]? = some v ↔
      (v ∈ records ∧ v.task.taskId = taskId) ∨ tasks[taskId]? = some v := by
  induction records generalizing tasks with
  | nil => simp [storeAll]
  | cons r records ih =>
    have hnd' := nodup_cons.1 hnd
    have hne : ∀ x ∈ records, r.task.taskId ≠ x.task.taskId := by
      intro x hx he
      exact hnd'.1 (mem_map.2 ⟨x, hx, he.symm⟩)
    have hnew' : ∀ x ∈ records, (tasks.insert r.task.taskId r)[x.task.taskId]? = none := by
      intro x hx
      rw [getElem?_insert_ite, if_neg (hne x hx)]
      exact hnew x (by simp [hx])
    have hstep := ih (tasks.insert r.task.taskId r) hnd'.2 hnew'
    rw [show storeAll (r :: records) tasks = storeAll records (tasks.insert r.task.taskId r)
      from rfl, hstep, getElem?_insert_ite]
    have hr := hnew r (by simp)
    by_cases hid : r.task.taskId = taskId
    · subst hid
      rw [if_pos rfl, hr]
      constructor
      · rintro (⟨hv, hvid⟩ | hv)
        · exact .inl ⟨by simp [hv], hvid⟩
        · cases hv; exact .inl ⟨by simp, rfl⟩
      · rintro (⟨hv, hvid⟩ | hv)
        · rcases mem_cons.1 hv with rfl | hv
          · exact .inr rfl
          · exact absurd hvid.symm (hne v hv)
        · cases hv
    · rw [if_neg hid]
      constructor
      · rintro (⟨hv, hvid⟩ | hv)
        · exact .inl ⟨by simp [hv], hvid⟩
        · exact .inr hv
      · rintro (⟨hv, hvid⟩ | hv)
        · rcases mem_cons.1 hv with rfl | hv
          · exact absurd hvid hid
          · exact .inl ⟨hv, hvid⟩
        · exact .inr hv

theorem describes_foldl (records : List TaskRecord) (idx : TaskIndexes) (tasks : TaskMap)
    (h : Describes idx tasks noneTaken noneTaken)
    (hnd : (records.map (·.task.taskId)).Nodup)
    (hnew : ∀ r ∈ records, tasks[r.task.taskId]? = none) :
    Describes (records.foldl (fun idx r => idx.updateRecord r true) idx)
      (storeAll records tasks) noneTaken noneTaken := by
  induction records generalizing idx tasks with
  | nil => exact h
  | cons r records ih =>
    have hnd' := nodup_cons.1 hnd
    refine ih _ (tasks.insert r.task.taskId r) ?_ hnd'.2 ?_
    · have hins := h.insert (hnew r (by simp))
      rw [noneTaken_and] at hins
      exact hins
    · intro x hx
      have hne : r.task.taskId ≠ x.task.taskId := by
        intro he
        exact hnd'.1 (mem_map.2 ⟨x, hx, he.symm⟩)
      rw [getElem?_insert_ite, if_neg hne]
      exact hnew x (by simp [hx])

theorem mem_recordsOf (tasks : TaskMap) (hk : Keyed tasks) (r : TaskRecord) :
    r ∈ recordsOf tasks ↔ tasks[r.task.taskId]? = some r := by
  unfold recordsOf
  rw [mem_map]
  constructor
  · rintro ⟨⟨taskId, v⟩, hv, rfl⟩
    rw [ExtTreeMap.mem_toList_iff_getElem?_eq_some] at hv
    rw [hk taskId v hv]
    exact hv
  · intro h
    exact ⟨(r.task.taskId, r), ExtTreeMap.mem_toList_iff_getElem?_eq_some.2 h, rfl⟩

theorem ids_recordsOf (tasks : TaskMap) (hk : Keyed tasks) :
    (recordsOf tasks).map (·.task.taskId) = tasks.keys := by
  rw [recordsOf, map_map, ← ExtTreeMap.map_fst_toList_eq_keys]
  apply map_congr_left
  rintro ⟨taskId, v⟩ hv
  exact hk taskId v (ExtTreeMap.mem_toList_iff_getElem?_eq_some.1 hv)

theorem nodup_ids_recordsOf (tasks : TaskMap) (hk : Keyed tasks) :
    ((recordsOf tasks).map (·.task.taskId)).Nodup := by
  rw [ids_recordsOf tasks hk]
  exact ExtTreeMap.nodup_keys

/-- The indexes of the records of a map, taken in any order, describe the map. -/
theorem describes_indexesOf (tasks : TaskMap) (hk : Keyed tasks) (records : List TaskRecord)
    (hperm : records.Perm (recordsOf tasks)) :
    Describes (indexesOf records) tasks noneTaken noneTaken := by
  have hnd : (records.map (·.task.taskId)).Nodup :=
    (hperm.map _).nodup_iff.2 (nodup_ids_recordsOf tasks hk)
  have hstore : storeAll records ∅ = tasks := by
    apply ExtTreeMap.ext_getElem?
    intro taskId
    ext v
    rw [getElem?_storeAll records ∅ hnd (by simp) taskId v]
    constructor
    · rintro (⟨hv, rfl⟩ | hv)
      · exact (mem_recordsOf tasks hk v).1 (hperm.mem_iff.1 hv)
      · simp at hv
    · intro hv
      have hid := hk taskId v hv
      refine .inl ⟨hperm.mem_iff.2 ((mem_recordsOf tasks hk v).2 ?_), hid⟩
      rw [hid]; exact hv
  have h := describes_foldl records {} ∅ Describes.empty hnd (by simp)
  rw [hstore] at h
  exact h

/-! ## Cutting out due entries -/

theorem mem_takeDueBuckets (m : ExtTreeMap Nat (ExtTreeSet TaskId)) (step : Nat)
    (taskId : TaskId) (at' : Nat) :
    (taskId, at') ∈ (takeDueBuckets m step).1 ↔ at' ≤ step ∧ taskId ∈ bucket m at' := by
  unfold takeDueBuckets
  simp only [mem_flatMap, mem_map, Prod.mk.injEq]
  constructor
  · rintro ⟨⟨k, ids⟩, hk, id, hid, rfl, rfl⟩
    rw [ExtTreeMap.mem_toList_iff_getElem?_eq_some, ExtTreeMap.getElem?_filter'] at hk
    obtain ⟨hget, hle⟩ := Option.filter_eq_some_iff.1 hk
    refine ⟨of_decide_eq_true hle, ?_⟩
    rw [bucket_of_some m k ids hget]
    exact ExtTreeSet.mem_toList.1 hid
  · rintro ⟨hle, hmem⟩
    cases hget : m[at']? with
    | none => rw [bucket_of_none m at' hget] at hmem; simp [Bucket.empty] at hmem
    | some ids =>
      rw [bucket_of_some m at' ids hget] at hmem
      refine ⟨(at', ids), ?_, taskId, ExtTreeSet.mem_toList.2 hmem, rfl, rfl⟩
      rw [ExtTreeMap.mem_toList_iff_getElem?_eq_some, ExtTreeMap.getElem?_filter', hget]
      simp [hle]

theorem bucket_takeDueBuckets (m : ExtTreeMap Nat (ExtTreeSet TaskId)) (step key : Nat) :
    bucket (takeDueBuckets m step).2 key = if key ≤ step then Bucket.empty else bucket m key := by
  unfold takeDueBuckets bucket
  simp only [ExtTreeMap.getD_eq_getD_getElem?, ExtTreeMap.getElem?_filter']
  by_cases hle : key ≤ step
  · cases m[key]? <;> simp [hle]
  · cases m[key]? <;> simp [hle, Option.filter_some]

namespace SlotIndex

variable {m : ExtTreeMap Nat (ExtTreeSet TaskId)} {tasks : TaskMap}
  {slot : TaskRecord → Option Nat}

theorem nodup_takeDueBuckets (h : SlotIndex m tasks slot noneTaken) (step : Nat) :
    ((takeDueBuckets m step).1.map (·.1)).Nodup := by
  have hmap : (takeDueBuckets m step).1.map (·.1) =
      (m.filter fun k _ => decide (k ≤ step)).toList.flatMap fun e => e.2.toList := by
    unfold takeDueBuckets
    simp [map_flatMap, Function.comp_def]
  have hentry : ∀ e ∈ (m.filter fun k _ => decide (k ≤ step)).toList, ∀ id ∈ e.2.toList,
      ∃ r, tasks[id]? = some r ∧ slot r = some e.1 := by
    rintro ⟨k, ids⟩ he id hid
    rw [ExtTreeMap.mem_toList_iff_getElem?_eq_some, ExtTreeMap.getElem?_filter'] at he
    have hget := (Option.filter_eq_some_iff.1 he).1
    have hmem : id ∈ bucket m k := by
      rw [bucket_of_some m k ids hget]
      exact ExtTreeSet.mem_toList.1 hid
    obtain ⟨r, hr, hs, -⟩ := (h.mem_iff k id).1 hmem
    exact ⟨r, hr, hs⟩
  rw [hmap, nodup_flatMap]
  refine ⟨fun e _ => nodup_set_toList e.2, ?_⟩
  refine (ExtTreeMap.distinct_keys_toList).imp_of_mem ?_
  intro e e' he he' hne id hid hid'
  obtain ⟨r, hr, hs⟩ := hentry e he id hid
  obtain ⟨r', hr', hs'⟩ := hentry e' he' id hid'
  rw [hr] at hr'
  cases hr'
  have hkey : e.1 = e'.1 := Option.some.inj (hs.symm.trans hs')
  rw [hkey] at hne
  exact hne ReflCmp.compare_self

theorem takeDueBuckets (h : SlotIndex m tasks slot noneTaken) (step : Nat) :
    SlotIndex (takeDueBuckets m step).2 tasks slot
      (fun id => id ∈ (MutsukiRuntime.takeDueBuckets m step).1.map (·.1)) where
  pruned := by
    intro k b hk
    unfold MutsukiRuntime.takeDueBuckets at hk
    simp only at hk
    rw [ExtTreeMap.getElem?_filter'] at hk
    exact h.pruned k b (Option.filter_eq_some_iff.1 hk).1
  mem_iff key id := by
    have hdue : id ∈ (MutsukiRuntime.takeDueBuckets m step).1.map (·.1) ↔
        ∃ k, k ≤ step ∧ id ∈ bucket m k := by
      rw [mem_map]
      constructor
      · rintro ⟨⟨i, k⟩, hmem, rfl⟩
        exact ⟨k, (mem_takeDueBuckets m step i k).1 hmem⟩
      · rintro ⟨k, hk⟩
        exact ⟨(id, k), (mem_takeDueBuckets m step id k).2 hk, rfl⟩
    rw [bucket_takeDueBuckets, hdue]
    by_cases hle : key ≤ step
    · rw [if_pos hle]
      constructor
      · intro hmem; simp [Bucket.empty] at hmem
      · rintro ⟨r, hr, hs, hn⟩
        exact absurd ⟨key, hle, (h.mem_iff key id).2 ⟨r, hr, hs, (fun hf => hf)⟩⟩ hn
    · rw [if_neg hle, h.mem_iff]
      constructor
      · rintro ⟨r, hr, hs, -⟩
        refine ⟨r, hr, hs, ?_⟩
        rintro ⟨k, hk, hmem⟩
        obtain ⟨r', hr', hs', -⟩ := (h.mem_iff k id).1 hmem
        rw [hr] at hr'
        cases hr'
        rw [hs] at hs'
        cases hs'
        exact hle hk
      · rintro ⟨r, hr, hs, -⟩
        exact ⟨r, hr, hs, (fun hf => hf)⟩

end SlotIndex

end MutsukiRuntime
