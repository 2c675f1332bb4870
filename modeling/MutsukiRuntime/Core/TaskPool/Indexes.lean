/-
  TASK POOL INDEXES (`task_pool/indexes.rs`): the records of the pool, and the
  eight indexes that claiming, waking and lease reclaim read instead of scanning
  them.

  Hash maps are modelled as key-ordered maps: the index maps are only looked up.
  The cache of ready selectors is a memo table of `buildReadySelectors` and is
  left out.
-/
import MutsukiRuntime.Lib.Prog
import MutsukiRuntime.Contracts.Runner

namespace MutsukiRuntime

open Std Buckets

/-- `TaskRecord`. -/
structure TaskRecord where
  task : Task
  output : Option Value := none
  status : TaskStatus
  claimedBy : Option String := none
  ownerRunner : Option RunnerId := none
  lease : Option TaskLease := none
  failure : Option RuntimeError := none
  attemptGeneration : Nat := 0
  readySinceStep : Nat

/-- A record took up a lease, or gave it up. -/
inductive LeaseEvent where
  | issued (lease : TaskLease)
  | ended (lease : TaskLease)
  deriving DecidableEq

def LeaseEvent.taskId : LeaseEvent → TaskId
  | .issued lease | .ended lease => lease.taskId

/-- The events of a record whose lease goes from `previous` to `next`, newest first. -/
def leaseEvents (previous next : Option TaskLease) : List LeaseEvent :=
  if next = previous then []
  else next.toList.map .issued ++ previous.toList.map .ended

/-- The task of a record that is completed. -/
def completedTasks (r : TaskRecord) : List Task :=
  if r.status = .completed then [r.task] else []

/-! ## Keys -/

structure ReadySelector where
  runnerHint : Option String := none
  ownerRunner : Option String := none
  deriving DecidableEq

instance : Ord ReadySelector where
  compare := compareLex (compareOn (·.runnerHint)) (compareOn (·.ownerRunner))

instance : TransOrd ReadySelector := inferInstanceAs (TransCmp (compareLex _ _))

instance : LawfulEqOrd ReadySelector where
  eq_of_compare {a b} h := by
    obtain ⟨h1, h2⟩ := compareLex_eq_eq.1 h
    have e1 : a.runnerHint = b.runnerHint := LawfulEqOrd.eq_of_compare h1
    have e2 : a.ownerRunner = b.ownerRunner := LawfulEqOrd.eq_of_compare h2
    cases a; cases b; simp_all

/-- `ReadyKey`: the order of the ready queues.  `priority` is a `Reverse`. -/
structure ReadyKey where
  readyAtStep : Nat
  priority : Int
  createdSequence : Nat
  taskId : TaskId
  deriving DecidableEq

instance : Ord ReadyKey where
  compare := compareLex (compareOn (·.readyAtStep)) <|
    compareLex (fun a b => compareOn (·.priority) b a) <|
    compareLex (compareOn (·.createdSequence)) (compareOn (·.taskId))

instance : TransOrd ReadyKey := inferInstanceAs (TransCmp (compareLex _ _))

instance : LawfulEqOrd ReadyKey where
  eq_of_compare {a b} h := by
    obtain ⟨h1, h⟩ := compareLex_eq_eq.1 h
    obtain ⟨h2, h⟩ := compareLex_eq_eq.1 h
    obtain ⟨h3, h4⟩ := compareLex_eq_eq.1 h
    have e1 : a.readyAtStep = b.readyAtStep := LawfulEqOrd.eq_of_compare h1
    have e2 : b.priority = a.priority := LawfulEqOrd.eq_of_compare h2
    have e3 : a.createdSequence = b.createdSequence := LawfulEqOrd.eq_of_compare h3
    have e4 : a.taskId = b.taskId := LawfulEqOrd.eq_of_compare h4
    cases a; cases b; simp_all

def ReadyKey.isDue (k : ReadyKey) (currentStep : Nat) : Bool :=
  decide (k.readyAtStep ≤ currentStep)

/-- The bucket of a ready count: ready step and registry generation. -/
structure CountBucket where
  readyAtStep : Nat
  registryGeneration : Nat
  deriving DecidableEq

instance : Ord CountBucket where
  compare := compareLex (compareOn (·.readyAtStep)) (compareOn (·.registryGeneration))

instance : TransOrd CountBucket := inferInstanceAs (TransCmp (compareLex _ _))

instance : LawfulEqOrd CountBucket where
  eq_of_compare {a b} h := by
    obtain ⟨h1, h2⟩ := compareLex_eq_eq.1 h
    have e1 : a.readyAtStep = b.readyAtStep := LawfulEqOrd.eq_of_compare h1
    have e2 : a.registryGeneration = b.registryGeneration := LawfulEqOrd.eq_of_compare h2
    cases a; cases b; simp_all

/-! ## The indexes -/

abbrev ReadyQueues := ExtTreeMap String (ExtTreeMap ReadySelector (ExtTreeSet ReadyKey))

abbrev ReadyCounts := ExtTreeMap String (ExtTreeMap ReadySelector (ExtTreeMap CountBucket Nat))

structure TaskIndexes where
  readyByProtocol : ReadyQueues := ∅
  readyCountsByProtocol : ReadyCounts := ∅
  readyByStep : ExtTreeMap Nat (ExtTreeSet TaskId) := ∅
  readyWithExpectations : ExtTreeSet TaskId := ∅
  wakeByStep : ExtTreeMap Nat (ExtTreeSet TaskId) := ∅
  runningByRunner : ExtTreeMap String (ExtTreeSet TaskId) := ∅
  waitingByRunner : ExtTreeMap String (ExtTreeSet TaskId) := ∅
  leasesByExpiry : ExtTreeMap Nat (ExtTreeSet TaskId) := ∅

def setReady (index : ReadyQueues) (protocolId : String) (selector : ReadySelector)
    (key : ReadyKey) (present : Bool) : ReadyQueues :=
  if present then
    upsert index protocolId (upsert · selector (·.insert key))
  else
    shrink index protocolId (shrink · selector (·.erase key))

def setReadyCount (index : ReadyCounts) (protocolId : String) (selector : ReadySelector)
    (readyAtStep registryGeneration : Nat) (present : Bool) : ReadyCounts :=
  let bucket : CountBucket := ⟨readyAtStep, registryGeneration⟩
  if present then
    upsert index protocolId (upsert · selector (upsert · bucket (· + 1)))
  else
    shrink index protocolId (shrink · selector (shrink · bucket (· - 1)))

def setMapValue {κ ν : Type} [Ord κ] [TransOrd κ] [Ord ν] [TransOrd ν]
    (map : ExtTreeMap κ (ExtTreeSet ν)) (key : κ) (value : ν) (present : Bool) :
    ExtTreeMap κ (ExtTreeSet ν) :=
  if present then upsert map key (·.insert value) else shrink map key (·.erase value)

def setValue {ν : Type} [Ord ν] [TransOrd ν] (set : ExtTreeSet ν) (value : ν)
    (present : Bool) : ExtTreeSet ν :=
  if present then set.insert value else set.erase value

/-- `set_bucket` is `set_map_value` on a step-keyed map. -/
def setBucket (buckets : ExtTreeMap Nat (ExtTreeSet TaskId)) (step : Nat) (taskId : TaskId)
    (present : Bool) : ExtTreeMap Nat (ExtTreeSet TaskId) :=
  setMapValue buckets step taskId present

def readySelectorOf (record : TaskRecord) : ReadySelector :=
  { runnerHint := record.task.runnerHint, ownerRunner := record.ownerRunner }

def readyKeyOf (record : TaskRecord) : ReadyKey :=
  { readyAtStep := record.task.readyAtStep.getD 0
    priority := record.task.priority
    createdSequence := record.task.createdSequence
    taskId := record.task.taskId }

def TaskIndexes.updateWake (idx : TaskIndexes) (record : TaskRecord) (present : Bool) :
    TaskIndexes :=
  match record.task.readyAtStep with
  | some step =>
    { idx with wakeByStep := setBucket idx.wakeByStep step record.task.taskId present }
  | none => idx

def TaskIndexes.updateReady (idx : TaskIndexes) (record : TaskRecord) (present : Bool) :
    TaskIndexes :=
  { idx with
    readyByProtocol :=
      setReady idx.readyByProtocol record.task.protocolId (readySelectorOf record)
        (readyKeyOf record) present
    readyCountsByProtocol :=
      setReadyCount idx.readyCountsByProtocol record.task.protocolId (readySelectorOf record)
        (record.task.readyAtStep.getD 0) record.task.registryGeneration present
    readyWithExpectations :=
      if record.task.expectedVersions.isEmpty then idx.readyWithExpectations
      else setValue idx.readyWithExpectations record.task.taskId present
    readyByStep :=
      match record.task.readyAtStep with
      | some step => setBucket idx.readyByStep step record.task.taskId present
      | none => idx.readyByStep }

def TaskIndexes.updateRunning (idx : TaskIndexes) (record : TaskRecord) (present : Bool) :
    TaskIndexes :=
  { idx with
    runningByRunner :=
      match record.claimedBy with
      | some runnerId => setMapValue idx.runningByRunner runnerId record.task.taskId present
      | none => idx.runningByRunner
    leasesByExpiry :=
      match record.lease.bind (·.expiresAtStep) with
      | some step => setBucket idx.leasesByExpiry step record.task.taskId present
      | none => idx.leasesByExpiry }

def TaskIndexes.updateWaiting (idx : TaskIndexes) (record : TaskRecord) (present : Bool) :
    TaskIndexes :=
  { idx with
    waitingByRunner :=
      match record.ownerRunner with
      | some runnerId => setMapValue idx.waitingByRunner runnerId record.task.taskId present
      | none => idx.waitingByRunner }

/-- `TaskIndexes::update_record`, one match arm per helper above. -/
def TaskIndexes.updateRecord (idx : TaskIndexes) (record : TaskRecord) (present : Bool) :
    TaskIndexes :=
  match record.status with
  | .ready => idx.updateReady record present
  | .running => idx.updateRunning record present
  | .waiting => (idx.updateWaiting record present).updateWake record present
  | .blocked => idx.updateWake record present
  | _ => idx

/-- The indexes of a list of records, built from scratch. -/
def indexesOf (records : List TaskRecord) : TaskIndexes :=
  records.foldl (fun idx r => idx.updateRecord r true) {}

/-- `tasks.values()`, in key order. -/
def recordsOf (tasks : ExtTreeMap TaskId TaskRecord) : List TaskRecord :=
  tasks.toList.map (·.2)

/-- `rebuild_indexes`. -/
def rebuildIndexes (tasks : ExtTreeMap TaskId TaskRecord) : TaskIndexes :=
  indexesOf (recordsOf tasks)

/-! ## Queries -/

def buildReadySelectors (runnerId : String) : List ReadySelector :=
  [ {}
  , { runnerHint := some runnerId }
  , { ownerRunner := some runnerId }
  , { runnerHint := some runnerId, ownerRunner := some runnerId } ]

/-- `ready_dispatch_queues`. -/
def TaskIndexes.readyDispatchQueues (idx : TaskIndexes) (runner : RunnerDescriptor) :
    List (ExtTreeSet ReadyKey) :=
  runner.acceptedProtocolIds.flatMap fun protocolId =>
    match idx.readyByProtocol[protocolId]? with
    | none => []
    | some bySelector => (buildReadySelectors runner.runnerId).filterMap (bySelector[·]?)

/-- `ready_dispatch_count`. -/
def TaskIndexes.readyDispatchCount (idx : TaskIndexes) (runner : RunnerDescriptor)
    (currentStep registryGeneration : Nat) : Nat :=
  let byStep := runner.acceptedProtocolIds.flatMap fun protocolId =>
    match idx.readyCountsByProtocol[protocolId]? with
    | none => []
    | some bySelector =>
      ((buildReadySelectors runner.runnerId).filterMap (bySelector[·]?)).flatMap (·.toList)
  ((byStep.filter fun e =>
      decide (e.1.readyAtStep ≤ currentStep) &&
        (registryGeneration == 0 || e.1.registryGeneration == 0 ||
          e.1.registryGeneration == registryGeneration)).map (·.2)).sum

/-- `take_due_buckets`: the entries of the buckets up to `currentStep`, and the rest. -/
def takeDueBuckets (buckets : ExtTreeMap Nat (ExtTreeSet TaskId)) (currentStep : Nat) :
    List (TaskId × Nat) × ExtTreeMap Nat (ExtTreeSet TaskId) :=
  let due := buckets.filter fun step _ => decide (step ≤ currentStep)
  let future := buckets.filter fun step _ => !decide (step ≤ currentStep)
  (due.toList.flatMap fun e => e.2.toList.map fun taskId => (taskId, e.1), future)

/-- `next_bucket_after`. -/
def nextBucketAfter (buckets : ExtTreeMap Nat (ExtTreeSet TaskId)) (currentStep : Nat) :
    Option Nat :=
  buckets.keys.find? fun step => decide (currentStep < step)

/-- `next_required_step_after`. -/
def TaskIndexes.nextRequiredStepAfter (idx : TaskIndexes) (currentStep : Nat) : Option Nat :=
  ([nextBucketAfter idx.readyByStep currentStep, nextBucketAfter idx.wakeByStep currentStep,
    nextBucketAfter idx.leasesByExpiry currentStep].filterMap id).min?

end MutsukiRuntime
