/-
  IDEMPOTENT RECEIPTS of `capability_request.rs`: the in-memory store that answers a
  replayed request with the receipt first stored for its id.

  Model: the store with its map, its completion queue and its two counters, expiry by
  age, eviction by number of entries and by estimated bytes.  An `Instant` and a
  `Duration` are natural numbers (`saturating_duration_since` is truncated
  subtraction).  The lengths added without saturation in `estimate_receipt_bytes` are
  those of strings in memory and do not overflow.
-/
import MutsukiRuntime.Contracts.Value

namespace MutsukiRuntime

open Std

abbrev CapabilityRequestId := String

inductive RejectionReason where
  | capabilityUnavailable
  | protocolIncompatible
  | permissionDenied
  | payloadInvalid
  | deadlineExceeded
  | cancelled
  | other (code message : String)

inductive DeliveryReceipt where
  | accepted (requestId : CapabilityRequestId) (remoteTaskId : Option String)
  | duplicate (requestId : CapabilityRequestId) (previous : DeliveryReceipt)
  | rejected (requestId : CapabilityRequestId) (reason : RejectionReason)
  | completed (requestId : CapabilityRequestId) (remoteTaskId : Option String) (output : Value)
  | failed (requestId : CapabilityRequestId) (remoteTaskId : Option String)
      (code message : String)

/-- `None` means unbounded on that dimension. -/
structure ReceiptRetentionPolicy where
  maxEntries : Option Nat
  maxBytes : Option Nat
  ttl : Option Nat

structure StoredReceipt where
  receipt : DeliveryReceipt
  completedAt : Nat
  estimatedBytes : Nat

structure IdempotentReceiptStore where
  receipts : ExtTreeMap CapabilityRequestId StoredReceipt := ∅
  order : List CapabilityRequestId := []
  policy : ReceiptRetentionPolicy
  estimatedBytes : Nat := 0
  evictions : Nat := 0

/-! ## Estimated sizes -/

mutual

def estimateJsonBytes : Value → Nat
  | .null => 8
  | .bool _ => 8
  | .int n => (toString n).length
  | .float text => text.length
  | .string text => text.utf8ByteSize
  | .array items => estimateItemBytes items + 8
  | .object entries => estimateEntryBytes entries + 8

def estimateItemBytes : List Value → Nat
  | [] => 0
  | v :: vs => estimateJsonBytes v + estimateItemBytes vs

def estimateEntryBytes : List (String × Value) → Nat
  | [] => 0
  | (k, v) :: vs => k.utf8ByteSize + estimateJsonBytes v + estimateEntryBytes vs

end

/-- The length of an optional text. -/
def optionalLen (text : Option String) : Nat := (text.map String.utf8ByteSize).getD 0

def estimateBodyBytes : DeliveryReceipt → Nat
  | .accepted _ remoteTaskId => optionalLen remoteTaskId
  | .duplicate _ _ => 0
  | .rejected _ (.other code message) => code.utf8ByteSize + message.utf8ByteSize + 16
  | .rejected _ _ => 16
  | .completed _ remoteTaskId output => optionalLen remoteTaskId + estimateJsonBytes output
  | .failed _ remoteTaskId code message =>
    optionalLen remoteTaskId + code.utf8ByteSize + message.utf8ByteSize

def estimateReceiptBytes (requestId : CapabilityRequestId) (receipt : DeliveryReceipt) : Nat :=
  satAdd (satAdd requestId.utf8ByteSize 32) (estimateBodyBytes receipt)

/-! ## The store -/

namespace IdempotentReceiptStore

def withPolicy (policy : ReceiptRetentionPolicy) : IdempotentReceiptStore := { policy }

def overBudget (store : IdempotentReceiptStore) : Bool :=
  store.policy.maxEntries.any (fun limit => decide (limit < store.receipts.size)) ||
    store.policy.maxBytes.any (fun limit => decide (limit < store.estimatedBytes))

/-- `evict_front`; the flag says whether the queue had a front. -/
def evictFront (store : IdempotentReceiptStore) : Bool × IdempotentReceiptStore :=
  match store.order with
  | [] => (false, store)
  | requestId :: order =>
    match store.receipts[requestId]? with
    | some entry =>
      (true, { store with
        order
        receipts := store.receipts.erase requestId
        estimatedBytes := store.estimatedBytes - entry.estimatedBytes
        evictions := satAdd store.evictions 1 })
    | none => (true, { store with order })

/-- The loop of `expire_due`; the list is the queue of the store, which each round shortens. -/
def expireLoop (ttl now : Nat) :
    List CapabilityRequestId → IdempotentReceiptStore → IdempotentReceiptStore
  | [], store => store
  | frontId :: order, store =>
    match store.receipts[frontId]? with
    | none => expireLoop ttl now order { store with order }
    | some entry =>
      if now - entry.completedAt < ttl then store
      else expireLoop ttl now order store.evictFront.2

def expireDue (store : IdempotentReceiptStore) (now : Nat) : IdempotentReceiptStore :=
  match store.policy.ttl with
  | none => store
  | some ttl => expireLoop ttl now store.order store

/-- `while over_budget { if !evict_front { break } }`, over the queue of the store. -/
def evictLoop : List CapabilityRequestId → IdempotentReceiptStore → IdempotentReceiptStore
  | [], store => store
  | _ :: order, store =>
    if store.overBudget then evictLoop order store.evictFront.2 else store

def acceptOrDuplicateAt (store : IdempotentReceiptStore) (requestId : CapabilityRequestId)
    (receipt : DeliveryReceipt) (now : Nat) : DeliveryReceipt × IdempotentReceiptStore :=
  let store := store.expireDue now
  match store.receipts[requestId]? with
  | some previous => (.duplicate requestId previous.receipt, store)
  | none =>
    let estimatedBytes := estimateReceiptBytes requestId receipt
    let store := { store with
      receipts := store.receipts.insert requestId ⟨receipt, now, estimatedBytes⟩
      order := store.order ++ [requestId]
      estimatedBytes := satAdd store.estimatedBytes estimatedBytes }
    (receipt, evictLoop store.order store)

def getAt (store : IdempotentReceiptStore) (requestId : CapabilityRequestId) (now : Nat) :
    Option DeliveryReceipt :=
  match store.receipts[requestId]? with
  | none => none
  | some entry =>
    if store.policy.ttl.any (fun ttl => decide (now - entry.completedAt ≥ ttl)) then none
    else some entry.receipt

end IdempotentReceiptStore

/-! ## Calls -/

inductive ReceiptRequest where
  | accept (requestId : CapabilityRequestId) (receipt : DeliveryReceipt)
  | get (requestId : CapabilityRequestId)

/-- A call with the moment it is made at. -/
structure ReceiptCall where
  now : Nat
  request : ReceiptRequest

namespace IdempotentReceiptStore

def exec (store : IdempotentReceiptStore) (call : ReceiptCall) :
    Option DeliveryReceipt × IdempotentReceiptStore :=
  match call.request with
  | .accept requestId receipt =>
    let (answer, store) := store.acceptOrDuplicateAt requestId receipt call.now
    (some answer, store)
  | .get requestId => (store.getAt requestId call.now, store)

def runCalls (store : IdempotentReceiptStore) : List ReceiptCall → IdempotentReceiptStore
  | [] => store
  | call :: calls => runCalls (store.exec call).2 calls

/-- The entry a call newly stores. -/
def newEntry (store : IdempotentReceiptStore) (call : ReceiptCall) :
    Option (CapabilityRequestId × StoredReceipt) :=
  match call.request with
  | .accept requestId receipt =>
    match (store.expireDue call.now).receipts[requestId]? with
    | some _ => none
    | none =>
      some (requestId, ⟨receipt, call.now, estimateReceiptBytes requestId receipt⟩)
  | .get _ => none

/-- The entries newly accepted along a run, oldest first. -/
def newEntries (store : IdempotentReceiptStore) :
    List ReceiptCall → List (CapabilityRequestId × StoredReceipt)
  | [] => []
  | call :: calls => (store.newEntry call).toList ++ newEntries (store.exec call).2 calls

/-- The entries the store holds, in the order of its queue. -/
def retained (store : IdempotentReceiptStore) : List (CapabilityRequestId × StoredReceipt) :=
  store.order.filterMap fun requestId =>
    store.receipts[requestId]?.map fun entry => (requestId, entry)

/-- No call of the run saturates the byte counter. -/
def BytesFit (store : IdempotentReceiptStore) : List ReceiptCall → Prop
  | [] => True
  | call :: calls =>
    (∀ entry ∈ store.newEntry call,
      (store.expireDue call.now).estimatedBytes + entry.2.estimatedBytes ≤ usizeMax) ∧
    BytesFit (store.exec call).2 calls

instance decidableBytesFit (store : IdempotentReceiptStore) :
    (calls : List ReceiptCall) → Decidable (store.BytesFit calls)
  | [] => isTrue trivial
  | call :: calls =>
    have := decidableBytesFit (store.exec call).2 calls
    inferInstanceAs (Decidable (_ ∧ _))

end IdempotentReceiptStore

end MutsukiRuntime
