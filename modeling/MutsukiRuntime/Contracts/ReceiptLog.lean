/-
  THE RECEIPT LOG: what the idempotent store of `Receipts` is for, and that it is that.

  The log appends new receipts at the back and sheds the front: while the oldest is due
  when a request comes in, and while the log is over budget after one was appended.
  `HoldsLog` ties a store to a log; each call keeps it and answers alike (`exec_refines`),
  so does each run (`runCalls_refines`).  With a clock that never goes back the receipts
  stand in the order of their age (`Aged`), so that the receipts a request finds are
  those `get_at` would return.
-/
import MutsukiRuntime.Contracts.Receipts
import MutsukiRuntime.Lib.FifoLog

namespace MutsukiRuntime

open Std List Option

/-- A stored receipt under its request. -/
abbrev ReceiptEntry := CapabilityRequestId × StoredReceipt

abbrev ReceiptLog := FifoLog ReceiptEntry

namespace ReceiptRetentionPolicy

/-- The receipt has reached its age. -/
def due (policy : ReceiptRetentionPolicy) (now : Nat) (entry : ReceiptEntry) : Bool :=
  policy.ttl.any fun ttl => decide (now - entry.2.completedAt ≥ ttl)

def totalBytes (entries : List ReceiptEntry) : Nat :=
  (entries.map (·.2.estimatedBytes)).sum

def exceeded (policy : ReceiptRetentionPolicy) (entries : List ReceiptEntry) : Bool :=
  policy.maxEntries.any (fun limit => decide (limit < entries.length)) ||
    policy.maxBytes.any (fun limit => decide (limit < totalBytes entries))

theorem exceeded_nil (policy : ReceiptRetentionPolicy) : policy.exceeded [] = false := by
  simp [exceeded, totalBytes]

variable {entries : List ReceiptEntry}

theorem exceeded_eq_false {policy : ReceiptRetentionPolicy} :
    policy.exceeded entries = false ↔ (∀ limit ∈ policy.maxEntries, entries.length ≤ limit) ∧
        ∀ limit ∈ policy.maxBytes, totalBytes entries ≤ limit := by
  have hlimit : ∀ (limits : Option Nat) (n : Nat),
      limits.any (fun limit => decide (limit < n)) = false ↔ ∀ limit ∈ limits, n ≤ limit := by
    intro limits n
    cases limits <;> simp
  rw [exceeded, Bool.or_eq_false_iff, hlimit, hlimit]

theorem exceeded_of_suffix {policy : ReceiptRetentionPolicy} {rest : List ReceiptEntry}
    (hsuffix : rest <:+ entries) (h : policy.exceeded entries = false) :
    policy.exceeded rest = false := by
  obtain ⟨front, rfl⟩ := hsuffix
  have hbytes : totalBytes rest ≤ totalBytes (front ++ rest) := by
    simp [totalBytes]
  rw [exceeded_eq_false, length_append] at h
  refine exceeded_eq_false.2 ⟨fun limit hlimit => ?_, fun limit hlimit => ?_⟩
  · exact (Nat.le_add_left _ _).trans (h.1 limit hlimit)
  · exact hbytes.trans (h.2 limit hlimit)

end ReceiptRetentionPolicy

namespace ReceiptLog

open ReceiptRetentionPolicy

def expire (policy : ReceiptRetentionPolicy) (now : Nat) (log : ReceiptLog) : ReceiptLog :=
  log.shed (FifoLog.frontTest (policy.due now))

def accept (policy : ReceiptRetentionPolicy) (log : ReceiptLog) (requestId : CapabilityRequestId)
    (receipt : DeliveryReceipt) (now : Nat) : DeliveryReceipt × ReceiptLog :=
  let log := log.expire policy now
  match log.retained.lookup requestId with
  | some previous => (.duplicate requestId previous.receipt, log)
  | none =>
    let entry := (requestId, ⟨receipt, now, estimateReceiptBytes requestId receipt⟩)
    (receipt, (log.append entry).shed policy.exceeded)

def get (policy : ReceiptRetentionPolicy) (log : ReceiptLog) (requestId : CapabilityRequestId)
    (now : Nat) : Option DeliveryReceipt :=
  (log.retained.lookup requestId).bind fun entry =>
    if policy.due now (requestId, entry) then none else some entry.receipt

def exec (policy : ReceiptRetentionPolicy) (log : ReceiptLog) (call : ReceiptCall) :
    Option DeliveryReceipt × ReceiptLog :=
  match call.request with
  | .accept requestId receipt =>
    let (answer, log) := log.accept policy requestId receipt call.now
    (some answer, log)
  | .get requestId => (log.get policy requestId call.now, log)

def runCalls (policy : ReceiptRetentionPolicy) (log : ReceiptLog) : List ReceiptCall → ReceiptLog
  | [] => log
  | call :: calls => runCalls policy (log.exec policy call).2 calls

end ReceiptLog

/-! ## A store holds a log -/

open ReceiptRetentionPolicy IdempotentReceiptStore

structure HoldsLog (policy : ReceiptRetentionPolicy) (log : ReceiptLog)
    (store : IdempotentReceiptStore) : Prop where
  policy_eq : store.policy = policy
  order : store.order = log.retained.map (·.1)
  nodup : (log.retained.map (·.1)).Nodup
  stored : ∀ requestId entry,
    store.receipts[requestId]? = some entry ↔ (requestId, entry) ∈ log.retained
  bytes : store.estimatedBytes = totalBytes log.retained
  evictions : store.evictions = min log.dropped.length u64Max

theorem holds_empty (policy : ReceiptRetentionPolicy) :
    HoldsLog policy FifoLog.empty (withPolicy policy) where
  policy_eq := rfl
  order := rfl
  nodup := nodup_nil
  stored requestId entry := by simp [withPolicy, FifoLog.empty]
  bytes := rfl
  evictions := by simp [withPolicy, FifoLog.empty]

variable {policy : ReceiptRetentionPolicy} {log : ReceiptLog} {store : IdempotentReceiptStore}

namespace HoldsLog

theorem lookup (h : HoldsLog policy log store) (requestId : CapabilityRequestId) :
    store.receipts[requestId]? = log.retained.lookup requestId := by
  apply Option.ext
  intro entry
  rw [h.stored]
  have hmem : ∀ entries : List ReceiptEntry, (entries.map (·.1)).Nodup →
      ((requestId, entry) ∈ entries ↔ entries.lookup requestId = some entry) := by
    intro entries
    induction entries with
    | nil => simp
    | cons first rest ih =>
      intro hnodup
      obtain ⟨hfirst, hrest⟩ := nodup_cons.1 hnodup
      obtain ⟨firstId, firstEntry⟩ := first
      by_cases hid : requestId = firstId
      · subst hid
        have hnot : (requestId, entry) ∉ rest := fun hin => hfirst (List.mem_map.2 ⟨_, hin, rfl⟩)
        simp [hnot, eq_comm]
      · have hbeq : (requestId == firstId) = false := beq_false_of_ne hid
        simp [lookup_cons, hbeq, hid, ih hrest]
  exact hmem _ h.nodup

theorem toList_perm (h : HoldsLog policy log store) : store.receipts.toList.Perm log.retained := by
  have hkeys : store.receipts.toList.Nodup := by
    refine store.receipts.distinct_keys_toList.imp fun hne heq => hne ?_
    rw [heq]
    exact compare_self
  rw [perm_ext_iff_of_nodup hkeys (h.nodup.of_map _)]
  intro entry
  rw [ExtTreeMap.mem_toList_iff_getElem?_eq_some, h.stored]

theorem size (h : HoldsLog policy log store) : store.receipts.size = log.retained.length := by
  rw [← ExtTreeMap.length_toList, h.toList_perm.length_eq]

theorem overBudget (h : HoldsLog policy log store) :
    store.overBudget = policy.exceeded log.retained := by
  rw [IdempotentReceiptStore.overBudget, exceeded, h.size, h.bytes, h.policy_eq]

theorem retained (h : HoldsLog policy log store) : store.retained = log.retained := by
  rw [IdempotentReceiptStore.retained, h.order, filterMap_map]
  rw [filterMap_congr (g := some), filterMap_some]
  intro entry hentry
  have hstored := (h.stored entry.1 entry.2).2 hentry
  simp [hstored]

variable {dropped retained : List ReceiptEntry}

/-- `evict_front` moves the oldest entry to the dropped ones. -/
theorem evictFront {rest : List ReceiptEntry} {entry : ReceiptEntry}
    (h : HoldsLog policy ⟨dropped, entry :: rest⟩ store) :
    HoldsLog policy ⟨dropped ++ [entry], rest⟩ store.evictFront.2 := by
  obtain ⟨hfirst, hrest⟩ := nodup_cons.1 h.nodup
  have hfirst : entry.1 ∉ rest.map (·.1) := hfirst
  have hentry : store.receipts[entry.1]? = some entry.2 := (h.stored _ _).2 mem_cons_self
  have horder : store.order = entry.1 :: rest.map (·.1) := h.order
  have hevict : store.evictFront.2 = { store with
      order := rest.map (·.1)
      receipts := store.receipts.erase entry.1
      estimatedBytes := store.estimatedBytes - entry.2.estimatedBytes
      evictions := satAdd store.evictions 1 } := by
    rw [IdempotentReceiptStore.evictFront, horder]
    simp only [hentry]
  rw [hevict]
  refine ⟨h.policy_eq, rfl, hrest, fun requestId stored => ?_, ?_, ?_⟩
  · rw [Buckets.getElem?_erase_ite]
    by_cases hid : entry.1 = requestId
    · -- no later entry has the id of the front
      have hnot : (requestId, stored) ∉ rest := by
        intro hmem
        rw [hid] at hfirst
        exact hfirst (List.mem_map.2 ⟨_, hmem, rfl⟩)
      simp [hid, hnot]
    · have hne : (requestId, stored) ≠ entry := by
        intro heq
        exact hid (by rw [← heq])
      rw [if_neg hid, h.stored]
      exact mem_cons.trans (or_iff_right hne)
  · rw [h.bytes]
    simp [totalBytes]
  · rw [h.evictions, satAdd, length_append, length_singleton]
    generalize u64Max = bound
    dsimp only
    omega

theorem expireLoop {ttl now : Nat} (httl : policy.ttl = some ttl) {store : IdempotentReceiptStore}
    (h : HoldsLog policy ⟨dropped, retained⟩ store) :
    HoldsLog policy (FifoLog.shedFrom (FifoLog.frontTest (policy.due now)) dropped retained)
      (expireLoop ttl now (retained.map (·.1)) store) := by
  induction retained generalizing dropped store with
  | nil => exact h
  | cons entry rest ih =>
    have hentry : store.receipts[entry.1]? = some entry.2 := (h.stored _ _).2 mem_cons_self
    have htest : FifoLog.frontTest (policy.due now) (entry :: rest) =
        decide (¬ now - entry.2.completedAt < ttl) := by
      simp [FifoLog.frontTest, due, httl]
    rw [FifoLog.shedFrom, map_cons, IdempotentReceiptStore.expireLoop, htest]
    simp only [hentry, decide_eq_true_eq]
    by_cases hyoung : now - entry.2.completedAt < ttl
    · rw [if_neg (not_not_intro hyoung), if_pos hyoung]
      exact h
    · rw [if_pos hyoung, if_neg hyoung]
      exact ih h.evictFront

theorem expireDue (h : HoldsLog policy log store) (now : Nat) :
    HoldsLog policy (log.expire policy now) (store.expireDue now) := by
  rw [IdempotentReceiptStore.expireDue, h.policy_eq, h.order, ReceiptLog.expire, FifoLog.shed]
  cases httl : policy.ttl with
  | none =>
    have hnever : ∀ entries, FifoLog.frontTest (policy.due now) entries = false := by
      intro entries
      cases entries <;> simp [FifoLog.frontTest, due, httl]
    rw [← FifoLog.shed, FifoLog.shed_of_fails (hnever _)]
    exact h
  | some ttl => exact expireLoop httl h

theorem evictLoop {store : IdempotentReceiptStore} (h : HoldsLog policy ⟨dropped, retained⟩ store) :
    HoldsLog policy (FifoLog.shedFrom policy.exceeded dropped retained)
      (evictLoop (retained.map (·.1)) store) := by
  induction retained generalizing dropped store with
  | nil => exact h
  | cons entry rest ih =>
    rw [FifoLog.shedFrom, map_cons, IdempotentReceiptStore.evictLoop, h.overBudget]
    split
    · exact ih h.evictFront
    · exact h

theorem shed (h : HoldsLog policy log store) : HoldsLog policy (log.shed policy.exceeded)
      (IdempotentReceiptStore.evictLoop store.order store) := by
  rw [h.order]
  exact h.evictLoop

theorem append (h : HoldsLog policy log store) {requestId : CapabilityRequestId}
    {entry : StoredReceipt} (hnew : store.receipts[requestId]? = none)
    (hbytes : store.estimatedBytes + entry.estimatedBytes ≤ usizeMax) :
    HoldsLog policy (log.append (requestId, entry)) { store with
        receipts := store.receipts.insert requestId entry
        order := store.order ++ [requestId]
        estimatedBytes := satAdd store.estimatedBytes entry.estimatedBytes } := by
  have hfresh : ∀ stored, (requestId, stored) ∉ log.retained := by
    intro stored hmem
    rw [← h.stored, hnew] at hmem
    cases hmem
  refine ⟨h.policy_eq, ?_, ?_, fun id stored => ?_, ?_, h.evictions⟩
  · simp [FifoLog.append, h.order]
  · have hnot : requestId ∉ log.retained.map (·.1) := by
      intro hmem
      obtain ⟨other, hother, heq⟩ := List.mem_map.1 hmem
      exact hfresh other.2 (by rw [← heq]; exact hother)
    rw [FifoLog.append, map_append]
    exact h.nodup.append (nodup_singleton _) (disjoint_singleton.2 hnot)
  · rw [Buckets.getElem?_insert_ite, FifoLog.append, mem_append, mem_singleton]
    by_cases hid : requestId = id
    · subst hid
      simp [hfresh, eq_comm]
    · rw [if_neg hid, h.stored]
      refine (or_iff_left fun heq => hid ?_).symm
      exact (congrArg Prod.fst heq).symm
  · have hsum : satAdd store.estimatedBytes entry.estimatedBytes =
        store.estimatedBytes + entry.estimatedBytes := Nat.min_eq_left hbytes
    rw [hsum, h.bytes]
    simp [totalBytes, FifoLog.append]

end HoldsLog

/-! ## Calls and runs refine the log -/

/-- A call answers as the log does and leaves the store holding the log it leaves. -/
theorem exec_refines (h : HoldsLog policy log store) {call : ReceiptCall}
    (hbytes : ∀ entry ∈ store.newEntry call,
      (store.expireDue call.now).estimatedBytes + entry.2.estimatedBytes ≤ usizeMax) :
    (store.exec call).1 = (log.exec policy call).1 ∧
      HoldsLog policy (log.exec policy call).2 (store.exec call).2 ∧
      (log.exec policy call).2.accepted = log.accepted ++ (store.newEntry call).toList := by
  obtain ⟨now, request⟩ := call
  cases request with
  | get requestId =>
    refine ⟨?_, h, (append_nil _).symm⟩
    show store.getAt requestId now = log.get policy requestId now
    rw [getAt, ReceiptLog.get, h.lookup, h.policy_eq]
    cases log.retained.lookup requestId <;> rfl
  | accept requestId receipt =>
    have hdue := h.expireDue now
    have hlookup := hdue.lookup requestId
    have haccepted : (log.expire policy now).accepted = log.accepted := FifoLog.accepted_shed _ _
    cases hprevious : (log.expire policy now).retained.lookup requestId with
    | some =>
      rw [hprevious] at hlookup
      simp only [exec, acceptOrDuplicateAt, ReceiptLog.exec, ReceiptLog.accept, newEntry,
        hlookup, hprevious]
      exact ⟨trivial, hdue, by rw [haccepted]; exact (append_nil _).symm⟩
    | none =>
      rw [hprevious] at hlookup
      simp only [newEntry, hlookup] at hbytes
      have happended := hdue.append hlookup (hbytes _ rfl)
      simp only [exec, acceptOrDuplicateAt, ReceiptLog.exec, ReceiptLog.accept, newEntry,
        hlookup, hprevious]
      refine ⟨trivial, happended.shed, ?_⟩
      rw [FifoLog.accepted_shed, FifoLog.accepted_append, haccepted]
      rfl

variable {calls : List ReceiptCall} {start now : Nat} {requestId : CapabilityRequestId}

theorem runCalls_refines (h : HoldsLog policy log store) (hbytes : store.BytesFit calls) :
    HoldsLog policy (log.runCalls policy calls) (store.runCalls calls) ∧
      (log.runCalls policy calls).accepted = log.accepted ++ store.newEntries calls := by
  induction calls generalizing log store with
  | nil => exact ⟨h, (append_nil _).symm⟩
  | cons call calls ih =>
    obtain ⟨-, hnext, haccepted⟩ := exec_refines h hbytes.1
    obtain ⟨hrun, hentries⟩ := ih hnext hbytes.2
    refine ⟨hrun, ?_⟩
    rw [ReceiptLog.runCalls, hentries, haccepted, append_assoc]
    rfl

/-! ## Age and budget -/

/-- The retained receipts stand in the order of their age, none younger than `now`. -/
structure Aged (now : Nat) (log : ReceiptLog) : Prop where
  ordered : log.retained.Pairwise fun a b => a.2.completedAt ≤ b.2.completedAt
  past : ∀ entry ∈ log.retained, entry.2.completedAt ≤ now

namespace Aged

variable {now : Nat}

theorem suffix {log log' : ReceiptLog} (h : Aged now log)
    (hsuffix : log'.retained <:+ log.retained) : Aged now log' where
  ordered := h.ordered.sublist hsuffix.sublist
  past entry hentry := h.past entry (hsuffix.subset hentry)

theorem later {now' : Nat} (h : Aged now log) (hle : now ≤ now') : Aged now' log where
  ordered := h.ordered
  past entry hentry := (h.past entry hentry).trans hle

theorem append (h : Aged now log) {entry : ReceiptEntry}
    (hnow : entry.2.completedAt = now) : Aged now (log.append entry) where
  ordered := by
    rw [FifoLog.append, pairwise_append]
    refine ⟨h.ordered, pairwise_singleton _ _, fun a ha b hb => ?_⟩
    rw [mem_singleton.1 hb, hnow]
    exact h.past a ha
  past := forall_mem_append.2 ⟨h.past, forall_mem_singleton.2 hnow.le⟩

theorem exec {call : ReceiptCall} (h : Aged call.now log) :
    Aged call.now (log.exec policy call).2 := by
  obtain ⟨now, request⟩ := call
  cases request with
  | get => exact h
  | accept =>
    have hdue : Aged now (log.expire policy now) := h.suffix (FifoLog.shed_suffix _ _)
    simp only [ReceiptLog.exec, ReceiptLog.accept]
    split
    · exact hdue
    · exact (hdue.append rfl).suffix (FifoLog.shed_suffix _ _)

theorem mem_expire (h : Aged now log) (at_ : Nat) (entry : ReceiptEntry) :
    entry ∈ (log.expire policy at_).retained ↔
      entry ∈ log.retained ∧ policy.due at_ entry = false := by
  refine FifoLog.mem_shedFront (h.ordered.imp fun {a b} hle hdue => ?_) entry
  cases httl : policy.ttl with
  | none => simp [due, httl] at hdue
  | some ttl =>
    simp only [due, httl, any_some, decide_eq_true_eq] at hdue ⊢
    omega

end Aged

theorem aged_empty : Aged 0 FifoLog.empty where
  ordered := List.Pairwise.nil
  past _ h := by cases h

theorem runCalls_aged (h : Aged start log) (hclock : calls.Pairwise fun a b => a.now ≤ b.now)
    (hstart : ∀ call ∈ calls, start ≤ call.now) (hnow : ∀ call ∈ calls, call.now ≤ now)
    (hle : start ≤ now) : Aged now (log.runCalls policy calls) := by
  induction calls generalizing start log with
  | nil => exact h.later hle
  | cons call calls ih =>
    obtain ⟨hfirst, hrest⟩ := pairwise_cons.1 hclock
    obtain ⟨hcall, hcalls⟩ := forall_mem_cons.1 hnow
    exact ih (h.later (hstart call mem_cons_self)).exec hrest hfirst hcalls hcall

theorem exec_within (hwithin : policy.exceeded log.retained = false) (call : ReceiptCall) :
    policy.exceeded (log.exec policy call).2.retained = false := by
  obtain ⟨now, request⟩ := call
  cases request with
  | get => exact hwithin
  | accept =>
    simp only [ReceiptLog.exec, ReceiptLog.accept]
    split
    · exact exceeded_of_suffix (FifoLog.shed_suffix _ _) hwithin
    · exact FifoLog.shed_stops policy.exceeded_nil _

theorem runCalls_within (hwithin : policy.exceeded log.retained = false)
    (calls : List ReceiptCall) :
    policy.exceeded (log.runCalls policy calls).retained = false := by
  induction calls generalizing log with
  | nil => exact hwithin
  | cons call calls ih => exact ih (exec_within hwithin call)

/-! ## The store is a bounded log -/

/-- `get_at` returns the retained receipt of the id, unless it is due. -/
theorem getAt_eq_some (h : HoldsLog policy log store) {first : DeliveryReceipt} :
    store.getAt requestId now = some first ↔
      ∃ entry, (requestId, entry) ∈ log.retained ∧ policy.due now (requestId, entry) = false ∧
        entry.receipt = first := by
  have hget : store.getAt requestId now = store.receipts[requestId]?.bind fun entry =>
      if policy.due now (requestId, entry) then none else some entry.receipt := by
    rw [getAt, h.policy_eq]
    cases store.receipts[requestId]? <;> rfl
  simp only [hget, bind_eq_some_iff, h.stored, ite_none_left_eq_some, Bool.not_eq_true, some.injEq]

/-- What `get_at` returns is what a request made at that moment finds. -/
theorem getAt_eq_expireDue (h : HoldsLog policy log store) (haged : Aged start log)
    (requestId : CapabilityRequestId) (now : Nat) :
    store.getAt requestId now = ((store.expireDue now).receipts[requestId]?).map (·.receipt) := by
  apply Option.ext
  intro first
  rw [getAt_eq_some h, map_eq_some_iff]
  simp only [(h.expireDue now).stored, haged.mem_expire, and_assoc]

theorem acceptOrDuplicateAt_answer (h : HoldsLog policy log store)
    (haged : Aged start log) (requestId : CapabilityRequestId) (receipt : DeliveryReceipt)
    (now : Nat) :
    (store.acceptOrDuplicateAt requestId receipt now).1 =
      (store.getAt requestId now).elim receipt (.duplicate requestId) := by
  rw [getAt_eq_expireDue h haged, acceptOrDuplicateAt]
  cases (store.expireDue now).receipts[requestId]? <;> rfl

/-- Along every run with a clock that never goes back and no counter saturated: the queue holds
    each stored id once, the byte counter is the sum of the stored sizes, the limits hold, the
    retained receipts are the latest of those newly accepted and the evicted ones the rest, and
    a replayed id is answered with the receipt `get_at` returns for it. -/
theorem receipts_bounded_log (policy : ReceiptRetentionPolicy) (calls : List ReceiptCall)
    (hclock : calls.Pairwise fun a b => a.now ≤ b.now)
    (hbytes : (withPolicy policy).BytesFit calls)
    (hevictions : ((withPolicy policy).newEntries calls).length -
      ((withPolicy policy).runCalls calls).receipts.size ≤ u64Max) :
    let store := (withPolicy policy).runCalls calls
    let accepted := (withPolicy policy).newEntries calls
    store.order.Nodup ∧ (∀ requestId, requestId ∈ store.order ↔ requestId ∈ store.receipts) ∧
      store.estimatedBytes = (store.receipts.toList.map (·.2.estimatedBytes)).sum ∧
      (∀ limit ∈ policy.maxEntries, store.receipts.size ≤ limit) ∧
      (∀ limit ∈ policy.maxBytes, store.estimatedBytes ≤ limit) ∧
      store.retained.Perm store.receipts.toList ∧ store.retained <:+ accepted ∧
      store.evictions = accepted.length - store.receipts.size ∧
      ∀ requestId receipt now, (∀ call ∈ calls, call.now ≤ now) →
        (∀ first, store.getAt requestId now = some first ↔
          ∃ entry, (requestId, entry) ∈ store.retained ∧
            (∀ ttl ∈ policy.ttl, now - entry.completedAt < ttl) ∧ entry.receipt = first) ∧
        (store.acceptOrDuplicateAt requestId receipt now).1 =
          (store.getAt requestId now).elim receipt (.duplicate requestId) := by
  intro store accepted
  obtain ⟨hholds, haccepted⟩ := runCalls_refines (holds_empty policy) hbytes
  have haccepted : (ReceiptLog.runCalls policy FifoLog.empty calls).accepted = accepted := haccepted
  generalize hlog : ReceiptLog.runCalls policy FifoLog.empty calls = log at hholds haccepted
  have hwithin : policy.exceeded log.retained = false := by
    rw [← hlog]
    exact runCalls_within policy.exceeded_nil calls
  rw [exceeded_eq_false, ← hholds.size, ← hholds.bytes] at hwithin
  have hlength : log.dropped.length + store.receipts.size = accepted.length := by
    rw [← haccepted, hholds.size, FifoLog.accepted, length_append]
  have hretained : store.retained = log.retained := hholds.retained
  refine ⟨?_, fun requestId => ?_, ?_, hwithin.1, hwithin.2, ?_, ?_, ?_, ?_⟩
  · rw [hholds.order]
    exact hholds.nodup
  · have hstored : ∀ entry,
        store.receipts[requestId]? = some entry ↔ (requestId, entry) ∈ log.retained :=
      hholds.stored requestId
    rw [hholds.order, ExtTreeMap.mem_iff_isSome_getElem?, isSome_iff_exists]
    simp only [hstored, List.mem_map, Prod.exists, exists_and_right, exists_eq_right]
  · rw [hholds.bytes]
    exact (hholds.toList_perm.map _).sum_eq.symm
  · rw [hretained]
    exact hholds.toList_perm.symm
  · rw [hretained, ← haccepted]
    exact log.retained_suffix
  · have hevicted : store.evictions = min log.dropped.length u64Max := hholds.evictions
    have hfits : accepted.length - store.receipts.size ≤ u64Max := hevictions
    rw [hevicted]
    generalize u64Max = bound at hfits ⊢
    omega
  · intro requestId receipt now hnow
    have haged : Aged now log := by
      rw [← hlog]
      exact runCalls_aged aged_empty hclock (fun _ _ => Nat.zero_le _) hnow (Nat.zero_le _)
    refine ⟨fun first => ?_, acceptOrDuplicateAt_answer hholds haged requestId receipt now⟩
    rw [getAt_eq_some hholds, hretained]
    have hdue : ∀ entry, policy.due now (requestId, entry) = false ↔
        ∀ ttl ∈ policy.ttl, now - entry.completedAt < ttl := by
      intro entry
      cases httl : policy.ttl <;> simp [due, httl]
    simp only [hdue]

/-- Two receipts at most, none older than ten ticks. -/
def pairPolicy : ReceiptRetentionPolicy := ⟨some 2, none, some 10⟩

/-- The replay of `a` is answered; `c` evicts `a`. -/
def replayedCalls : List ReceiptCall :=
  [⟨0, .accept "a" (.accepted "a" none)⟩, ⟨1, .accept "b" (.accepted "b" none)⟩,
    ⟨2, .accept "a" (.rejected "a" .cancelled)⟩, ⟨3, .accept "c" (.accepted "c" none)⟩,
    ⟨4, .get "b"⟩]

theorem receipts_bounded_log_pair :
    ((withPolicy pairPolicy).runCalls replayedCalls).order = ["b", "c"] ∧
      ((withPolicy pairPolicy).runCalls replayedCalls).evictions =
        ((withPolicy pairPolicy).newEntries replayedCalls).length -
          ((withPolicy pairPolicy).runCalls replayedCalls).receipts.size :=
  ⟨by decide +kernel, (receipts_bounded_log pairPolicy replayedCalls (by decide)
    (by decide +kernel) (by decide +kernel)).2.2.2.2.2.2.2.1⟩

/-! ## Replays of the newest receipt -/

theorem acceptOrDuplicateAt_new
    (h : (store.expireDue now).receipts[requestId]? = none) (receipt : DeliveryReceipt) :
    (store.acceptOrDuplicateAt requestId receipt now).1 = receipt := by
  simp only [acceptOrDuplicateAt, h]

/-- A receipt newly accepted is kept, and a replay at the same moment answered with it, exactly
    if the receipt alone is within the byte limit. -/
theorem replay_answered_iff (policy : ReceiptRetentionPolicy) (calls : List ReceiptCall)
    (requestId : CapabilityRequestId) (receipt : DeliveryReceipt) (now : Nat)
    (hentries : ∀ limit ∈ policy.maxEntries, 1 ≤ limit) (httl : ∀ ttl ∈ policy.ttl, 0 < ttl)
    (hbytes : (withPolicy policy).BytesFit calls)
    (hnew : (((withPolicy policy).runCalls calls).expireDue now).receipts[requestId]? = none)
    (hfits : (((withPolicy policy).runCalls calls).expireDue now).estimatedBytes +
      estimateReceiptBytes requestId receipt ≤ usizeMax) :
    let after := (((withPolicy policy).runCalls calls).acceptOrDuplicateAt requestId receipt now).2
    (after.receipts[requestId]? = some ⟨receipt, now, estimateReceiptBytes requestId receipt⟩ ∧
      (after.acceptOrDuplicateAt requestId receipt now).1 = .duplicate requestId receipt) ↔
    ∀ limit ∈ policy.maxBytes, estimateReceiptBytes requestId receipt ≤ limit := by
  intro after
  obtain ⟨hholds, -⟩ := runCalls_refines (holds_empty policy) hbytes
  have happended := @HoldsLog.append _ _ _ (hholds.expireDue now) requestId
    ⟨receipt, now, estimateReceiptBytes requestId receipt⟩ hnew hfits
  generalize hentry : (requestId, (⟨receipt, now, estimateReceiptBytes requestId receipt⟩ :
    StoredReceipt)) = entry at happended
  generalize ReceiptLog.expire policy now _ = log at happended
  have hafter : HoldsLog policy ((log.append entry).shed policy.exceeded) after := by
    have hshed := happended.shed
    simp only [after, acceptOrDuplicateAt, hnew]
    exact hshed
  have halone : policy.exceeded [entry] = false ↔
      ∀ limit ∈ policy.maxBytes, estimateReceiptBytes requestId receipt ≤ limit := by
    rw [exceeded_eq_false, ← hentry, length_singleton, and_iff_right hentries]
    simp [totalBytes]
  have hback : [entry] <:+ (log.append entry).retained := suffix_append _ _
  have hstored : ∀ {log : ReceiptLog} {store : IdempotentReceiptStore}, HoldsLog policy log store →
      [entry] <:+ log.retained → store.receipts[requestId]? =
          some ⟨receipt, now, estimateReceiptBytes requestId receipt⟩ := by
    intro log store hholds hlast
    refine (hholds.stored _ _).2 ?_
    rw [hentry]
    exact hlast.subset mem_cons_self
  rw [← halone]
  constructor
  · rintro ⟨hkept, -⟩
    -- what stays is within the budget, and the newest receipt is part of it
    refine exceeded_of_suffix (suffix_of_suffix_length_le hback (FifoLog.shed_suffix _ _) ?_)
      (FifoLog.shed_stops policy.exceeded_nil _)
    exact length_pos_of_mem ((hafter.stored _ _).1 hkept)
  · intro hwithin
    have hlast := FifoLog.last_shed hback hwithin
    have hyoung : FifoLog.frontTest (policy.due now) [entry] = false := by
      cases hage : policy.ttl with
      | none => simp [FifoLog.frontTest, due, hage]
      | some ttl =>
        have hpositive := httl ttl hage
        simp [FifoLog.frontTest, due, hage, ← hentry]
        omega
    have hreplayed := hstored (hafter.expireDue now) (FifoLog.last_shed hlast hyoung)
    refine ⟨hstored hafter hlast, ?_⟩
    simp only [acceptOrDuplicateAt, hreplayed]

/-- One receipt of at most forty bytes. -/
def tightPolicy : ReceiptRetentionPolicy := ⟨some 1, some 40, some 1⟩

theorem replay_answered_small :
    ((((withPolicy tightPolicy).acceptOrDuplicateAt "a" (.accepted "a" none) 0).2
      ).acceptOrDuplicateAt "a" (.accepted "a" none) 0).1 = .duplicate "a" (.accepted "a" none) :=
  ((replay_answered_iff tightPolicy [] "a" (.accepted "a" none) 0 (by decide) (by decide)
    (by decide +kernel) (isNone_iff_eq_none.1 (by decide +kernel)) (by decide +kernel)).2
    (by decide +kernel)).2

/-- A receipt over the byte limit is evicted at once, and its replay is accepted as new. -/
theorem large_receipt_forgotten :
    let receipt := DeliveryReceipt.accepted "a" (some "remote-task")
    let after := ((withPolicy tightPolicy).acceptOrDuplicateAt "a" receipt 0).2
    after.receipts["a"]? = none ∧ (after.acceptOrDuplicateAt "a" receipt 0).1 = receipt :=
  ⟨isNone_iff_eq_none.1 (by decide +kernel),
    acceptOrDuplicateAt_new (isNone_iff_eq_none.1 (by decide +kernel)) _⟩

end MutsukiRuntime
