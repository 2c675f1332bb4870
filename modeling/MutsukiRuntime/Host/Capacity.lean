/-
  CAPACITY of the pending table.  Work and management requests share one table, and its
  last places are kept for management.

  * `Within`: the two bounds.  Only an insertion fills a place, and it looks at both first.
-/
import MutsukiRuntime.Host.Replies

namespace MutsukiRuntime

open BigEndian Buckets Std

namespace PendingState

variable {state after : PendingState} {limits : WireLimits} {requestId : UInt64}
  {management : Bool} {sender : Channel} {error : RuntimeError}

def managementInFlight (state : PendingState) : Nat :=
  state.requests.toList.countP fun entry => entry.2.management

theorem size_requests (state : PendingState) :
    state.requests.size = state.managementInFlight + state.workInFlight := by
  rw [← ExtTreeMap.length_toList, List.length_eq_countP_add_countP fun entry => entry.2.management]
  simp [managementInFlight, workInFlight]

/-- One use of the table: a request offered, a response, a caller that gives up, a failure. -/
inductive PendingOp where
  | insert (requestId : UInt64) (management : Bool) (sender : Channel)
  | take (requestId : UInt64)
  | remove (requestId : UInt64)
  | fail (error : RuntimeError)
  | close

/-- The table after the use; a refused request leaves it as it is. -/
def apply (limits : WireLimits) (state : PendingState) : PendingOp → PendingState
  | .insert requestId management sender =>
    (state.insert requestId management sender limits).toOption.getD state
  | .take requestId => (state.take requestId).2
  | .remove requestId => state.remove requestId
  | .fail error => (state.fail error).2
  | .close => state.close

/-- The table after a history of requests, from the empty one. -/
def history (limits : WireLimits) (ops : List PendingOp) : PendingState :=
  ops.foldl (apply limits) {}

structure Within (limits : WireLimits) (state : PendingState) : Prop where
  all : state.managementInFlight + state.workInFlight ≤ limits.maxInFlightRequests
  work : state.workInFlight ≤ limits.maxInFlightRequests - limits.managementReservedRequests

/-- An accepted request has found room for its kind, and counts for it. -/
theorem insert_counts (h : state.insert requestId management sender limits = .ok after) :
    state.managementInFlight + state.workInFlight < limits.maxInFlightRequests ∧
    after.managementInFlight = state.managementInFlight + management.toNat ∧
    after.workInFlight = state.workInFlight + (!management).toNat ∧
    (management = false → state.workInFlight <
      limits.maxInFlightRequests - limits.managementReservedRequests) := by
  obtain ⟨hfailure, hclosed, habsent, rfl⟩ := insert_eq_ok h
  simp only [PendingState.insert, hfailure, hclosed, Bool.false_eq_true, if_false,
    Prog.except_check_eq_ok, size_requests] at h
  have hperm := toList_insert_perm state.requests requestId { management, sender } habsent
  refine ⟨by omega, ?_, ?_, ?_⟩
  · cases management <;> simp [managementInFlight, hperm.countP_eq]
  · cases management <;> simp [workInFlight, hperm.countP_eq]
  · rintro rfl
    have hwork := h.2.1
    simp only [Bool.not_false, Bool.true_and, decide_eq_true_eq] at hwork
    omega

theorem remove_counts (requestId : UInt64) :
    (state.remove requestId).managementInFlight ≤ state.managementInFlight ∧
      (state.remove requestId).workInFlight ≤ state.workInFlight := by
  have hsub : (state.requests.erase requestId).toList.Subperm state.requests.toList := by
    refine List.subperm_of_subset (nodup_toList _) fun entry hentry => ?_
    rw [ExtTreeMap.mem_toList_iff_getElem?_eq_some] at hentry ⊢
    rw [getElem?_erase_ite] at hentry
    exact (Option.ite_none_left_eq_some.1 hentry).2
  exact ⟨hsub.countP_le _, hsub.countP_le _⟩

theorem counts_empty (failure : Option RuntimeError) (closed : Bool) :
    managementInFlight { failure, closed } = 0 ∧ workInFlight { failure, closed } = 0 := by
  have hsize := size_requests { failure, closed }
  rw [ExtTreeMap.size_empty] at hsize
  omega

theorem Within.apply (h : Within limits state) (op : PendingOp) :
    Within limits (state.apply limits op) := by
  obtain ⟨hall, hwork⟩ := h
  cases op with
  | insert requestId management sender =>
    show Within limits ((state.insert requestId management sender limits).toOption.getD state)
    cases hinsert : state.insert requestId management sender limits with
    | error error => exact ⟨hall, hwork⟩
    | ok after =>
      obtain ⟨hroom, hmanagement, hwork', hreserve⟩ := insert_counts hinsert
      show Within limits after
      constructor <;> cases management <;> simp_all <;> omega
  | take requestId | remove requestId =>
    obtain ⟨hmanagement, hless⟩ := state.remove_counts requestId
    exact ⟨(Nat.add_le_add hmanagement hless).trans hall, hless.trans hwork⟩
  | fail error =>
    obtain ⟨hmanagement, hnone⟩ := counts_empty (state.failure.or (some error)) state.closed
    constructor
    · exact (Nat.add_le_add hmanagement.le hnone.le).trans (Nat.zero_le _)
    · exact hnone.le.trans (Nat.zero_le _)
  | close => exact ⟨hall, hwork⟩

theorem within_history (limits : WireLimits) (ops : List PendingOp) :
    Within limits (history limits ops) := by
  obtain ⟨hmanagement, hwork⟩ := counts_empty none false
  refine List.foldlRecOn ops _ ⟨?_, ?_⟩ fun _ h op _ => h.apply op
  · rw [hmanagement, hwork]
    exact Nat.zero_le _
  · rw [hwork]
    exact Nat.zero_le _

/-- Whatever requests, responses, removals and failures have come: the table keeps within both
    bounds, and a management request that finds a place of the reserve free is refused only because
    the connection has failed or closed, or its id is taken. -/
theorem reserve_kept {limits : WireLimits} (hvalid : limits.validate = .ok ())
    (ops : List PendingOp) :
    (history limits ops).requests.size ≤ limits.maxInFlightRequests ∧
    (history limits ops).workInFlight ≤
      limits.maxInFlightRequests - limits.managementReservedRequests ∧
    ((history limits ops).managementInFlight < limits.managementReservedRequests →
      ∀ (requestId : UInt64) (sender : Channel) (error : RuntimeError),
        (history limits ops).insert requestId true sender limits = .error error →
        (history limits ops).failure = some error ∨ (history limits ops).closed = true ∨
          requestId ∈ (history limits ops).requests) := by
  obtain ⟨hall, hwork⟩ := within_history limits ops
  obtain ⟨-, -, -, -, -, -, -, -, hreserve⟩ := WireLimits.validate_eq_ok.1 hvalid
  rw [size_requests]
  refine ⟨hall, hwork, fun hfew requestId sender error hrefused => ?_⟩
  have hroom : ¬ (history limits ops).requests.size ≥ limits.maxInFlightRequests := by
    rw [size_requests]
    omega
  unfold PendingState.insert at hrefused
  split at hrefused
  next failure hfailure => exact .inl (hfailure.trans (congrArg some (Except.error.inj hrefused)))
  next =>
    by_cases hclosed : (history limits ops).closed = true
    · exact .inr (.inl hclosed)
    · refine .inr (.inr (ExtTreeMap.contains_iff_mem.1 ?_))
      by_contra hnew
      simp [hclosed, hroom, hnew] at hrefused

/-- Two places, one of them for management: the second work request is turned away. -/
theorem reserve_kept_sample :
    let limits : WireLimits :=
      { defaultWireLimits with maxInFlightRequests := 2, managementReservedRequests := 1 }
    let table := history limits [.insert 1 false 0, .insert 2 false 1, .insert 3 true 2]
    table.requests.keys = [1, 3] ∧ table.requests.size ≤ 2 ∧ table.workInFlight ≤ 1 := by
  intro limits table
  have hkept := @reserve_kept limits (by decide)
    [.insert 1 false 0, .insert 2 false 1, .insert 3 true 2]
  exact ⟨by decide +kernel, hkept.1, hkept.2.1⟩

end PendingState

end MutsukiRuntime
