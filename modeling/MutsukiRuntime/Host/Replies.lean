/-
  REPLIES of the multiplexer, over every interleaving of its threads.

  * `Sound` is the invariant: the senders form a ledger of one-shot tokens, what is owed or
    was sent answers its channel, and a failed table is empty.
-/
import MutsukiRuntime.Host.Senders

namespace MutsukiRuntime

open BigEndian Buckets Interleaving Prog List Option

/-! ## The table under its operations -/

variable {requestId : UInt64} {limits : WireLimits}

namespace PendingState

variable {state after : PendingState}

theorem insert_eq_ok {management : Bool} {sender : Channel}
    (h : state.insert requestId management sender limits = .ok after) :
    state.failure = none ∧ state.closed = false ∧ state.requests[requestId]? = none ∧ after =
        { state with requests := state.requests.insert requestId { management, sender } } := by
  unfold insert at h
  split at h
  · cases h
  · next hfailure =>
    rw [except_check_eq_ok] at h
    obtain ⟨hclosed, h⟩ := h
    rw [except_check_eq_ok, except_check_eq_ok, except_check_eq_ok] at h
    obtain ⟨-, -, habsent, heq⟩ := h
    refine ⟨hfailure, by simpa using hclosed, ?_, (Except.ok.inj heq).symm⟩
    rw [Std.ExtTreeMap.contains_iff_mem, mem_iff_exists] at habsent
    refine eq_none_iff_forall_not_mem.2 fun request hrequest => ?_
    exact habsent ⟨request, hrequest⟩

theorem insert_refused (h : state.failure.isSome ∨ state.closed = true) (requestId : UInt64)
    (management : Bool) (sender : Channel) (limits : WireLimits) :
    ∃ error, state.insert requestId management sender limits = .error error := by
  cases hinsert : state.insert requestId management sender limits with
  | error error => exact ⟨error, rfl⟩
  | ok after =>
    obtain ⟨hfailure, hclosed, -, -⟩ := insert_eq_ok hinsert
    rw [hfailure, hclosed] at h
    simp at h

theorem getElem?_remove (requestId other : UInt64) : (state.remove requestId).requests[other]? =
      if requestId = other then none else state.requests[other]? :=
  getElem?_erase_ite _ _ _

end PendingState

namespace RequestMultiplexer

variable (responseId : Bytes → RuntimeResult UInt64)

/-! ## The invariant -/

/-- The reply is the response to the request of its channel, or the stored failure. -/
def Answers (mux : RequestMultiplexer) : Reply → Prop
  | (channel, .ok frame) =>
    ∃ requestId, mux.ids[channel]? = some requestId ∧ responseId frame = .ok requestId
  | (_, .error error) => mux.pending.failure = some error

structure Sound (mux : RequestMultiplexer) : Prop where
  ledger : Ledger mux.holds (mux.sent.map Prod.fst) mux.ids.length
  entries : ∀ (requestId : UInt64) (request : PendingRequest),
    mux.pending.requests[requestId]? = some request →
      mux.ids[request.sender]? = some requestId
  owed : ∀ place, ∀ reply ∈ mux.owed place, Answers responseId mux reply
  sent : ∀ reply ∈ mux.sent, Answers responseId mux reply
  emptied : mux.pending.failure.isSome → mux.pending.requests = ∅

theorem sound_new (limits : WireLimits) : Sound responseId (new limits) where
  ledger := by
    have hholds : (new limits).holds = fun _ => [] := by
      funext place
      cases place <;> rfl
    rw [hholds]
    exact Ledger.empty _
  entries requestId request h := by simp [new] at h
  owed place reply h := by cases place <;> exact absurd h not_mem_nil
  sent reply h := absurd h not_mem_nil
  emptied _ := rfl

section Steps

variable {responseId} {mux mid after : RequestMultiplexer} {place : Place}
  {own : List Channel} {owing : List Reply}

/-- What no step undoes. -/
structure Lasting (mux after : RequestMultiplexer) : Prop where
  ids : ∀ (channel : Channel) (requestId : UInt64), mux.ids[channel]? = some requestId →
    after.ids[channel]? = some requestId
  failure : ∀ error, mux.pending.failure = some error → after.pending.failure = some error
  closed : mux.pending.closed = true → after.pending.closed = true

theorem Answers.mono {reply : Reply} (h : Answers responseId mux reply)
    (hlasting : Lasting mux after) : Answers responseId after reply := by
  obtain ⟨channel, result⟩ := reply
  cases result with
  | ok frame =>
    obtain ⟨requestId, hid, hframe⟩ := h
    exact ⟨requestId, hlasting.ids channel requestId hid, hframe⟩
  | error error => exact hlasting.failure error h

namespace Replaces

variable (hr : Replaces place own owing mid after)

include hr

theorem holds_here : after.holds place = own ++ owing.map Prod.fst := by
  rw [holds, hr.own_here, hr.owed_here]

theorem holds_there (other : Place) (hother : other ≠ place) :
    after.holds other = mid.holds other := by
  rw [holds, hr.own_there other hother, hr.owed_there other hother, holds]

end Replaces

theorem Replaces.lasting (hr : Replaces place own owing mid after) (hids : mid.ids = mux.ids)
    (hfailure : ∀ error, mux.pending.failure = some error → mid.pending.failure = some error)
    (hclosed : mid.pending.closed = mux.pending.closed) : Lasting mux after where
  ids channel requestId h := by rw [hr.ids, hids, h]
  failure error h := by rw [hr.pending, hfailure error h]
  closed h := by rw [hr.pending, hclosed, h]

theorem Effect.lasting (he : Effect responseId mux after) : Lasting mux after := by
  cases he with
  | opened requestId hpending hsent hids =>
    refine ⟨fun channel id h => ?_, fun error h => by rw [hpending, h],
      fun h => by rw [hpending, h]⟩
    obtain ⟨hlt, -⟩ := List.getElem?_eq_some_iff.1 h
    rw [hids, getElem?_append_left hlt, h]
  | moved place own owed hreplaces => exact hreplaces.lasting rfl (fun _ h => h) rfl
  | closed hafter =>
    subst hafter
    exact ⟨fun _ _ h => h, fun _ h => h, fun _ => rfl⟩
  | inserted requestId management channel limits pending hinsert hid hown hreplaces =>
    obtain ⟨-, -, -, rfl⟩ := PendingState.insert_eq_ok hinsert
    exact hreplaces.lasting rfl (fun _ h => h) rfl
  | removed requestId place hreplaces => exact hreplaces.lasting rfl (fun _ h => h) rfl
  | taken requestId request frame hframe hentry hreplaces =>
    exact hreplaces.lasting rfl (fun _ h => h) rfl
  | failed place error hreplaces =>
    exact hreplaces.lasting rfl (fun _ h => by simp [PendingState.fail, h]) rfl
  | told place channel result rest mid hown howed hsend hreplaces =>
    obtain ⟨hpending, -, hids, -, -⟩ := send_eq_some hsend
    exact hreplaces.lasting hids (fun _ h => by rw [hpending, h]) (by rw [hpending])

/-- Removing a request from the table takes nothing from any other place. -/
theorem holds_remove (requestId : UInt64) (other : Place) (hother : other ≠ .entry requestId) :
    { mux with pending := mux.pending.remove requestId }.holds other = mux.holds other := by
  cases other with
  | entry other =>
    have hne : requestId ≠ other := fun e => hother (e ▸ rfl)
    simp [holds, unanswered, owed, PendingState.getElem?_remove, hne]
  | _ => rfl

theorem holds_remove_self (requestId : UInt64) :
    { mux with pending := mux.pending.remove requestId }.holds (.entry requestId) = [] := by
  simp [holds, unanswered, owed, PendingState.getElem?_remove]

theorem owed_remove (requestId : UInt64) :
    { mux with pending := mux.pending.remove requestId }.owed = mux.owed := by
  funext place
  cases place <;> rfl

variable {request : PendingRequest} {channel : Channel}

theorem entry_of_remove {other : UInt64}
    (h : (mux.pending.remove requestId).requests[other]? = some request) :
    mux.pending.requests[other]? = some request := by
  rw [PendingState.getElem?_remove] at h
  split at h
  · cases h
  · exact h

theorem emptied_remove (hsound : Sound responseId mux) (requestId : UInt64)
    (h : mux.pending.failure.isSome) : (mux.pending.remove requestId).requests = ∅ := by
  rw [PendingState.remove, hsound.emptied h]
  exact Std.ExtTreeMap.erase_empty

theorem nodup_senders (hsound : Sound responseId mux) :
    (mux.pending.requests.toList.map (·.2.sender)).Nodup := by
  refine (nodup_toList mux.pending.requests).map_on ?_
  rintro ⟨idA, requestA⟩ hmemA ⟨idB, requestB⟩ hmemB hsender
  have hA := Std.ExtTreeMap.mem_toList_iff_getElem?_eq_some.1 hmemA
  have hB := Std.ExtTreeMap.mem_toList_iff_getElem?_eq_some.1 hmemB
  -- the ids are those of one call, and with the id the request is the same
  have hidA := hsound.entries idA requestA hA
  have hidB := hsound.entries idB requestB hB
  rw [show requestA.sender = requestB.sender from hsender, hidB] at hidA
  cases hidA
  rw [hA] at hB
  cases hB
  rfl

section Preserved

variable (hsound : Sound responseId mux) (hlasting : Lasting mux after)

include hsound hlasting

theorem Sound.of_ledger (hledger : Ledger after.holds (after.sent.map Prod.fst) after.ids.length)
    (hentries : ∀ (requestId : UInt64) (request : PendingRequest),
      after.pending.requests[requestId]? = some request →
        mux.pending.requests[requestId]? = some request ∨
          after.ids[request.sender]? = some requestId)
    (howed : ∀ place, ∀ reply ∈ after.owed place,
      Answers responseId after reply ∨ ∃ other, reply ∈ mux.owed other)
    (hsent : ∀ reply ∈ after.sent, reply ∈ mux.sent ∨ ∃ place, reply ∈ mux.owed place)
    (hemptied : after.pending.failure.isSome → after.pending.requests = ∅) :
    Sound responseId after := by
  refine ⟨hledger, fun requestId request h => ?_, fun place reply h => ?_, fun reply h => ?_,
    hemptied⟩
  · obtain hold | hnew := hentries requestId request h
    · exact hlasting.ids _ _ (hsound.entries requestId request hold)
    · exact hnew
  · obtain hnew | ⟨other, hold⟩ := howed place reply h
    · exact hnew
    · exact (hsound.owed other reply hold).mono hlasting
  · obtain hold | ⟨place, howed⟩ := hsent reply h
    · exact (hsound.sent reply hold).mono hlasting
    · exact (hsound.owed place reply howed).mono hlasting

theorem Sound.of_replaces (hr : Replaces place own owing mid after) (howed : mid.owed = mux.owed)
    (hledger : Ledger after.holds (mid.sent.map Prod.fst) mid.ids.length)
    (hentries : ∀ (requestId : UInt64) (request : PendingRequest),
      mid.pending.requests[requestId]? = some request →
        mux.pending.requests[requestId]? = some request ∨
          after.ids[request.sender]? = some requestId)
    (howing : ∀ reply ∈ owing, Answers responseId after reply ∨ ∃ other, reply ∈ mux.owed other)
    (hsent : ∀ reply ∈ mid.sent, reply ∈ mux.sent ∨ ∃ place, reply ∈ mux.owed place)
    (hemptied : mid.pending.failure.isSome → mid.pending.requests = ∅) :
    Sound responseId after := by
  rw [← hr.sent, ← hr.ids] at hledger
  rw [← hr.pending] at hentries hemptied
  rw [← hr.sent] at hsent
  refine hsound.of_ledger hlasting hledger hentries (fun other reply h => ?_) hsent hemptied
  by_cases hother : other = place
  · rw [hother, hr.owed_here] at h
    exact howing reply h
  · rw [hr.owed_there other hother, howed] at h
    exact .inr ⟨other, h⟩

theorem sound_opened (hpending : after.pending = mux.pending) (hsent : after.sent = mux.sent)
    (hids : after.ids = mux.ids ++ [requestId])
    (hown : after.unanswered (.call mux.ids.length) = [mux.ids.length])
    (hother : ∀ place, place ≠ .call mux.ids.length →
      after.unanswered place = mux.unanswered place) (howed : after.owed = mux.owed) :
    Sound responseId after := by
  -- there is no call under the new number yet
  have hphase : mux.phaseOf mux.ids.length = none := by simp [phaseOf, ids]
  have hledger : Ledger after.holds (after.sent.map Prod.fst) after.ids.length := by
    rw [hsent, hids, length_append, length_singleton]
    refine hsound.ledger.mint (.call mux.ids.length) ?_ ?_ fun place hplace => ?_
    · simp [holds, unanswered, owed, hphase]
    · rw [holds, hown, howed]
      simp [owed, hphase]
    · rw [holds, hother place hplace, howed, holds]
  refine hsound.of_ledger hlasting hledger (fun id request h => .inl ?_)
    (fun place reply h => .inr ⟨place, howed ▸ h⟩) (fun reply h => .inl (hsent ▸ h)) ?_
  · rw [← hpending]
    exact h
  · rw [hpending]
    exact hsound.emptied

theorem sound_moved
    (hr : Replaces place own owing mux after) (hown : List.Sublist own (mux.unanswered place))
    (howed : List.Sublist owing (mux.owed place)) : Sound responseId after := by
  have hsub : ∀ other, List.Sublist (after.holds other) (mux.holds other) := by
    intro other
    by_cases hother : other = place
    · rw [hother, hr.holds_here]
      exact hown.append (howed.map Prod.fst)
    · rw [hr.holds_there other hother]
  exact hsound.of_replaces hlasting hr rfl (hsound.ledger.drop hsub) (fun _ _ h => .inl h)
    (fun _ h => .inr ⟨place, howed.subset h⟩) (fun _ h => .inl h) hsound.emptied

theorem sound_removed
    (hr : Replaces place [] [] { mux with pending := mux.pending.remove requestId } after) :
    Sound responseId after := by
  have hsub : ∀ other, List.Sublist (after.holds other) (mux.holds other) := by
    intro other
    by_cases hother : other = place
    · rw [hother, hr.holds_here]
      exact nil_sublist _
    · rw [hr.holds_there other hother]
      by_cases hentry : other = .entry requestId
      · rw [hentry, holds_remove_self]
        exact nil_sublist _
      · rw [holds_remove requestId other hentry]
  exact hsound.of_replaces hlasting hr (owed_remove requestId) (hsound.ledger.drop hsub)
    (fun _ _ h => .inl (entry_of_remove h)) (fun _ h => absurd h not_mem_nil) (fun _ h => .inl h)
    (emptied_remove hsound requestId)

theorem sound_taken {frame : Bytes} (hframe : responseId frame = .ok requestId)
    (hentry : mux.pending.requests[requestId]? = some request)
    (hr : Replaces .reader [] [(request.sender, .ok frame)]
      { mux with pending := mux.pending.remove requestId } after) : Sound responseId after := by
  have hid := hsound.entries requestId request hentry
  refine hsound.of_replaces hlasting hr (owed_remove requestId) ?_
    (fun _ _ h => .inl (entry_of_remove h)) (fun reply h => ?_) (fun _ h => .inl h)
    (emptied_remove hsound requestId)
  · refine hsound.ledger.gather (· = .entry requestId) .reader ?_ ?_ ?_ ?_
    · rw [hr.holds_here]
      exact nodup_singleton _
    · intro channel hchannel
      rw [hr.holds_here] at hchannel
      refine ⟨.entry requestId, rfl, ?_⟩
      simpa [holds, unanswered, hentry, owed] using hchannel
    · intro other hsource hother
      rw [hr.holds_there other hother, hsource, holds_remove_self]
    · intro other hsource hother
      rw [hr.holds_there other hother, holds_remove requestId other hsource]
  · rw [mem_singleton.1 h]
    exact .inl ⟨requestId, hlasting.ids _ _ hid, hframe⟩

theorem sound_inserted {management : Bool} {pending : PendingState}
    (hinsert : mux.pending.insert requestId management channel limits = .ok pending)
    (hid : mux.ids[channel]? = some requestId) (hown : mux.unanswered (.call channel) = [channel])
    (hr : Replaces (.call channel) [] [] { mux with pending } after) :
    Sound responseId after := by
  obtain ⟨hfailure, -, habsent, rfl⟩ := PendingState.insert_eq_ok hinsert
  have hnew : after.holds (.entry requestId) = [channel] := by
    rw [hr.holds_there _ Place.noConfusion]
    simp [holds, unanswered, owed]
  have hother : ∀ other, other ≠ .call channel → other ≠ .entry requestId →
      after.holds other = mux.holds other := by
    intro other hcall hentry
    rw [hr.holds_there other hcall]
    cases other with
    | entry other =>
      have hne : requestId ≠ other := fun e => hentry (e ▸ rfl)
      simp [holds, unanswered, owed, getElem?_insert_ite, hne]
    | _ => rfl
  refine hsound.of_replaces hlasting hr (funext fun other => by cases other <;> rfl) ?_
    (fun other request h => ?_) (fun _ h => absurd h not_mem_nil) (fun _ h => .inl h) (fun h => ?_)
  · refine hsound.ledger.gather (· = .call channel) (.entry requestId) ?_ ?_ ?_ ?_
    · rw [hnew]
      exact nodup_singleton _
    · intro sender hsender
      rw [hnew] at hsender
      refine ⟨.call channel, rfl, ?_⟩
      rw [holds, hown]
      exact mem_append_left _ hsender
    · intro other hsource _
      rw [hsource, hr.holds_here]
      rfl
    · intro other hsource hentry
      exact hother other hsource hentry
  · simp only [getElem?_insert_ite] at h
    split at h
    · next heq =>
      cases h
      subst heq
      exact .inr (hlasting.ids _ _ hid)
    · exact .inl h
  · simp [hfailure] at h

theorem sound_failed {error : RuntimeError}
    (hr : Replaces place [] (FailAt.sending error (mux.pending.fail error).1).owed
      { mux with pending := (mux.pending.fail error).2 } after) : Sound responseId after := by
  have hgathered : after.holds place = mux.pending.requests.toList.map (·.2.sender) := by
    rw [hr.holds_here]
    simp [FailAt.owed, PendingState.fail, Function.comp_def]
  refine hsound.of_replaces hlasting hr (funext fun other => by cases other <;> rfl) ?_
    (fun requestId request h => ?_) (fun reply h => ?_) (fun _ h => .inl h) (fun _ => rfl)
  · refine hsound.ledger.gather (fun other => ∃ requestId, other = .entry requestId) place
      ?_ ?_ ?_ ?_
    · rw [hgathered]
      exact nodup_senders hsound
    · intro channel hchannel
      rw [hgathered] at hchannel
      obtain ⟨⟨requestId, request⟩, hmem, rfl⟩ := List.mem_map.1 hchannel
      have hentry := Std.ExtTreeMap.mem_toList_iff_getElem?_eq_some.1 hmem
      exact ⟨.entry requestId, ⟨requestId, rfl⟩, by simp [holds, unanswered, hentry]⟩
    · rintro other ⟨requestId, rfl⟩ hother
      rw [hr.holds_there _ hother]
      simp [holds, unanswered, owed, PendingState.fail]
    · intro other hsource hother
      rw [hr.holds_there other hother]
      cases other with
      | entry requestId => exact absurd ⟨requestId, rfl⟩ hsource
      | _ => rfl
  · simp [PendingState.fail] at h
  · -- somebody waits, so the table had not failed before
    left
    obtain ⟨sender, hsender, rfl⟩ := List.mem_map.1 h
    obtain ⟨entry, hmem, -⟩ := List.mem_map.1 hsender
    have hnone : mux.pending.failure = none := by
      cases hfailure : mux.pending.failure with
      | none => rfl
      | some stored =>
        have hempty := hsound.emptied (by rw [hfailure]; rfl)
        have hentry := Std.ExtTreeMap.mem_toList_iff_getElem?_eq_some.1 hmem
        simp [hempty] at hentry
    show after.pending.failure = some error
    rw [hr.pending]
    simp [PendingState.fail, hnone]

theorem sound_told {result : RuntimeResult Bytes} {rest : List Reply}
    (hown : mux.unanswered place = []) (howed : mux.owed place = (channel, result) :: rest)
    (hsend : mux.send channel result = some mid) (hr : Replaces place [] rest mid after) :
    Sound responseId after := by
  obtain ⟨hpending, hsent, hids, hsameOwn, hsameOwed⟩ := send_eq_some hsend
  have hholds : mid.holds = mux.holds := by
    funext other
    rw [holds, hsameOwn, hsameOwed, holds]
  refine hsound.of_replaces hlasting hr hsameOwed ?_ (fun _ _ h => .inl (hpending ▸ h))
    (fun reply h => .inr ⟨place, howed ▸ mem_cons_of_mem _ h⟩) (fun reply h => ?_)
    (hpending ▸ hsound.emptied)
  · rw [hsent, hids, map_append]
    refine hsound.ledger.use place ?_ fun other hother => ?_
    · rw [hr.holds_here, holds, hown, howed]
      rfl
    · rw [hr.holds_there other hother, hholds]
  · rw [hsent] at h
    obtain hold | hnew := mem_append.1 h
    · exact .inl hold
    · rw [mem_singleton.1 hnew]
      exact .inr ⟨place, howed ▸ mem_cons_self⟩

end Preserved

theorem sound_closed (hsound : Sound responseId mux) :
    Sound responseId { mux with pending := mux.pending.close } := by
  have hholds : { mux with pending := mux.pending.close }.holds = mux.holds := by
    funext place
    cases place <;> rfl
  have howed : { mux with pending := mux.pending.close }.owed = mux.owed := by
    funext place
    cases place <;> rfl
  refine hsound.of_ledger ⟨fun _ _ h => h, fun _ h => h, fun _ => rfl⟩ ?_
    (fun _ _ h => .inl h) (fun place reply h => .inr ⟨place, howed ▸ h⟩)
    (fun _ h => .inl h) hsound.emptied
  rw [hholds]
  exact hsound.ledger

theorem Effect.sound (he : Effect responseId mux after) (hsound : Sound responseId mux) :
    Sound responseId after := by
  have hlasting := he.lasting
  cases he with
  | opened requestId hpending hsent hids hown hother howed =>
    exact sound_opened hsound hlasting hpending hsent hids hown hother howed
  | moved place own owed hreplaces hown howed =>
    exact sound_moved hsound hlasting hreplaces hown howed
  | closed hafter => exact hafter ▸ sound_closed hsound
  | inserted requestId management channel limits pending hinsert hid hown hreplaces =>
    exact sound_inserted hsound hlasting hinsert hid hown hreplaces
  | removed requestId place hreplaces => exact sound_removed hsound hlasting hreplaces
  | taken requestId request frame hframe hentry hreplaces =>
    exact sound_taken hsound hlasting hframe hentry hreplaces
  | failed place error hreplaces => exact sound_failed hsound hlasting hreplaces
  | told place channel result rest mid hown howed hsend hreplaces =>
    exact sound_told hsound hlasting hown howed hsend hreplaces

end Steps

/-! ## Runs -/

section Runs

variable {responseId} {mux later : RequestMultiplexer} {events : List MuxEvent}

theorem sound_run (hrun : Interleaving.run (step responseId) mux events = some later)
    (hsound : Sound responseId mux) : Sound responseId later :=
  run_invariant (fun _ _ _ hsound hstep => (step_effect hstep).sound hsound) hrun hsound

theorem Reachable.sound (h : Reachable responseId limits mux) : Sound responseId mux := by
  obtain ⟨events, hrun⟩ := h
  exact sound_run hrun (sound_new responseId limits)

theorem failure_run {error : RuntimeError}
    (hrun : Interleaving.run (step responseId) mux events = some later)
    (hfailure : mux.pending.failure = some error) : later.pending.failure = some error :=
  run_invariant (P := fun mux => mux.pending.failure = some error)
    (fun _ _ _ hfailure hstep => (step_effect hstep).lasting.failure error hfailure) hrun hfailure

theorem closed_run (hrun : Interleaving.run (step responseId) mux events = some later)
    (hclosed : mux.pending.closed = true) : later.pending.closed = true :=
  run_invariant (P := fun mux => mux.pending.closed = true)
    (fun _ _ _ hclosed hstep => (step_effect hstep).lasting.closed hclosed) hrun hclosed

end Runs

/-- Over every interleaving: a reply channel is used at most once, with the response that carries
    the id of its request or with the stored failure; once there is a failure the table stays empty
    and the failure the same; after a failure or a close no request is accepted.  Nothing is assumed
    of the ids. -/
theorem replies_once_and_failure_final {limits : WireLimits} {mux : RequestMultiplexer}
    (h : Reachable responseId limits mux) :
    (mux.sent.map Prod.fst).Nodup ∧
    (∀ (channel : Channel) (result : RuntimeResult Bytes), (channel, result) ∈ mux.sent →
      (∃ frame call, result = .ok frame ∧ mux.calls[channel]? = some call ∧
        responseId frame = .ok call.requestId) ∨
      ∃ error, result = .error error ∧ mux.pending.failure = some error) ∧
    ∀ (events : List MuxEvent) (later : RequestMultiplexer),
      Interleaving.run (step responseId) mux events = some later →
      (∀ error, mux.pending.failure = some error →
        later.pending.failure = some error ∧ later.pending.requests = ∅) ∧
      (mux.pending.failure.isSome ∨ mux.pending.closed = true →
        ∀ (requestId : UInt64) (management : Bool) (sender : Channel) (limits : WireLimits),
          ∃ error, later.pending.insert requestId management sender limits = .error error) := by
  have hsound := h.sound
  refine ⟨hsound.ledger.once, fun channel result hsent => ?_, fun events later hrun =>
    ⟨fun error hfailure => ?_, fun hstopped => ?_⟩⟩
  · have hanswers := hsound.sent _ hsent
    cases result with
    | ok frame =>
      obtain ⟨requestId, hid, hframe⟩ := hanswers
      obtain ⟨call, hcall, rfl⟩ := map_eq_some_iff.1 ((getElem?_map ..).symm.trans hid)
      exact .inl ⟨frame, call, rfl, hcall, hframe⟩
    | error error => exact .inr ⟨error, rfl, hanswers⟩
  · have hlater := failure_run hrun hfailure
    exact ⟨hlater, (sound_run hrun hsound).emptied (by rw [hlater]; rfl)⟩
  · refine PendingState.insert_refused ?_
    obtain hfailure | hclosed := hstopped
    · obtain ⟨error, hfailure⟩ := isSome_iff_exists.1 hfailure
      exact .inl (by rw [failure_run hrun hfailure]; rfl)
    · exact .inr (closed_run hrun hclosed)

/-- A codec for samples: the first byte of a frame is its id. -/
def firstByteId : Bytes → RuntimeResult UInt64
  | [] => .error (transportError "empty frame")
  | byte :: _ => .ok byte.toUInt64

/-- Two calls enter the table; one is answered, then the connection ends. -/
def answeredThenEof : List MuxEvent :=
  [ .request 1 false [1, 7], .request 2 true [2, 7],
    .call 0 .ready, .call 1 .ready, .call 0 .ready, .call 1 .ready,
    .reader, .read (.ok (some [1, 9])), .reader, .reader,
    .reader, .read (.ok none), .reader, .reader, .reader ]

theorem replies_sample : ∃ mux, Reachable firstByteId defaultWireLimits mux ∧
      mux.sent = [(0, .ok [1, 9]), (1, .error (transportError "unexpected EOF"))] ∧
      (mux.sent.map Prod.fst).Nodup ∧ mux.pending.requests = ∅ := by
  obtain ⟨mux, hmux⟩ : ∃ mux,
      Interleaving.run (step firstByteId) (new defaultWireLimits) answeredThenEof = some mux :=
    isSome_iff_exists.1 (by decide +kernel)
  have hviews : (Interleaving.run (step firstByteId) (new defaultWireLimits)
      answeredThenEof).map (fun mux => (mux.sent, mux.pending.failure)) =
      some ([(0, .ok [1, 9]), (1, .error (transportError "unexpected EOF"))],
        some (transportError "unexpected EOF")) := by
    decide +kernel
  rw [hmux] at hviews
  obtain ⟨hsent, hfailure⟩ := Prod.mk.inj (some.inj hviews)
  have hreach : Reachable firstByteId defaultWireLimits mux := ⟨answeredThenEof, hmux⟩
  obtain ⟨honce, -, hlater⟩ := replies_once_and_failure_final firstByteId hreach
  exact ⟨mux, hreach, hsent, honce, ((hlater [] mux rfl).1 _ hfailure).2⟩

end RequestMultiplexer

end MutsukiRuntime
