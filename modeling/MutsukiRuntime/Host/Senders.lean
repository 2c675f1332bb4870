/-
  REPLY SENDERS of the multiplexer.  The sender of a reply channel is made by the call that
  waits on it, and from then on is in one place: with the call, in the pending table, or with
  the thread that took it out to answer.

  * `owed` and `unanswered` say where senders are, and what a thread that has taken some out
    is about to send.
-/
import MutsukiRuntime.Host.Multiplexer

namespace MutsukiRuntime

open BigEndian List Option

/-! ## Where senders are -/

/-- A sender and what is about to be sent on it. -/
abbrev Reply := Channel × RuntimeResult Bytes

def FailAt.owed : FailAt → List Reply
  | .entered _ => []
  | .sending error senders => senders.map fun sender => (sender, .error error)

def CallAt.owed : CallAt → List Reply
  | .failing fail => fail.owed
  | _ => []

/-- The sender of a call that has not offered it to the table. -/
def CallAt.unanswered (channel : Channel) : CallAt → List Channel
  | .entered => [channel]
  | .limited _ => [channel]
  | _ => []

def ReaderAt.owed : ReaderAt → List Reply
  | .delivering sender frame => [(sender, .ok frame)]
  | .failing fail => fail.owed
  | _ => []

def WriterAt.owed : WriterAt → List Reply
  | .failing fail _ => fail.owed
  | _ => []

/-- A slot of the pending table, or a thread. -/
inductive Place where
  | entry (requestId : UInt64)
  | call (channel : Channel)
  | reader
  | writer
  | other (index : Nat)
  deriving DecidableEq

namespace RequestMultiplexer

/-- The request ids of the calls, by channel. -/
def ids (mux : RequestMultiplexer) : List UInt64 := mux.calls.map (·.requestId)

def phaseOf (mux : RequestMultiplexer) (channel : Channel) : Option CallAt :=
  mux.calls[channel]?.map (·.phase)

def owed (mux : RequestMultiplexer) : Place → List Reply
  | .entry _ => []
  | .call channel => (mux.phaseOf channel).elim [] CallAt.owed
  | .reader => mux.reader.owed
  | .writer => mux.writer.owed
  | .other index => mux.fails[index]?.join.elim [] FailAt.owed

def unanswered (mux : RequestMultiplexer) : Place → List Channel
  | .entry requestId => (mux.pending.requests[requestId]?.map (·.sender)).toList
  | .call channel => (mux.phaseOf channel).elim [] (CallAt.unanswered channel)
  | _ => []

/-- The senders at a place. -/
def holds (mux : RequestMultiplexer) (place : Place) : List Channel :=
  mux.unanswered place ++ (mux.owed place).map Prod.fst

/-! ## What a step does to them -/

/-- `after` is `mux` with other senders at one place. -/
structure Replaces (place : Place) (own : List Channel) (owed : List Reply)
    (mux after : RequestMultiplexer) : Prop where
  pending : after.pending = mux.pending
  sent : after.sent = mux.sent
  ids : after.ids = mux.ids
  own_here : after.unanswered place = own
  owed_here : after.owed place = owed
  own_there : ∀ other, other ≠ place → after.unanswered other = mux.unanswered other
  owed_there : ∀ other, other ≠ place → after.owed other = mux.owed other

theorem replaces_reader (mux : RequestMultiplexer) (reader : ReaderAt) :
    Replaces .reader [] reader.owed mux { mux with reader } where
  pending := rfl
  sent := rfl
  ids := rfl
  own_here := rfl
  owed_here := rfl
  own_there other _ := by cases other <;> rfl
  owed_there other hother := by
    cases other with
    | reader => exact absurd rfl hother
    | _ => rfl

theorem replaces_writer (mux : RequestMultiplexer) (writer : WriterAt) :
    Replaces .writer [] writer.owed mux { mux with writer } where
  pending := rfl
  sent := rfl
  ids := rfl
  own_here := rfl
  owed_here := rfl
  own_there other _ := by cases other <;> rfl
  owed_there other hother := by
    cases other with
    | writer => exact absurd rfl hother
    | _ => rfl

section Calls

variable {mux : RequestMultiplexer} {channel : Channel} {call call' : RequestCall}

theorem ids_setCall (h : mux.calls[channel]? = some call)
    (hid : call'.requestId = call.requestId) : (mux.setCall channel call').ids = mux.ids := by
  unfold ids setCall
  rw [map_set, hid]
  apply ext_getElem?
  intro other
  rw [getElem?_set]
  split
  · next heq =>
    subst heq
    obtain ⟨hlt, hget⟩ := List.getElem?_eq_some_iff.1 h
    simp [hlt, hget]
  · rfl

theorem phaseOf_setCall (h : mux.calls[channel]? = some call) (other : Channel) :
    (mux.setCall channel call').phaseOf other =
      if other = channel then some call'.phase else mux.phaseOf other := by
  obtain ⟨hlt, _⟩ := List.getElem?_eq_some_iff.1 h
  unfold phaseOf setCall
  rw [getElem?_set]
  by_cases hother : channel = other
  · subst hother
    simp [hlt]
  · rw [if_neg hother, if_neg (Ne.symm hother)]

variable (mux) in
theorem replaces_call (h : mux.calls[channel]? = some call) (phase : CallAt) :
    Replaces (.call channel) (phase.unanswered channel) phase.owed mux
      (mux.goOn channel call phase) where
  pending := rfl
  sent := rfl
  ids := ids_setCall h rfl
  own_here := by simp [unanswered, goOn, phaseOf_setCall h]
  owed_here := by simp [owed, goOn, phaseOf_setCall h]
  own_there other hother := by
    cases other with
    | call other =>
      have hne : other ≠ channel := fun e => hother (e ▸ rfl)
      simp [unanswered, goOn, phaseOf_setCall h, hne]
    | _ => rfl
  owed_there other hother := by
    cases other with
    | call other =>
      have hne : other ≠ channel := fun e => hother (e ▸ rfl)
      simp [owed, goOn, phaseOf_setCall h, hne]
    | _ => rfl

theorem senders_setCall (h : mux.calls[channel]? = some call) (hphase : call'.phase = call.phase) :
    (mux.setCall channel call').unanswered = mux.unanswered ∧
      (mux.setCall channel call').owed = mux.owed := by
  have hsame : (mux.setCall channel call').phaseOf = mux.phaseOf := by
    funext other
    rw [phaseOf_setCall h]
    split
    · next heq =>
      subst heq
      simp [phaseOf, h, hphase]
    · rfl
  constructor
  · funext place
    cases place with
    | call other =>
      unfold unanswered
      rw [hsame]
    | _ => rfl
  · funext place
    cases place with
    | call other =>
      unfold owed
      rw [hsame]
    | _ => rfl

end Calls

theorem replaces_other (mux : RequestMultiplexer) {index : Nat} {fail : Option FailAt}
    (h : mux.fails[index]? = some fail) (next : Option FailAt) :
    Replaces (.other index) [] (next.elim [] FailAt.owed) mux
      { mux with fails := mux.fails.set index next } := by
  obtain ⟨hlt, _⟩ := List.getElem?_eq_some_iff.1 h
  refine ⟨rfl, rfl, rfl, rfl, ?_, fun other _ => by cases other <;> rfl, fun other hother => ?_⟩
  · simp [owed, hlt]
  · cases other with
    | other other =>
      have hne : index ≠ other := fun e => hother (e ▸ rfl)
      simp [owed, hne]
    | _ => rfl

variable {mid : RequestMultiplexer}

/-- The senders of a multiplexer after a use of a reply channel are where they were. -/
theorem send_eq_some {mux : RequestMultiplexer} {channel : Channel} {result : RuntimeResult Bytes}
    (h : mux.send channel result = some mid) :
    mid.pending = mux.pending ∧ mid.sent = mux.sent ++ [(channel, result)] ∧
      mid.ids = mux.ids ∧ mid.unanswered = mux.unanswered ∧ mid.owed = mux.owed := by
  unfold send at h
  cases hcall : mux.calls[channel]? with
  | none => simp [hcall] at h
  | some call =>
    simp only [hcall] at h
    split at h
    · cases h
      exact ⟨rfl, rfl, rfl, rfl, rfl⟩
    · split at h
      · cases h
        obtain ⟨hown, howed⟩ : _ ∧ _ := senders_setCall hcall
          (show { call with response := some result }.phase = call.phase from rfl)
        exact ⟨rfl, rfl, ids_setCall hcall rfl, hown, howed⟩
      · cases h

variable (responseId : Bytes → RuntimeResult UInt64)

/-- Everything a step can do to the senders. -/
inductive Effect (mux after : RequestMultiplexer) : Prop
  /-- A call makes its channel. -/
  | opened (requestId : UInt64) (hpending : after.pending = mux.pending)
      (hsent : after.sent = mux.sent) (hids : after.ids = mux.ids ++ [requestId])
      (hown : after.unanswered (.call mux.ids.length) = [mux.ids.length])
      (hother : ∀ place, place ≠ .call mux.ids.length →
        after.unanswered place = mux.unanswered place)
      (howed : after.owed = mux.owed)
  /-- A thread goes on, and may drop senders it has. -/
  | moved (place : Place) (own : List Channel) (owed : List Reply)
      (hreplaces : Replaces place own owed mux after)
      (hown : List.Sublist own (mux.unanswered place))
      (howed : List.Sublist owed (mux.owed place))
  | closed (hafter : after = { mux with pending := mux.pending.close })
  /-- A call puts its sender into the table. -/
  | inserted (requestId : UInt64) (management : Bool) (channel : Channel) (limits : WireLimits)
      (pending : PendingState)
      (hinsert : mux.pending.insert requestId management channel limits = .ok pending)
      (hid : mux.ids[channel]? = some requestId)
      (hown : mux.unanswered (.call channel) = [channel])
      (hreplaces : Replaces (.call channel) [] [] { mux with pending } after)
  | removed (requestId : UInt64) (place : Place)
      (hreplaces : Replaces place [] [] { mux with pending := mux.pending.remove requestId }
        after)
  /-- The reader takes out the sender of the id that its frame carries. -/
  | taken (requestId : UInt64) (request : PendingRequest) (frame : Bytes)
      (hframe : responseId frame = .ok requestId)
      (hentry : mux.pending.requests[requestId]? = some request)
      (hreplaces : Replaces .reader [] [(request.sender, .ok frame)]
        { mux with pending := mux.pending.remove requestId } after)
  /-- A thread that fails the connection takes out all senders. -/
  | failed (place : Place) (error : RuntimeError)
      (hreplaces : Replaces place [] (FailAt.sending error (mux.pending.fail error).1).owed
        { mux with pending := (mux.pending.fail error).2 } after)
  /-- A thread uses the first of its senders. -/
  | told (place : Place) (channel : Channel) (result : RuntimeResult Bytes) (rest : List Reply)
      (mid : RequestMultiplexer) (hown : mux.unanswered place = [])
      (howed : mux.owed place = (channel, result) :: rest)
      (hsend : mux.send channel result = some mid)
      (hreplaces : Replaces place [] rest mid after)

section Effects

variable {responseId} {mux after : RequestMultiplexer} {channel : Channel} {call : RequestCall}

theorem calls_setQueue (lane : Lane) (queue : WriteQueue) :
    (mux.setQueue lane queue).calls = mux.calls := by
  cases lane <;> rfl

variable {place : Place} {own : List Channel} {owed : List Reply} {lane : Lane} {fail : FailAt}
  {next : Option FailAt} {waited : Waited}

theorem Replaces.of_setQueue {queue : WriteQueue}
    (h : Replaces place own owed (mux.setQueue lane queue) after) :
    Replaces place own owed mux after := by
  cases lane <;>
    exact ⟨h.pending, h.sent, h.ids, h.own_here, h.owed_here, h.own_there, h.owed_there⟩

theorem effect_failStep (place : Place)
    (hown : mux.unanswered place = []) (howed : mux.owed place = fail.owed)
    (hstep : mux.failStep fail = some (next, mid))
    (hreplaces : Replaces place [] (next.elim [] FailAt.owed) mid after) :
    Effect responseId mux after := by
  cases fail with
  | entered error =>
    obtain ⟨rfl, rfl⟩ := Prod.mk.inj (some.inj hstep)
    exact .failed place error hreplaces
  | sending error senders =>
    cases senders with
    | nil =>
      obtain ⟨rfl, rfl⟩ := Prod.mk.inj (some.inj hstep)
      exact .moved place [] [] hreplaces (nil_sublist _) (nil_sublist _)
    | cons sender senders =>
      obtain ⟨sent, hsend, heq⟩ := map_eq_some_iff.1 hstep
      obtain ⟨rfl, rfl⟩ := Prod.mk.inj heq
      exact .told place sender (.error error) _ sent hown howed hsend hreplaces

theorem effect_goOn (hcall : mux.calls[channel]? = some call) (phase : CallAt)
    (hown : phase.unanswered channel = []) (howed : phase.owed = []) :
    Effect responseId mux (mux.goOn channel call phase) := by
  have hreplaces := replaces_call mux hcall phase
  rw [hown, howed] at hreplaces
  exact .moved _ [] [] hreplaces (nil_sublist _) (nil_sublist _)

theorem effect_enqueueCommand (hcall : mux.calls[channel]? = some call)
    (h : mux.enqueueCommand channel call waited = some after) : Effect responseId mux after := by
  unfold enqueueCommand at h
  dsimp only at h
  split at h
  · cases h
    exact effect_goOn hcall _ rfl rfl
  · split at h
    · cases h
      refine .moved (.call channel) [] [] ?_ (nil_sublist _) (nil_sublist _)
      exact (replaces_call _ (by rwa [calls_setQueue]) .queued).of_setQueue
    · cases h
  · split at h
    · cases h
      exact effect_goOn hcall _ rfl rfl
    · cases h
  · cases h

theorem effect_callStep (hcall : mux.calls[channel]? = some call)
    (h : mux.callStep channel call waited = some after) : Effect responseId mux after := by
  have hphase : mux.phaseOf channel = some call.phase := by simp [phaseOf, hcall]
  have hid : mux.ids[channel]? = some call.requestId := by simp [ids, hcall]
  unfold callStep at h
  split at h
  next hentered =>
    cases h
    refine .moved (.call channel) _ _ (replaces_call mux hcall _) ?_ (nil_sublist _)
    simp [CallAt.unanswered, unanswered, hphase, hentered]
  next limits hlimited =>
    split at h
    next pending hinsert =>
      cases h
      refine .inserted call.requestId call.management channel limits pending hinsert hid ?_
        (replaces_call { mux with pending } hcall .inserted)
      simp [CallAt.unanswered, unanswered, hphase, hlimited]
    next =>
      cases h
      exact effect_goOn hcall _ rfl rfl
  next => exact effect_enqueueCommand hcall h
  next =>
    cases h
    exact .removed call.requestId (.call channel) (replaces_call
      { mux with pending := mux.pending.remove call.requestId } hcall (.returned (.error _)))
  next =>
    split at h
    · cases h
      exact effect_goOn hcall _ rfl rfl
    · cases h
      exact effect_goOn hcall _ rfl rfl
    · cases h
      exact effect_goOn hcall _ rfl rfl
    · cases h
  next =>
    split at h
    · cases h
      exact effect_goOn hcall _ rfl rfl
    · cases h
      exact effect_goOn hcall _ rfl rfl
    · cases h
  next fail hfailing =>
    split at h
    next => cases h
    next next mid hstep =>
      obtain ⟨call', hcall', rfl⟩ := map_eq_some_iff.1 h
      refine effect_failStep (.call channel) ?_ ?_ hstep ?_
      · simp [unanswered, hphase, hfailing, CallAt.unanswered]
      · simp [owed, hphase, hfailing, CallAt.owed]
      · cases next with
        | none => exact replaces_call mid hcall' (.returned (.error fail.error))
        | some fail => exact replaces_call mid hcall' (.failing fail)
  next => cases h

theorem effect_readerTake {frame : Bytes} {requestId : UInt64}
    (hframe : responseId frame = .ok requestId) :
    Effect responseId mux (mux.readerTake frame requestId) := by
  unfold readerTake PendingState.take
  cases hentry : mux.pending.requests[requestId]? with
  | none => exact .removed requestId .reader (replaces_reader _ (.failing (.entered _)))
  | some request =>
    exact .taken requestId request frame hframe hentry (replaces_reader _ (.delivering _ frame))

theorem effect_reader (reader : ReaderAt) (howed : reader.owed = []) :
    Effect responseId mux { mux with reader } := by
  have hreplaces := replaces_reader mux reader
  rw [howed] at hreplaces
  exact .moved _ [] [] hreplaces (nil_sublist _) (nil_sublist _)

theorem effect_writer (writer : WriterAt) (howed : writer.owed = []) :
    Effect responseId mux { mux with writer } := by
  have hreplaces := replaces_writer mux writer
  rw [howed] at hreplaces
  exact .moved _ [] [] hreplaces (nil_sublist _) (nil_sublist _)

theorem effect_readerStep (h : mux.readerStep responseId = some after) :
    Effect responseId mux after := by
  unfold readerStep at h
  split at h
  next =>
    split at h
    · cases h
    · split at h
      · cases h
        exact effect_reader _ rfl
      · cases h
        exact effect_reader _ rfl
  next => cases h
  next frame _ =>
    split at h
    next requestId hframe =>
      split at h
      · cases h
        exact effect_readerTake hframe
      · cases h
        exact effect_reader _ rfl
    next =>
      cases h
      exact effect_reader _ rfl
  next sender frame hreader =>
    obtain ⟨mid, hsend, rfl⟩ := map_eq_some_iff.1 h
    refine .told .reader sender (.ok frame) [] mid rfl ?_ hsend (replaces_reader mid .waiting)
    simp [owed, hreader, ReaderAt.owed]
  next fail hreader =>
    obtain ⟨⟨next, mid⟩, hstep, rfl⟩ := map_eq_some_iff.1 h
    refine effect_failStep .reader rfl ?_ hstep ?_
    · simp [owed, hreader, ReaderAt.owed]
    · cases next with
      | none => exact replaces_reader mid .returned
      | some fail => exact replaces_reader mid (.failing fail)
  next => cases h

theorem effect_tryRecv (lane : Lane) (turn : WriterLoop) (next : Poll) :
    Effect responseId mux (mux.tryRecv lane turn next) := by
  unfold tryRecv
  dsimp only
  split
  · refine .moved .writer [] [] ?_ (nil_sublist _) (nil_sublist _)
    exact (replaces_writer _ (.writing _ _)).of_setQueue
  · exact effect_writer _ rfl

theorem Replaces.setCall {call' : RequestCall} (h : Replaces place own owed mux mid)
    (hcall : mid.calls[channel]? = some call) (hid : call'.requestId = call.requestId)
    (hphase : call'.phase = call.phase) :
    Replaces place own owed mux (mid.setCall channel call') := by
  obtain ⟨hown, howed⟩ := senders_setCall hcall hphase
  refine ⟨h.pending, h.sent, (ids_setCall hcall hid).trans h.ids, ?_, ?_, ?_, ?_⟩
  · rw [hown]
    exact h.own_here
  · rw [howed]
    exact h.owed_here
  · rw [hown]
    exact h.own_there
  · rw [howed]
    exact h.owed_there

theorem effect_acknowledge {turn : WriterLoop} {command : WriteCommand}
    {result : RuntimeResult Unit} (h : mux.acknowledge turn command result = some after) :
    Effect responseId mux after := by
  unfold acknowledge at h
  -- wherever the writer goes from here, it has no reply senders
  have hnext : (afterWrite turn result).owed = [] := by cases result <;> rfl
  cases hcall : mux.calls[command.written]? with
  | none => simp [hcall] at h
  | some call =>
    simp only [hcall] at h
    split at h
    · cases h
      exact effect_writer _ hnext
    · split at h
      · cases h
        refine .moved .writer [] [] ?_ (nil_sublist _) (nil_sublist _)
        rw [← hnext]
        exact (replaces_writer mux _).setCall hcall rfl rfl
      · cases h

theorem effect_writerStep (h : mux.writerStep = some after) : Effect responseId mux after := by
  unfold writerStep at h
  split at h
  next =>
    split at h
    · cases h
      exact effect_writer _ rfl
    · split at h
      · cases h
        exact effect_tryRecv _ _ _
      · cases h
        exact effect_writer _ rfl
  next =>
    split at h
    · cases h
      exact effect_tryRecv _ _ _
    · cases h
      exact effect_writer _ rfl
  next =>
    split at h
    · cases h
      exact effect_tryRecv _ _ _
    · cases h
      exact effect_writer _ rfl
  next =>
    split at h
    · cases h
      exact effect_writer _ rfl
    · cases h
  next => cases h
  next fail command hwriter =>
    obtain ⟨⟨next, mid⟩, hstep, rfl⟩ := map_eq_some_iff.1 h
    refine effect_failStep .writer rfl ?_ hstep ?_
    · simp [owed, hwriter, WriterAt.owed]
    · cases next with
      | none => exact replaces_writer mid (.acknowledging _ _ _)
      | some fail => exact replaces_writer mid (.failing fail command)
  next => exact effect_acknowledge h
  next => cases h

theorem effect_selectStep (h : mux.selectStep lane = some after) : Effect responseId mux after := by
  unfold selectStep at h
  split at h
  · dsimp only at h
    split at h
    · cases h
      exact effect_tryRecv _ _ _
    · cases h
  · cases h

theorem effect_writerWrote {error : Option String} (h : mux.writerWrote error = some after) :
    Effect responseId mux after := by
  unfold writerWrote at h
  split at h
  · cases h
    exact effect_writer _ rfl
  · cases h
    exact effect_writer _ rfl
  · cases h

theorem effect_request (requestId : UInt64) (management : Bool) (frame : Bytes) :
    Effect responseId mux (mux.request requestId management frame) := by
  have hlength : mux.ids.length = mux.calls.length := length_map _
  have hphase : ∀ channel, channel ≠ mux.calls.length →
      (mux.request requestId management frame).phaseOf channel = mux.phaseOf channel := by
    intro channel hchannel
    unfold phaseOf request
    rcases Nat.lt_or_gt_of_ne hchannel with hlt | hgt
    · rw [getElem?_append_left hlt]
    · rw [getElem?_eq_none (by simp; omega), getElem?_eq_none hgt.le]
  have hnew : (mux.request requestId management frame).phaseOf mux.calls.length =
      some .entered := by
    simp [phaseOf, request]
  refine .opened requestId rfl rfl (by simp [ids, request]) ?_ (fun place hplace => ?_) ?_
  · simp [unanswered, hlength, hnew, CallAt.unanswered]
  · cases place with
    | call channel =>
      rw [hlength] at hplace
      have hne : channel ≠ mux.calls.length := fun e => hplace (e ▸ rfl)
      simp [unanswered, hphase channel hne]
    | _ => rfl
  · funext place
    cases place with
    | call channel =>
      by_cases hchannel : channel = mux.calls.length
      · subst hchannel
        have hbefore : mux.phaseOf mux.calls.length = none := by simp [phaseOf]
        simp [owed, hnew, hbefore, CallAt.owed]
      · simp [owed, hphase channel hchannel]
    | _ => rfl

theorem effect_same (hpending : after.pending = mux.pending) (hsent : after.sent = mux.sent)
    (hids : after.ids = mux.ids) (hown : after.unanswered = mux.unanswered)
    (howed : after.owed = mux.owed) : Effect responseId mux after :=
  .moved .reader (mux.unanswered .reader) (mux.owed .reader)
    ⟨hpending, hsent, hids, congrFun hown _, congrFun howed _, fun other _ => congrFun hown other,
      fun other _ => congrFun howed other⟩
    (Sublist.refl _) (Sublist.refl _)

theorem effect_fail (error : RuntimeError) :
    Effect responseId mux { mux with fails := mux.fails ++ [some (.entered error)] } := by
  refine effect_same rfl rfl rfl rfl ?_
  funext place
  cases place with
  | other index =>
    simp only [owed]
    -- the thread that enters has no senders yet
    rcases Nat.lt_trichotomy index mux.fails.length with hlt | heq | hgt
    · simp [getElem?_append_left hlt]
    · simp [heq, FailAt.owed]
    · have hlength : (mux.fails ++ [some (FailAt.entered error)]).length ≤ index := by
        rw [length_append, length_singleton]
        omega
      rw [getElem?_eq_none hlength, getElem?_eq_none hgt.le]
  | _ => rfl

theorem effect_hangUp (lane : Lane) (queue : WriteQueue) :
    Effect responseId mux (mux.setQueue lane queue) := by
  cases lane <;> exact effect_same rfl rfl rfl rfl rfl

theorem fails_send {result : RuntimeResult Bytes} (h : mux.send channel result = some mid) :
    mid.fails = mux.fails := by
  unfold send at h
  split at h
  · cases h
  · dsimp only at h
    split at h
    · cases h
      rfl
    · split at h
      · cases h
        rfl
      · cases h

theorem fails_failStep (h : mux.failStep fail = some (next, mid)) : mid.fails = mux.fails := by
  cases fail with
  | entered error =>
    obtain ⟨-, rfl⟩ := Prod.mk.inj (some.inj h)
    rfl
  | sending error senders =>
    cases senders with
    | nil =>
      obtain ⟨-, rfl⟩ := Prod.mk.inj (some.inj h)
      rfl
    | cons =>
      obtain ⟨sent, hsend, heq⟩ := map_eq_some_iff.1 h
      obtain ⟨-, rfl⟩ := Prod.mk.inj heq
      exact fails_send hsend

theorem step_effect {event : MuxEvent} (h : mux.step responseId event = some after) :
    Effect responseId mux after := by
  cases event with
  | request requestId management frame =>
    cases h
    exact effect_request requestId management frame
  | call =>
    simp only [step] at h
    split at h
    next call hcall => exact effect_callStep hcall h
    next => cases h
  | reader => exact effect_readerStep h
  | read result =>
    simp only [step] at h
    split at h
    · cases h
      refine effect_reader _ ?_
      unfold readerGot
      split <;> rfl
    · cases h
  | writer => exact effect_writerStep h
  | select lane => exact effect_selectStep h
  | wrote error => exact effect_writerWrote h
  | fail error =>
    cases h
    exact effect_fail error
  | failing index =>
    simp only [step] at h
    split at h
    next fail hfail =>
      obtain ⟨⟨next, mid⟩, hstep, rfl⟩ := map_eq_some_iff.1 h
      have hmid : mid.fails[index]? = some (some fail) := by rw [fails_failStep hstep, hfail]
      refine effect_failStep (.other index) rfl ?_ hstep (replaces_other mid hmid next)
      simp [owed, hfail]
    next => cases h
  | setLimits limits =>
    simp only [step] at h
    split at h
    · cases h
      exact effect_same rfl rfl rfl rfl rfl
    · cases h
      exact effect_same rfl rfl rfl rfl rfl
  | close =>
    cases h
    exact .closed rfl
  | hangUp lane =>
    simp only [step] at h
    split at h
    · cases h
      exact effect_hangUp lane _
    · cases h

end Effects

end RequestMultiplexer

end MutsukiRuntime
