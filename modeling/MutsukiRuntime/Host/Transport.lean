/-
  TYPED TRANSPORTS (`binary.rs`, `jsonl.rs` of the host and their `frame.rs`): requests and
  responses of a type, over the multiplexer.

  * `Bridge` is `BinaryBridge` and `JsonlBridge`, which differ in the codec and in what
    `request` does with a `plugin.initialize`.  The handshake is its result: a transport
    starts here when the handshake is over.
  * A client goes through `request_without_handshake`: it takes an id, reads the limits,
    encodes, waits in the multiplexer and decodes.  Decoding touches nothing shared, so it is
    one step with the lock of `fail` that follows a decoding error.
  * `drives_step`: what a transport does to its multiplexer is a run of the multiplexer, so
    `RequestMultiplexer.Sound` holds here too, and clients get answers to their own requests.
-/
import MutsukiRuntime.Host.Replies
import MutsukiRuntime.Wire.Responses

namespace MutsukiRuntime

open BigEndian Interleaving

/-- What the codecs make of requests and responses. -/
structure TransportSerde extends ResponseSerde where
  Request : RequestType → Type
  /-- `encode_binary_request` and `encode_jsonl_request`. -/
  encode : WireCodec → (kind : RequestType) → UInt64 → Request kind → WireLimits →
    Except WireCodecError Bytes

/-- `response_id` of the codec, which keeps the limits the transport was made with. -/
def ResponseSerde.responseId (serde : ResponseSerde) :
    WireCodec → WireLimits → Bytes → RuntimeResult UInt64
  | .binary, limits, bytes => do
    let frame ← (decodeBinaryFrame bytes limits).mapError fun error =>
      transportError error.display
    if ¬ frame.header.flags.contains .response then
      .error (transportError "binary peer emitted a non-response frame")
    else .ok frame.header.requestId
  | .jsonl, _, line =>
    match serde.envelope line with
    | .ok envelope => .ok envelope.requestId
    | .error text => .error (transportError ("malformed JSONL response: " ++ text))

/-- Where a client is; `failing` is inside `multiplexer.fail`. -/
inductive ClientAt (ρ : Type) where
  | entered
  | initialized
  | numbered (requestId : UInt64)
  | calling (requestId : UInt64) (limits : WireLimits) (channel : Channel)
  | failing (error : RuntimeError) (index : Nat)
  | returned (result : RuntimeResult ρ)
  deriving DecidableEq

structure Client (serde : TransportSerde) where
  kind : RequestType
  request : serde.Request kind
  phase : ClientAt (serde.Response kind) := .entered

structure Bridge (serde : TransportSerde) where
  codec : WireCodec
  /-- The limits of the frame codec. -/
  frameLimits : WireLimits
  multiplexer : RequestMultiplexer
  nextRequest : UInt64 := 0
  handshake : RuntimeResult Unit := .ok ()
  limits : WireLimits
  clients : List (Client serde) := []

inductive BridgeEvent (serde : TransportSerde) where
  | request (kind : RequestType) (request : serde.Request kind)
  | client (index : Nat)
  | thread (event : MuxEvent)

/-- The events of the multiplexer's own threads and of the calls in it. -/
def MuxEvent.isInner : MuxEvent → Bool
  | .request .. => false
  | .fail _ => false
  | .setLimits _ => false
  | _ => true

namespace RequestMultiplexer

/-- A thread calls `fail` and goes through its lock. -/
def failLocked (mux : RequestMultiplexer) (error : RuntimeError) : RequestMultiplexer :=
  { mux with
    pending := (mux.pending.fail error).2
    fails := mux.fails ++ [some (.sending error (mux.pending.fail error).1)] }

theorem failLocked_run (responseId : Bytes → RuntimeResult UInt64) (mux : RequestMultiplexer)
    (error : RuntimeError) :
    Interleaving.run (step responseId) mux [.fail error, .failing mux.fails.length] =
      some (mux.failLocked error) := by
  simp [Interleaving.run, step, failStep, failLocked]

end RequestMultiplexer

namespace Bridge

variable {serde : TransportSerde}

def goOn (bridge : Bridge serde) (index : Nat) (client : Client serde)
    (phase : ClientAt (serde.Response client.kind)) : Bridge serde :=
  { bridge with clients := bridge.clients.set index { client with phase } }

/-- `request` and `ensure_initialized`: only a client of JSONL may send the handshake. -/
def enter (bridge : Bridge serde) (kind : RequestType) : RuntimeResult Unit :=
  if kind.opcode = .pluginInitialize then
    match bridge.codec with
    | .binary =>
      .error (transportError "use BinaryTransport::initialize to establish handshake state")
    | .jsonl => .ok ()
  else bridge.handshake

/-- `next_request_id`. -/
def nextRequestId (bridge : Bridge serde) : RuntimeResult UInt64 :=
  if bridge.nextRequest.toNat + 1 < 2 ^ 64 then .ok (bridge.nextRequest + 1)
  else .error (transportError "request id space is exhausted")

/-- What a client does with the response that its call returned. -/
def settle (bridge : Bridge serde) (index : Nat) (client : Client serde) (requestId : UInt64)
    (limits : WireLimits) (frame : Bytes) : Bridge serde :=
  match serde.decodeResponse bridge.codec client.kind frame requestId limits with
  | .ok response => bridge.goOn index client (.returned (.ok response))
  | .error error =>
    { bridge with multiplexer := bridge.multiplexer.failLocked error }.goOn index client
      (.failing error bridge.multiplexer.fails.length)

/-- The next step of a client outside the multiplexer. -/
def clientStep (bridge : Bridge serde) (index : Nat) (client : Client serde) :
    Option (Bridge serde) :=
  match client.phase with
  | .entered =>
    match bridge.enter client.kind with
    | .ok () => some (bridge.goOn index client .initialized)
    | .error error => some (bridge.goOn index client (.returned (.error error)))
  | .initialized =>
    match bridge.nextRequestId with
    | .ok requestId =>
      some ({ bridge with nextRequest := requestId }.goOn index client (.numbered requestId))
    | .error error => some (bridge.goOn index client (.returned (.error error)))
  | .numbered requestId =>
    match serde.encode bridge.codec client.kind requestId client.request bridge.limits with
    | .ok frame =>
      let mux := bridge.multiplexer
      some ({ bridge with
        multiplexer := mux.request requestId client.kind.opcode.isManagement frame }.goOn index
          client (.calling requestId bridge.limits mux.calls.length))
    | .error error =>
      some (bridge.goOn index client (.returned (.error (transportError error.display))))
  | .calling requestId limits channel =>
    match bridge.multiplexer.phaseOf channel with
    | some (.returned (.ok frame)) => some (bridge.settle index client requestId limits frame)
    | some (.returned (.error error)) =>
      some (bridge.goOn index client (.returned (.error error)))
    | _ => none
  | .failing error fail =>
    match bridge.multiplexer.fails[fail]? with
    | some none => some (bridge.goOn index client (.returned (.error error)))
    | _ => none
  | .returned _ => none

def responseId (bridge : Bridge serde) : Bytes → RuntimeResult UInt64 :=
  serde.responseId bridge.codec bridge.frameLimits

def step (bridge : Bridge serde) : BridgeEvent serde → Option (Bridge serde)
  | .request kind request =>
    some { bridge with clients := bridge.clients ++ [{ kind, request }] }
  | .client index =>
    match bridge.clients[index]? with
    | some client => bridge.clientStep index client
    | none => none
  | .thread event =>
    if event.isInner then
      (bridge.multiplexer.step bridge.responseId event).map fun multiplexer =>
        { bridge with multiplexer }
    else none

end Bridge

namespace Bridge

variable {serde : TransportSerde} {bridge after : Bridge serde}

/-! ## The multiplexer of a transport -/

/-- A client that waits in the multiplexer waits on the channel of its own request. -/
def Placed (mux : RequestMultiplexer) (client : Client serde) : Prop :=
  ∀ requestId limits channel, client.phase = .calling requestId limits channel →
    mux.ids[channel]? = some requestId

/-- A step of a transport is a run of its multiplexer, with the same codec, and puts clients in
    their place. -/
structure Drives (bridge after : Bridge serde) : Prop where
  responseId : after.responseId = bridge.responseId
  run : ∃ events, Interleaving.run (RequestMultiplexer.step bridge.responseId)
    bridge.multiplexer events = some after.multiplexer
  clients : ∀ client ∈ after.clients, client ∈ bridge.clients ∨ Placed after.multiplexer client

theorem placed_goOn {index : Nat} {client : Client serde}
    {phase : ClientAt (serde.Response client.kind)}
    (h : Placed bridge.multiplexer { client with phase }) :
    ∀ other ∈ (bridge.goOn index client phase).clients,
      other ∈ bridge.clients ∨ Placed bridge.multiplexer other := by
  intro other hother
  obtain hother | rfl := List.mem_or_eq_of_mem_set hother
  · exact .inl hother
  · exact .inr h

theorem drives_settle (index : Nat) (client : Client serde) (requestId : UInt64)
    (limits : WireLimits) (frame : Bytes) :
    Drives bridge (bridge.settle index client requestId limits frame) := by
  unfold settle
  split
  · exact ⟨rfl, ⟨[], rfl⟩, placed_goOn (by simp [Placed])⟩
  · next error _ =>
    exact ⟨rfl, ⟨_, RequestMultiplexer.failLocked_run _ bridge.multiplexer error⟩,
      placed_goOn (by simp [Placed])⟩

theorem drives_clientStep {index : Nat} {client : Client serde}
    (h : bridge.clientStep index client = some after) : Drives bridge after := by
  unfold clientStep at h
  split at h
  next =>
    split at h <;> cases h <;> exact ⟨rfl, ⟨[], rfl⟩, placed_goOn (by simp [Placed])⟩
  next =>
    split at h <;> cases h <;> exact ⟨rfl, ⟨[], rfl⟩, placed_goOn (by simp [Placed])⟩
  next requestId _ =>
    split at h <;> cases h
    · next frame _ =>
      refine ⟨rfl, ⟨[.request requestId client.kind.opcode.isManagement frame], rfl⟩,
        placed_goOn ?_⟩
      rintro _ _ _ ⟨⟩
      simp [RequestMultiplexer.ids, RequestMultiplexer.request]
    · exact ⟨rfl, ⟨[], rfl⟩, placed_goOn (by simp [Placed])⟩
  next requestId limits channel _ =>
    split at h <;> cases h
    · exact drives_settle index client requestId limits _
    · exact ⟨rfl, ⟨[], rfl⟩, placed_goOn (by simp [Placed])⟩
  next =>
    split at h <;> cases h
    exact ⟨rfl, ⟨[], rfl⟩, placed_goOn (by simp [Placed])⟩
  next => cases h

theorem drives_step {event : BridgeEvent serde} (h : bridge.step event = some after) :
    Drives bridge after := by
  cases event with
  | request =>
    cases h
    refine ⟨rfl, ⟨[], rfl⟩, fun client hclient => ?_⟩
    obtain hclient | hnew := List.mem_append.1 hclient
    · exact .inl hclient
    · obtain rfl := List.mem_singleton.1 hnew
      exact .inr (by simp [Placed])
  | client index =>
    simp only [step] at h
    split at h
    · exact drives_clientStep h
    · cases h
  | thread event =>
    simp only [step] at h
    split at h
    · obtain ⟨multiplexer, hstep, rfl⟩ := Option.map_eq_some_iff.1 h
      exact ⟨rfl, ⟨[event], by simp [Interleaving.run, hstep]⟩, fun client hclient => .inl hclient⟩
    · cases h

/-- What holds of a transport with its clients. -/
structure Sound (bridge : Bridge serde) : Prop where
  multiplexer : RequestMultiplexer.Sound bridge.responseId bridge.multiplexer
  clients : ∀ client ∈ bridge.clients, Placed bridge.multiplexer client

theorem Sound.step {event : BridgeEvent serde} (h : Sound bridge)
    (hstep : bridge.step event = some after) : Sound after := by
  have hdrives := drives_step hstep
  obtain ⟨events, hrun⟩ := hdrives.run
  refine ⟨?_, fun client hclient => ?_⟩
  · rw [hdrives.responseId]
    exact RequestMultiplexer.sound_run hrun h.multiplexer
  · obtain hclient | hplaced := hdrives.clients client hclient
    · intro requestId limits channel hphase
      -- the multiplexer forgets no id
      exact run_invariant (P := fun mux : RequestMultiplexer => mux.ids[channel]? = some requestId)
        (fun _ _ _ hid hstep => (RequestMultiplexer.step_effect hstep).lasting.ids _ _ hid) hrun
        (h.clients client hclient requestId limits channel hphase)
    · exact hplaced

/-- In every run of a transport that starts with nobody in it, no reply channel is used twice;
    a frame that is sent to a client carries the id of that client's own request; and an error
    that is sent is the failure of the connection. -/
theorem clients_answered {events : List (BridgeEvent serde)}
    (hsound : bridge.multiplexer.Sound bridge.responseId) (hnobody : bridge.clients = [])
    (hrun : Interleaving.run step bridge events = some after) :
    (after.multiplexer.sent.map Prod.fst).Nodup ∧
    (∀ client ∈ after.clients, ∀ requestId limits channel frame,
      client.phase = .calling requestId limits channel →
      (channel, .ok frame) ∈ after.multiplexer.sent → after.responseId frame = .ok requestId) ∧
    ∀ channel error, (channel, .error error) ∈ after.multiplexer.sent →
      after.multiplexer.pending.failure = some error := by
  have hstart : Sound bridge := ⟨hsound, by simp [hnobody]⟩
  have h : Sound after := run_invariant (fun _ _ _ h hstep => h.step hstep) hrun hstart
  refine ⟨h.multiplexer.ledger.once, fun client hclient requestId limits channel frame hphase
    hsent => ?_, fun channel error hsent => h.multiplexer.sent _ hsent⟩
  obtain ⟨own, hown, hframe⟩ := h.multiplexer.sent _ hsent
  have hplaced := h.clients client hclient requestId limits channel hphase
  rwa [← Option.some.inj (hplaced.symm.trans hown)] at hframe

/-! ## What a response does to the connection -/

/-- The response fails nobody but its own request: the connection has no failure, who waited waits
    and is found by the id of a response, and new requests are taken or refused as before. -/
structure Unharmed (before after : RequestMultiplexer) : Prop where
  failure : after.pending.failure = none
  waits : ∀ (requestId : UInt64) (request : PendingRequest),
    before.pending.requests[requestId]? = some request →
      after.pending.requests[requestId]? = some request ∧
        ∀ frame, (after.readerTake frame requestId).reader = .delivering request.sender frame
  accepts : ∀ (requestId : UInt64) (management : Bool) (sender : Channel) (limits : WireLimits),
    after.pending.insert requestId management sender limits =
      before.pending.insert requestId management sender limits

theorem unharmed_of_pending {before after : RequestMultiplexer}
    (hpending : after.pending = before.pending) (hfailure : before.pending.failure = none) :
    Unharmed before after := by
  refine ⟨by rw [hpending, hfailure], fun requestId request hrequest => ?_, fun _ _ _ _ => by
    rw [hpending]⟩
  rw [← hpending] at hrequest
  refine ⟨hrequest, fun frame => ?_⟩
  simp [RequestMultiplexer.readerTake, PendingState.take, hrequest]

/-- The response can be understood: it answers the request, or reports an error for it. -/
def WellFormed (bridge : Bridge serde) (kind : RequestType) (frame : Bytes) (requestId : UInt64)
    (limits : WireLimits) : Prop :=
  (∃ response, serde.decodeResponse bridge.codec kind frame requestId limits = .ok response) ∨
    ∃ error, serde.ErrorResponse bridge.codec kind frame requestId limits error

/-- A well-formed response fails only its request; any other fails the connection, with the error of
    the codec. -/
def FailsAlone (bridge after : Bridge serde) (kind : RequestType) (frame : Bytes)
    (requestId : UInt64) (limits : WireLimits) : Prop :=
  (bridge.WellFormed kind frame requestId limits →
      Unharmed bridge.multiplexer after.multiplexer) ∧
    (¬ bridge.WellFormed kind frame requestId limits →
      ∃ reason, after.multiplexer.pending.failure = some (wireRuntimeError bridge.codec reason))

section Response

variable {index : Nat} {client : Client serde} {requestId : UInt64} {limits : WireLimits}
  {channel : Channel} {frame : Bytes}

/-- The step of a client whose call has returned a response. -/
theorem step_settle (hclient : bridge.clients[index]? = some client)
    (hcalling : client.phase = .calling requestId limits channel)
    (hreturned : bridge.multiplexer.phaseOf channel = some (.returned (.ok frame))) :
    bridge.step (.client index) = some (bridge.settle index client requestId limits frame) := by
  simp only [step, hclient, clientStep, hcalling, hreturned]

theorem settle_ok {response : serde.Response client.kind}
    (hdecode : serde.decodeResponse bridge.codec client.kind frame requestId limits =
      .ok response) :
    (bridge.settle index client requestId limits frame).multiplexer = bridge.multiplexer := by
  rw [settle, hdecode]
  rfl

variable (index) in
theorem settle_error {error : RuntimeError}
    (hdecode : serde.decodeResponse bridge.codec client.kind frame requestId limits = .error error)
    (hhealthy : bridge.multiplexer.pending.failure = none) :
    (bridge.settle index client requestId limits frame).multiplexer.pending.failure =
      some error := by
  rw [settle, hdecode]
  show (bridge.multiplexer.failLocked error).pending.failure = some error
  simp [RequestMultiplexer.failLocked, PendingState.fail, hhealthy]

/-- On a connection without failure, when a client takes the response that its call returned:
    responses fail alone exactly when the response reports no error. -/
theorem failsAlone_iff (hclient : bridge.clients[index]? = some client)
    (hcalling : client.phase = .calling requestId limits channel)
    (hreturned : bridge.multiplexer.phaseOf channel = some (.returned (.ok frame)))
    (hhealthy : bridge.multiplexer.pending.failure = none)
    (hstep : bridge.step (.client index) = some after) :
    FailsAlone bridge after client.kind frame requestId limits ↔
      ¬ ∃ error, serde.ErrorResponse bridge.codec client.kind frame requestId limits error := by
  rw [step_settle hclient hcalling hreturned] at hstep
  cases hstep
  cases hdecode : serde.decodeResponse bridge.codec client.kind frame requestId limits with
  | ok response =>
    have hnone : ¬ ∃ error,
        serde.ErrorResponse bridge.codec client.kind frame requestId limits error := by
      intro ⟨error, herror⟩
      rw [ResponseSerde.decodeResponse_of_errorResponse herror] at hdecode
      cases hdecode
    refine iff_of_true ⟨fun _ => ?_, fun hnot => ?_⟩ hnone
    · exact unharmed_of_pending (by rw [settle_ok hdecode]) hhealthy
    · exact absurd (.inl ⟨response, hdecode⟩) hnot
  | error error =>
    have hfailed := settle_error index hdecode hhealthy
    constructor
    · intro halone herror
      have hnone := (halone.1 (.inr herror)).failure
      rw [hfailed] at hnone
      cases hnone
    · intro hnone
      refine ⟨fun hformed => ?_, fun _ => ?_⟩
      · obtain ⟨response, hresponse⟩ | herror := hformed
        · rw [hdecode] at hresponse
          cases hresponse
        · exact absurd herror hnone
      · obtain herror | ⟨reason, rfl⟩ := ResponseSerde.errorResponse_or_codec hdecode
        · exact absurd ⟨error, herror⟩ hnone
        · exact ⟨reason, hfailed⟩

end Response

end Bridge

/-! ## An error response beside another request -/

/-- What the peer reports for one request. -/
def taskMissing : RuntimeError := runtimeError errTaskNotFound "task_service" "task.cancel"

/-- Values without content, and one error. -/
def bareSerde : TransportSerde where
  Response _ := Unit
  Request _ := Unit
  envelope _ := .error "expected value"
  errorValue _ := .error "unsupported"
  fromValue _ _ := .error "expected value"
  fromMessagepack _ payload := if payload = [0xc0] then .ok () else .error "invalid type"
  errorFromMessagepack payload :=
    if payload = MessagePack.writeBareError taskMissing then .ok taskMissing
    else .error "invalid type"
  encode _ kind requestId _ limits := encodeFrame kind.opcode .request requestId [0xc0] limits

instance (kind : RequestType) : DecidableEq (bareSerde.Response kind) :=
  inferInstanceAs (DecidableEq Unit)

def bareBridge : Bridge bareSerde where
  codec := .binary
  frameLimits := defaultWireLimits
  multiplexer := .new defaultWireLimits
  limits := defaultWireLimits

/-- A frame of the peer for the first request. -/
def cancelFrame (flags : WireFlags) (payload : Bytes) : Bytes :=
  (encodeFrame .taskCancel flags 1 payload defaultWireLimits).toOption.getD []

def errorFrame : Bytes :=
  cancelFrame ⟨WireFlags.response.bits ||| WireFlags.error.bits⟩
    (MessagePack.writeBareError taskMissing)

def answerFrame : Bytes := cancelFrame .response [0xc0]

/-- Two clients wait; the first has got the frame as its response. -/
def received (frame : Bytes) : List (BridgeEvent bareSerde) :=
  [ .request .cancelTask (), .request .cancelTask (),
    .client 0, .client 0, .client 0, .client 1, .client 1, .client 1,
    .thread (.call 0 .ready), .thread (.call 0 .ready), .thread (.call 0 .ready),
    .thread (.call 1 .ready), .thread (.call 1 .ready), .thread (.call 1 .ready),
    .thread .writer, .thread .writer, .thread (.wrote none), .thread .writer,
    .thread (.call 0 .ready),
    .thread .reader, .thread (.read (.ok (some frame))), .thread .reader,
    .thread .reader, .thread (.call 0 .ready) ]

/-- The bare client at an index: its type and where it is. -/
def Bridge.clientAt (bridge : Bridge bareSerde) (index : Nat) :
    Option (RequestType × ClientAt Unit) :=
  bridge.clients[index]?.map fun client => (client.kind, client.phase)

theorem clientAt_eq_some {bridge : Bridge bareSerde} {index : Nat} {kind : RequestType}
    {phase : ClientAt Unit} (h : bridge.clientAt index = some (kind, phase)) :
    bridge.clients[index]? = some { kind, request := (), phase } := by
  obtain ⟨⟨kind', request, phase'⟩, hclient, heq⟩ := Option.map_eq_some_iff.1 h
  obtain ⟨rfl, rfl⟩ := Prod.mk.inj heq
  exact hclient

/-- The frame reaches the first client while the second waits. -/
theorem received_run (frame : Bytes) (hframe : frame ∈ [errorFrame, answerFrame]) :
    ∃ bridge, Interleaving.run Bridge.step bareBridge (received frame) = some bridge ∧
      bridge.codec = .binary ∧ bridge.multiplexer.pending.failure = none ∧
      bridge.multiplexer.pending.requests.keys = [2] ∧
      bridge.multiplexer.phaseOf 0 = some (.returned (.ok frame)) ∧
      bridge.clients[0]? =
        some { kind := .cancelTask, request := (), phase := .calling 1 defaultWireLimits 0 } := by
  have hviews : ∀ frame ∈ [errorFrame, answerFrame],
      (Interleaving.run Bridge.step bareBridge (received frame)).map (fun bridge =>
        (bridge.codec, bridge.multiplexer.pending.failure,
          bridge.multiplexer.pending.requests.keys)) = some (.binary, none, [2]) ∧
      (Interleaving.run Bridge.step bareBridge (received frame)).map (fun bridge =>
        (bridge.multiplexer.phaseOf 0, bridge.clientAt 0)) =
        some (some (.returned (.ok frame)),
          some (.cancelTask, .calling 1 defaultWireLimits 0)) := by
    refine List.forall_mem_cons.2 ⟨?_, List.forall_mem_singleton.2 ?_⟩ <;> decide +kernel
  obtain ⟨hstate, hclient⟩ := hviews frame hframe
  obtain ⟨bridge, hrun, hstate⟩ := Option.map_eq_some_iff.1 hstate
  rw [hrun] at hclient
  obtain ⟨hcodec, hrest⟩ := Prod.mk.inj hstate
  obtain ⟨hfailure, hkeys⟩ := Prod.mk.inj hrest
  obtain ⟨hphase, hclient⟩ := Prod.mk.inj (Option.some.inj hclient)
  exact ⟨bridge, hrun, hcodec, hfailure, hkeys, hphase, clientAt_eq_some hclient⟩

/-- The first client gets the frame that carries the id of its request. -/
theorem clients_answered_sample : ∃ bridge : Bridge bareSerde,
      Interleaving.run Bridge.step bareBridge (received answerFrame) = some bridge ∧
      (bridge.multiplexer.sent.map Prod.fst).Nodup ∧ bridge.responseId answerFrame = .ok 1 := by
  obtain ⟨bridge, hrun, -, -, -, -, hclient⟩ :=
    received_run answerFrame (List.mem_cons_of_mem _ List.mem_cons_self)
  have hsent : (Interleaving.run Bridge.step bareBridge (received answerFrame)).map
      (·.multiplexer.sent) = some [(0, .ok answerFrame)] := by
    decide +kernel
  rw [hrun] at hsent
  have hsent : bridge.multiplexer.sent = [(0, .ok answerFrame)] := Option.some.inj hsent
  obtain ⟨honce, hown, -⟩ := Bridge.clients_answered (RequestMultiplexer.sound_new _ _) rfl hrun
  refine ⟨bridge, hrun, honce, hown _ (List.mem_of_getElem? hclient) 1 _ 0 answerFrame rfl ?_⟩
  rw [hsent]
  exact List.mem_singleton.2 rfl

/-- A response that reports no error: the other client still waits. -/
theorem answer_fails_alone : ∃ before after : Bridge bareSerde,
      Interleaving.run Bridge.step bareBridge (received answerFrame) = some before ∧
      before.step (.client 0) = some after ∧
      before.FailsAlone after .cancelTask answerFrame 1 defaultWireLimits := by
  obtain ⟨before, hbefore, hcodec, hhealthy, -, hphase, hclient⟩ :=
    received_run answerFrame (List.mem_cons_of_mem _ List.mem_cons_self)
  have hdecode : bareSerde.decodeResponse .binary .cancelTask answerFrame 1 defaultWireLimits =
      .ok () := by
    decide +kernel
  have hstep := Bridge.step_settle hclient rfl hphase
  refine ⟨before, _, hbefore, hstep, (Bridge.failsAlone_iff hclient rfl hphase hhealthy hstep).2 ?_⟩
  intro ⟨error, herror⟩
  rw [hcodec] at herror
  rw [ResponseSerde.decodeResponse_of_errorResponse herror] at hdecode
  cases hdecode

/-- An error response to the first client fails the connection: the second gets the error of the
    first, and no request is accepted any more. -/
theorem error_response_fails_all : ∃ before after later : Bridge bareSerde,
      Interleaving.run Bridge.step bareBridge (received errorFrame) = some before ∧
      before.multiplexer.pending.failure = none ∧
      before.multiplexer.pending.requests.keys = [2] ∧
      bareSerde.ErrorResponse .binary .cancelTask errorFrame 1 defaultWireLimits taskMissing ∧
      before.step (.client 0) = some after ∧
      (∀ requestId management sender limits,
        after.multiplexer.pending.insert requestId management sender limits = .error taskMissing) ∧
      after.step (.thread (.failing 0)) = some later ∧
      later.multiplexer.sent = [(0, .ok errorFrame), (1, .error taskMissing)] ∧
      ¬ before.FailsAlone after .cancelTask errorFrame 1 defaultWireLimits := by
  obtain ⟨before, hbefore, hcodec, hhealthy, hkeys, hphase, hclient⟩ :=
    received_run errorFrame List.mem_cons_self
  have herror : bareSerde.ErrorResponse .binary .cancelTask errorFrame 1 defaultWireLimits
      taskMissing :=
    ⟨{ header := { protocol := .current, opcode := .taskCancel,
                   flags := ⟨WireFlags.response.bits ||| WireFlags.error.bits⟩,
                   requestId := 1, payloadLen := 103 }
       payload := MessagePack.writeBareError taskMissing },
      by decide +kernel, by decide +kernel, by decide +kernel, by decide +kernel⟩
  have hdecode := ResponseSerde.decodeResponse_of_errorResponse herror
  rw [← hcodec] at hdecode
  have hsent : (Interleaving.run Bridge.step bareBridge
      (received errorFrame ++ [.client 0, .thread (.failing 0)])).map (·.multiplexer.sent) =
      some [(0, .ok errorFrame), (1, .error taskMissing)] := by
    decide +kernel
  rw [run_append, hbefore] at hsent
  obtain ⟨later, hlater, hsent⟩ := Option.map_eq_some_iff.1 hsent
  obtain ⟨after, hafter, hrest⟩ := run_cons hlater
  obtain ⟨_, hend, hdone⟩ := run_cons hrest
  cases hdone
  have hsettled := Bridge.step_settle hclient rfl hphase
  rw [hafter] at hsettled
  have hfailed : after.multiplexer.pending.failure = some taskMissing := by
    rw [Option.some.inj hsettled]
    exact Bridge.settle_error 0 hdecode hhealthy
  refine ⟨before, after, later, hbefore, hhealthy, hkeys, herror, hafter, ?_, hend, hsent, ?_⟩
  · intro requestId management sender limits
    simp [PendingState.insert, hfailed]
  · intro halone
    have hnone := (halone.1 (.inr ⟨taskMissing, hcodec ▸ herror⟩)).failure
    rw [hfailed] at hnone
    cases hnone

end MutsukiRuntime
