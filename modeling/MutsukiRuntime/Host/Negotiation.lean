/-
  BINARY HANDSHAKE (`binary.rs`, `initialize_locked`): a transport says hello with the limits it
  was made with, and installs what its peer grants beside the limits that are not negotiated.

  The multiplexer delivers: its writer writes the request, and its reader takes the frame of the
  answer, which the decoder then checks against the same limits.  The handshake holds its lock,
  so its request is the first one, and the table is empty.
-/
import MutsukiRuntime.Host.Transport
import MutsukiRuntime.Wire.Handshake

namespace MutsukiRuntime

open BigEndian Prog

/-- `encode_messagepack` of what `rmp_serde` has written. -/
def encodeMessagepack (written : Except String Bytes) : Except WireCodecError Bytes := do
  let payload ← written.mapError WireCodecError.encode
  (WireSerde.checkStructure payload).mapError fun error => .encode error.display
  pure payload

/-- `encode_binary_request`; the requests here keep the trait's own `validate`. -/
def encodeBinaryRequest (requestId : UInt64) (opcode : Opcode) (request : Except String Bytes)
    (limits : WireLimits) : Except WireCodecError Bytes :=
  if requestId = 0 then .error .invalidRequestId
  else do
    let payload ← encodeMessagepack request
    let flags : WireFlags := if opcode.isManagement then
      ⟨WireFlags.request.bits ||| WireFlags.management.bits⟩ else .request
    encodeFrame opcode flags requestId payload limits

def encodeBinaryResponse (requestId : UInt64) (opcode : Opcode)
    (response : Except (Except String Bytes) (Except String Bytes)) (limits : WireLimits) :
    Except WireCodecError Bytes :=
  if requestId = 0 then .error .invalidRequestId
  else
    match response with
    | .ok value => do
      let payload ← encodeMessagepack value
      encodeFrame opcode .response requestId payload limits
    | .error error => do
      let payload ← encodeMessagepack error
      encodeFrame opcode ⟨WireFlags.response.bits ||| WireFlags.error.bits⟩ requestId payload
        limits

/-- What `rmp_serde` makes of the handshake's messages; it reads back the acks it has written. -/
structure HelloSerde (κ π : Type) extends ResponseSerde where
  writeRequest : ProtocolHello → Option κ → Except String Bytes
  writeAck : ProtocolHelloAck π → Except String Bytes
  writeError : RuntimeError → Except String Bytes
  ackOf : Response .initializeRequest → ProtocolHelloAck π
  reads : ∀ ack payload, writeAck ack = .ok payload →
    ∃ response, fromMessagepack .initializeRequest payload = .ok response ∧ ackOf response = ack

/-- A peer: the plugin it describes, and how it reports a hello that it refuses. -/
structure Peer (π : Type) where
  plugin : Option π
  refusal : WireCodecError → RuntimeError

variable {κ π : Type}

/-- The frame of a peer that answers with `ProtocolHello::accept`. -/
def Peer.answer (peer : Peer π) (serde : HelloSerde κ π) (requestId : UInt64)
    (hello : ProtocolHello) : Except WireCodecError Bytes :=
  let response :=
    match hello.accept binaryCodecId peer.plugin with
    | .ok ack => .ok (serde.writeAck ack)
    | .error error => .error (serde.writeError (peer.refusal error))
  encodeBinaryResponse requestId .pluginInitialize response defaultWireLimits

/-- The limits to install: those the answer grants, and the others as they were. -/
def WireLimits.negotiated (limits : WireLimits) (granted : ProtocolHello) : WireLimits :=
  { limits with
    maxFrameBytes := granted.maxFrameBytes
    maxPayloadBytes := granted.maxPayloadBytes
    maxInFlightRequests := granted.maxInFlightRequests
    managementReservedRequests := granted.managementReservedRequests }

/-- The bytes of a slot in a queue of the writer: its stamp, and a `WriteCommand`. -/
def writeSlotBytes : Nat := 8 + (24 + 16)

/-- The capacities of the queues that `RequestMultiplexer::new` allocates, for work and for
    management. -/
def WireLimits.queueCapacities (limits : WireLimits) : List Nat :=
  [max (limits.maxInFlightRequests - limits.managementReservedRequests) 1,
    max limits.managementReservedRequests 1]

structure BinaryBridge (π : Type) where
  multiplexer : RequestMultiplexer
  handshake : Option (RuntimeResult (ProtocolHelloAck π)) := none
  limits : WireLimits

namespace BinaryBridge

/-- The transport as it is made. -/
def fresh (limits : WireLimits) : BinaryBridge π := { multiplexer := .new limits, limits }

/-- `BinaryTransport::with_limits`; a queue of more than `isize::MAX` bytes is not allocated. -/
def withLimits (limits : WireLimits) (responseTimeout : Nat) :
    Outcome RuntimeError (BinaryBridge π) :=
  match limits.validate with
  | .error error => .err (transportError error.display)
  | .ok () =>
    if responseTimeout = 0 then .err (transportError "response timeout must be greater than zero")
    else if ∀ capacity ∈ limits.queueCapacities, writeSlotBytes * capacity ≤ isizeMax then
      .ok (fresh limits)
    else .panic "capacity overflow"

/-- `multiplexer.request` of the handshake; a peer that cannot write its answer sends nothing. -/
def exchange (bridge : BinaryBridge π) (requestId : UInt64)
    (answer : Except WireCodecError Bytes) : RuntimeResult Bytes := do
  let _ ← bridge.multiplexer.pending.insert requestId Opcode.pluginInitialize.isManagement 0
    bridge.multiplexer.limits
  answer.mapError fun _ => transportError "unexpected EOF"

def setLimits (bridge : BinaryBridge π) (limits : WireLimits) :
    RuntimeResult (BinaryBridge π) := do
  limits.validate.mapError fun error => transportError error.display
  .ok { bridge with multiplexer := { bridge.multiplexer with limits }, limits }

/-- The request of `initialize_locked` and what follows it. -/
def negotiate (bridge : BinaryBridge π) (serde : HelloSerde κ π) (peer : Peer π)
    (config : Option κ) (hello : ProtocolHello) :
    RuntimeResult (ProtocolHelloAck π × BinaryBridge π) := do
  let _ ← (encodeBinaryRequest 1 .pluginInitialize (serde.writeRequest hello config)
    bridge.limits).mapError fun error => transportError error.display
  let frame ← bridge.exchange 1 (peer.answer serde 1 hello)
  let response ← serde.decodeBinaryResponse .initializeRequest frame 1 bridge.limits
  let ack := serde.ackOf response
  (ack.validateFor hello).mapError fun error => transportError error.display
  let after ← bridge.setLimits (bridge.limits.negotiated ack.toProtocolHello)
  .ok (ack, after)

/-- `initialize_locked`: a negotiation that fails takes the multiplexer with it. -/
def initializeLocked (bridge : BinaryBridge π) (serde : HelloSerde κ π) (peer : Peer π)
    (config : Option κ) : RuntimeResult (ProtocolHelloAck π) × BinaryBridge π :=
  match ProtocolHello.binaryWithLimits bridge.limits with
  | .error error => (.error (transportError error.display), bridge)
  | .ok hello =>
    match bridge.negotiate serde peer config hello with
    | .ok (ack, after) => (.ok ack, { after with handshake := some (.ok ack) })
    | .error error =>
      (.error error,
        { bridge with
          multiplexer := bridge.multiplexer.failLocked error
          handshake := some (.error error) })

end BinaryBridge

/-! ## The frames of the handshake -/

/-- A payload that a frame within the limits can carry. -/
def Fits (limits : WireLimits) (payload : Bytes) : Prop :=
  payload.length ≤ limits.maxPayloadBytes ∧ binaryHeaderLen + payload.length ≤ limits.maxFrameBytes

variable {limits : WireLimits} {payload frame bytes : Bytes} {written : Except String Bytes}
  {opcode : Opcode} {requestId : UInt64} {flags : WireFlags} {serde : HelloSerde κ π}

theorem encodeMessagepack_eq_ok : encodeMessagepack written = .ok payload ↔
      written = .ok payload ∧ WireSerde.checkStructure payload = .ok () := by
  simp only [encodeMessagepack, except_bind_eq_ok, except_mapError_eq_ok]
  constructor
  · rintro ⟨found, hwritten, _, hcheck, heq⟩
    obtain rfl := Except.ok.inj heq
    exact ⟨hwritten, hcheck⟩
  · rintro ⟨hwritten, hcheck⟩
    exact ⟨payload, hwritten, (), hcheck, rfl⟩

namespace BinaryBridge

theorem exchange_eq_ok (hroom : 0 < limits.maxInFlightRequests)
    {answer : Except WireCodecError Bytes} :
    (fresh limits : BinaryBridge π).exchange 1 answer = .ok frame ↔ answer = .ok frame := by
  have hinsert : ∃ pending, PendingState.insert 1 true 0 limits {} = .ok pending := by
    simp [PendingState.insert, Nat.not_le.2 hroom]
  obtain ⟨pending, hinsert⟩ := hinsert
  have hdef : (fresh limits : BinaryBridge π).exchange 1 answer =
      PendingState.insert 1 true 0 limits {} >>= fun _ =>
        answer.mapError fun _ => transportError "unexpected EOF" := rfl
  rw [hdef, hinsert]
  exact except_mapError_eq_ok

variable {response : serde.Response .initializeRequest}

theorem decode_encoded (hvalid : flags.valid) (hresponse : flags.contains .response = true)
    (hdefault : Fits defaultWireLimits payload) :
    serde.decodeBinaryResponse .initializeRequest
        (encodedFields .pluginInitialize flags 1 payload).bytes 1 limits = .ok response ↔
      Fits limits payload ∧ flags.contains .error = false ∧
      WireSerde.checkStructure payload = .ok () ∧
      serde.fromMessagepack .initializeRequest payload = .ok response := by
  have hwidth : binaryHeaderLen + payload.length < 2 ^ 32 := lt_of_le_of_lt hdefault.2 (by decide)
  unfold ResponseSerde.decodeBinaryResponse
  by_cases hfits : Fits limits payload
  · rw [encodedFields_accepted hvalid (by decide) hfits.1 hfits.2 hwidth]
    simp only [except_bind_eq_ok, except_mapError_eq_ok, Except.ok.injEq, exists_eq_left',
      except_check_eq_ok, BinaryFrame.answers, hresponse]
    cases herror : flags.contains .error with
    | true => simp [except_bind_eq_ok]
    | false =>
      simp only [Bool.false_eq_true, if_false, decodeFramePayload, except_bind_eq_ok,
        except_mapError_eq_ok, decoded_eq_ok]
      constructor
      · rintro ⟨-, _, hcheck, hread⟩
        exact ⟨hfits, trivial, hcheck, hread⟩
      · rintro ⟨-, -, hcheck, hread⟩
        exact ⟨by simp [RequestType.opcode], (), hcheck, hread⟩
  · refine iff_of_false (fun h => hfits ?_) fun h => hfits h.1
    obtain ⟨read, hread, -⟩ := except_bind_eq_ok.1 h
    obtain ⟨hlength, hframe, haccepted⟩ := decodeBinaryFrame_raw.1 (except_mapError_eq_ok.1 hread)
    exact ⟨haccepted.payloadLen.symm.le.trans haccepted.payloadLimit, hlength.symm.le.trans hframe⟩

/-- The transport reads this response in the answer. -/
def Answered (serde : HelloSerde κ π) (limits : WireLimits)
    (answer : Except WireCodecError Bytes) (response : serde.Response .initializeRequest) : Prop :=
  ∃ frame, answer = .ok frame ∧
    serde.decodeBinaryResponse .initializeRequest frame 1 limits = .ok response

theorem answered_response (hvalid : flags.valid) (hresponse : flags.contains .response = true) :
    Answered serde limits (encodeMessagepack written >>= fun payload =>
      encodeFrame .pluginInitialize flags 1 payload defaultWireLimits) response ↔
    ∃ payload, encodeMessagepack written = .ok payload ∧ Fits defaultWireLimits payload ∧
      Fits limits payload ∧ flags.contains .error = false ∧
      serde.fromMessagepack .initializeRequest payload = .ok response := by
  simp only [Answered, except_bind_eq_ok, encodeFrame_eq_ok]
  constructor
  · rintro ⟨frame, ⟨payload, hwritten, hpayload, hlength, rfl⟩, hdecode⟩
    obtain ⟨hfits, herror, -, hread⟩ :=
      (decode_encoded hvalid hresponse ⟨hpayload, hlength⟩).1 hdecode
    exact ⟨payload, hwritten, ⟨hpayload, hlength⟩, hfits, herror, hread⟩
  · rintro ⟨payload, hwritten, hdefault, hfits, herror, hread⟩
    exact ⟨_, ⟨payload, hwritten, hdefault.1, hdefault.2, rfl⟩,
      (decode_encoded hvalid hresponse hdefault).2
        ⟨hfits, herror, (encodeMessagepack_eq_ok.1 hwritten).2, hread⟩⟩

/-- What a handshake needs beyond valid limits. -/
structure Negotiable (serde : HelloSerde κ π) (peer : Peer π) (config : Option κ)
    (limits : WireLimits) : Prop where
  queues : ∀ capacity ∈ limits.queueCapacities, writeSlotBytes * capacity ≤ isizeMax
  /-- The reserve stays below the in-flight limit when both are cut to `u32`. -/
  reserve : limits.managementReservedRequests < ProtocolHello.u32Max
  /-- Inline resources fit the payloads that the peer grants. -/
  inline : limits.maxInlineResourceBytes ≤ defaultWireLimits.maxPayloadBytes
  request : ∃ payload, encodeMessagepack (serde.writeRequest
    (.forCodec binaryCodecId limits) config) = .ok payload ∧ Fits limits payload
  answer : ∃ payload, encodeMessagepack (serde.writeAck
    (.accept (.forCodec binaryCodecId limits) peer.plugin)) = .ok payload ∧
    Fits defaultWireLimits payload ∧ Fits limits payload

theorem acceptable_iff (hvalid : limits.validate = .ok ()) :
    (ProtocolHello.forCodec binaryCodecId limits).Acceptable binaryCodecId ↔
      limits.managementReservedRequests < ProtocolHello.u32Max := by
  obtain ⟨hframe, hpayload, -, -, -, -, hmany, hreserve, hbelow⟩ :=
    WireLimits.validate_eq_ok.1 hvalid
  have hmax : ProtocolHello.u32Max = 2 ^ 32 - 1 := rfl
  constructor
  · intro h
    have hcut : min limits.managementReservedRequests ProtocolHello.u32Max <
        min limits.maxInFlightRequests ProtocolHello.u32Max := h.reserveBelow
    omega
  · intro h
    refine ⟨rfl, rfl, rfl, ?_, ?_, ?_, ?_, rfl, rfl⟩ <;>
      simp only [ProtocolHello.forCodec] <;> omega

theorem answered_peer (hvalid : limits.validate = .ok ()) {peer : Peer π} :
    Answered serde limits (peer.answer serde 1 (.forCodec binaryCodecId limits)) response ↔
      limits.managementReservedRequests < ProtocolHello.u32Max ∧
      ∃ payload, encodeMessagepack (serde.writeAck
          (.accept (.forCodec binaryCodecId limits) peer.plugin)) = .ok payload ∧
        Fits defaultWireLimits payload ∧ Fits limits payload ∧
        serde.fromMessagepack .initializeRequest payload = .ok response := by
  rw [← acceptable_iff hvalid, Peer.answer]
  generalize hhello : ProtocolHello.forCodec binaryCodecId limits = hello
  cases haccept : hello.accept binaryCodecId peer.plugin with
  | error error =>
    refine iff_of_false (fun hanswered => ?_) fun h => ?_
    · obtain ⟨_, -, -, -, herror, -⟩ := (answered_response (by decide) (by decide)).1 hanswered
      cases herror
    · cases haccept.symm.trans (ProtocolHello.accept_eq_ok.2 ⟨h.1, rfl⟩)
  | ok ack =>
    obtain ⟨hacceptable, rfl⟩ := ProtocolHello.accept_eq_ok.1 haccept
    refine (answered_response (by decide) (by decide)).trans ?_
    constructor
    · rintro ⟨payload, hwritten, hdefault, hfits, -, hread⟩
      exact ⟨hacceptable, payload, hwritten, hdefault, hfits, hread⟩
    · rintro ⟨-, payload, hwritten, hdefault, hfits, hread⟩
      exact ⟨payload, hwritten, hdefault, hfits, by decide, hread⟩

/-- The limits of both sides agree but for inline resources, which only one side knows. -/
theorem negotiated_valid_iff (hvalid : limits.validate = .ok ())
    (hreserve : limits.managementReservedRequests < ProtocolHello.u32Max) (plugin : Option π) :
    (limits.negotiated (ProtocolHelloAck.accept (.forCodec binaryCodecId limits)
      plugin).toProtocolHello).validate = .ok () ↔
    limits.maxInlineResourceBytes ≤ defaultWireLimits.maxPayloadBytes := by
  rw [WireLimits.validate_eq_ok] at hvalid ⊢
  simp only [WireLimits.negotiated, ProtocolHelloAck.accept, ProtocolHello.forCodec,
    ProtocolHello.u32Max, defaultWireLimits] at hreserve ⊢
  omega

theorem encodeBinaryRequest_fits :
    (∃ bytes, encodeBinaryRequest 1 opcode written limits = .ok bytes) ↔
      ∃ payload, encodeMessagepack written = .ok payload ∧ Fits limits payload := by
  rw [encodeBinaryRequest, if_neg (by decide)]
  simp only [except_bind_eq_ok, encodeFrame_eq_ok]
  constructor
  · rintro ⟨bytes, payload, hwritten, hpayload, hframe, -⟩
    exact ⟨payload, hwritten, hpayload, hframe⟩
  · rintro ⟨payload, hwritten, hpayload, hframe⟩
    exact ⟨_, payload, hwritten, hpayload, hframe, rfl⟩

theorem setLimits_eq_ok {bridge after : BinaryBridge π} :
    bridge.setLimits limits = .ok after ↔ limits.validate = .ok () ∧
      after = { bridge with multiplexer := { bridge.multiplexer with limits }, limits } := by
  simp only [setLimits, except_bind_eq_ok, except_mapError_eq_ok, Except.ok.injEq]
  constructor
  · rintro ⟨_, hvalid, rfl⟩
    exact ⟨hvalid, rfl⟩
  · rintro ⟨hvalid, rfl⟩
    exact ⟨(), hvalid, rfl⟩

theorem negotiate_eq_ok (hroom : 0 < limits.maxInFlightRequests) {peer : Peer π}
    {config : Option κ} {hello : ProtocolHello} {ack : ProtocolHelloAck π}
    {after : BinaryBridge π} :
    (fresh limits).negotiate serde peer config hello = .ok (ack, after) ↔
      (∃ bytes, encodeBinaryRequest 1 .pluginInitialize (serde.writeRequest hello config) limits =
        .ok bytes) ∧
      ∃ response, Answered serde limits (peer.answer serde 1 hello) response ∧
        serde.ackOf response = ack ∧ ack.validateFor hello = .ok () ∧
        (fresh limits).setLimits (limits.negotiated ack.toProtocolHello) = .ok after := by
  simp only [negotiate, except_bind_eq_ok, except_mapError_eq_ok, exchange_eq_ok hroom, Answered,
    Except.ok.injEq, Prod.mk.injEq]
  constructor
  · rintro ⟨bytes, hrequest, frame, hexchange, response, hdecode, _, hcheck, _, hset, rfl, rfl⟩
    exact ⟨⟨bytes, hrequest⟩, response, ⟨frame, hexchange, hdecode⟩, rfl, hcheck, hset⟩
  · rintro ⟨⟨bytes, hrequest⟩, response, ⟨frame, hexchange, hdecode⟩, rfl, hcheck, hset⟩
    exact ⟨bytes, hrequest, frame, hexchange, response, hdecode, (), hcheck, _, hset, rfl, rfl⟩

theorem initializeLocked_ok {bridge after : BinaryBridge π} {peer : Peer π} {config : Option κ}
    {hello : ProtocolHello} {ack : ProtocolHelloAck π}
    (hhello : ProtocolHello.binaryWithLimits bridge.limits = .ok hello)
    (hnegotiate : bridge.negotiate serde peer config hello = .ok (ack, after)) :
    bridge.initializeLocked serde peer config =
      (.ok ack, { after with handshake := some (.ok ack) }) := by
  simp only [initializeLocked, hhello, hnegotiate]

theorem withLimits_eq_ok {responseTimeout : Nat} {bridge : BinaryBridge π}
    (hvalid : limits.validate = .ok ()) (htimeout : 0 < responseTimeout) :
    withLimits limits responseTimeout = .ok bridge ↔
      (∀ capacity ∈ limits.queueCapacities, writeSlotBytes * capacity ≤ isizeMax) ∧
        fresh limits = bridge := by
  rw [withLimits, hvalid]
  simp only [htimeout.ne', if_false]
  split
  next h => exact ⟨fun heq => ⟨h, Outcome.ok.inj heq⟩, fun heq => congrArg _ heq.2⟩
  next h => exact iff_of_false (by simp) fun heq => h heq.1

/-- A transport with valid limits is made and completes the handshake, with limits that are valid
    again, exactly when its queues can be allocated, the messages fit and neither cut makes its
    limits inconsistent. -/
theorem handshake_completes_iff (serde : HelloSerde κ π) (peer : Peer π) (config : Option κ)
    {responseTimeout : Nat} (hvalid : limits.validate = .ok ()) (htimeout : 0 < responseTimeout) :
    (∃ bridge ack after, withLimits limits responseTimeout = .ok bridge ∧
      bridge.initializeLocked serde peer config = (.ok ack, after) ∧
      after.limits.validate = .ok () ∧ after.multiplexer.limits = after.limits) ↔
    Negotiable serde peer config limits := by
  have hhello : ProtocolHello.binaryWithLimits (fresh limits : BinaryBridge π).limits =
      .ok (.forCodec binaryCodecId limits) :=
    except_bind_eq_ok.2 ⟨(), hvalid, rfl⟩
  have hroom : 0 < limits.maxInFlightRequests := by
    have hmany := (WireLimits.validate_eq_ok.1 hvalid).2.2.2.2.2.2.1
    omega
  simp only [withLimits_eq_ok hvalid htimeout]
  constructor
  · rintro ⟨_, ack, after, ⟨hqueues, rfl⟩, hrun, -⟩
    simp only [initializeLocked, hhello] at hrun
    split at hrun
    next granted next hnegotiate =>
      obtain ⟨hrequest, response, hanswered, rfl, -, hset⟩ := (negotiate_eq_ok hroom).1 hnegotiate
      obtain ⟨hreserve, payload, hwritten, hdefault, hfits, hread⟩ :=
        (answered_peer hvalid).1 hanswered
      obtain ⟨found, hfound, hack⟩ := serde.reads _ _ (encodeMessagepack_eq_ok.1 hwritten).1
      obtain rfl := Except.ok.inj (hfound.symm.trans hread)
      rw [hack] at hset
      exact ⟨hqueues, hreserve,
        (negotiated_valid_iff hvalid hreserve _).1 (setLimits_eq_ok.1 hset).1,
        encodeBinaryRequest_fits.1 hrequest, payload, hwritten, hdefault, hfits⟩
    next => cases hrun
  · intro h
    obtain ⟨payload, hwritten, hdefault, hfits⟩ := h.answer
    obtain ⟨response, hread, hack⟩ := serde.reads _ _ (encodeMessagepack_eq_ok.1 hwritten).1
    have hinstalled := (negotiated_valid_iff hvalid h.reserve peer.plugin).2 h.inline
    have hnegotiate := (negotiate_eq_ok hroom).2 ⟨encodeBinaryRequest_fits.2 h.request, response,
      (answered_peer hvalid).2 ⟨h.reserve, payload, hwritten, hdefault, hfits, hread⟩, hack,
      ((acceptable_iff hvalid).2 h.reserve).validateFor _, setLimits_eq_ok.2 ⟨hinstalled, rfl⟩⟩
    exact ⟨fresh limits, _, _, ⟨h.queues, rfl⟩, initializeLocked_ok hhello hnegotiate, hinstalled,
      rfl⟩

/-! ## A peer without a plugin -/

open MessagePack in
def helloFields (hello : ProtocolHello) : List (String × Bytes) :=
  [("protocol", writeStruct [("major", writeUint hello.protocol.major.toNat),
      ("minor", writeUint hello.protocol.minor.toNat)]),
    ("codec_id", writeStr hello.codecId), ("schema_revision", writeStr hello.schemaRevision),
    ("max_frame_bytes", writeUint hello.maxFrameBytes),
    ("max_payload_bytes", writeUint hello.maxPayloadBytes),
    ("max_in_flight_requests", writeUint hello.maxInFlightRequests),
    ("management_reserved_requests", writeUint hello.managementReservedRequests),
    ("management_channel", [if hello.managementChannel then 0xc3 else 0xc2]),
    ("feature_flags", UInt8.ofNat (0x90 + hello.featureFlags.length) ::
      hello.featureFlags.flatMap writeStr)]

/-- The payload of an `InitializeRequest` without a config. -/
def requestPayload (hello : ProtocolHello) : Bytes :=
  MessagePack.writeStruct [("hello", MessagePack.writeStruct (helloFields hello))]

/-- The payload of an ack without a plugin. -/
def ackPayload (ack : ProtocolHelloAck Empty) : Bytes :=
  MessagePack.writeStruct (helloFields ack.toProtocolHello)

/-- What `rmp_serde` writes and reads in a handshake with one ack. -/
def helloSerde (ack : ProtocolHelloAck Empty) : HelloSerde Empty Empty where
  Response _ := ProtocolHelloAck Empty
  envelope _ := .error "expected value"
  errorValue _ := .error "unsupported"
  fromValue _ _ := .error "expected value"
  fromMessagepack _ payload :=
    if payload = ackPayload ack then .ok ack else .error "invalid type"
  errorFromMessagepack _ := .error "invalid type"
  writeRequest hello _ := .ok (requestPayload hello)
  writeAck other := if other = ack then .ok (ackPayload ack) else .error "unsupported"
  writeError _ := .error "unsupported"
  ackOf ack := ack
  reads := by
    intro other payload h
    split at h
    next heq =>
      obtain rfl := Except.ok.inj h
      exact ⟨ack, if_pos rfl, heq.symm⟩
    next => cases h

def barePeer : Peer Empty where
  plugin := none
  refusal error := transportError error.display

/-- The ack of the peer for a transport with these limits. -/
def bareAck (limits : WireLimits) : ProtocolHelloAck Empty :=
  .accept (.forCodec binaryCodecId limits) none

theorem handshake_completes_default : ∃ bridge ack after,
    withLimits defaultWireLimits 30 = .ok bridge ∧
      bridge.initializeLocked (helloSerde (bareAck defaultWireLimits)) barePeer none =
        (.ok ack, after) ∧
      after.limits.validate = .ok () ∧ after.multiplexer.limits = after.limits := by
  refine (handshake_completes_iff _ _ _ rfl (by decide)).2
    ⟨by decide, by decide, by decide, ⟨requestPayload (.forCodec binaryCodecId defaultWireLimits),
      by decide +kernel, ?_⟩, ackPayload (bareAck defaultWireLimits), by decide +kernel, ?_, ?_⟩
  all_goals exact ⟨by decide +kernel, by decide +kernel⟩

/-- More inline bytes than a granted payload has room for. -/
def wideInline : WireLimits :=
  { defaultWireLimits with
    maxPayloadBytes := 6 * 1024 * 1024
    maxInlineResourceBytes := 5 * 1024 * 1024 }

/-- Valid limits whose handshake fails: the peer grants a payload below the inline bytes. -/
theorem handshake_refuses_wide_inline :
    ∃ bridge : BinaryBridge Empty, withLimits wideInline 30 = .ok bridge ∧
      (bridge.initializeLocked (helloSerde (bareAck wideInline)) barePeer none).1.isOk = false :=
  ⟨fresh wideInline, rfl, by decide +kernel⟩

end BinaryBridge

end MutsukiRuntime
