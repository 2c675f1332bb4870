/-
  TYPED REQUESTS (`operations.rs`, `jsonl.rs`, `binary.rs`, `binary/payload.rs`).

  Each codec decodes a request in two ways: for a type the caller names, and for
  whatever type the opcode stands for.

  * `RequestType`: the request types with their opcodes, and the table of
    `decode_any_wire_request!`, which goes from the opcode to the type.
  * The JSONL pair and the binary pair, each check in the place where the source makes it.
    The typed JSONL decoder is the one of the four that does not call `validate`.

  `WireSerde` is what `serde_json` and `rmp_serde` make of texts and bytes, with the request
  types they build; of a request only the inline bytes are looked at, in `validate`.
-/
import MutsukiRuntime.Wire.Frame
import MutsukiRuntime.Wire.MessagePack

namespace MutsukiRuntime

open BigEndian Prog

/-! ## Request types -/

inductive RequestType where
  | initializeRequest
  | runBatch
  | cancelRunner
  | disposeRunner
  | submitTaskBatch
  | cancelTask
  | taskOutcome
  | collectReadPlan
  | snapshotReadPlan
  | openStreamPlan
  | exportPlan
  | commitWritePlan
  | commandPlan
  | commandBatch
  | sagaPlan
  | createBlob
  | createCowState
  | createCapability
  deriving DecidableEq

/-- `WireRequest::OPCODE` of the type. -/
def RequestType.opcode : RequestType → Opcode
  | initializeRequest => .pluginInitialize
  | runBatch => .runnerRunBatch
  | cancelRunner => .runnerCancel
  | disposeRunner => .runnerDispose
  | submitTaskBatch => .taskSubmitBatch
  | cancelTask => .taskCancel
  | taskOutcome => .taskOutcome
  | collectReadPlan => .resourceReadCollect
  | snapshotReadPlan => .resourceReadSnapshot
  | openStreamPlan => .resourceStreamOpen
  | exportPlan => .resourceExport
  | commitWritePlan => .resourceWriteCommit
  | commandPlan => .resourceCommand
  | commandBatch => .resourceCommandBatch
  | sagaPlan => .resourceSaga
  | createBlob => .resourceCreateBlob
  | createCowState => .resourceCreateCowState
  | createCapability => .resourceCreateCapability

/-- The type that `decode_any_wire_request!` decodes for an opcode. -/
def Opcode.requestType : Opcode → RequestType
  | pluginInitialize => .initializeRequest
  | runnerRunBatch => .runBatch
  | runnerCancel => .cancelRunner
  | runnerDispose => .disposeRunner
  | taskSubmitBatch => .submitTaskBatch
  | taskCancel => .cancelTask
  | taskOutcome => .taskOutcome
  | resourceReadCollect => .collectReadPlan
  | resourceReadSnapshot => .snapshotReadPlan
  | resourceStreamOpen => .openStreamPlan
  | resourceExport => .exportPlan
  | resourceWriteCommit => .commitWritePlan
  | resourceCommand => .commandPlan
  | resourceCommandBatch => .commandBatch
  | resourceSaga => .sagaPlan
  | resourceCreateBlob => .createBlob
  | resourceCreateCowState => .createCowState
  | resourceCreateCapability => .createCapability

structure RawJsonlRequestEnvelope where
  requestId : UInt64
  protocol : WireProtocolVersion
  opcode : UInt16
  method : String
  payloadLen : UInt32
  payload : String

structure WireSerde where
  /-- The values of a request type. -/
  Request : RequestType → Type
  /-- The `bytes` of the three types that carry them. -/
  commitBytes : Request .commitWritePlan → Bytes
  blobBytes : Request .createBlob → Bytes
  cowBytes : Request .createCowState → Bytes
  /-- `serde_json::from_slice` of a line. -/
  envelope : Bytes → Except String RawJsonlRequestEnvelope
  /-- `serde_json::from_str` of a payload. -/
  fromJson : (kind : RequestType) → String → Except String (Request kind)
  /-- `rmp_serde` of a payload. -/
  fromMessagepack : (kind : RequestType) → Bytes → Except String (Request kind)

/-- `AnyWireRequest`: a request with its type. -/
abbrev WireSerde.AnyRequest (serde : WireSerde) := (kind : RequestType) × serde.Request kind

structure WireSerde.DecodedRequest (serde : WireSerde) where
  requestId : UInt64
  request : serde.AnyRequest

def validateInlineResourceBytes (length : Nat) (limits : WireLimits) :
    Except WireCodecError Unit :=
  if length > limits.maxInlineResourceBytes then
    .error (.inlineResourceOversized length limits.maxInlineResourceBytes)
  else .ok ()

/-- `map_err` of a decoding error. -/
def decoded {α : Type} : Except String α → Except WireCodecError α
  | .ok value => .ok value
  | .error detail => .error (.decode detail)

theorem decoded_eq_ok {α : Type} {result : Except String α} {value : α} :
    decoded result = .ok value ↔ result = .ok value := by
  cases result <;> simp [decoded]

namespace WireSerde

variable (serde : WireSerde)

/-- `WireRequest::validate`: three types look at their inline bytes. -/
def validate (limits : WireLimits) : (kind : RequestType) → serde.Request kind →
    Except WireCodecError Unit
  | .commitWritePlan, request =>
    validateInlineResourceBytes (serde.commitBytes request).length limits
  | .createBlob, request => validateInlineResourceBytes (serde.blobBytes request).length limits
  | .createCowState, request => validateInlineResourceBytes (serde.cowBytes request).length limits
  | _, _ => .ok ()

/-- `decode_any_wire_request!`. -/
def decodeAnyWireRequest (decode : (kind : RequestType) → Except WireCodecError
    (serde.Request kind)) (opcode : Opcode) : Except WireCodecError serde.AnyRequest := do
  let request ← decode opcode.requestType
  pure ⟨opcode.requestType, request⟩

end WireSerde

/-! ## JSONL -/

def validatePayloadLen (length : Nat) (limits : WireLimits) : Except WireCodecError Unit :=
  if length > limits.maxPayloadBytes then .error (.payloadOversized length limits.maxPayloadBytes)
  else .ok ()

def validateRawRequestEnvelope (envelope : RawJsonlRequestEnvelope) (limits : WireLimits) :
    Except WireCodecError Unit :=
  if envelope.requestId = 0 then .error .invalidRequestId
  else do
    envelope.protocol.ensureCompatible
    let opcode ← Opcode.fromU16 envelope.opcode
    if envelope.method ≠ opcode.method then
      .error (.methodMismatch opcode.code opcode.method envelope.method)
    else do
      validatePayloadLen envelope.payload.utf8ByteSize limits
      if envelope.payloadLen.toNat ≠ envelope.payload.utf8ByteSize then
        .error (.payloadLengthMismatch envelope.payloadLen.toNat envelope.payload.utf8ByteSize)
      else .ok ()

namespace WireSerde

variable (serde : WireSerde)

def decodeJsonlRequest (kind : RequestType) (line : Bytes) (limits : WireLimits) :
    Except WireCodecError (UInt64 × serde.Request kind) :=
  if line.length > limits.maxJsonlLineBytes then
    .error (.frameOversized line.length limits.maxJsonlLineBytes)
  else do
    let envelope ← decoded (serde.envelope line)
    validateRawRequestEnvelope envelope limits
    if envelope.opcode ≠ kind.opcode.code then .error (.unknownOpcode envelope.opcode)
    else do
      let request ← decoded (serde.fromJson kind envelope.payload)
      .ok (envelope.requestId, request)

def decodeJsonlAnyRequest (line : Bytes) (limits : WireLimits) :
    Except WireCodecError serde.DecodedRequest :=
  if line.length > limits.maxJsonlLineBytes then
    .error (.frameOversized line.length limits.maxJsonlLineBytes)
  else do
    let envelope ← decoded (serde.envelope line)
    validateRawRequestEnvelope envelope limits
    let opcode ← Opcode.fromU16 envelope.opcode
    let request ← serde.decodeAnyWireRequest
      (fun kind => decoded (serde.fromJson kind envelope.payload)) opcode
    serde.validate limits request.1 request.2
    .ok { requestId := envelope.requestId, request }

/-! ## Binary -/

/-- `validate_messagepack_structure(payload)?`.  The walk never panics
    (`MessagePack.validate_iff_value`). -/
def checkStructure (payload : Bytes) : Except WireCodecError Unit :=
  match ((MessagePack.validateStructure payload).run 0).1 with
  | .ok _ => .ok ()
  | .err error => .error error
  | .panic site => .error (.decode site)

def decodeBinaryPayload (kind : RequestType) (frame : BinaryFrame) :
    Except WireCodecError (serde.Request kind) := do
  checkStructure frame.payload
  decoded (serde.fromMessagepack kind frame.payload)

def validateRequestFrame (kind : RequestType) (frame : BinaryFrame) :
    Except WireCodecError Unit :=
  if ¬ frame.header.flags.contains .request ∨ frame.header.opcode ≠ kind.opcode then
    .error .responseMismatch
  else .ok ()

def decodeBinaryRequest (kind : RequestType) (bytes : Bytes) (limits : WireLimits) :
    Except WireCodecError (UInt64 × serde.Request kind) := do
  let frame ← decodeBinaryFrame bytes limits
  validateRequestFrame kind frame
  let request ← serde.decodeBinaryPayload kind frame
  serde.validate limits kind request
  .ok (frame.header.requestId, request)

def decodeBinaryAnyRequest (bytes : Bytes) (limits : WireLimits) :
    Except WireCodecError serde.DecodedRequest := do
  let frame ← decodeBinaryFrame bytes limits
  if ¬ frame.header.flags.contains .request then
    .error (.invalidFlags frame.header.flags.bits)
  else do
    let request ← serde.decodeAnyWireRequest (serde.decodeBinaryPayload · frame)
      frame.header.opcode
    serde.validate limits request.1 request.2
    .ok { requestId := frame.header.requestId, request }

/-! ## The two decoders of a codec -/

theorem requestType_opcode (kind : RequestType) : kind.opcode.requestType = kind := by
  cases kind <;> rfl

theorem opcode_requestType (opcode : Opcode) : opcode.requestType.opcode = opcode := by
  cases opcode <;> rfl

variable {kind : RequestType}

variable {request : serde.Request kind} {line : Bytes} {id : UInt64}

theorem decodeAnyWireRequest_eq_ok
    {decode : (kind : RequestType) → Except WireCodecError (serde.Request kind)} {opcode : Opcode} :
    serde.decodeAnyWireRequest decode opcode = .ok ⟨kind, request⟩ ↔
      kind.opcode = opcode ∧ decode kind = .ok request := by
  unfold decodeAnyWireRequest
  rw [except_bind_eq_ok]
  constructor
  · rintro ⟨found, hfound, hpair⟩
    obtain ⟨rfl, hrequest⟩ := Sigma.mk.inj (Except.ok.inj hpair)
    obtain rfl := eq_of_heq hrequest
    exact ⟨opcode_requestType opcode, hfound⟩
  · rintro ⟨rfl, hdecode⟩
    rw [requestType_opcode]
    exact ⟨request, hdecode, rfl⟩

variable {limits : WireLimits}

theorem decodeJsonlRequest_eq_ok : serde.decodeJsonlRequest kind line limits = .ok (id, request) ↔
      line.length ≤ limits.maxJsonlLineBytes ∧ ∃ envelope, serde.envelope line = .ok envelope ∧
        validateRawRequestEnvelope envelope limits = .ok () ∧
        envelope.opcode = kind.opcode.code ∧
        serde.fromJson kind envelope.payload = .ok request ∧ envelope.requestId = id := by
  unfold decodeJsonlRequest
  simp only [except_check_eq_ok, except_bind_eq_ok, decoded_eq_ok, not_lt, not_not,
    Except.ok.injEq, Prod.mk.injEq]
  constructor
  · rintro ⟨hline, envelope, henvelope, _, hvalid, hopcode, found, hfound, rfl, rfl⟩
    exact ⟨hline, envelope, henvelope, hvalid, hopcode, hfound, rfl⟩
  · rintro ⟨hline, envelope, henvelope, hvalid, hopcode, hfound, rfl⟩
    exact ⟨hline, envelope, henvelope, (), hvalid, hopcode, request, hfound, rfl, rfl⟩

theorem decodeJsonlAnyRequest_eq_ok :
    serde.decodeJsonlAnyRequest line limits = .ok ⟨id, ⟨kind, request⟩⟩ ↔
      line.length ≤ limits.maxJsonlLineBytes ∧ ∃ envelope, serde.envelope line = .ok envelope ∧
        validateRawRequestEnvelope envelope limits = .ok () ∧
        envelope.opcode = kind.opcode.code ∧
        serde.fromJson kind envelope.payload = .ok request ∧ envelope.requestId = id ∧
        serde.validate limits kind request = .ok () := by
  unfold decodeJsonlAnyRequest
  simp only [except_check_eq_ok, except_bind_eq_ok, decoded_eq_ok, not_lt, Except.ok.injEq,
    Opcode.fromU16_eq_ok]
  constructor
  · rintro ⟨hline, envelope, henvelope, _, hvalid, opcode, hopcode, found, hfound, _, hbytes,
      hresult⟩
    obtain ⟨hid, rfl⟩ := DecodedRequest.mk.inj hresult
    obtain ⟨rfl, hrequest⟩ := serde.decodeAnyWireRequest_eq_ok.1 hfound
    exact ⟨hline, envelope, henvelope, hvalid, hopcode.symm, decoded_eq_ok.1 hrequest, hid, hbytes⟩
  · rintro ⟨hline, envelope, henvelope, hvalid, hopcode, hrequest, rfl, hbytes⟩
    exact ⟨hline, envelope, henvelope, (), hvalid, kind.opcode, hopcode.symm, ⟨kind, request⟩,
      serde.decodeAnyWireRequest_eq_ok.2 ⟨rfl, decoded_eq_ok.2 hrequest⟩, (), hbytes, rfl⟩

theorem validateRequestFrame_eq_ok {frame : BinaryFrame} {done : Unit} :
    validateRequestFrame kind frame = .ok done ↔
      frame.header.flags.contains .request = true ∧ frame.header.opcode = kind.opcode := by
  unfold validateRequestFrame
  rw [except_check_eq_ok]
  simp

theorem decodeBinaryRequest_iff_any {bytes : Bytes} :
    serde.decodeBinaryRequest kind bytes limits = .ok (id, request) ↔
      serde.decodeBinaryAnyRequest bytes limits = .ok ⟨id, ⟨kind, request⟩⟩ := by
  unfold decodeBinaryRequest decodeBinaryAnyRequest
  simp only [except_check_eq_ok, except_bind_eq_ok, validateRequestFrame_eq_ok, not_not,
    Except.ok.injEq, Prod.mk.injEq]
  constructor
  · rintro ⟨frame, hframe, _, ⟨hflag, hopcode⟩, found, hfound, _, hbytes, rfl, rfl⟩
    exact ⟨frame, hframe, hflag, ⟨kind, found⟩,
      serde.decodeAnyWireRequest_eq_ok.2 ⟨hopcode.symm, hfound⟩, (), hbytes, rfl⟩
  · rintro ⟨frame, hframe, hflag, found, hfound, _, hbytes, hresult⟩
    obtain ⟨hid, rfl⟩ := DecodedRequest.mk.inj hresult
    obtain ⟨hopcode, hrequest⟩ := serde.decodeAnyWireRequest_eq_ok.1 hfound
    exact ⟨frame, hframe, (), ⟨hflag, hopcode.symm⟩, request, hrequest, (), hbytes, hid, rfl⟩

/-- The typed decoder of a line and the untyped one accept the same requests of a type. -/
def JsonlAgree (limits : WireLimits) (line : Bytes) (kind : RequestType) : Prop :=
  ∀ (id : UInt64) (request : serde.Request kind),
    serde.decodeJsonlRequest kind line limits = .ok (id, request) ↔
      serde.decodeJsonlAnyRequest line limits = .ok ⟨id, ⟨kind, request⟩⟩

def BinaryAgree (limits : WireLimits) (bytes : Bytes) (kind : RequestType) : Prop :=
  ∀ (id : UInt64) (request : serde.Request kind),
    serde.decodeBinaryRequest kind bytes limits = .ok (id, request) ↔
      serde.decodeBinaryAnyRequest bytes limits = .ok ⟨id, ⟨kind, request⟩⟩

/-- A request of the type that the line carries keeps its inline bytes within the limit. -/
def InlineWithin (limits : WireLimits) (line : Bytes) (kind : RequestType) : Prop :=
  ∀ (envelope : RawJsonlRequestEnvelope) (request : serde.Request kind),
    line.length ≤ limits.maxJsonlLineBytes → serde.envelope line = .ok envelope →
    validateRawRequestEnvelope envelope limits = .ok () → envelope.opcode = kind.opcode.code →
    serde.fromJson kind envelope.payload = .ok request →
    serde.validate limits kind request = .ok ()

/-- The decoders of a codec agree; for JSONL exactly while inline bytes are within the limit, which
    only the untyped decoder checks. -/
theorem decoders_agree_iff (limits : WireLimits) (line bytes : Bytes) (kind : RequestType) :
    (serde.JsonlAgree limits line kind ↔ serde.InlineWithin limits line kind) ∧
      serde.BinaryAgree limits bytes kind := by
  refine ⟨⟨fun h => ?_, fun h => ?_⟩, fun _ _ => serde.decodeBinaryRequest_iff_any⟩
  · intro envelope request hline henvelope hvalid hopcode hrequest
    have htyped := serde.decodeJsonlRequest_eq_ok.2
      ⟨hline, envelope, henvelope, hvalid, hopcode, hrequest, rfl⟩
    obtain ⟨_, other, hother, _, _, hrequest', _, hbytes⟩ :=
      serde.decodeJsonlAnyRequest_eq_ok.1 ((h envelope.requestId request).1 htyped)
    exact hbytes
  · intro id request
    rw [decodeJsonlRequest_eq_ok, decodeJsonlAnyRequest_eq_ok]
    constructor
    · rintro ⟨hline, envelope, henvelope, hvalid, hopcode, hrequest, hid⟩
      exact ⟨hline, envelope, henvelope, hvalid, hopcode, hrequest, hid,
        h envelope request hline henvelope hvalid hopcode hrequest⟩
    · rintro ⟨hline, envelope, henvelope, hvalid, hopcode, hrequest, hid, -⟩
      exact ⟨hline, envelope, henvelope, hvalid, hopcode, hrequest, hid⟩

end WireSerde

/-- The payload of a `resource.create_blob` with two bytes. -/
def blobPayload : String :=
  "\x7b\"provider_id\":null,\"schema\":\"s\",\"bytes\":[1,2]\x7d"

def blobEnvelope : RawJsonlRequestEnvelope where
  requestId := 1
  protocol := WireProtocolVersion.current
  opcode := 0x3009
  method := "resource.create_blob"
  payloadLen := 47
  payload := blobPayload

/-- The line with that payload. -/
def blobLine : Bytes :=
  ("\x7b\"request_id\":1,\"protocol\":\x7b\"major\":1,\"minor\":2\x7d,\"opcode\":12297," ++
    "\"method\":\"resource.create_blob\",\"payload_len\":47,\"payload\":" ++ blobPayload ++
    "\x7d").toList.map fun c => UInt8.ofNat c.toNat

/-- What `serde_json` reads from that line; a request is its inline bytes. -/
def blobSerde : WireSerde where
  Request _ := Bytes
  commitBytes := id
  blobBytes := id
  cowBytes := id
  envelope line := if line = blobLine then .ok blobEnvelope else .error "expected value"
  fromJson _ text := if text = blobPayload then .ok [1, 2] else .error "expected value"
  fromMessagepack _ _ := .error "expected value"

def oneInlineByte : WireLimits := { defaultWireLimits with maxInlineResourceBytes := 1 }

/-- Two bytes where one is allowed: the typed decoder takes them. -/
theorem typed_decoder_skips_validate :
    blobSerde.decodeJsonlRequest .createBlob blobLine oneInlineByte = .ok (1, [1, 2]) ∧
    blobSerde.decodeJsonlAnyRequest blobLine oneInlineByte = .error (.inlineResourceOversized 2 1) ∧
    ¬ blobSerde.JsonlAgree oneInlineByte blobLine .createBlob := by
  have hline : blobLine.length ≤ oneInlineByte.maxJsonlLineBytes := by decide +kernel
  have henvelope : blobSerde.envelope blobLine = .ok blobEnvelope := by
    simp only [blobSerde, if_true]
  have hvalid : validateRawRequestEnvelope blobEnvelope oneInlineByte = .ok () := by
    decide +kernel
  have hrequest : blobSerde.fromJson .createBlob blobEnvelope.payload = .ok [1, 2] := by
    simp only [blobSerde, blobEnvelope, if_true]
  have htyped : blobSerde.decodeJsonlRequest .createBlob blobLine oneInlineByte = .ok (1, [1, 2]) :=
    blobSerde.decodeJsonlRequest_eq_ok.2
      ⟨hline, blobEnvelope, henvelope, hvalid, rfl, hrequest, rfl⟩
  have huntyped : blobSerde.decodeJsonlAnyRequest blobLine oneInlineByte =
      .error (.inlineResourceOversized 2 1) := by
    unfold WireSerde.decodeJsonlAnyRequest
    rw [if_neg (not_lt.2 hline)]
    refine except_bind_eq_error.2 (.inr ⟨blobEnvelope, decoded_eq_ok.2 henvelope, ?_⟩)
    refine except_bind_eq_error.2 (.inr ⟨(), hvalid, ?_⟩)
    refine except_bind_eq_error.2 (.inr ⟨.resourceCreateBlob, Opcode.fromU16_eq_ok.2 rfl, ?_⟩)
    refine except_bind_eq_error.2 (.inr ⟨⟨.createBlob, [1, 2]⟩,
      blobSerde.decodeAnyWireRequest_eq_ok.2 ⟨rfl, decoded_eq_ok.2 hrequest⟩, ?_⟩)
    exact except_bind_eq_error.2 (.inl rfl)
  refine ⟨htyped, huntyped, fun hagree => ?_⟩
  have h := (hagree 1 [1, 2]).1 htyped
  rw [huntyped] at h
  cases h

end MutsukiRuntime
