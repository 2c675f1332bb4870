/-
  TYPED RESPONSES (`binary.rs`, `jsonl.rs`): what a caller makes of the bytes that answer its
  request.

  * `decodeBinaryResponse` and `decodeJsonlResponse`, each check in the place where the source
    makes it.  Both return one `RuntimeError` for two things: the error that the peer reports
    for this request, and bytes that are not an answer to it.

  `ResponseSerde` is what `serde_json` and `rmp_serde` make of texts and bytes.
-/
import MutsukiRuntime.Wire.Requests

namespace MutsukiRuntime

open BigEndian Prog

/-- `JsonlResponseEnvelope`; a `result` of `null` is read as an absent one. -/
structure JsonlResponseEnvelope where
  requestId : UInt64
  protocol : WireProtocolVersion
  opcode : UInt16
  payloadLen : UInt32
  ok : Bool
  result : Option Value
  error : Option RuntimeError

structure ResponseSerde where
  /-- The values of `WireRequest::Response`. -/
  Response : RequestType → Type
  /-- `serde_json::from_slice` of a line. -/
  envelope : Bytes → Except String JsonlResponseEnvelope
  /-- `serde_json::to_value` of an error. -/
  errorValue : RuntimeError → Except String Value
  /-- `serde_json::from_value` of a result. -/
  fromValue : (kind : RequestType) → Value → Except String (Response kind)
  /-- `rmp_serde` of a payload. -/
  fromMessagepack : (kind : RequestType) → Bytes → Except String (Response kind)
  errorFromMessagepack : Bytes → Except String RuntimeError

/-- The codec of a transport. -/
inductive WireCodec where
  | binary
  | jsonl
  deriving DecidableEq

/-- `wire_runtime_error` of either module. -/
def wireRuntimeError : WireCodec → WireCodecError → RuntimeError
  | .binary, error =>
    (runtimeError errRuntimeHostFailed "runtime_wire.binary" "wire.binary.decode").withEvidence
      "reason" (.string error.display)
  | .jsonl, error =>
    (runtimeError errRuntimeHostFailed "mutsuki.runtime.wire"
      "wire.jsonl.decode_response").withEvidence "wire_error" (.string error.display)

/-- `decode_binary_payload` with what `rmp_serde` reads. -/
def decodeFramePayload {α : Type} (read : Bytes → Except String α) (frame : BinaryFrame) :
    Except WireCodecError α := do
  WireSerde.checkStructure frame.payload
  decoded (read frame.payload)

def validateDeclaredPayload (declared : UInt32) (payload : Value) (limits : WireLimits) :
    Except WireCodecError Unit := do
  let actual := compactJsonLen payload
  validatePayloadLen actual limits
  if declared.toNat ≠ actual then .error (.payloadLengthMismatch declared.toNat actual)
  else .ok ()

/-- The response fits the request: its frame is one, of that type and for that id. -/
def BinaryFrame.answers (frame : BinaryFrame) (kind : RequestType) (expected : UInt64) : Bool :=
  frame.header.flags.contains .response && decide (frame.header.opcode = kind.opcode) &&
    decide (frame.header.requestId = expected)

namespace ResponseSerde

variable (serde : ResponseSerde)

def decodeBinaryResponse (kind : RequestType) (bytes : Bytes) (expected : UInt64)
    (limits : WireLimits) : RuntimeResult (serde.Response kind) := do
  let frame ← (decodeBinaryFrame bytes limits).mapError (wireRuntimeError .binary)
  if ¬ frame.answers kind expected then .error (wireRuntimeError .binary .responseMismatch)
  else if frame.header.flags.contains .error then do
    let error ← (decodeFramePayload serde.errorFromMessagepack frame).mapError
      (wireRuntimeError .binary)
    .error error
  else
    (decodeFramePayload (serde.fromMessagepack kind) frame).mapError (wireRuntimeError .binary)

/-- The part of `decode_jsonl_response_inner` for an envelope of this request. -/
def decodeEnvelope (kind : RequestType) (envelope : JsonlResponseEnvelope)
    (limits : WireLimits) : Except WireCodecError (RuntimeResult (serde.Response kind)) :=
  if envelope.ok then
    if envelope.error.isSome then .error (.decode "successful response contains error")
    else do
      let result := envelope.result.getD .null
      validateDeclaredPayload envelope.payloadLen result limits
      let response ← decoded (serde.fromValue kind result)
      .ok (.ok response)
  else if envelope.result.isSome then .error (.decode "failed response contains result")
  else
    match envelope.error with
    | none => .error (.decode "response missing error")
    | some error => do
      let value ← (serde.errorValue error).mapError WireCodecError.encode
      validateDeclaredPayload envelope.payloadLen value limits
      .ok (.error error)

def decodeJsonlResponseInner (kind : RequestType) (line : Bytes) (expected : UInt64)
    (limits : WireLimits) : Except WireCodecError (RuntimeResult (serde.Response kind)) :=
  if line.length > limits.maxJsonlLineBytes then
    .error (.frameOversized line.length limits.maxJsonlLineBytes)
  else do
    let envelope ← decoded (serde.envelope line)
    if envelope.requestId ≠ expected then
      .error (.decode ("response request id mismatch: expected " ++ toString expected.toNat ++
        ", got " ++ toString envelope.requestId.toNat))
    else if envelope.opcode ≠ kind.opcode.code then
      .error (.decode ("response opcode mismatch: expected " ++ hex 4 kind.opcode.code.toNat ++
        ", got " ++ hex 4 envelope.opcode.toNat))
    else do
      envelope.protocol.ensureCompatible
      serde.decodeEnvelope kind envelope limits

def decodeJsonlResponse (kind : RequestType) (line : Bytes) (expected : UInt64)
    (limits : WireLimits) : RuntimeResult (serde.Response kind) := do
  (← (serde.decodeJsonlResponseInner kind line expected limits).mapError
    (wireRuntimeError .jsonl))

def decodeResponse : WireCodec → (kind : RequestType) → Bytes → UInt64 → WireLimits →
    RuntimeResult (serde.Response kind)
  | .binary => serde.decodeBinaryResponse
  | .jsonl => serde.decodeJsonlResponse

/-- The bytes report an error for the request: they answer it, and the error can be read. -/
def ErrorResponse : WireCodec → RequestType → Bytes → UInt64 → WireLimits → RuntimeError → Prop
  | .binary, kind, bytes, expected, limits, error =>
    ∃ frame, decodeBinaryFrame bytes limits = .ok frame ∧ frame.answers kind expected = true ∧
      frame.header.flags.contains .error = true ∧
      decodeFramePayload serde.errorFromMessagepack frame = .ok error
  | .jsonl, kind, line, expected, limits, error =>
    line.length ≤ limits.maxJsonlLineBytes ∧
      ∃ envelope value, serde.envelope line = .ok envelope ∧ envelope.requestId = expected ∧
        envelope.opcode = kind.opcode.code ∧
        envelope.protocol.major = WireProtocolVersion.current.major ∧
        envelope.ok = false ∧ envelope.result = none ∧ envelope.error = some error ∧
        serde.errorValue error = .ok value ∧ compactJsonLen value ≤ limits.maxPayloadBytes ∧
        envelope.payloadLen.toNat = compactJsonLen value

variable {serde}

variable {limits : WireLimits}

theorem validateDeclaredPayload_eq_ok {declared : UInt32} {payload : Value} {done : Unit} :
    validateDeclaredPayload declared payload limits = .ok done ↔
      compactJsonLen payload ≤ limits.maxPayloadBytes ∧
        declared.toNat = compactJsonLen payload := by
  unfold validateDeclaredPayload validatePayloadLen
  simp only [except_bind_eq_ok, except_check_eq_ok, not_lt, ne_eq, not_not]
  simp

variable {kind : RequestType} {error : RuntimeError}

theorem decodeEnvelope_eq_ok_error {envelope : JsonlResponseEnvelope} :
    serde.decodeEnvelope kind envelope limits = .ok (.error error) ↔
      envelope.ok = false ∧ envelope.result = none ∧ envelope.error = some error ∧
        ∃ value, serde.errorValue error = .ok value ∧
          compactJsonLen value ≤ limits.maxPayloadBytes ∧
          envelope.payloadLen.toNat = compactJsonLen value := by
  unfold decodeEnvelope
  cases hok : envelope.ok with
  | true =>
    simp only [if_true, except_check_eq_ok, except_bind_eq_ok]
    simp
  | false =>
    cases herror : envelope.error with
    | none => simp [except_check_eq_ok]
    | some found =>
      simp only [Bool.false_eq_true, if_false, except_check_eq_ok, except_bind_eq_ok,
        except_mapError_eq_ok, validateDeclaredPayload_eq_ok, Except.ok.injEq, Except.error.injEq,
        Option.not_isSome_iff_eq_none, true_and, Option.some.injEq]
      constructor
      · rintro ⟨hresult, value, hvalue, _, hlength, rfl⟩
        exact ⟨hresult, rfl, value, hvalue, hlength⟩
      · rintro ⟨hresult, rfl, value, hvalue, hlength⟩
        exact ⟨hresult, value, hvalue, (), hlength, rfl⟩

variable {expected : UInt64} {codec : WireCodec} {bytes : Bytes}

theorem decodeJsonlResponseInner_eq_ok {line : Bytes}
    {result : RuntimeResult (serde.Response kind)} :
    serde.decodeJsonlResponseInner kind line expected limits = .ok result ↔
      line.length ≤ limits.maxJsonlLineBytes ∧ ∃ envelope, serde.envelope line = .ok envelope ∧
        envelope.requestId = expected ∧ envelope.opcode = kind.opcode.code ∧
        envelope.protocol.major = WireProtocolVersion.current.major ∧
        serde.decodeEnvelope kind envelope limits = .ok result := by
  unfold decodeJsonlResponseInner
  simp only [except_check_eq_ok, except_bind_eq_ok, decoded_eq_ok, not_lt, ne_eq, not_not,
    WireProtocolVersion.ensureCompatible_eq_ok, exists_const]

/-- The caller of an error response gets the error that the peer reports. -/
theorem decodeResponse_of_errorResponse
    (h : serde.ErrorResponse codec kind bytes expected limits error) :
    serde.decodeResponse codec kind bytes expected limits = .error error := by
  cases codec with
  | binary =>
    obtain ⟨frame, hframe, hanswers, herror, hpayload⟩ := h
    show serde.decodeBinaryResponse kind bytes expected limits = .error error
    unfold decodeBinaryResponse
    refine except_bind_eq_error.2 (.inr ⟨frame, except_mapError_eq_ok.2 hframe, ?_⟩)
    rw [if_neg (not_not.2 hanswers), if_pos herror]
    exact except_bind_eq_error.2 (.inr ⟨error, except_mapError_eq_ok.2 hpayload, rfl⟩)
  | jsonl =>
    obtain ⟨hlength, envelope, value, henvelope, hid, hopcode, hmajor, hok, hresult, herror,
      hvalue, hmax, hdeclared⟩ := h
    show serde.decodeJsonlResponse kind bytes expected limits = .error error
    have hinner : serde.decodeJsonlResponseInner kind bytes expected limits = .ok (.error error) :=
      decodeJsonlResponseInner_eq_ok.2 ⟨hlength, envelope, henvelope, hid, hopcode, hmajor,
        decodeEnvelope_eq_ok_error.2 ⟨hok, hresult, herror, value, hvalue, hmax, hdeclared⟩⟩
    unfold decodeJsonlResponse
    exact except_bind_eq_error.2 (.inr ⟨.error error, except_mapError_eq_ok.2 hinner, rfl⟩)

/-- Any other error of the decoders is a codec error: bytes that do not answer the request. -/
theorem errorResponse_or_codec
    (h : serde.decodeResponse codec kind bytes expected limits = .error error) :
    serde.ErrorResponse codec kind bytes expected limits error ∨
      ∃ reason, error = wireRuntimeError codec reason := by
  cases codec with
  | binary =>
    have h : serde.decodeBinaryResponse kind bytes expected limits = .error error := h
    unfold decodeBinaryResponse at h
    obtain hframe | ⟨frame, hframe, h⟩ := except_bind_eq_error.1 h
    · obtain ⟨reason, -, rfl⟩ := except_mapError_eq_error.1 hframe
      exact .inr ⟨reason, rfl⟩
    · by_cases hanswers : frame.answers kind expected = true
      · rw [if_neg (not_not.2 hanswers)] at h
        split at h
        · next herror =>
          obtain hpayload | ⟨found, hpayload, hfound⟩ := except_bind_eq_error.1 h
          · obtain ⟨reason, -, rfl⟩ := except_mapError_eq_error.1 hpayload
            exact .inr ⟨reason, rfl⟩
          · obtain rfl := Except.error.inj hfound
            exact .inl ⟨frame, except_mapError_eq_ok.1 hframe, hanswers, herror,
              except_mapError_eq_ok.1 hpayload⟩
        · obtain ⟨reason, -, rfl⟩ := except_mapError_eq_error.1 h
          exact .inr ⟨reason, rfl⟩
      · rw [if_pos hanswers] at h
        exact .inr ⟨.responseMismatch, (Except.error.inj h).symm⟩
  | jsonl =>
    have h : serde.decodeJsonlResponse kind bytes expected limits = .error error := h
    unfold decodeJsonlResponse at h
    obtain hinner | ⟨result, hinner, hresult⟩ := except_bind_eq_error.1 h
    · obtain ⟨reason, -, rfl⟩ := except_mapError_eq_error.1 hinner
      exact .inr ⟨reason, rfl⟩
    · rw [except_mapError_eq_ok, show result = .error error from hresult,
        decodeJsonlResponseInner_eq_ok] at hinner
      obtain ⟨hlength, envelope, henvelope, hid, hopcode, hmajor, hrest⟩ := hinner
      obtain ⟨hok, hnone, herror, value, hvalue, hmax, hdeclared⟩ :=
        decodeEnvelope_eq_ok_error.1 hrest
      exact .inl ⟨hlength, envelope, value, henvelope, hid, hopcode, hmajor, hok, hnone,
        herror, hvalue, hmax, hdeclared⟩

end ResponseSerde

end MutsukiRuntime
