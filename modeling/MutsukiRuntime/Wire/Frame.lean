/-
  BINARY FRAMES (`mutsuki-runtime-wire/src/binary/frame.rs`).

  A frame is a length prefix, a header of 24 bytes and a payload; `decode_binary_frame`
  reads one from a byte string, `read_binary_frame` and `read_binary_frame_bytes` from a
  reader, and `encode_frame` writes one.

  A reader is the bytes it still has.  `read_exact` retries short reads, so how the bytes
  arrive in chunks does not show.  Slices are taken after their bounds have been checked.
-/
import MutsukiRuntime.Wire.Protocol

namespace MutsukiRuntime

open BigEndian Prog List

def binaryLengthPrefixLen : Nat := 4
def binaryHeaderLen : Nat := 24
def wireMagic : UInt32 := 0x4d555453

structure WireFlags where
  bits : UInt16
  deriving DecidableEq

variable {flags : WireFlags}

namespace WireFlags

def request : WireFlags := ⟨0x0001⟩
def response : WireFlags := ⟨0x0002⟩
def error : WireFlags := ⟨0x0004⟩
def management : WireFlags := ⟨0x0008⟩

def known : UInt16 := request.bits ||| response.bits ||| error.bits ||| management.bits

def contains (flags other : WireFlags) : Bool := flags.bits &&& other.bits == other.bits

def fromBits (bits : UInt16) : Except WireCodecError WireFlags :=
  if bits &&& ~~~known ≠ 0 then .error (.invalidFlags bits)
  else if contains ⟨bits⟩ request = contains ⟨bits⟩ response then .error (.invalidFlags bits)
  else if contains ⟨bits⟩ error ∧ ¬ contains ⟨bits⟩ response then .error (.invalidFlags bits)
  else .ok ⟨bits⟩

/-- The flags that `from_bits` gives back. -/
def valid (flags : WireFlags) : Prop := fromBits flags.bits = .ok flags

instance (flags : WireFlags) : Decidable flags.valid :=
  inferInstanceAs (Decidable (fromBits flags.bits = .ok flags))

theorem fromBits_eq_ok {bits : UInt16} (h : fromBits bits = .ok flags) :
    flags.bits = bits ∧ flags.valid := by
  have hflags : flags = ⟨bits⟩ := by
    unfold fromBits at h
    split at h
    · cases h
    · split at h
      · cases h
      · split at h
        · cases h
        · exact (Except.ok.inj h).symm
  subst hflags
  exact ⟨rfl, h⟩

end WireFlags

structure WireHeader where
  protocol : WireProtocolVersion
  opcode : Opcode
  flags : WireFlags
  requestId : UInt64
  payloadLen : UInt32
  deriving DecidableEq

structure BinaryFrame where
  header : WireHeader
  payload : Bytes
  deriving DecidableEq

def validateFrameLength (length : Nat) (limits : WireLimits) : Except WireCodecError Unit :=
  if length > limits.maxFrameBytes then .error (.frameOversized length limits.maxFrameBytes)
  else if length < binaryHeaderLen then .error (.truncated binaryHeaderLen length)
  else .ok ()

def decodeFrameBody (body : Bytes) (limits : WireLimits) : Except WireCodecError BinaryFrame :=
  if body.length < binaryHeaderLen then .error (.truncated binaryHeaderLen body.length)
  else
    let magic := readU32 (slice body 0 4)
    if magic ≠ wireMagic then .error (.invalidMagic magic)
    else
      let protocol : WireProtocolVersion :=
        { major := readU16 (slice body 4 6), minor := readU16 (slice body 6 8) }
      do
        protocol.ensureCompatible
        let opcode ← Opcode.fromU16 (readU16 (slice body 8 10))
        let flags ← WireFlags.fromBits (readU16 (slice body 10 12))
        let requestId := readU64 (slice body 12 20)
        let payloadLen := readU32 (slice body 20 24)
        let payload := body.drop binaryHeaderLen
        if requestId = 0 then .error .invalidRequestId
        else if payloadLen.toNat > limits.maxPayloadBytes then
          .error (.payloadOversized payloadLen.toNat limits.maxPayloadBytes)
        else if payloadLen.toNat ≠ payload.length then
          .error (.payloadLengthMismatch payloadLen.toNat payload.length)
        else .ok { header := { protocol, opcode, flags, requestId, payloadLen }, payload }

def decodeBinaryFrame (bytes : Bytes) (limits : WireLimits) : Except WireCodecError BinaryFrame :=
  if bytes.length < binaryLengthPrefixLen then
    .error (.truncated binaryLengthPrefixLen bytes.length)
  else do
    let declared := (readU32 (slice bytes 0 4)).toNat
    validateFrameLength declared limits
    let actual := bytes.length - binaryLengthPrefixLen
    if declared ≠ actual then .error (.truncated declared actual)
    else decodeFrameBody (bytes.drop binaryLengthPrefixLen) limits

def encodeFrame (opcode : Opcode) (flags : WireFlags) (requestId : UInt64) (payload : Bytes)
    (limits : WireLimits) : Except WireCodecError Bytes :=
  if payload.length > limits.maxPayloadBytes then
    .error (.payloadOversized payload.length limits.maxPayloadBytes)
  else do
    let bodyLen := binaryHeaderLen + payload.length
    validateFrameLength bodyLen limits
    -- `as u32` keeps the low 32 bits
    .ok (u32 (UInt32.ofNat bodyLen) ++ u32 wireMagic ++
      u16 WireProtocolVersion.current.major ++ u16 WireProtocolVersion.current.minor ++
      u16 opcode.code ++ u16 flags.bits ++ u64 requestId ++
      u32 (UInt32.ofNat payload.length) ++ payload)

/-! ## Layout -/

/-- The fields of a byte string of at least 28 bytes. -/
structure RawFrame where
  length : UInt32
  magic : UInt32
  major : UInt16
  minor : UInt16
  opcode : UInt16
  flags : UInt16
  requestId : UInt64
  payloadLen : UInt32
  payload : Bytes

namespace RawFrame

def body (raw : RawFrame) : Bytes :=
  u32 raw.magic ++ (u16 raw.major ++ (u16 raw.minor ++ (u16 raw.opcode ++ (u16 raw.flags ++
    (u64 raw.requestId ++ (u32 raw.payloadLen ++ raw.payload))))))

def bytes (raw : RawFrame) : Bytes := u32 raw.length ++ raw.body

variable {bytes : Bytes}

def ofBytes (bytes : Bytes) : RawFrame where
  length := readU32 (slice bytes 0 4)
  magic := readU32 (slice bytes 4 8)
  major := readU16 (slice bytes 8 10)
  minor := readU16 (slice bytes 10 12)
  opcode := readU16 (slice bytes 12 14)
  flags := readU16 (slice bytes 14 16)
  requestId := readU64 (slice bytes 16 24)
  payloadLen := readU32 (slice bytes 24 28)
  payload := bytes.drop 28

@[simp] theorem length_body (raw : RawFrame) :
    raw.body.length = binaryHeaderLen + raw.payload.length := by
  simp [body, binaryHeaderLen]
  omega

@[simp] theorem length_bytes (raw : RawFrame) : raw.bytes.length = 28 + raw.payload.length := by
  simp [bytes, binaryHeaderLen]
  omega

theorem bytes_ofBytes (h : 28 ≤ bytes.length) : (ofBytes bytes).bytes = bytes := by
  have hfield : ∀ start stop, start ≤ stop → stop ≤ 28 →
      (slice bytes start stop).length = stop - start :=
    fun start stop hle hstop => length_slice hle (hstop.trans h)
  simp only [RawFrame.bytes, body, ofBytes]
  rw [u32_readU32 (hfield 0 4 (by omega) (by omega)),
    u32_readU32 (hfield 4 8 (by omega) (by omega)),
    u16_readU16 (hfield 8 10 (by omega) (by omega)),
    u16_readU16 (hfield 10 12 (by omega) (by omega)),
    u16_readU16 (hfield 12 14 (by omega) (by omega)),
    u16_readU16 (hfield 14 16 (by omega) (by omega)),
    u64_readU64 (hfield 16 24 (by omega) (by omega)),
    u32_readU32 (hfield 24 28 (by omega) (by omega))]
  rw [slice_append_drop bytes (by omega), slice_append_drop bytes (by omega),
    slice_append_drop bytes (by omega), slice_append_drop bytes (by omega),
    slice_append_drop bytes (by omega), slice_append_drop bytes (by omega),
    slice_append_drop bytes (by omega), slice_append_drop bytes (by omega)]
  rfl

theorem slices_body (raw : RawFrame) :
    slice raw.body 0 4 = u32 raw.magic ∧ slice raw.body 4 6 = u16 raw.major ∧
    slice raw.body 6 8 = u16 raw.minor ∧ slice raw.body 8 10 = u16 raw.opcode ∧
    slice raw.body 10 12 = u16 raw.flags ∧ slice raw.body 12 20 = u64 raw.requestId ∧
    slice raw.body 20 24 = u32 raw.payloadLen ∧ raw.body.drop 24 = raw.payload := by
  have hpayload : raw.body.drop 24 = raw.payload := by
    have hassoc : raw.body = (u32 raw.magic ++ u16 raw.major ++ u16 raw.minor ++
        u16 raw.opcode ++ u16 raw.flags ++ u64 raw.requestId ++ u32 raw.payloadLen) ++
          raw.payload := by
      simp [body]
    rw [hassoc]
    exact drop_left' (by simp)
  refine ⟨?_, ?_, ?_, ?_, ?_, ?_, ?_, hpayload⟩
  all_goals simp [body, slice_append_skip, slice_append_eq]

/-- What the decoder asks of the fields of the body, and what it returns. -/
structure Accepted (raw : RawFrame) (limits : WireLimits) (frame : BinaryFrame) : Prop where
  magic : raw.magic = wireMagic
  major : raw.major = WireProtocolVersion.current.major
  opcode : frame.header.opcode.code = raw.opcode
  flags : WireFlags.fromBits raw.flags = .ok frame.header.flags
  requestId : raw.requestId ≠ 0
  payloadLimit : raw.payloadLen.toNat ≤ limits.maxPayloadBytes
  payloadLen : raw.payloadLen.toNat = raw.payload.length
  protocol : frame.header.protocol = { major := raw.major, minor := raw.minor }
  sameRequestId : frame.header.requestId = raw.requestId
  samePayloadLen : frame.header.payloadLen = raw.payloadLen
  payload : frame.payload = raw.payload

theorem decodeFrameBody_raw {raw : RawFrame} :
    decodeFrameBody raw.body limits = .ok frame ↔ raw.Accepted limits frame := by
  obtain ⟨hmagic, hmajor, hminor, hopcode, hflags, hid, hlen, hpayload⟩ := raw.slices_body
  unfold decodeFrameBody
  simp only [hmagic, hmajor, hminor, hopcode, hflags, hid, hlen, hpayload, binaryHeaderLen,
    readU16_u16, readU32_u32, readU64_u64, except_check_eq_ok, except_bind_eq_ok,
    WireProtocolVersion.ensureCompatible_eq_ok, Opcode.fromU16_eq_ok]
  constructor
  · rintro ⟨-, hmagic, _, hmajor, opcode, hopcode, flags, hflags, hid, hlimit, hlen, hframe⟩
    obtain rfl := Except.ok.inj hframe
    exact ⟨not_not.1 hmagic, hmajor, hopcode, hflags, hid, not_lt.1 hlimit, not_not.1 hlen, rfl,
      rfl, rfl, rfl⟩
  · intro h
    refine ⟨by simp [binaryHeaderLen], not_not.2 h.magic, (), h.major, frame.header.opcode,
      h.opcode, frame.header.flags, h.flags, h.requestId, not_lt.2 h.payloadLimit,
      not_not.2 h.payloadLen, ?_⟩
    rw [← h.protocol, ← h.sameRequestId, ← h.samePayloadLen, ← h.payload]

end RawFrame

variable {bytes : Bytes} {limits : WireLimits} {frame : BinaryFrame}

theorem validateFrameLength_eq_ok {length : Nat} {done : Unit} :
    validateFrameLength length limits = .ok done ↔
      length ≤ limits.maxFrameBytes ∧ binaryHeaderLen ≤ length := by
  rw [validateFrameLength, except_check_eq_ok, except_check_eq_ok, not_lt, not_lt, and_iff_left rfl]

/-- The prefix is checked, then the body. -/
theorem decodeBinaryFrame_append {word body : Bytes} (hword : word.length = binaryLengthPrefixLen) :
    decodeBinaryFrame (word ++ body) limits = .ok frame ↔
      validateFrameLength (readU32 word).toNat limits = .ok () ∧
      (readU32 word).toNat = body.length ∧ decodeFrameBody body limits = .ok frame := by
  have hslice : slice (word ++ body) 0 4 = word := slice_append_eq hword
  have hdrop : (word ++ body).drop binaryLengthPrefixLen = body := drop_left' hword
  have hactual : (word ++ body).length - binaryLengthPrefixLen = body.length := by
    rw [length_append, hword, Nat.add_sub_cancel_left]
  have hlong : ¬ (word ++ body).length < binaryLengthPrefixLen := by
    rw [length_append, hword]
    omega
  rw [decodeBinaryFrame, if_neg hlong, hslice, hdrop, hactual, except_bind_eq_ok]
  simp only [except_check_eq_ok, not_not]
  constructor
  · rintro ⟨⟨⟩, h⟩
    exact h
  · exact fun h => ⟨(), h⟩

theorem decodeBinaryFrame_split : decodeBinaryFrame bytes limits = .ok frame ↔
    ∃ word body, bytes = word ++ body ∧ word.length = binaryLengthPrefixLen ∧
      validateFrameLength (readU32 word).toNat limits = .ok () ∧
      (readU32 word).toNat = body.length ∧ decodeFrameBody body limits = .ok frame := by
  constructor
  · intro h
    have hlong : ¬ bytes.length < binaryLengthPrefixLen := by
      intro hshort
      rw [decodeBinaryFrame, if_pos hshort] at h
      cases h
    have hword := length_take_of_le (not_lt.1 hlong)
    rw [← take_append_drop binaryLengthPrefixLen bytes, decodeBinaryFrame_append hword] at h
    exact ⟨_, _, (take_append_drop _ _).symm, hword, h⟩
  · rintro ⟨word, body, rfl, hword, h⟩
    exact (decodeBinaryFrame_append hword).2 h

/-- A byte string is accepted when its fields are, and the length is the one it declares. -/
theorem decodeBinaryFrame_raw {raw : RawFrame} : decodeBinaryFrame raw.bytes limits = .ok frame ↔
      raw.length.toNat = binaryHeaderLen + raw.payload.length ∧
      raw.length.toNat ≤ limits.maxFrameBytes ∧ raw.Accepted limits frame := by
  rw [RawFrame.bytes, decodeBinaryFrame_append (length_u32 _), readU32_u32,
    validateFrameLength_eq_ok, raw.length_body, RawFrame.decodeFrameBody_raw]
  constructor
  · rintro ⟨⟨hlimit, -⟩, hdeclared, haccepted⟩
    exact ⟨hdeclared, hlimit, haccepted⟩
  · rintro ⟨hdeclared, hlimit, haccepted⟩
    exact ⟨⟨hlimit, by omega⟩, hdeclared, haccepted⟩

/-- The accepted byte strings are the layouts of accepted fields. -/
theorem exists_raw_of_decode (h : decodeBinaryFrame bytes limits = .ok frame) :
    ∃ raw : RawFrame, bytes = raw.bytes ∧
      raw.length.toNat = binaryHeaderLen + raw.payload.length ∧
      raw.length.toNat ≤ limits.maxFrameBytes ∧ raw.Accepted limits frame := by
  have hlong : 28 ≤ bytes.length := by
    obtain ⟨word, body, rfl, hword, hvalid, hlength, -⟩ := decodeBinaryFrame_split.1 h
    have hheader := (validateFrameLength_eq_ok.1 hvalid).2
    unfold binaryHeaderLen at hheader
    unfold binaryLengthPrefixLen at hword
    rw [length_append]
    omega
  have hbytes := RawFrame.bytes_ofBytes hlong
  rw [← hbytes, decodeBinaryFrame_raw] at h
  exact ⟨RawFrame.ofBytes bytes, hbytes.symm, h⟩

/-- The fields that `encode_frame` writes. -/
def encodedFields (opcode : Opcode) (flags : WireFlags) (requestId : UInt64) (payload : Bytes) :
    RawFrame where
  length := UInt32.ofNat (binaryHeaderLen + payload.length)
  magic := wireMagic
  major := WireProtocolVersion.current.major
  minor := WireProtocolVersion.current.minor
  opcode := opcode.code
  flags := flags.bits
  requestId := requestId
  payloadLen := UInt32.ofNat payload.length
  payload := payload

variable {opcode : Opcode} {requestId : UInt64} {payload rest stream : Bytes} {count : Nat}

theorem encodeFrame_eq_ok : encodeFrame opcode flags requestId payload limits = .ok bytes ↔
      payload.length ≤ limits.maxPayloadBytes ∧
      binaryHeaderLen + payload.length ≤ limits.maxFrameBytes ∧
      bytes = (encodedFields opcode flags requestId payload).bytes := by
  unfold encodeFrame
  simp only [except_check_eq_ok, except_bind_eq_ok, validateFrameLength_eq_ok, not_lt,
    Except.ok.injEq]
  have hbytes : (encodedFields opcode flags requestId payload).bytes =
      u32 (UInt32.ofNat (binaryHeaderLen + payload.length)) ++ u32 wireMagic ++
      u16 WireProtocolVersion.current.major ++ u16 WireProtocolVersion.current.minor ++
      u16 opcode.code ++ u16 flags.bits ++ u64 requestId ++
      u32 (UInt32.ofNat payload.length) ++ payload := by
    simp [RawFrame.bytes, RawFrame.body, encodedFields]
  rw [hbytes]
  constructor
  · rintro ⟨hpayload, -, ⟨hframe, -⟩, heq⟩
    exact ⟨hpayload, hframe, heq.symm⟩
  · rintro ⟨hpayload, hframe, heq⟩
    exact ⟨hpayload, (), ⟨hframe, Nat.le_add_right _ _⟩, heq.symm⟩

/-- What `encode_frame` writes is accepted, with the fields it was given. -/
theorem encodedFields_accepted (hflags : flags.valid) (hid : requestId ≠ 0)
    (hpayload : payload.length ≤ limits.maxPayloadBytes)
    (hframe : binaryHeaderLen + payload.length ≤ limits.maxFrameBytes)
    (hwidth : binaryHeaderLen + payload.length < 2 ^ 32) :
    decodeBinaryFrame (encodedFields opcode flags requestId payload).bytes limits = .ok
      { header := { protocol := WireProtocolVersion.current, opcode, flags, requestId,
                    payloadLen := UInt32.ofNat payload.length },
        payload } := by
  have hlength : (UInt32.ofNat (binaryHeaderLen + payload.length)).toNat =
      binaryHeaderLen + payload.length := UInt32.toNat_ofNat_of_lt' hwidth
  have hpayloadLen : (UInt32.ofNat payload.length).toNat = payload.length :=
    UInt32.toNat_ofNat_of_lt' (lt_of_le_of_lt (Nat.le_add_left _ _) hwidth)
  refine decodeBinaryFrame_raw.2 ⟨hlength, hlength.le.trans hframe, ?_⟩
  exact ⟨rfl, rfl, rfl, hflags, hid, hpayloadLen.le.trans hpayload, hpayloadLen, rfl, rfl, rfl, rfl⟩

/-- A frame of the current minor version is what `encode_frame` writes for it. -/
theorem encodeFrame_of_decode (h : decodeBinaryFrame bytes limits = .ok frame)
    (hminor : frame.header.protocol.minor = WireProtocolVersion.current.minor) :
    encodeFrame frame.header.opcode frame.header.flags frame.header.requestId frame.payload
      limits = .ok bytes := by
  obtain ⟨raw, rfl, hlength, hlimit, haccepted⟩ := exists_raw_of_decode h
  have hpayload := haccepted.payload
  have hpayloadLen := haccepted.payloadLen
  have hraw : encodedFields frame.header.opcode frame.header.flags frame.header.requestId
      frame.payload = raw := by
    have hbits := (WireFlags.fromBits_eq_ok haccepted.flags).1
    have hlengthField : UInt32.ofNat (binaryHeaderLen + raw.payload.length) = raw.length := by
      rw [← hlength, UInt32.ofNat_toNat]
    have hpayloadField : UInt32.ofNat raw.payload.length = raw.payloadLen := by
      rw [← hpayloadLen, UInt32.ofNat_toNat]
    rw [haccepted.protocol] at hminor
    simp only [encodedFields, hpayload, haccepted.opcode, hbits, haccepted.sameRequestId,
      ← haccepted.magic, ← haccepted.major, ← hminor, hlengthField, hpayloadField]
  rw [encodeFrame_eq_ok, hraw, hpayload]
  exact ⟨hpayloadLen ▸ haccepted.payloadLimit, hlength ▸ hlimit, rfl⟩

/-! ## Readers -/

/-- A program that reads. -/
abbrev Reading (α : Type) := Prog Bytes WireCodecError α

/-- `read_exact`; a stream that ends too early has been read to its end. -/
def readExact (count : Nat) : Reading Bytes := do
  let stream ← read
  if stream.length < count then do
    update fun _ => []
    fail (.readFailed "failed to fill whole buffer")
  else do
    update (·.drop count)
    pure (stream.take count)

def readBinaryFrame (limits : WireLimits) : Reading BinaryFrame := do
  let lengthPrefix ← readExact binaryLengthPrefixLen
  let declared := (readU32 lengthPrefix).toNat
  lift (validateFrameLength declared limits)
  let body ← readExact declared
  lift (decodeFrameBody body limits)

/-- `none` at the end of the stream; the first byte is read on its own to tell. -/
def readBinaryFrameBytes (limits : WireLimits) : Reading (Option Bytes) := do
  match ← read with
  | [] => pure none
  | first :: rest => do
    update fun _ => rest
    let others ← readExact (binaryLengthPrefixLen - 1)
    let lengthPrefix := first :: others
    let declared := (readU32 lengthPrefix).toNat
    lift (validateFrameLength declared limits)
    let body ← readExact declared
    let bytes := lengthPrefix ++ body
    let _ ← lift (decodeBinaryFrame bytes limits)
    pure (some bytes)

theorem readExact_eq_ok : (readExact count).run stream = (.ok bytes, rest) ↔
    stream = bytes ++ rest ∧ bytes.length = count := by
  unfold readExact
  rw [run_read_bind]
  split
  next hshort =>
    refine iff_of_false (fun h => by cases h) ?_
    rintro ⟨rfl, rfl⟩
    simp at hshort
  next hlong =>
    rw [run_update_bind, run_pure]
    constructor
    · intro h
      cases h
      exact ⟨(take_append_drop _ _).symm, length_take_of_le (not_lt.1 hlong)⟩
    · rintro ⟨rfl, rfl⟩
      rw [take_left, drop_left]

/-- `read_binary_frame` reads the frames that the decoder accepts. -/
theorem readBinaryFrame_ok : (readBinaryFrame limits).run stream = (.ok frame, rest) ↔
      ∃ bytes, stream = bytes ++ rest ∧ decodeBinaryFrame bytes limits = .ok frame := by
  simp only [readBinaryFrame, run_bind_eq_ok, run_lift_eq_ok, readExact_eq_ok,
    decodeBinaryFrame_split]
  constructor
  · rintro ⟨word, _, ⟨rfl, hword⟩, _, _, ⟨hvalid, rfl⟩, body, _, ⟨rfl, hlength⟩, hframe, rfl⟩
    exact ⟨word ++ body, (append_assoc _ _ _).symm, word, body, rfl, hword, hvalid, hlength.symm,
      hframe⟩
  · rintro ⟨_, rfl, word, body, rfl, hword, hvalid, hlength, hframe⟩
    exact ⟨word, body ++ rest, ⟨append_assoc _ _ _, hword⟩, (), _, ⟨hvalid, rfl⟩, body, rest,
      ⟨rfl, hlength.symm⟩, hframe, rfl⟩

/-- The reader takes as many bytes as the prefix declares, when the decoder accepts them. -/
theorem readBinaryFrameBytes_some :
    (readBinaryFrameBytes limits).run stream = (.ok (some bytes), rest) ↔
      stream = bytes ++ rest ∧ ∃ frame, decodeBinaryFrame bytes limits = .ok frame := by
  unfold readBinaryFrameBytes
  rw [run_read_bind]
  cases stream with
  | nil =>
    refine iff_of_false (fun h => by cases h) ?_
    rintro ⟨hnil, frame, hframe⟩
    obtain ⟨rfl, -⟩ := nil_eq_append_iff.1 hnil
    cases hframe
  | cons first stream =>
    dsimp only
    simp only [run_update_bind, run_bind_eq_ok, run_lift_eq_ok, readExact_eq_ok]
    constructor
    · rintro ⟨others, _, ⟨rfl, -⟩, _, _, ⟨-, rfl⟩, body, _, ⟨rfl, -⟩, frame, _, ⟨hframe, rfl⟩, h⟩
      cases h
      exact ⟨by simp, frame, hframe⟩
    · rintro ⟨hstream, frame, hframe⟩
      obtain ⟨word, body, rfl, hword, hvalid, hlength, -⟩ := decodeBinaryFrame_split.1 hframe
      obtain ⟨head, others, rfl⟩ := exists_cons_of_length_eq_add_one hword
      rw [append_assoc, cons_append, cons.injEq] at hstream
      obtain ⟨rfl, rfl⟩ := hstream
      exact ⟨others, body ++ rest, ⟨rfl, Nat.succ.inj hword⟩, (), _, ⟨hvalid, rfl⟩, body, rest,
        ⟨rfl, hlength.symm⟩, frame, rest, ⟨hframe, rfl⟩, rfl⟩

/-- Reading frame after frame until the stream ends. -/
inductive ReadsAll (limits : WireLimits) : Bytes → List Bytes → Prop
  | ended {stream rest : Bytes} (h : (readBinaryFrameBytes limits).run stream = (.ok none, rest)) :
      ReadsAll limits stream []
  | next {stream rest bytes : Bytes} {frames : List Bytes}
      (h : (readBinaryFrameBytes limits).run stream = (.ok (some bytes), rest))
      (hrest : ReadsAll limits rest frames) : ReadsAll limits stream (bytes :: frames)

theorem readsAll_flatten {frames : List Bytes}
    (h : ∀ bytes ∈ frames, ∃ frame, decodeBinaryFrame bytes limits = .ok frame) :
    ReadsAll limits frames.flatten frames := by
  induction frames with
  | nil => exact .ended rfl
  | cons bytes frames ih =>
    have hfirst : (readBinaryFrameBytes limits).run (bytes :: frames).flatten =
        (.ok (some bytes), frames.flatten) :=
      readBinaryFrameBytes_some.2 ⟨flatten_cons, h bytes mem_cons_self⟩
    exact .next hfirst (ih fun other hother => h other (mem_cons_of_mem _ hother))

/-! ## The documented format -/

/-- The rule for flags: bits 0 to 3 are request, response, error and management; exactly one of
    request and response, and error on responses only. -/
structure DocumentedFlags (bits : Nat) : Prop where
  reserved : bits < 16
  direction : bits.testBit 0 ≠ bits.testBit 1
  error : bits.testBit 2 = true → bits.testBit 1 = true

/-- The format by its offsets. -/
structure Documented (limits : WireLimits) (bytes : Bytes) : Prop where
  long : 28 ≤ bytes.length
  bodyLength : ofBytes (slice bytes 0 4) = bytes.length - 4
  magic : ofBytes (slice bytes 4 8) = 0x4d555453
  major : ofBytes (slice bytes 8 10) = 1
  opcode : ∃ opcode : Opcode, ofBytes (slice bytes 12 14) = opcode.code.toNat
  flags : DocumentedFlags (ofBytes (slice bytes 14 16))
  requestId : ofBytes (slice bytes 16 24) ≠ 0
  payloadLength : ofBytes (slice bytes 24 28) = bytes.length - 28
  frameLimit : bytes.length - 4 ≤ limits.maxFrameBytes
  payloadLimit : bytes.length - 28 ≤ limits.maxPayloadBytes

instance (bits : Nat) : Decidable (DocumentedFlags bits) :=
  decidable_of_iff (bits < 16 ∧ bits.testBit 0 ≠ bits.testBit 1 ∧
      (bits.testBit 2 = true → bits.testBit 1 = true))
    ⟨fun h => ⟨h.1, h.2.1, h.2.2⟩, fun h => ⟨h.reserved, h.direction, h.error⟩⟩

theorem and_reserved_eq_zero {n : Nat} (h : n < 2 ^ 16) : n &&& 0xfff0 = 0 ↔ n < 16 := by
  constructor
  · intro hand
    have hshift : (n >>> 4) &&& (2 ^ 12 - 1) = 0 := by
      have hmask : (2 ^ 12 - 1 : Nat) = 0xfff0 >>> 4 := rfl
      rw [hmask, ← Nat.shiftRight_and_distrib, hand, Nat.zero_shiftRight]
    rw [Nat.and_two_pow_sub_one_eq_mod, Nat.shiftRight_eq_div_pow] at hshift
    omega
  · intro hlt
    have hall : ∀ n < 16, n &&& 0xfff0 = 0 := by decide
    exact hall n hlt

theorem WireFlags.valid_iff : flags.valid ↔ DocumentedFlags flags.bits.toNat := by
  have hmask : (flags.bits &&& ~~~known = 0) ↔ flags.bits.toNat < 16 := by
    rw [← and_reserved_eq_zero flags.bits.toNat_lt, ← UInt16.toNat_inj, UInt16.toNat_and]
    rfl
  by_cases hknown : flags.bits.toNat < 16
  · have hall : ∀ n < 16, fromBits (UInt16.ofNat n) = .ok ⟨UInt16.ofNat n⟩ ↔
        DocumentedFlags n := by decide
    have hbits := hall _ hknown
    rwa [UInt16.ofNat_toNat] at hbits
  · refine iff_of_false (fun h => ?_) (fun h => hknown h.reserved)
    unfold WireFlags.valid fromBits at h
    rw [if_pos (mt hmask.1 hknown)] at h
    cases h

theorem RawFrame.numbers (raw : RawFrame) :
    BigEndian.ofBytes (slice raw.bytes 0 4) = raw.length.toNat ∧
    BigEndian.ofBytes (slice raw.bytes 4 8) = raw.magic.toNat ∧
    BigEndian.ofBytes (slice raw.bytes 8 10) = raw.major.toNat ∧
    BigEndian.ofBytes (slice raw.bytes 12 14) = raw.opcode.toNat ∧
    BigEndian.ofBytes (slice raw.bytes 14 16) = raw.flags.toNat ∧
    BigEndian.ofBytes (slice raw.bytes 16 24) = raw.requestId.toNat ∧
    BigEndian.ofBytes (slice raw.bytes 24 28) = raw.payloadLen.toNat := by
  obtain ⟨hmagic, hmajor, -, hopcode, hflags, hid, hlen, -⟩ := raw.slices_body
  refine ⟨?_, ?_, ?_, ?_, ?_, ?_, ?_⟩
  · rw [RawFrame.bytes, slice_append_eq (length_u32 _), ofBytes_u32]
  all_goals rw [RawFrame.bytes, slice_append_skip (by simp), length_u32]
  · rw [hmagic, ofBytes_u32]
  · rw [hmajor, ofBytes_u16]
  · rw [hopcode, ofBytes_u16]
  · rw [hflags, ofBytes_u16]
  · rw [hid, ofBytes_u64]
  · rw [hlen, ofBytes_u32]

/-- A byte string is accepted when it is in the format, and then only. -/
theorem decodeBinaryFrame_documented :
    (∃ frame, decodeBinaryFrame bytes limits = .ok frame) ↔ Documented limits bytes := by
  constructor
  · rintro ⟨frame, hframe⟩
    obtain ⟨raw, rfl, hlength, hlimit, haccepted⟩ := exists_raw_of_decode hframe
    obtain ⟨hnlength, hnmagic, hnmajor, hnopcode, hnflags, hnid, hnlen⟩ := raw.numbers
    have hpayload := haccepted.payloadLen
    have hpayloadLimit := haccepted.payloadLimit
    have hbytes := raw.length_bytes
    unfold binaryHeaderLen at hlength
    have hflags := WireFlags.fromBits_eq_ok haccepted.flags
    refine ⟨by omega, by omega, ?_, ?_, ?_, ?_, ?_, by omega, by omega, by omega⟩
    · rw [hnmagic, haccepted.magic]
      rfl
    · rw [hnmajor, haccepted.major]
      rfl
    · exact ⟨frame.header.opcode, by rw [hnopcode, haccepted.opcode]⟩
    · rw [hnflags, ← hflags.1]
      exact WireFlags.valid_iff.1 hflags.2
    · rw [hnid]
      exact fun hzero => haccepted.requestId (UInt64.toNat_inj.1 hzero)
  · intro h
    obtain ⟨raw, rfl⟩ : ∃ raw : RawFrame, bytes = raw.bytes :=
      ⟨_, (RawFrame.bytes_ofBytes h.long).symm⟩
    obtain ⟨hnlength, hnmagic, hnmajor, hnopcode, hnflags, hnid, hnlen⟩ := raw.numbers
    have hbytes := raw.length_bytes
    have hbodyLength := h.bodyLength
    have hpayloadLength := h.payloadLength
    have hframeLimit := h.frameLimit
    have hpayloadLimit := h.payloadLimit
    obtain ⟨opcode, hopcode⟩ := h.opcode
    have hflags := h.flags
    rw [hnflags] at hflags
    have hvalid : WireFlags.valid ⟨raw.flags⟩ := WireFlags.valid_iff.2 hflags
    refine ⟨{ header := { protocol := { major := raw.major, minor := raw.minor }, opcode,
                          flags := ⟨raw.flags⟩, requestId := raw.requestId,
                          payloadLen := raw.payloadLen },
              payload := raw.payload }, ?_⟩
    refine decodeBinaryFrame_raw.2 ⟨?_, by omega, ?_⟩
    · unfold binaryHeaderLen
      omega
    · refine ⟨?_, ?_, ?_, hvalid, ?_, by omega, by omega, rfl, rfl, rfl, rfl⟩
      · exact UInt32.toNat_inj.1 (hnmagic.symm.trans h.magic)
      · exact UInt16.toNat_inj.1 (hnmajor.symm.trans h.major)
      · exact UInt16.toNat_inj.1 (hopcode.symm.trans hnopcode)
      · intro hzero
        apply h.requestId
        rw [hnid, hzero]
        rfl

/-- What the frame codec promises, under given limits. -/
structure FrameCodec (limits : WireLimits) : Prop where
  decode_encode : ∀ (opcode : Opcode) (flags : WireFlags) (requestId : UInt64) (payload : Bytes),
    flags.valid → requestId ≠ 0 → payload.length ≤ limits.maxPayloadBytes →
    binaryHeaderLen + payload.length ≤ limits.maxFrameBytes →
    binaryHeaderLen + payload.length < 2 ^ 32 →
    ∃ bytes, encodeFrame opcode flags requestId payload limits = .ok bytes ∧
      decodeBinaryFrame bytes limits = .ok
        { header := { protocol := WireProtocolVersion.current, opcode, flags, requestId,
                      payloadLen := UInt32.ofNat payload.length },
          payload }
  encode_decode : ∀ (bytes : Bytes) (frame : BinaryFrame),
    decodeBinaryFrame bytes limits = .ok frame →
    frame.header.protocol.minor = WireProtocolVersion.current.minor →
    encodeFrame frame.header.opcode frame.header.flags frame.header.requestId frame.payload
      limits = .ok bytes
  stream : ∀ frames : List Bytes,
    (∀ bytes ∈ frames, ∃ (opcode : Opcode) (flags : WireFlags) (requestId : UInt64)
      (payload : Bytes), flags.valid ∧ requestId ≠ 0 ∧
        binaryHeaderLen + payload.length < 2 ^ 32 ∧
        encodeFrame opcode flags requestId payload limits = .ok bytes) →
    ReadsAll limits frames.flatten frames
  readers : ∀ stream bytes rest : Bytes,
    ((readBinaryFrameBytes limits).run stream = (.ok (some bytes), rest) ↔
      stream = bytes ++ rest ∧ ∃ frame, decodeBinaryFrame bytes limits = .ok frame) ∧
    ∀ frame, (readBinaryFrame limits).run stream = (.ok frame, rest) ↔
      ∃ bytes, stream = bytes ++ rest ∧ decodeBinaryFrame bytes limits = .ok frame
  format : ∀ bytes, (∃ frame, decodeBinaryFrame bytes limits = .ok frame) ↔
    Documented limits bytes

theorem frameCodec_sound (limits : WireLimits) : FrameCodec limits where
  decode_encode opcode flags requestId payload hflags hid hpayload hframe hwidth :=
    ⟨_, encodeFrame_eq_ok.2 ⟨hpayload, hframe, rfl⟩,
      encodedFields_accepted hflags hid hpayload hframe hwidth⟩
  encode_decode _ _ := encodeFrame_of_decode
  stream frames h := by
    refine readsAll_flatten fun bytes hbytes => ?_
    obtain ⟨opcode, flags, requestId, payload, hflags, hid, hwidth, hencode⟩ := h bytes hbytes
    obtain ⟨hpayload, hframe, rfl⟩ := encodeFrame_eq_ok.1 hencode
    exact ⟨_, encodedFields_accepted hflags hid hpayload hframe hwidth⟩
  readers _ _ _ := ⟨readBinaryFrameBytes_some, fun _ => readBinaryFrame_ok⟩
  format _ := decodeBinaryFrame_documented

/-- A payload that looks like the start of a frame. -/
example :
    ((encodeFrame .runnerCancel .request 7 (u32 24 ++ u32 wireMagic) defaultWireLimits).toOption.map
      fun bytes => (decodeBinaryFrame bytes defaultWireLimits).toOption.map (·.payload)) =
    some (some (u32 24 ++ u32 wireMagic)) := by decide +kernel

end MutsukiRuntime
