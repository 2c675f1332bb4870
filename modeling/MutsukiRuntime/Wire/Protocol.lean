/-
  WIRE PROTOCOL (`mutsuki-runtime-wire/src/protocol.rs`): versions, limits, opcodes and
  codec errors.

  Lengths are `usize` in the source and natural numbers here; the fields on the wire
  keep their widths.
-/
import MutsukiRuntime.Lib.BigEndian
import MutsukiRuntime.Lib.Prog

namespace MutsukiRuntime

structure WireProtocolVersion where
  major : UInt16
  minor : UInt16
  deriving DecidableEq

/-- `WireCodecError`.  What `serde` and the reader report is their own text. -/
inductive WireCodecError where
  | versionMismatch (expectedMajor actualMajor : UInt16)
  | codecMismatch (expected actual : String)
  | schemaMismatch (expected actual : String)
  | limitMismatch
  | managementChannelRequired
  | featureMissing (feature : String)
  | unknownOpcode (value : UInt16)
  | methodMismatch (opcode : UInt16) (expected actual : String)
  | payloadOversized (actual limit : Nat)
  | frameOversized (actual limit : Nat)
  | truncated (expected actual : Nat)
  | invalidMagic (magic : UInt32)
  | invalidFlags (bits : UInt16)
  | invalidRequestId
  | responseMismatch
  | payloadLengthMismatch (declared actual : Nat)
  | inlineResourceOversized (actual limit : Nat)
  | encode (detail : String)
  | decode (detail : String)
  | readFailed (detail : String)
  deriving DecidableEq

/-- `{:#0nx}`: hexadecimal of `digits` digits after the `0x`. -/
def hex (digits n : Nat) : String :=
  let text := String.ofList (Nat.toDigits 16 n)
  "0x" ++ String.ofList (List.replicate (digits - text.length) '0') ++ text

/-- `WireCodecError::to_string`. -/
def WireCodecError.display : WireCodecError → String
  | versionMismatch expected actual =>
    "wire protocol major mismatch: expected " ++ toString expected.toNat ++ ", got " ++
      toString actual.toNat
  | codecMismatch expected actual =>
    "wire codec mismatch: expected " ++ expected ++ ", got " ++ actual
  | schemaMismatch expected actual =>
    "wire schema mismatch: expected " ++ expected ++ ", got " ++ actual
  | limitMismatch => "wire peer returned invalid or expanded negotiated limits"
  | managementChannelRequired => "wire management channel support is required"
  | featureMissing feature => "wire peer is missing required feature " ++ feature
  | unknownOpcode value => "unknown wire opcode " ++ hex 4 value.toNat
  | methodMismatch opcode expected actual =>
    "opcode " ++ hex 4 opcode.toNat ++ " maps to " ++ expected ++ ", not " ++ actual
  | payloadOversized actual limit =>
    "wire payload is oversized: " ++ toString actual ++ " > " ++ toString limit
  | frameOversized actual limit =>
    "wire frame is oversized: " ++ toString actual ++ " > " ++ toString limit
  | truncated expected actual =>
    "wire frame is truncated: expected " ++ toString expected ++ ", got " ++ toString actual
  | invalidMagic magic => "invalid wire magic " ++ hex 8 magic.toNat
  | invalidFlags bits => "invalid wire flags " ++ hex 4 bits.toNat
  | invalidRequestId => "wire request id must be non-zero"
  | responseMismatch => "wire response does not match the typed request"
  | payloadLengthMismatch declared actual =>
    "wire payload length mismatch: declared " ++ toString declared ++ ", actual " ++
      toString actual
  | inlineResourceOversized actual limit =>
    "large resource bytes must use ResourceRef: " ++ toString actual ++ " > " ++ toString limit
  | encode detail => "wire encode failed: " ++ detail
  | decode detail => "wire decode failed: " ++ detail
  | readFailed detail => "wire I/O failed: " ++ detail

namespace WireProtocolVersion

/-- `WireProtocolVersion::CURRENT`. -/
def current : WireProtocolVersion := { major := 1, minor := 2 }

def ensureCompatible (version : WireProtocolVersion) : Except WireCodecError Unit :=
  if version.major ≠ current.major then
    .error (.versionMismatch current.major version.major)
  else .ok ()

theorem ensureCompatible_eq_ok {version : WireProtocolVersion} {done : Unit} :
    version.ensureCompatible = .ok done ↔ version.major = current.major := by
  rw [ensureCompatible, Prog.except_check_eq_ok, not_not, and_iff_left rfl]

end WireProtocolVersion

structure WireLimits where
  maxFrameBytes : Nat
  maxPayloadBytes : Nat
  maxJsonlLineBytes : Nat
  maxInlineResourceBytes : Nat
  maxInFlightRequests : Nat
  managementReservedRequests : Nat
  deriving DecidableEq

/-- `DEFAULT_WIRE_LIMITS`. -/
def defaultWireLimits : WireLimits :=
  { maxFrameBytes := 8 * 1024 * 1024
    maxPayloadBytes := 4 * 1024 * 1024
    maxJsonlLineBytes := 8 * 1024 * 1024
    maxInlineResourceBytes := 64 * 1024
    maxInFlightRequests := 64
    managementReservedRequests := 8 }

/-- `WireLimits::validate`. -/
def WireLimits.validate (limits : WireLimits) : Except WireCodecError Unit :=
  if limits.maxFrameBytes = 0 ∨ limits.maxPayloadBytes = 0 ∨ limits.maxJsonlLineBytes = 0 ∨
      limits.maxInlineResourceBytes = 0 ∨ limits.maxPayloadBytes > limits.maxFrameBytes ∨
      limits.maxInlineResourceBytes > limits.maxPayloadBytes ∨ limits.maxInFlightRequests < 2 ∨
      limits.managementReservedRequests = 0 ∨
      limits.managementReservedRequests ≥ limits.maxInFlightRequests then
    .error .limitMismatch
  else .ok ()

theorem WireLimits.validate_eq_ok {limits : WireLimits} {done : Unit} : limits.validate = .ok done ↔
      0 < limits.maxFrameBytes ∧ 0 < limits.maxPayloadBytes ∧ 0 < limits.maxJsonlLineBytes ∧
      0 < limits.maxInlineResourceBytes ∧ limits.maxPayloadBytes ≤ limits.maxFrameBytes ∧
      limits.maxInlineResourceBytes ≤ limits.maxPayloadBytes ∧ 2 ≤ limits.maxInFlightRequests ∧
      0 < limits.managementReservedRequests ∧
      limits.managementReservedRequests < limits.maxInFlightRequests := by
  rw [WireLimits.validate, Prog.except_check_eq_ok, and_iff_left rfl]
  omega

inductive Opcode where
  | pluginInitialize
  | runnerRunBatch
  | runnerCancel
  | runnerDispose
  | taskSubmitBatch
  | taskCancel
  | taskOutcome
  | resourceReadCollect
  | resourceReadSnapshot
  | resourceStreamOpen
  | resourceExport
  | resourceWriteCommit
  | resourceCommand
  | resourceCommandBatch
  | resourceSaga
  | resourceCreateBlob
  | resourceCreateCowState
  | resourceCreateCapability
  deriving DecidableEq

namespace Opcode

/-- `opcode as u16`. -/
def code : Opcode → UInt16
  | pluginInitialize => 0x0001
  | runnerRunBatch => 0x1001
  | runnerCancel => 0x1002
  | runnerDispose => 0x1003
  | taskSubmitBatch => 0x2001
  | taskCancel => 0x2002
  | taskOutcome => 0x2003
  | resourceReadCollect => 0x3001
  | resourceReadSnapshot => 0x3002
  | resourceStreamOpen => 0x3003
  | resourceExport => 0x3004
  | resourceWriteCommit => 0x3005
  | resourceCommand => 0x3006
  | resourceCommandBatch => 0x3007
  | resourceSaga => 0x3008
  | resourceCreateBlob => 0x3009
  | resourceCreateCowState => 0x300a
  | resourceCreateCapability => 0x300b

/-- `Opcode::ALL`. -/
def all : List Opcode :=
  [ pluginInitialize, runnerRunBatch, runnerCancel, runnerDispose, taskSubmitBatch, taskCancel,
    taskOutcome, resourceReadCollect, resourceReadSnapshot, resourceStreamOpen, resourceExport,
    resourceWriteCommit, resourceCommand, resourceCommandBatch, resourceSaga, resourceCreateBlob,
    resourceCreateCowState, resourceCreateCapability ]

def method : Opcode → String
  | pluginInitialize => "plugin.initialize"
  | runnerRunBatch => "runner.run_batch"
  | runnerCancel => "runner.cancel"
  | runnerDispose => "runner.dispose"
  | taskSubmitBatch => "task.submit_batch"
  | taskCancel => "task.cancel"
  | taskOutcome => "task.outcome"
  | resourceReadCollect => "resource.read.collect"
  | resourceReadSnapshot => "resource.read.snapshot"
  | resourceStreamOpen => "resource.stream.open"
  | resourceExport => "resource.export"
  | resourceWriteCommit => "resource.write.commit"
  | resourceCommand => "resource.command"
  | resourceCommandBatch => "resource.command_batch"
  | resourceSaga => "resource.saga"
  | resourceCreateBlob => "resource.create_blob"
  | resourceCreateCowState => "resource.create_cow_state"
  | resourceCreateCapability => "resource.create_capability"

def isManagement : Opcode → Bool
  | pluginInitialize | runnerCancel | runnerDispose => true
  | _ => false

/-- `Opcode::from_u16`. -/
def fromU16 (value : UInt16) : Except WireCodecError Opcode :=
  match all.find? (·.code == value) with
  | some opcode => .ok opcode
  | none => .error (.unknownOpcode value)

theorem mem_all (opcode : Opcode) : opcode ∈ all := by cases opcode <;> decide

theorem code_injective {a b : Opcode} (h : a.code = b.code) : a = b := by
  have hall : ∀ a ∈ all, ∀ b ∈ all, a.code = b.code → a = b := by decide
  exact hall a (mem_all a) b (mem_all b) h

theorem fromU16_eq_ok {value : UInt16} {opcode : Opcode} :
    fromU16 value = .ok opcode ↔ opcode.code = value := by
  unfold fromU16
  constructor
  · intro h
    split at h
    · next found hfound =>
      obtain rfl : found = opcode := Except.ok.inj h
      simpa using List.find?_some hfound
    · cases h
  · intro h
    have hsome : all.find? (·.code == value) = some opcode := by
      cases hfound : all.find? (·.code == value) with
      | none => exact absurd (by simpa using h) (List.find?_eq_none.1 hfound opcode (mem_all _))
      | some found =>
        have hcode : found.code = value := by simpa using List.find?_some hfound
        rw [code_injective (hcode.trans h.symm)]
    rw [hsome]

end Opcode

end MutsukiRuntime
