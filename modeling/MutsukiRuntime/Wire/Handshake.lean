/-
  HANDSHAKE (`mutsuki-runtime-wire/src/protocol.rs`): the hello of the side that connects, the
  answer of the side that accepts, and the check the first makes of that answer.

  The four limits are `u32` on the wire.  They are only compared and cut down, so they are
  natural numbers here; `forCodec` cuts them to the width.
-/
import MutsukiRuntime.Wire.Protocol

namespace MutsukiRuntime

open Prog

def binaryCodecId : String := "mutsuki.codec.typed-msgpack.v1"
def schemaRevision : String := "mutsuki.runtime.wire/1.3.0"

structure ProtocolHello where
  protocol : WireProtocolVersion
  codecId : String
  schemaRevision : String
  maxFrameBytes : Nat
  maxPayloadBytes : Nat
  maxInFlightRequests : Nat
  managementReservedRequests : Nat
  managementChannel : Bool
  featureFlags : List String
  deriving DecidableEq

/-- The hello's fields, as the peer grants them; `π` are the descriptions of a plugin. -/
structure ProtocolHelloAck (π : Type) extends ProtocolHello where
  plugin : Option π
  deriving DecidableEq

/-- `required.iter().find(..)`: the first feature that is not offered. -/
def checkFeatures (required offered : List String) : Except WireCodecError Unit :=
  match required.find? fun feature => !offered.contains feature with
  | some missing => .error (.featureMissing missing)
  | none => .ok ()

theorem checkFeatures_self (features : List String) : checkFeatures features features = .ok () := by
  have hnone : features.find? (fun feature => !features.contains feature) = none := by
    simp [List.find?_eq_none]
  rw [checkFeatures, hnone]

namespace ProtocolHelloAck

variable {π : Type}

def accept (hello : ProtocolHello) (plugin : Option π) : ProtocolHelloAck π where
  protocol := WireProtocolVersion.current
  codecId := hello.codecId
  schemaRevision := hello.schemaRevision
  maxFrameBytes := min hello.maxFrameBytes defaultWireLimits.maxFrameBytes
  maxPayloadBytes := min hello.maxPayloadBytes defaultWireLimits.maxPayloadBytes
  maxInFlightRequests := min hello.maxInFlightRequests defaultWireLimits.maxInFlightRequests
  managementReservedRequests :=
    min (min hello.managementReservedRequests defaultWireLimits.managementReservedRequests)
      (hello.maxInFlightRequests - 1)
  managementChannel := hello.managementChannel
  featureFlags := hello.featureFlags
  plugin := plugin

def validateFor (ack : ProtocolHelloAck π) (hello : ProtocolHello) :
    Except WireCodecError Unit := do
  ack.protocol.ensureCompatible
  if ack.codecId ≠ hello.codecId then .error (.codecMismatch hello.codecId ack.codecId)
  else if ack.schemaRevision ≠ hello.schemaRevision then
    .error (.schemaMismatch hello.schemaRevision ack.schemaRevision)
  else if ack.maxFrameBytes = 0 ∨ ack.maxFrameBytes > hello.maxFrameBytes ∨
      ack.maxPayloadBytes = 0 ∨ ack.maxPayloadBytes > hello.maxPayloadBytes ∨
      ack.maxInFlightRequests = 0 ∨ ack.maxInFlightRequests > hello.maxInFlightRequests ∨
      ack.managementReservedRequests = 0 ∨
      ack.managementReservedRequests > hello.managementReservedRequests ∨
      ack.managementReservedRequests ≥ ack.maxInFlightRequests then
    .error .limitMismatch
  else if hello.managementChannel ∧ ¬ ack.managementChannel then
    .error .managementChannelRequired
  else checkFeatures hello.featureFlags ack.featureFlags

end ProtocolHelloAck

namespace ProtocolHello

variable {π : Type} {hello : ProtocolHello} {expectedCodec : String} {plugin : Option π}
  {ack : ProtocolHelloAck π}

/-- `u32::MAX`. -/
def u32Max : Nat := 2 ^ 32 - 1

def forCodec (codecId : String) (limits : WireLimits) : ProtocolHello where
  protocol := WireProtocolVersion.current
  codecId := codecId
  schemaRevision := MutsukiRuntime.schemaRevision
  maxFrameBytes := min limits.maxFrameBytes u32Max
  maxPayloadBytes := min limits.maxPayloadBytes u32Max
  maxInFlightRequests := min limits.maxInFlightRequests u32Max
  managementReservedRequests := min limits.managementReservedRequests u32Max
  managementChannel := true
  featureFlags :=
    ["typed_requests", "out_of_order_responses", "resource_ref_required_for_large_bytes"]

def binaryWithLimits (limits : WireLimits) : Except WireCodecError ProtocolHello := do
  limits.validate
  pure (forCodec binaryCodecId limits)

def accept (hello : ProtocolHello) (expectedCodec : String) (plugin : Option π) :
    Except WireCodecError (ProtocolHelloAck π) := do
  hello.protocol.ensureCompatible
  if hello.codecId ≠ expectedCodec then .error (.codecMismatch expectedCodec hello.codecId)
  else if hello.schemaRevision ≠ MutsukiRuntime.schemaRevision then
    .error (.schemaMismatch MutsukiRuntime.schemaRevision hello.schemaRevision)
  else if hello.maxFrameBytes = 0 ∨ hello.maxPayloadBytes = 0 ∨ hello.maxInFlightRequests = 0 ∨
      hello.managementReservedRequests = 0 ∨
      hello.managementReservedRequests ≥ hello.maxInFlightRequests then
    .error .limitMismatch
  else
    let required := forCodec expectedCodec defaultWireLimits
    if required.managementChannel ∧ ¬ hello.managementChannel then
      .error .managementChannelRequired
    else do
      checkFeatures required.featureFlags hello.featureFlags
      pure (.accept hello plugin)

/-- What `accept` asks of a hello. -/
structure Acceptable (hello : ProtocolHello) (expectedCodec : String) : Prop where
  major : hello.protocol.major = WireProtocolVersion.current.major
  codec : hello.codecId = expectedCodec
  schema : hello.schemaRevision = MutsukiRuntime.schemaRevision
  frame : 0 < hello.maxFrameBytes
  payload : 0 < hello.maxPayloadBytes
  reserve : 0 < hello.managementReservedRequests
  reserveBelow : hello.managementReservedRequests < hello.maxInFlightRequests
  channel : hello.managementChannel = true
  features : checkFeatures (forCodec expectedCodec defaultWireLimits).featureFlags
    hello.featureFlags = .ok ()

theorem accept_eq_ok : hello.accept expectedCodec plugin = .ok ack ↔
      hello.Acceptable expectedCodec ∧ ack = .accept hello plugin := by
  simp only [accept, except_bind_eq_ok, except_check_eq_ok, exists_const,
    WireProtocolVersion.ensureCompatible_eq_ok, not_not, forCodec, true_and]
  constructor
  · rintro ⟨hmajor, hcodec, hschema, hlimits, hchannel, _, hfeatures, heq⟩
    exact ⟨⟨hmajor, hcodec, hschema, by omega, by omega, by omega, by omega, hchannel, hfeatures⟩,
      (Except.ok.inj heq).symm⟩
  · rintro ⟨h, rfl⟩
    have hreserve := h.reserve
    have hbelow := h.reserveBelow
    have hframe := h.frame
    have hpayload := h.payload
    exact ⟨h.major, h.codec, h.schema, by omega, h.channel, (), h.features, rfl⟩

theorem Acceptable.validateFor (h : hello.Acceptable expectedCodec) (plugin : Option π) :
    (ProtocolHelloAck.accept hello plugin).validateFor hello = .ok () := by
  have hreserve := h.reserve
  have hbelow := h.reserveBelow
  have hframe := h.frame
  have hpayload := h.payload
  simp only [ProtocolHelloAck.validateFor, except_bind_eq_ok, except_check_eq_ok, exists_const,
    WireProtocolVersion.ensureCompatible_eq_ok, not_not]
  refine ⟨rfl, rfl, rfl, ?_, fun hneeds => hneeds.2 hneeds.1, checkFeatures_self _⟩
  simp only [ProtocolHelloAck.accept, defaultWireLimits]
  omega

/-- The answer to an accepted hello passes the connecting side's check of it.  No limit is above
    that of either side, and the reserve leaves room for a request of work. -/
theorem accepted_hello_negotiated (h : hello.accept expectedCodec plugin = .ok ack) :
    ack.validateFor hello = .ok () ∧
    (ack.maxFrameBytes ≤ hello.maxFrameBytes ∧
      ack.maxFrameBytes ≤ defaultWireLimits.maxFrameBytes) ∧
    (ack.maxPayloadBytes ≤ hello.maxPayloadBytes ∧
      ack.maxPayloadBytes ≤ defaultWireLimits.maxPayloadBytes) ∧
    (ack.maxInFlightRequests ≤ hello.maxInFlightRequests ∧
      ack.maxInFlightRequests ≤ defaultWireLimits.maxInFlightRequests) ∧
    (ack.managementReservedRequests ≤ hello.managementReservedRequests ∧
      ack.managementReservedRequests ≤ defaultWireLimits.managementReservedRequests) ∧
    0 < ack.managementReservedRequests ∧
    ack.managementReservedRequests < ack.maxInFlightRequests := by
  obtain ⟨hok, rfl⟩ := accept_eq_ok.1 h
  have hreserve := hok.reserve
  have hbelow := hok.reserveBelow
  refine ⟨hok.validateFor plugin, ?_⟩
  simp only [ProtocolHelloAck.accept, defaultWireLimits]
  omega

/-- A hello with a payload below the default, and all other limits above. -/
def unevenHello : ProtocolHello :=
  { forCodec binaryCodecId defaultWireLimits with
    maxFrameBytes := 2 * defaultWireLimits.maxFrameBytes
    maxPayloadBytes := 1024
    maxInFlightRequests := 128
    managementReservedRequests := 100 }

theorem accepted_hello_negotiated_uneven :
    ∃ ack : ProtocolHelloAck Empty, unevenHello.accept binaryCodecId none = .ok ack ∧
      ack.validateFor unevenHello = .ok () ∧ ack.maxPayloadBytes ≤ 1024 ∧
      ack.managementReservedRequests < ack.maxInFlightRequests := by
  have haccepted : unevenHello.accept binaryCodecId (none : Option Empty) = .ok _ := rfl
  obtain ⟨hvalid, -, hpayload, -, -, -, hbelow⟩ := accepted_hello_negotiated haccepted
  exact ⟨_, haccepted, hvalid, hpayload.1, hbelow⟩

end ProtocolHello

end MutsukiRuntime
