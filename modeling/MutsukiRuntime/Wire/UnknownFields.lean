/-
  UNKNOWN FIELDS in JSONL responses: a newer peer may put fields into its result or its error
  object that this side does not know, and counts them in the payload length.

  `serde` skips such fields.  A result is measured as the value that was read, fields and all;
  an error is measured as it is written again from its type, where they are gone.
  `unknown_fields_skipped_iff` says when a line with further fields is read like the line
  without them.
-/
import MutsukiRuntime.Lib.Checks
import MutsukiRuntime.Wire.Responses

namespace MutsukiRuntime

open BigEndian Prog MessagePack

/-! ## The length of an object -/

/-- A member with its colon and a comma. -/
def memberLen (member : String × Value) : Nat :=
  jsonStringLen member.1 + compactJsonLen member.2 + 2

theorem objectJsonLen_eq (members : List (String × Value)) :
    objectJsonLen members = (members.map memberLen).sum - 1 := by
  induction members with
  | nil => rfl
  | cons first rest ih =>
    cases rest with
    | nil =>
      simp only [objectJsonLen, List.map_cons, List.map_nil, List.sum_cons, List.sum_nil, memberLen]
      omega
    | cons =>
      rw [objectJsonLen, ih]
      simp only [List.map_cons, List.sum_cons, memberLen]
      omega

theorem compactJsonLen_extended {members extended further : List (String × Value)}
    (h : extended.Perm (members ++ further)) (hfurther : further ≠ []) :
    compactJsonLen (.object members) < compactJsonLen (.object extended) := by
  obtain ⟨first, rest, rfl⟩ := List.exists_cons_of_ne_nil hfurther
  have hsum := (h.map memberLen).sum_eq
  simp only [List.map_append, List.map_cons, List.sum_append, List.sum_cons] at hsum
  have hfirst : 2 ≤ memberLen first := Nat.le_add_left _ _
  simp only [compactJsonLen, objectJsonLen_eq]
  omega

namespace ResponseSerde

variable (serde : ResponseSerde)

/-- The second line is the first with further fields in its result or its error object, and with
    a payload length that counts them.  Their reader does not know the fields. -/
structure Extended (kind : RequestType) (members further extended : List (String × Value))
    (line line' : Bytes) (envelope envelope' : JsonlResponseEnvelope) : Prop where
  read : serde.envelope line = .ok envelope
  read' : serde.envelope line' = .ok envelope'
  perm : extended.Perm (members ++ further)
  declared : envelope'.payloadLen.toNat = compactJsonLen (.object extended)
  part :
    (envelope.ok = true ∧ envelope.result = some (.object members) ∧
      envelope' = { envelope with
        result := some (.object extended), payloadLen := envelope'.payloadLen } ∧
      serde.fromValue kind (.object extended) = serde.fromValue kind (.object members)) ∨
    (envelope.ok = false ∧ envelope.payloadLen.toNat = compactJsonLen (.object members) ∧
      envelope' = { envelope with payloadLen := envelope'.payloadLen })

variable {serde} {kind : RequestType} {line line' : Bytes} {expected : UInt64}
  {limits : WireLimits} {envelope envelope' : JsonlResponseEnvelope}
  {members further extended : List (String × Value)} {result : RuntimeResult (serde.Response kind)}

theorem decodeEnvelope_ok_iff (hok : envelope.ok = true) :
    serde.decodeEnvelope kind envelope limits = .ok result ↔
      envelope.error = none ∧ compactJsonLen (envelope.result.getD .null) ≤ limits.maxPayloadBytes ∧
        envelope.payloadLen.toNat = compactJsonLen (envelope.result.getD .null) ∧
        ∃ response, serde.fromValue kind (envelope.result.getD .null) = .ok response ∧
          .ok response = result := by
  unfold decodeEnvelope
  rw [if_pos hok, except_check_eq_ok, Option.not_isSome_iff_eq_none]
  simp only [except_bind_eq_ok, validateDeclaredPayload_eq_ok, decoded_eq_ok, exists_const,
    Except.ok.injEq, and_assoc]

/-- An accepted response line with further fields is read as the same response exactly if the
    longer line and payload are within the limits, and an error has got no further field. -/
theorem unknown_fields_skipped_iff
    (haccepted : serde.decodeJsonlResponseInner kind line expected limits = .ok result)
    (hextended : serde.Extended kind members further extended line line' envelope envelope') :
    serde.decodeJsonlResponseInner kind line' expected limits =
        serde.decodeJsonlResponseInner kind line expected limits ↔
      line'.length ≤ limits.maxJsonlLineBytes ∧
        envelope'.payloadLen.toNat ≤ limits.maxPayloadBytes ∧
        (envelope.ok = false → further = []) := by
  rw [haccepted]
  obtain ⟨-, read, hread, hid, hopcode, hmajor, hdecode⟩ :=
    decodeJsonlResponseInner_eq_ok.1 haccepted
  rw [decodeJsonlResponseInner_eq_ok]
  cases hread.symm.trans hextended.read
  have hline' := hextended.read'
  have hlen := hextended.declared
  obtain ⟨hok, hresult, hsame, hskips⟩ | ⟨hok, hmembers, hsame⟩ := hextended.part
  · obtain ⟨hnone, -, -, response, hresponse, hvalue⟩ := (decodeEnvelope_ok_iff hok).1 hdecode
    have hok' : envelope'.ok = true := by rw [hsame]; exact hok
    have hgetD : envelope'.result.getD .null = .object extended := by rw [hsame]; rfl
    have hagain : serde.decodeEnvelope kind envelope' limits = .ok result ↔
        envelope'.payloadLen.toNat ≤ limits.maxPayloadBytes := by
      rw [decodeEnvelope_ok_iff hok', hgetD, hskips, ← hlen]
      rw [hresult] at hresponse
      refine ⟨fun h => h.2.1, fun h => ⟨?_, h, rfl, response, hresponse, hvalue⟩⟩
      rw [hsame]
      exact hnone
    constructor
    · rintro ⟨hlength, read', hread', -, -, -, hdecode'⟩
      cases hread'.symm.trans hline'
      exact ⟨hlength, hagain.1 hdecode', fun hfalse => absurd (hok.symm.trans hfalse) (by decide)⟩
    · rintro ⟨hlength, hpayload, -⟩
      refine ⟨hlength, envelope', hline', ?_, ?_, ?_, hagain.2 hpayload⟩ <;> rw [hsame]
      exacts [hid, hopcode, hmajor]
  · have hfails : ∃ error, result = .error error := by
      cases result with
      | error error => exact ⟨error, rfl⟩
      | ok =>
        unfold decodeEnvelope at hdecode
        rw [if_neg (by simp [hok]), except_check_eq_ok] at hdecode
        split at hdecode
        · cases hdecode.2
        · obtain ⟨_, -, h⟩ := except_bind_eq_ok.1 hdecode.2
          obtain ⟨_, -, h⟩ := except_bind_eq_ok.1 h
          cases h
    obtain ⟨error, rfl⟩ := hfails
    obtain ⟨-, hnone, herror, value, hvalue, hmax, hdeclared⟩ :=
      decodeEnvelope_eq_ok_error.1 hdecode
    constructor
    · rintro ⟨hlength, read', hread', -, -, -, hdecode'⟩
      cases hread'.symm.trans hline'
      obtain ⟨-, -, -, value', hvalue', hmax', hdeclared'⟩ := decodeEnvelope_eq_ok_error.1 hdecode'
      obtain rfl : value' = value := Except.ok.inj (hvalue'.symm.trans hvalue)
      refine ⟨hlength, hdeclared' ▸ hmax', fun _ => by_contra fun hfurther => ?_⟩
      -- both lengths are that of the error written again
      have hlonger := compactJsonLen_extended hextended.perm hfurther
      omega
    · rintro ⟨hlength, -, hfurther⟩
      obtain rfl := hfurther hok
      have hsum := (hextended.perm.map memberLen).sum_eq
      have hdeclared' : envelope'.payloadLen.toNat = compactJsonLen value := by
        rw [hlen, ← hdeclared, hmembers]
        simp only [compactJsonLen, objectJsonLen_eq, hsum, List.append_nil]
      refine ⟨hlength, envelope', hline', ?_, ?_, ?_, decodeEnvelope_eq_ok_error.2
        ⟨?_, ?_, ?_, value, hvalue, hmax, hdeclared'⟩⟩ <;> rw [hsame]
      exacts [hid, hopcode, hmajor, hok, hnone, herror]

/-! ## A peer of a later version -/

/-- A `CompletionBatch` without results, as text and as a value. -/
def batchText : Bytes :=
  ascii "\"batch_id\":\"b\",\"tick_id\":\"t\",\"results\":[],\"metadata\":[]"

def batchMembers : List (String × Value) :=
  [("batch_id", .string "b"), ("tick_id", .string "t"), ("results", .array []),
    ("metadata", .array [])]

/-- A `RuntimeError` as text and as a value. -/
def errorText : Bytes :=
  ascii "\"code\":\"c\",\"source\":\"s\",\"route\":\"r\",\"lost_capability\":null," ++
    ascii "\"recovery\":null,\"cause\":null,\"evidence\":\x7b\x7d"

def errorMembers : List (String × Value) :=
  [("code", .string "c"), ("source", .string "s"), ("route", .string "r"),
    ("lost_capability", .null), ("recovery", .null), ("cause", .null), ("evidence", .object [])]

/-- The object in a response of the peer; the later one has a field that this side does not
    know. -/
def peerPayload (ok later : Bool) : Bytes :=
  ascii "\x7b" ++ (if ok then batchText else errorText) ++
    (if later then ascii ",\"x\":2" else []) ++ ascii "\x7d"

def furtherMembers (later : Bool) : List (String × Value) := if later then [("x", .int 2)] else []

def peerLine (ok later : Bool) : Bytes :=
  ascii "\x7b\"request_id\":1,\"protocol\":\x7b\"major\":1,\"minor\":2\x7d,\"opcode\":4097," ++
    ascii "\"payload_len\":" ++
    (Nat.toDigits 10 (peerPayload ok later).length).map (fun c => UInt8.ofNat c.toNat) ++
    (if ok then ascii ",\"ok\":true,\"result\":" ++ peerPayload ok later ++
      ascii ",\"error\":null\x7d"
    else ascii ",\"ok\":false,\"result\":null,\"error\":" ++ peerPayload ok later ++ ascii "\x7d")

def peerEnvelope (ok later : Bool) : JsonlResponseEnvelope where
  requestId := 1
  protocol := .current
  opcode := Opcode.runnerRunBatch.code
  payloadLen := UInt32.ofNat (peerPayload ok later).length
  ok := ok
  result := if ok then some (.object (batchMembers ++ furtherMembers later)) else none
  error := if ok then none else some (runtimeError "c" "s" "r")

/-- What `serde_json` makes of these lines; a response is the ids of a batch without results. -/
def peerSerde : ResponseSerde where
  Response _ := String × String
  envelope line :=
    if line = peerLine true false then .ok (peerEnvelope true false)
    else if line = peerLine true true then .ok (peerEnvelope true true)
    else if line = peerLine false false then .ok (peerEnvelope false false)
    else if line = peerLine false true then .ok (peerEnvelope false true)
    else .error "expected value"
  errorValue error :=
    if error = runtimeError "c" "s" "r" then .ok (.object errorMembers) else .error "unsupported"
  fromValue _ value :=
    match value.field "batch_id", value.field "tick_id", value.field "results",
      value.field "metadata" with
    | some (.string batchId), some (.string tickId), some (.array []), some (.array []) =>
      .ok (batchId, tickId)
    | _, _, _, _ => .error "invalid type"
  fromMessagepack _ _ := .error "invalid type"
  errorFromMessagepack _ := .error "invalid type"

theorem unknown_fields_skipped_result :
    peerSerde.decodeJsonlResponseInner .runBatch (peerLine true true) 1 defaultWireLimits =
      peerSerde.decodeJsonlResponseInner .runBatch (peerLine true false) 1 defaultWireLimits := by
  obtain ⟨result, haccepted⟩ := Checks.exists_eq_ok
    (x := peerSerde.decodeJsonlResponseInner .runBatch (peerLine true false) 1 defaultWireLimits)
    (by decide +kernel)
  have hother : peerLine true true ≠ peerLine true false := by decide +kernel
  have hread : peerSerde.envelope (peerLine true false) = .ok (peerEnvelope true false) := by
    simp only [peerSerde, if_true]
  have hread' : peerSerde.envelope (peerLine true true) = .ok (peerEnvelope true true) := by
    simp only [peerSerde, if_neg hother, if_true]
  have hextended : peerSerde.Extended .runBatch batchMembers (furtherMembers true)
      (batchMembers ++ furtherMembers true) (peerLine true false) (peerLine true true)
      (peerEnvelope true false) (peerEnvelope true true) :=
    ⟨hread, hread', .refl _, by decide +kernel, .inl ⟨rfl, rfl, rfl, rfl⟩⟩
  exact (unknown_fields_skipped_iff haccepted hextended).2
    ⟨by decide +kernel, by decide +kernel, by decide⟩

/-- The error is the same, but its line is refused. -/
theorem unknown_error_field_refused :
    (peerSerde.decodeJsonlResponseInner .runBatch (peerLine false false) 1
      defaultWireLimits).isOk = true ∧
    (peerSerde.decodeJsonlResponseInner .runBatch (peerLine false true) 1
      defaultWireLimits).isOk = false ∧
    (peerEnvelope false true).payloadLen.toNat =
      compactJsonLen (.object (errorMembers ++ furtherMembers true)) ∧
    (peerEnvelope false false).error = (peerEnvelope false true).error :=
  ⟨by decide +kernel, by decide +kernel, by decide +kernel, rfl⟩

end ResponseSerde

end MutsukiRuntime
