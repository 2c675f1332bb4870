/-
  WIRE VALUES AND ERRORS of `mutsuki-runtime-contracts`.

  * `ScalarValue`, `RuntimeError` with its code, source, route and evidence, and
    the error codes the core uses.

  A float is kept as its printed text: nothing in the core computes with one.
  `lost_capability`, `recovery` and `cause` of an error are never read and never
  set by the core; they are left out.
-/
import MutsukiRuntime.Lib.Buckets

namespace MutsukiRuntime

open Std

abbrev RefId := String
abbrev TaskId := String
abbrev RunnerId := String
abbrev ExecutorId := String
abbrev BindingId := String
abbrev ProtocolId := String
abbrev TaskLeaseId := String
abbrev TickId := String
abbrev BatchId := String
abbrev EntryId := String
abbrev SurfaceId := String
abbrev TraceId := String

/-! ## Machine integers -/

def u64Max : Nat := 2 ^ 64 - 1

def usizeMax : Nat := 2 ^ 64 - 1

def isizeMax : Nat := 2 ^ 63 - 1

/-- `u64::saturating_add` (and `usize::saturating_add` on a 64-bit target). -/
def satAdd (a b : Nat) : Nat := min (a + b) u64Max

/-- `n as i64`. -/
def asI64 (n : Nat) : Int :=
  if n % 2 ^ 64 < 2 ^ 63 then (n % 2 ^ 64 : Nat) else (n % 2 ^ 64 : Nat) - 2 ^ 64

/-! ## JSON values -/

/-- `serde_json::Value`. -/
inductive Value where
  | null
  | bool (value : Bool)
  | int (value : Int)
  | float (text : String)
  | string (text : String)
  | array (items : List Value)
  | object (entries : List (String × Value))
  deriving BEq

/-- Bytes of one character inside a compact JSON string. -/
def escapedLen (c : Char) : Nat :=
  if c = '"' ∨ c = '\\' then 2
  else if c.toNat = 8 ∨ c.toNat = 9 ∨ c.toNat = 10 ∨ c.toNat = 12 ∨ c.toNat = 13 then 2
  else if c.toNat < 32 then 6
  else c.utf8Size

def jsonStringLen (s : String) : Nat :=
  2 + (s.toList.map escapedLen).sum

mutual

/-- `compact_json_len`: bytes of the compact encoding. -/
def compactJsonLen : Value → Nat
  | .null => 4
  | .bool b => if b then 4 else 5
  | .int n => (toString n).length
  | .float text => text.length
  | .string s => jsonStringLen s
  | .array items => 2 + arrayJsonLen items
  | .object entries => 2 + objectJsonLen entries

/-- The items and the commas between them. -/
def arrayJsonLen : List Value → Nat
  | [] => 0
  | [v] => compactJsonLen v
  | v :: w :: vs => compactJsonLen v + 1 + arrayJsonLen (w :: vs)

def objectJsonLen : List (String × Value) → Nat
  | [] => 0
  | [(k, v)] => jsonStringLen k + 1 + compactJsonLen v
  | (k, v) :: w :: vs => jsonStringLen k + 1 + compactJsonLen v + 1 + objectJsonLen (w :: vs)

end

/-- A member of an object. -/
def Value.field (v : Value) (key : String) : Option Value :=
  match v with
  | .object entries => (entries.find? (fun e => e.1 == key)).map (·.2)
  | _ => none

/-! ## Scalars and errors -/

inductive ScalarValue where
  | string (text : String)
  | int (value : Int)
  | float (text : String)
  | bool (value : Bool)
  deriving DecidableEq

/-- `BTreeMap<String, ScalarValue>`. -/
abbrev Attributes := ExtTreeMap String ScalarValue

instance : DecidableEq Attributes := fun a b =>
  decidable_of_iff ((a == b) = true) beq_iff_eq

def Attributes.ofEntries (entries : List (String × ScalarValue)) : Attributes :=
  entries.foldl (fun m e => m.insert e.1 e.2) ∅

structure RuntimeError where
  code : String
  source : String
  route : String
  evidence : Attributes
  deriving DecidableEq, Inhabited

/-- `RuntimeError::new`; `runtime_failure` wraps the same value. -/
def runtimeError (code source route : String) : RuntimeError :=
  { code, source, route, evidence := ∅ }

/-- `error.evidence.insert(key, value)`. -/
def RuntimeError.withEvidence (e : RuntimeError) (key : String) (value : ScalarValue) :
    RuntimeError :=
  { e with evidence := e.evidence.insert key value }

/-- `RuntimeResult<T>`; a `RuntimeFailure` is its error. -/
abbrev RuntimeResult := Except RuntimeError

def errRuntimeHostFailed := "runtime.host_failed"
def errRuntimeNotAccepting := "runtime.not_accepting"
def errRuntimeAborted := "runtime.aborted"
def errTaskNotFound := "task.not_found"
def errTaskDuplicate := "task.duplicate"
def errTaskClaimConflict := "task.claim_conflict"
def errTaskExpired := "task.expired"
def errTaskDeadLetter := "task.dead_letter"
def errTaskUnsupported := "task.unsupported"
def errRunnerNotFound := "runner.not_found"
def errRunnerPurityViolation := "runner.purity_violation"
def errRegistryFrozen := "registry.frozen"
def errRegistryUnauthorized := "registry.unauthorized"
def errStateConflict := "state.conflict"
def errReloadBlocked := "plugin.reload_blocked"
def errCapabilityExhausted := "capability.exhausted"
def errResourceNotFound := "resource.not_found"
def errResourceLeaseExpired := "resource.lease_expired"
def errResourceGenerationMismatch := "resource.generation_mismatch"

example : compactJsonLen (.object [("a", .array [.int (-12), .string "x\"y"])]) = 18 := by decide

end MutsukiRuntime
