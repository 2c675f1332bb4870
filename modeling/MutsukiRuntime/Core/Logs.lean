/-
  EVENT AND TRACE LOGS (`logs.rs`) over the bounded log they share.

  * A disabled log never builds the record, so the builder is a function of the
    sequence number.

  The float interval of a span (`start` and `end`, both the sequence number) and
  the container's allocated capacity are left out.
-/
import MutsukiRuntime.Contracts.Runner

namespace MutsukiRuntime

/-! ## Records -/

inductive RuntimeEventKind where
  | lifecycle
  | plugin
  | resource
  | trace
  | host
  | task
  | runner
  | state
  | effect
  | reload
  deriving DecidableEq

structure RuntimeEvent where
  sequence : Nat
  kind : RuntimeEventKind
  name : String
  subjectId : Option String
  attributes : Attributes
  error : Option RuntimeError
  deriving DecidableEq

inductive SpanStatus where
  | ok
  | error
  deriving DecidableEq

structure TraceSpan where
  sequence : Nat
  traceId : TraceId
  spanId : String
  parentSpanId : Option String
  name : String
  attributes : Attributes
  status : SpanStatus
  deriving DecidableEq

/-! ## The bounded log -/

structure BoundedLog (α : Type) where
  records : List α := []
  nextSequence : Nat := 0
  profile : ObservabilityOutletProfile
  dropped : Nat := 0
  deriving DecidableEq

namespace BoundedLog

variable {α : Type}

def new (profile : ObservabilityOutletProfile) : BoundedLog α := { profile }

def isEnabled (log : BoundedLog α) : Bool :=
  decide (0 < log.profile.capacity)

def willRetainNext (log : BoundedLog α) : Bool :=
  log.isEnabled && (decide (log.records.length < log.profile.capacity) ||
    log.profile.overflowPolicy == .dropOldest)

/-- One iteration of the `while` loop of `configure`. -/
def shedOne (log : BoundedLog α) : BoundedLog α :=
  { log with
    records := match log.profile.overflowPolicy with
      | .dropOldest => log.records.tail
      | .dropNew => log.records.dropLast
    dropped := satAdd log.dropped 1 }

def configure (log : BoundedLog α) (profile : ObservabilityOutletProfile) : BoundedLog α :=
  let log := { log with profile }
  shedOne^[log.records.length - profile.capacity] log

def setCapacity (log : BoundedLog α) (capacity : Nat) : BoundedLog α :=
  log.configure { log.profile with capacity }

/-- `retain`, reached only when `willRetainNext` holds. -/
def retain (log : BoundedLog α) (record : α) : BoundedLog α :=
  if log.records.length = log.profile.capacity then
    { log with
      records := log.records.tail ++ [record]
      dropped := satAdd log.dropped 1 }
  else { log with records := log.records ++ [record] }

/-- `record_with`: the new log and the record, if it was kept. -/
def recordWith (log : BoundedLog α) (build : Nat → α) : BoundedLog α × Option α :=
  let log := { log with nextSequence := satAdd log.nextSequence 1 }
  if log.willRetainNext then
    let record := build log.nextSequence
    (log.retain record, some record)
  else ({ log with dropped := satAdd log.dropped 1 }, none)

end BoundedLog

structure ObservabilityPage (α : Type) where
  items : List α
  nextSequence : Nat
  earliestAvailableSequence : Option Nat
  latestSequence : Nat
  lost : Nat
  truncated : Bool
  dropped : Nat
  deriving DecidableEq

/-- `page_after`. -/
def BoundedLog.pageAfter {α : Type} (log : BoundedLog α) (sequence limit : Nat)
    (itemSequence : α → Nat) : ObservabilityPage α :=
  let items := (log.records.filter fun item => itemSequence item > sequence).take limit
  let nextSequence :=
    if limit = 0 then sequence
    else (items.getLast?.map itemSequence).getD (max sequence log.nextSequence)
  { items
    nextSequence
    earliestAvailableSequence := log.records.head?.map itemSequence
    latestSequence := log.nextSequence
    lost := if limit = 0 then 0 else nextSequence - sequence - items.length
    truncated := log.nextSequence > nextSequence
    dropped := log.dropped }

/-! ## The two logs -/

abbrev EventLog := BoundedLog RuntimeEvent

abbrev TraceLog := BoundedLog TraceSpan

/-- `EventLog::record`; the callers of the core drop the returned event. -/
def EventLog.record (log : EventLog) (kind : RuntimeEventKind) (name : String)
    (subjectId : Option String) (attributes : Attributes) (error : Option RuntimeError) :
    EventLog :=
  (log.recordWith fun sequence => { sequence, kind, name, subjectId, attributes, error }).1

/-- `TraceLog::record`. -/
def TraceLog.record (log : TraceLog) (traceId : TraceId) (name : String)
    (parentSpanId : Option String) (status : SpanStatus) (attributes : Attributes) :
    TraceLog × Option TraceSpan :=
  log.recordWith fun sequence =>
    { sequence, traceId, spanId := s!"span-{sequence}", parentSpanId, name, attributes, status }

/-- `EventLog::page_after`. -/
def EventLog.pageAfter (log : EventLog) (sequence limit : Nat) :
    ObservabilityPage RuntimeEvent :=
  BoundedLog.pageAfter log sequence limit (·.sequence)

/-- `TraceLog::page_after`. -/
def TraceLog.pageAfter (log : TraceLog) (sequence limit : Nat) : ObservabilityPage TraceSpan :=
  BoundedLog.pageAfter log sequence limit (·.sequence)

example :
    let log : BoundedLog Nat := { profile := { capacity := 2, overflowPolicy := .dropOldest } }
    let log := ((log.recordWith id).1.recordWith id).1
    ((log.recordWith id).1.records, (log.recordWith id).1.dropped) = ([2, 3], 1) := by decide

end MutsukiRuntime
