/-
  REQUEST MULTIPLEXER (`mutsuki-runtime-host/src/multiplexer.rs`, `multiplexer/pending.rs`,
  `multiplexer/threads.rs`): many callers share one connection.  A caller puts its reply
  channel into the pending table, queues its frame for the writer thread and waits; the
  reader thread takes the channel of the id that a response carries and answers on it.

  The model is a step function over one state.  Each step is what one thread does between
  two points where another may run: a section under the lock of the table, one operation on
  a channel, one read or write.  An event says which thread goes on, and carries what comes
  from outside: a caller's request, a frame read, the outcome of a write, the text of a
  time-out.

  A time-out is possible exactly while the awaited channel has nothing to give.  `close` may
  come at any time; in the source it takes the last handle, so no call is then under way.
  No thread panics while it holds a lock, so locks are never poisoned.  `sent` is a ghost:
  every use of a reply channel, in order.
-/
import MutsukiRuntime.Contracts.Value
import MutsukiRuntime.Lib.Interleaving
import MutsukiRuntime.Wire.Protocol

namespace MutsukiRuntime

open BigEndian

def transportError (message : String) : RuntimeError :=
  (runtimeError errRuntimeHostFailed "wire_multiplexer" "wire.transport").withEvidence "reason"
    (.string message)

/-- The reply channel of a call of `request`, by the number of the call. -/
abbrev Channel := Nat

/-! ## The pending table -/

structure PendingRequest where
  management : Bool
  sender : Channel
  deriving DecidableEq

structure PendingState where
  requests : Std.ExtTreeMap UInt64 PendingRequest := ∅
  failure : Option RuntimeError := none
  closed : Bool := false

namespace PendingState

/-- The pending requests that are not management requests. -/
def workInFlight (state : PendingState) : Nat :=
  state.requests.toList.countP fun entry => !entry.2.management

def insert (requestId : UInt64) (management : Bool) (sender : Channel) (limits : WireLimits)
    (state : PendingState) : RuntimeResult PendingState :=
  match state.failure with
  | some error => .error error
  | none =>
    if state.closed then .error (transportError "transport is closed")
    else if state.requests.size ≥ limits.maxInFlightRequests then
      .error (transportError "pending request limit reached")
    else if !management &&
        decide (state.workInFlight ≥
          limits.maxInFlightRequests - limits.managementReservedRequests) then
      .error (transportError "work pending capacity is exhausted")
    else if state.requests.contains requestId then
      .error (transportError "duplicate request id")
    else
      .ok { state with requests := state.requests.insert requestId { management, sender } }

def remove (requestId : UInt64) (state : PendingState) : PendingState :=
  { state with requests := state.requests.erase requestId }

/-- `take`: the sender of the id, which leaves the table. -/
def take (requestId : UInt64) (state : PendingState) : Option Channel × PendingState :=
  (state.requests[requestId]?.map (·.sender), state.remove requestId)

/-- The loop condition of `wait_until_ready_or_closed`. -/
def waits (state : PendingState) : Bool :=
  state.requests.isEmpty && !state.closed && state.failure.isNone

/-- The locked part of `fail`: the first failure stays, and every sender leaves the table. -/
def fail (error : RuntimeError) (state : PendingState) : List Channel × PendingState :=
  (state.requests.toList.map (·.2.sender),
    { state with requests := ∅, failure := state.failure.or (some error) })

def close (state : PendingState) : PendingState := { state with closed := true }

end PendingState

/-! ## Threads -/

/-- A thread inside `PendingShared::fail`: before the lock, or with senders left to answer. -/
inductive FailAt where
  | entered (error : RuntimeError)
  | sending (error : RuntimeError) (senders : List Channel)
  deriving DecidableEq

def FailAt.error : FailAt → RuntimeError
  | entered error => error
  | sending error _ => error

/-- Where a call of `request` is. -/
inductive CallAt where
  | entered
  | limited (limits : WireLimits)
  | inserted
  | removing (failure : RuntimeError)
  | queued
  | written
  | failing (fail : FailAt)
  | returned (result : RuntimeResult Bytes)
  deriving DecidableEq

/-- A call of `request` with what its two channels hold. -/
structure RequestCall where
  requestId : UInt64
  management : Bool
  frame : Bytes
  phase : CallAt := .entered
  written : Option (RuntimeResult Unit) := none
  response : Option (RuntimeResult Bytes) := none

/-- The receivers of a call are dropped when it returns. -/
def RequestCall.listens (call : RequestCall) : Bool :=
  match call.phase with
  | .returned _ => false
  | _ => true

/-- The queue of the writer that a call uses. -/
inductive Lane where
  | management
  | work
  deriving DecidableEq

def RequestCall.lane (call : RequestCall) : Lane :=
  if call.management then .management else .work

/-- `reader_loop`. -/
inductive ReaderAt where
  | waiting
  | reading
  | received (frame : Bytes)
  | delivering (sender : Channel) (frame : Bytes)
  | failing (fail : FailAt)
  | returned

/-- A command for the writer; `written` is the call that hears of it. -/
structure WriteCommand where
  frame : Bytes
  written : Channel

/-- One of the two bounded queues to the writer; `connected` while its sender is kept. -/
structure WriteQueue where
  capacity : Nat
  commands : List WriteCommand := []
  connected : Bool := true

/-- The local variables of `writer_loop`. -/
structure WriterLoop where
  managementOpen : Bool := true
  workOpen : Bool := true
  preferManagement : Bool := true

/-- Which of its receives the loop of the writer comes to next. -/
inductive Poll where
  | preferred
  | work
  | management
  | select

/-- `writer_loop` and `write_command`. -/
inductive WriterAt where
  | polling (turn : WriterLoop) (poll : Poll)
  | writing (turn : WriterLoop) (command : WriteCommand)
  | failing (fail : FailAt) (command : WriteCommand)
  | acknowledging (turn : WriterLoop) (command : WriteCommand) (result : RuntimeResult Unit)
  | returned

structure RequestMultiplexer where
  pending : PendingState := {}
  limits : WireLimits
  managementQueue : WriteQueue
  workQueue : WriteQueue
  calls : List RequestCall := []
  reader : ReaderAt := .waiting
  writer : WriterAt := .polling {} .preferred
  /-- Threads inside `RequestMultiplexer::fail`, by the order in which they called it. -/
  fails : List (Option FailAt) := []
  sent : List (Channel × RuntimeResult Bytes) := []

/-- What a thread waiting with a time-out gets: what it waits for, or the text of the error. -/
inductive Waited where
  | ready
  | timeout (text : String)

inductive MuxEvent where
  | request (requestId : UInt64) (management : Bool) (frame : Bytes)
  | call (channel : Channel) (waited : Waited)
  | reader
  | read (result : RuntimeResult (Option Bytes))
  | writer
  | select (lane : Lane)
  | wrote (error : Option String)
  | fail (error : RuntimeError)
  | failing (index : Nat)
  | setLimits (limits : WireLimits)
  | close
  | hangUp (lane : Lane)

namespace RequestMultiplexer

/-- `RequestMultiplexer::new`. -/
def new (limits : WireLimits) : RequestMultiplexer where
  limits := limits
  managementQueue := { capacity := max limits.managementReservedRequests 1 }
  workQueue :=
    { capacity := max (limits.maxInFlightRequests - limits.managementReservedRequests) 1 }

def queue (mux : RequestMultiplexer) : Lane → WriteQueue
  | .management => mux.managementQueue
  | .work => mux.workQueue

def setQueue (mux : RequestMultiplexer) (lane : Lane) (queue : WriteQueue) :
    RequestMultiplexer :=
  match lane with
  | .management => { mux with managementQueue := queue }
  | .work => { mux with workQueue := queue }

def setCall (mux : RequestMultiplexer) (channel : Channel) (call : RequestCall) :
    RequestMultiplexer :=
  { mux with calls := mux.calls.set channel call }

/-- The call goes on to another phase. -/
def goOn (mux : RequestMultiplexer) (channel : Channel) (call : RequestCall) (phase : CallAt) :
    RequestMultiplexer :=
  mux.setCall channel { call with phase }

/-- `sender.send(result)` on a reply channel of one place: it waits while the place is taken, and
    the value is lost when the call has returned. -/
def send (channel : Channel) (result : RuntimeResult Bytes) (mux : RequestMultiplexer) :
    Option RequestMultiplexer :=
  match mux.calls[channel]? with
  | none => none
  | some call =>
    let told := { mux with sent := mux.sent ++ [(channel, result)] }
    if !call.listens then some told
    else if call.response.isNone then
      some (told.setCall channel { call with response := some result })
    else none

/-- The next step inside `PendingShared::fail`; no `FailAt` when it returns. -/
def failStep (mux : RequestMultiplexer) : FailAt → Option (Option FailAt × RequestMultiplexer)
  | .entered error =>
    let (senders, pending) := mux.pending.fail error
    some (some (.sending error senders), { mux with pending })
  | .sending _ [] => some (none, mux)
  | .sending error (sender :: senders) =>
    (mux.send sender (.error error)).map fun sent => (some (.sending error senders), sent)

/-! ### Callers -/

def writerGone (mux : RequestMultiplexer) : Bool :=
  match mux.writer with
  | .returned => true
  | _ => false

/-- `queue.send_timeout`. -/
def enqueueCommand (channel : Channel) (call : RequestCall) (waited : Waited)
    (mux : RequestMultiplexer) : Option RequestMultiplexer :=
  let queue := mux.queue call.lane
  let room := decide (queue.commands.length < queue.capacity) && !mux.writerGone
  match queue.connected, waited with
  | false, .ready =>
    some (mux.goOn channel call (.returned (.error (transportError "writer queue is closed"))))
  | true, .ready =>
    if room then
      let command : WriteCommand := { frame := call.frame, written := channel }
      some ((mux.setQueue call.lane { queue with commands := queue.commands ++ [command] }).goOn
        channel call .queued)
    else none
  | true, .timeout text =>
    if !room then
      some (mux.goOn channel call
        (.removing (transportError ("writer queue backpressure or disconnect: " ++ text))))
    else none
  | false, .timeout _ => none

/-- One step of `request`. -/
def callStep (channel : Channel) (call : RequestCall) (waited : Waited) (mux : RequestMultiplexer) :
    Option RequestMultiplexer :=
  match call.phase, waited with
  | .entered, .ready => some (mux.goOn channel call (.limited mux.limits))
  | .limited limits, .ready =>
    match mux.pending.insert call.requestId call.management channel limits with
    | .ok pending =>
      some ({ mux with pending }.goOn channel call .inserted)
    | .error failure =>
      some (mux.goOn channel call (.returned (.error failure)))
  | .inserted, waited => mux.enqueueCommand channel call waited
  | .removing failure, .ready =>
    some ({ mux with pending := mux.pending.remove call.requestId }.goOn channel call
      (.returned (.error failure)))
  | .queued, waited =>
    match call.written, waited with
    | some (.ok ()), .ready => some (mux.goOn channel call .written)
    | some (.error failure), .ready =>
      some (mux.goOn channel call (.returned (.error failure)))
    | none, .timeout text =>
      some (mux.goOn channel call
        (.failing (.entered (transportError ("writer completion timeout: " ++ text)))))
    | _, _ => none
  | .written, waited =>
    match call.response, waited with
    | some response, .ready =>
      some (mux.goOn channel call (.returned response))
    | none, .timeout text =>
      some (mux.goOn channel call
        (.failing (.entered (transportError ("response timeout or disconnect: " ++ text)))))
    | _, _ => none
  | .failing fail, .ready =>
    match mux.failStep fail with
    | none => none
    | some (next, after) =>
      -- the reply may have gone to this very call, so its record is read again
      (after.calls[channel]?).map fun call =>
        match next with
        | some fail => after.goOn channel call (.failing fail)
        | none => after.goOn channel call (.returned (.error fail.error))
  | _, _ => none

/-- A thread calls `request`: it makes its reply channel. -/
def request (requestId : UInt64) (management : Bool) (frame : Bytes)
    (mux : RequestMultiplexer) : RequestMultiplexer :=
  { mux with calls := mux.calls ++ [{ requestId, management, frame }] }

/-! ### The reader -/

section Reader

variable (responseId : Bytes → RuntimeResult UInt64)

/-- What the reader does with what `read_frame` returned. -/
def readerGot : RuntimeResult (Option Bytes) → ReaderAt
  | .ok (some frame) => .received frame
  | .ok none => .failing (.entered (transportError "unexpected EOF"))
  | .error error => .failing (.entered error)

/-- `shared.take(request_id)` for the id that the frame carries. -/
def readerTake (frame : Bytes) (requestId : UInt64) (mux : RequestMultiplexer) :
    RequestMultiplexer :=
  match mux.pending.take requestId with
  | (some sender, pending) => { mux with pending, reader := .delivering sender frame }
  | (none, pending) =>
    { mux with
      pending
      reader := .failing (.entered (transportError "unknown, duplicate or late response id")) }

/-- One step of `reader_loop`, reading apart. -/
def readerStep (mux : RequestMultiplexer) : Option RequestMultiplexer :=
  match mux.reader with
  | .waiting =>
    if mux.pending.waits then none
    else if !mux.pending.closed && mux.pending.failure.isNone then
      some { mux with reader := .reading }
    else some { mux with reader := .returned }
  | .reading => none
  | .received frame =>
    match responseId frame with
    | .ok requestId =>
      if requestId ≠ 0 then some (mux.readerTake frame requestId)
      else some { mux with reader := .failing (.entered (transportError "zero response id")) }
    | .error error => some { mux with reader := .failing (.entered error) }
  | .delivering sender frame =>
    (mux.send sender (.ok frame)).map fun sent => { sent with reader := .waiting }
  | .failing fail =>
    (mux.failStep fail).map fun step =>
      match step.1 with
      | some fail => { step.2 with reader := .failing fail }
      | none => { step.2 with reader := .returned }
  | .returned => none

end Reader

/-! ### The writer -/

end RequestMultiplexer

namespace WriterLoop

def isOpen (turn : WriterLoop) : Lane → Bool
  | .management => turn.managementOpen
  | .work => turn.workOpen

def shut (turn : WriterLoop) : Lane → WriterLoop
  | .management => { turn with managementOpen := false }
  | .work => { turn with workOpen := false }

/-- The lane just served is the one not preferred in the next turn. -/
def served (turn : WriterLoop) (lane : Lane) : WriterLoop :=
  { turn with preferManagement := decide (lane = .work) }

end WriterLoop

namespace RequestMultiplexer

/-- `try_recv` on a lane: write what it gives, else go on to the next receive, with the lane shut
    when its sender is gone. -/
def tryRecv (lane : Lane) (turn : WriterLoop) (next : Poll) (mux : RequestMultiplexer) :
    RequestMultiplexer :=
  let queue := mux.queue lane
  match queue.commands with
  | command :: commands =>
    { mux.setQueue lane { queue with commands } with
      writer := .writing (turn.served lane) command }
  | [] =>
    { mux with writer := .polling (if queue.connected then turn else turn.shut lane) next }

/-- After a failed write the writer returns. -/
def afterWrite (turn : WriterLoop) : RuntimeResult Unit → WriterAt
  | .ok () => .polling turn .preferred
  | .error _ => .returned

/-- `command.written.send(result)`. -/
def acknowledge (turn : WriterLoop) (command : WriteCommand) (result : RuntimeResult Unit)
    (mux : RequestMultiplexer) : Option RequestMultiplexer :=
  match mux.calls[command.written]? with
  | none => none
  | some call =>
    let told := { mux with writer := afterWrite turn result }
    if !call.listens then some told
    else if call.written.isNone then
      some (told.setCall command.written { call with written := some result })
    else none

/-- One step of `writer_loop`, the choice of `select!` and the write itself apart. -/
def writerStep (mux : RequestMultiplexer) : Option RequestMultiplexer :=
  match mux.writer with
  | .polling turn .preferred =>
    if !turn.managementOpen && !turn.workOpen then some { mux with writer := .returned }
    else if turn.managementOpen && turn.preferManagement then
      some (mux.tryRecv .management turn .work)
    else some { mux with writer := .polling turn .work }
  | .polling turn .work =>
    if turn.workOpen then some (mux.tryRecv .work turn .management)
    else some { mux with writer := .polling turn .management }
  | .polling turn .management =>
    if turn.managementOpen then some (mux.tryRecv .management turn .select)
    else some { mux with writer := .polling turn .select }
  | .polling turn .select =>
    if !turn.managementOpen && !turn.workOpen then
      some { mux with writer := .polling turn .preferred }
    else none
  | .writing _ _ => none
  | .failing fail command =>
    (mux.failStep fail).map fun step =>
      match step.1 with
      | some fail => { step.2 with writer := .failing fail command }
      | none =>
        { step.2 with writer := .acknowledging {} command (.error fail.error) }
  | .acknowledging turn command result => mux.acknowledge turn command result
  | .returned => none

/-- A blocking receive: `select!` over the open lanes, or `recv` on the one that is open. -/
def selectStep (lane : Lane) (mux : RequestMultiplexer) : Option RequestMultiplexer :=
  match mux.writer with
  | .polling turn .select =>
    let queue := mux.queue lane
    if turn.isOpen lane && (!queue.commands.isEmpty || !queue.connected) then
      some (mux.tryRecv lane turn .preferred)
    else none
  | _ => none

/-- `write_command` after `write_all` and `flush`. -/
def writerWrote (error : Option String) (mux : RequestMultiplexer) :
    Option RequestMultiplexer :=
  match mux.writer, error with
  | .writing turn command, none =>
    some { mux with writer := .acknowledging turn command (.ok ()) }
  | .writing _ command, some text =>
    some { mux with
      writer := .failing (.entered (transportError ("writer failure: " ++ text))) command }
  | _, _ => none

/-! ### All threads -/

def step (responseId : Bytes → RuntimeResult UInt64) (mux : RequestMultiplexer) :
    MuxEvent → Option RequestMultiplexer
  | .request requestId management frame => some (mux.request requestId management frame)
  | .call channel waited =>
    match mux.calls[channel]? with
    | some call => mux.callStep channel call waited
    | none => none
  | .reader => mux.readerStep responseId
  | .read result =>
    match mux.reader with
    | .reading => some { mux with reader := readerGot result }
    | _ => none
  | .writer => mux.writerStep
  | .select lane => mux.selectStep lane
  | .wrote error => mux.writerWrote error
  | .fail error => some { mux with fails := mux.fails ++ [some (.entered error)] }
  | .failing index =>
    match mux.fails[index]? with
    | some (some fail) =>
      (mux.failStep fail).map fun step =>
        { step.2 with fails := step.2.fails.set index step.1 }
    | _ => none
  | .setLimits limits =>
    match limits.validate with
    | .ok () => some { mux with limits }
    | .error _ => some mux
  | .close => some { mux with pending := mux.pending.close }
  | .hangUp lane =>
    if mux.pending.closed then
      some (mux.setQueue lane { mux.queue lane with connected := false })
    else none

/-- The states of a multiplexer with these limits, over every interleaving. -/
def Reachable (responseId : Bytes → RuntimeResult UInt64) (limits : WireLimits)
    (mux : RequestMultiplexer) : Prop :=
  ∃ events, Interleaving.run (step responseId) (new limits) events = some mux

end RequestMultiplexer

end MutsukiRuntime
