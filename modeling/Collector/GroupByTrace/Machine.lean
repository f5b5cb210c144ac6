import Collector.GroupByTrace.SplitByTrace
import Collector.GroupByTrace.Storage
import Collector.Lib.Run

/-!
# The group-by-trace processor

`processor/groupbytraceprocessor/processor.go` and `event.go`. One goroutine takes the events from a
channel and handles them one after the other; the callers of `ConsumeTraces`, the timers and the
`markAsReleased` goroutines fire events into it. All of them take their steps in any order, and a
timer may fire at any time.

A call of `fire` holds the read side of `shutdownLock` until the channel has taken its last event;
`fires` has the events that such calls have still to send. The event goroutine is inside a handler
at the points where another goroutine can come between: before each resource, each batch and each
write to the storage. A lock that is not free, or a channel without room, is a step that cannot be
taken.
-/

namespace Collector.GroupByTrace

open Lib Pdata.Scoped

variable {R L X K : Type} [DecidableEq K]

inductive Event (R L X K : Type) where
  | traceReceived (td : Traces R L X)
  | traceExpired (traceID : K)
  | traceReleased (rss : List (ResourceSpans R L X))
  | traceRemoved (traceID : K)
  | stop

/-- What `onTraceReceived` has still to do: the batches of the resource it is at, and the resources
after it. -/
structure Work (R L X K : Type) where
  batches : List (SingleTraceBatch R L X K)
  resources : Traces R L X

/-- Where the event goroutine stands. -/
inductive Phase (R L X K : Type) where
  | idle
  | receiving (work : Work R L X K)
  /-- `processBatch` fires `traceRemoved` for the id that was evicted. -/
  | evicting (evicted : K) (batch : SingleTraceBatch R L X K) (work : Work R L X K)
  /-- `addSpans` waits for the storage; a new trace is scheduled after that. -/
  | storing (batch : SingleTraceBatch R L X K) (new : Bool) (work : Work R L X K)
  /-- `onTraceRemoved` waits for the storage. -/
  | removing (traceID : K)
  /-- The handler of `stop` waits for `shutdownLock`. -/
  | stopping
  | stopped

/-- Where a call of `markAsReleased` stands. -/
inductive Releasing (R L X K : Type) where
  | reading (traceID : K)
  /-- The storage was read, and the two events are to be fired. -/
  | read (traceID : K) (trace : List (ResourceSpans R L X))

structure State (R L X K : Type) where
  ringBuffer : RingBuffer K
  st : MemoryStorage K (ResourceSpans R L X) := {}
  /-- The channel of the event machine. -/
  events : List (Event R L X K) := []
  fires : List (List (Event R L X K)) := []
  /-- The timers that `processBatch` has started. -/
  timers : List K := []
  releasing : List (Releasing R L X K) := []
  phase : Phase R L X K := .idle
  closed : Bool := false
  /-- What `onTraceReceived` was called with. -/
  received : List (Traces R L X) := []
  /-- The traces that were passed to the next consumer. -/
  forwarded : List (List (ResourceSpans R L X)) := []
  panic : Option Panic := none

/-- `NumTraces` and the buffer size of the event machine, which is 200. -/
structure Config where
  numTraces : Nat
  bufferSize : Nat := 200

def State.init (cfg : Config) : State R L X K := { ringBuffer := .newRingBuffer cfg.numTraces }

namespace State

/-- `fire`: waits while the handler of `stop` waits for the lock, and discards the events once the
machine is closed. -/
def fire (s : State R L X K) (events : List (Event R L X K)) : Option (State R L X K) :=
  match s.phase with
  | .stopping => none
  | _ => if s.closed then some s else some { s with fires := s.fires ++ [events] }

/-- The channel takes an event: it has room, or the event goroutine is waiting for one. -/
def hasRoom (cfg : Config) (s : State R L X K) : Bool :=
  s.events.length < cfg.bufferSize ||
    match s.phase, s.events with
    | .idle, [] => true
    | _, _ => false

/-- The event goroutine waits for a write lock of the storage. -/
def writerWaits (s : State R L X K) : Bool :=
  match s.phase with
  | .storing _ _ _ | .removing _ => 0 < s.st.readers
  | _ => false

def markAsReleased (s : State R L X K) (i : Nat) : Option (State R L X K) :=
  match s.releasing[i]? with
  | none => none
  | some (.reading id) =>
    if s.writerWaits then none
    else match s.st.get id with
      | (st, none) => some { s with st, releasing := s.releasing.eraseIdx i }
      | (st, some trace) => some { s with st, releasing := s.releasing.set i (.read id trace) }
  | some (.read id trace) =>
    { s with releasing := s.releasing.eraseIdx i }.fire [.traceReleased trace, .traceRemoved id]

/-- The loop of `start` takes an event. -/
def handle (s : State R L X K) : Event R L X K → State R L X K
  | .traceReceived td => { s with phase := .receiving ⟨[], td⟩, received := s.received ++ [td] }
  | .traceExpired id =>
    if s.ringBuffer.contains id then
      { s with
        ringBuffer := (s.ringBuffer.delete id).1
        releasing := s.releasing ++ [.reading id] }
    else s
  | .traceReleased rss => { s with forwarded := s.forwarded ++ [rss] }
  | .traceRemoved id => { s with phase := .removing id }
  | .stop => { s with phase := .stopping }

/-- `onTraceReceived` goes on: with the next batch, or the next resource. -/
def receive (traceID : X → Go (Option K)) (s : State R L X K) : Work R L X K → State R L X K
  | ⟨batch :: batches, resources⟩ =>
    if s.ringBuffer.contains batch.traceID then
      { s with phase := .storing batch false ⟨batches, resources⟩ }
    else match s.ringBuffer.put batch.traceID with
      | .error p => { s with panic := some p }
      | .ok (ringBuffer, none) =>
        { s with ringBuffer, phase := .storing batch true ⟨batches, resources⟩ }
      | .ok (ringBuffer, some evicted) =>
        { s with ringBuffer, phase := .evicting evicted batch ⟨batches, resources⟩ }
  | ⟨[], some rs :: resources⟩ =>
    match splitByTrace traceID rs with
    | .error c => { s with panic := some (.crash c) }
    | .ok batches => { s with phase := .receiving ⟨batches, resources⟩ }
  -- `errNilResourceSpans` is logged
  | ⟨[], none :: resources⟩ => { s with phase := .receiving ⟨[], resources⟩ }
  | ⟨[], []⟩ => { s with phase := .idle }

/-- `addSpans` has the lock of the storage. -/
def store (s : State R L X K) (batch : SingleTraceBatch R L X K) (new : Bool)
    (work : Work R L X K) : State R L X K :=
  match s.st.createOrAppend batch.traceID (some batch.rs) with
  -- the error is logged
  | .error _ => { s with phase := .receiving work }
  | .ok st => { s with
      st
      phase := .receiving work
      timers := if new then s.timers ++ [batch.traceID] else s.timers }

def run (cfg : Config) (traceID : X → Go (Option K)) (s : State R L X K) :
    Option (State R L X K) :=
  match s.phase with
  | .idle =>
    match s.events with
    | [] => none
    | e :: events => some ({ s with events }.handle e)
  | .receiving work => some (s.receive traceID work)
  | .evicting evicted batch work =>
    if s.hasRoom cfg then
      some { s with
        events := s.events ++ [.traceRemoved evicted]
        phase := .storing batch true work }
    else none
  | .storing batch new work => if s.st.readers = 0 then some (s.store batch new work) else none
  | .removing id =>
    if s.st.readers = 0 then some { s with st := (s.st.delete id).1, phase := .idle } else none
  | .stopping =>
    if s.fires.length = 0 then some { s with closed := true, phase := .stopped } else none
  | .stopped => none

end State

inductive Act (R L X : Type) where
  /-- A call of `ConsumeTraces` enters `fire`. -/
  | consume (td : Traces R L X)
  /-- A call of `fire` sends its next event. -/
  | send (i : Nat)
  /-- A timer fires. -/
  | expire (i : Nat)
  /-- A call of `markAsReleased` goes on. -/
  | release (i : Nat)
  /-- `Shutdown` sends `stop`. -/
  | shutdown
  /-- The event goroutine goes on. -/
  | run

def step (cfg : Config) (traceID : X → Go (Option K)) (s : State R L X K) (a : Act R L X) :
    Option (State R L X K) :=
  if s.panic ≠ none then none
  else match a with
    | .consume td => s.fire [.traceReceived td]
    | .send i =>
      match s.fires[i]? with
      | some (e :: events) =>
        if s.hasRoom cfg then
          some { s with
            events := s.events ++ [e]
            fires := if events.length = 0 then s.fires.eraseIdx i else s.fires.set i events }
        else none
      | _ => none
    | .expire i =>
      match s.timers[i]? with
      | none => none
      | some id => { s with timers := s.timers.eraseIdx i }.fire [.traceExpired id]
    | .release i => s.markAsReleased i
    | .shutdown =>
      if s.hasRoom cfg then some { s with events := s.events ++ [.stop] } else none
    | .run => s.run cfg traceID

end Collector.GroupByTrace
