import Collector.Go.Runtime
import Collector.TailSampling.Life

/-!
# The tail sampling processor

`processor.go`, `idbatcher/id_batcher.go` and `sampling/policy.go` of the tail sampling processor.
Calls of `processTraces` run at the same time as each other, as the goroutine of the batcher and
as the tick of the policies, which is one goroutine. All of them take their steps in any order.

A step is what a goroutine does between two points at which another one can matter: an operation on
`idToTrace` or on a channel, a write to the decisions, or a section under the lock of
a `TraceData`. The decisions are written without that lock. A call of the next consumer is put down
where the batches for it were read, since nothing that the goroutine does up to the call is seen
by another one. A channel without room, or without an element, is a step that cannot be
taken. What an evaluator returns is part of the act; `OnLateArrivingSpans` and `OnDroppedSpans`
do nothing to the state.

Stored traces are given by their addresses in `traces`. The number of a delivery tells it apart from
others with the same spans, and an entry of the batcher has the address of the trace it was queued
for; the processor reads neither.
-/

namespace Collector.TailSampling

open Lib

variable {N R X : Type}

abbrev TraceKey := List UInt8

/-- `consumerdata.TraceData`. -/
structure Batch (N R X : Type) where
  node : N
  resource : R
  spans : List X
  sourceFormat : String := ""

def prepareTraceBatch (spans : List X) (singleTrace : Bool) (td : Batch N R X) : Batch N R X :=
  if singleTrace then td else { node := td.node, resource := td.resource, spans }

/-- The spans of `processTraces` by their trace; those without a valid id are left out. -/
def idToSpans (traceId : X → TraceKey) (spans : List X) : GoMap TraceKey (List X) :=
  spans.foldl (fun m span =>
    if (traceId span).length ≠ 16 then m
    else m.insert (traceId span) ((m.lookup (traceId span)).getD [] ++ [span])) ∅

/-- The spans of one call for one trace, and the batch that is made of them. -/
structure Delivery (N R X : Type) where
  number : Nat
  address : Nat
  id : TraceKey
  spans : List X
  batch : Batch N R X

/-- `sampling.TraceData`. -/
structure TraceData (N R X : Type) where
  decisions : List Decision
  receivedBatches : List (Delivery N R X) := []

def TraceData.new (policies : Nat) : TraceData N R X :=
  { decisions := List.replicate policies .pending }

/-- An id in the batcher. -/
structure Entry where
  id : TraceKey
  address : Nat
  deriving DecidableEq, Repr

/-- Where a call of `processTraces` stands. -/
inductive Stage (N R X : Type) where
  /-- At the head of the loop over `idToSpans`. -/
  | choosing
  /-- In `AddToCurrentBatch`. -/
  | adding (d : Delivery N R X)
  /-- At the `select` on `deleteChan`. -/
  | posting (d : Delivery N R X)
  /-- In the default case, before the receive. -/
  | evicting (d : Delivery N R X)
  /-- In `dropTrace`, before the `Load`. -/
  | dropping (d : Delivery N R X) (key : TraceKey)
  /-- In `dropTrace`, before the `Delete`. -/
  | deleting (d : Delivery N R X) (key : TraceKey)
  /-- In the loop over the policies. -/
  | policies (d : Delivery N R X) (i : Nat)

structure Call (N R X : Type) where
  td : Batch N R X
  /-- What the loop over `idToSpans` has not visited. -/
  groups : List (TraceKey × List X)
  singleTrace : Bool
  stage : Stage N R X := .choosing

/-- Where `samplingPolicyOnTick` stands; each with the ids that are left of the batch. -/
inductive Phase where
  | idle
  | batch (ids : List Entry)
  /-- Before policy `i`, or, after the last one, before the batches are removed. -/
  | evaluating (a i : Nat) (ids : List Entry)
  /-- Policy `i` has decided to sample; the received batches are to be read. -/
  | reading (a i : Nat) (ids : List Entry)
  deriving DecidableEq, Repr

/-- The address is the one of the stored trace whose batches were read. -/
structure Forward (N R X : Type) where
  address : Nat
  policy : Nat
  delivery : Delivery N R X

structure State (N R X : Type) where
  traces : List (TraceData N R X) := []
  idToTrace : GoMap TraceKey Nat := ∅
  deleteChan : List TraceKey := []
  pendingIds : List Entry := []
  /-- What the goroutine of the batcher has received and not yet put into the batch. -/
  held : Option Entry := none
  currentBatch : List Entry := []
  batches : List (List Entry)
  calls : List (Call N R X) := []
  phase : Phase := .idle
  received : List (Delivery N R X) := []
  /-- What was passed to the next consumer. -/
  forwarded : List (Forward N R X) := []
  /-- The stored traces that the tick found, and the policies that evaluated them. -/
  visited : List Nat := []
  evaluated : List (Nat × Nat) := []

structure Config where
  policies : Nat
  /-- `NumTraces`. -/
  maxNumTraces : Nat
  numDecisionBatches : Nat
  batchChannelSize : Nat

/-- The pipe of the batcher starts with empty batches. -/
def State.init (cfg : Config) : State N R X :=
  { batches := List.replicate cfg.numDecisionBatches [] }

inductive Act (N R X : Type) where
  /-- A call of `processTraces` begins. -/
  | process (td : Batch N R X)
  /-- Call `c` goes on with the `j`-th of the groups that are left. -/
  | group (c j : Nat)
  /-- Call `c` goes on within a group. -/
  | run (c : Nat)
  /-- The goroutine of the batcher goes on. -/
  | collect
  /-- The ticker fires. -/
  | tick
  /-- A policy is evaluated, with an error or a decision. -/
  | evaluate (result : Option Decision)
  /-- The tick goes on otherwise. -/
  | next

namespace State

def setCall (s : State N R X) (c : Nat) (call : Call N R X) : State N R X :=
  { s with calls := s.calls.set c call }

def setTrace (s : State N R X) (a : Nat) (trace : TraceData N R X) : State N R X :=
  { s with traces := s.traces.set a trace }

/-- `processTraces` up to the loop over `idToSpans`. -/
def process (traceId : X → TraceKey) (s : State N R X) (td : Batch N R X) : State N R X :=
  let groups := (idToSpans traceId td.spans).pairs
  { s with calls := s.calls ++ [{ td, groups, singleTrace := groups.length = 1 }] }

/-- `LoadOrStore`. -/
def group (cfg : Config) (s : State N R X) (c j : Nat) : Option (State N R X) :=
  match s.calls[c]? with
  | some ⟨td, groups, singleTrace, .choosing⟩ =>
    match groups[j]? with
    | none => none
    | some (id, spans) =>
      let batch := prepareTraceBatch spans singleTrace td
      match s.idToTrace.lookup id with
      | some a =>
        let d := ⟨s.received.length, a, id, spans, batch⟩
        some { s.setCall c ⟨td, groups.eraseIdx j, singleTrace, .policies d 0⟩ with
          received := s.received ++ [d] }
      | none =>
        let a := s.traces.length
        let d := ⟨s.received.length, a, id, spans, batch⟩
        some { s.setCall c ⟨td, groups.eraseIdx j, singleTrace, .adding d⟩ with
          traces := s.traces ++ [.new cfg.policies]
          idToTrace := s.idToTrace.insert id a
          received := s.received ++ [d] }
  | _ => none

/-- Some call waits for an element of `deleteChan`. -/
def evictorWaits (s : State N R X) : Bool :=
  s.deleteChan = [] && s.calls.any fun call =>
    match call.stage with
    | .evicting _ => true
    | _ => false

def checkPolicy (s : State N R X) (c : Nat) (call : Call N R X) (d : Delivery N R X) (i : Nat) :
    Option (State N R X) :=
  match s.traces[d.address]? with
  | none => none
  | some trace =>
    match trace.decisions[i]? with
    | none => some (s.setCall c { call with stage := .choosing })
    | some .pending =>
      some ((s.setTrace d.address
        { trace with receivedBatches := trace.receivedBatches ++ [d] }).setCall c
          { call with stage := .choosing })
    | some .sampled =>
      some { s.setCall c { call with stage := .policies d (i + 1) } with
        forwarded := s.forwarded ++ [⟨d.address, i, d⟩] }
    | some _ => some (s.setCall c { call with stage := .policies d (i + 1) })

/-- Call `c` goes on within a group. -/
def run (cfg : Config) (s : State N R X) (c : Nat) : Option (State N R X) :=
  match s.calls[c]? with
  | none => none
  | some call =>
    match call.stage with
    | .choosing => none
    | .adding d =>
      if s.pendingIds.length < cfg.batchChannelSize then
        some { s.setCall c { call with stage := .posting d } with
          pendingIds := s.pendingIds ++ [⟨d.id, d.address⟩] }
      else none
    | .posting d =>
      if s.deleteChan.length < cfg.maxNumTraces ∨ s.evictorWaits then
        some { s.setCall c { call with stage := .policies d 0 } with
          deleteChan := s.deleteChan ++ [d.id] }
      else some (s.setCall c { call with stage := .evicting d })
    | .evicting d =>
      match s.deleteChan with
      | [] => none
      | key :: deleteChan =>
        some { s.setCall c { call with stage := .dropping d key } with deleteChan }
    | .dropping d key =>
      match s.idToTrace.lookup key with
      | none => some (s.setCall c { call with stage := .posting d })
      | some _ => some (s.setCall c { call with stage := .deleting d key })
    | .deleting d key =>
      some { s.setCall c { call with stage := .posting d } with
        idToTrace := s.idToTrace.erase key }
    | .policies d i => s.checkPolicy c call d i

def collect (s : State N R X) : Option (State N R X) :=
  match s.held, s.pendingIds with
  | some e, _ => some { s with held := none, currentBatch := s.currentBatch ++ [e] }
  | none, e :: pendingIds => some { s with held := some e, pendingIds }
  | none, [] => none

/-- `CloseCurrentAndTakeFirstBatch`. The ticker is the only one that takes batches. -/
def tick (s : State N R X) : Option (State N R X) :=
  match s.phase, s.batches with
  | .idle, first :: batches =>
    some { s with
      batches := batches ++ [s.currentBatch]
      currentBatch := []
      phase := .batch first }
  | _, _ => none

def evaluate (s : State N R X) (result : Option Decision) : Option (State N R X) :=
  match s.phase with
  | .evaluating a i ids =>
    match s.traces[a]? with
    | none => none
    | some trace =>
      if i < trace.decisions.length then
        let decision := result.getD .notSampled
        some { s.setTrace a { trace with decisions := trace.decisions.set i decision } with
          phase := if decision = .sampled then .reading a i ids else .evaluating a (i + 1) ids
          evaluated := s.evaluated ++ [(a, i)] }
      else none
  | _ => none

/-- The rest of `samplingPolicyOnTick`. -/
def next (s : State N R X) : Option (State N R X) :=
  match s.phase with
  | .idle => none
  | .batch [] => some { s with phase := .idle }
  | .batch (e :: ids) =>
    match s.idToTrace.lookup e.id with
    | none => some { s with phase := .batch ids }
    | some a => some { s with phase := .evaluating a 0 ids, visited := s.visited ++ [a] }
  | .evaluating a i ids =>
    match s.traces[a]? with
    | none => none
    | some trace =>
      if i = trace.decisions.length then
        some { s.setTrace a { trace with receivedBatches := [] } with phase := .batch ids }
      else none
  | .reading a i ids =>
    match s.traces[a]? with
    | none => none
    | some trace =>
      some { s with
        forwarded := s.forwarded ++ trace.receivedBatches.map fun d => ⟨a, i, d⟩
        phase := .evaluating a (i + 1) ids }

end State

def step (cfg : Config) (traceId : X → TraceKey) (s : State N R X) :
    Act N R X → Option (State N R X)
  | .process td => some (s.process traceId td)
  | .group c j => s.group cfg c j
  | .run c => s.run cfg c
  | .collect => s.collect
  | .tick => s.tick
  | .evaluate result => s.evaluate result
  | .next => s.next

/-! ## What a step can do -/

inductive Stepped (cfg : Config) (traceId : X → TraceKey) (s : State N R X) :
    Act N R X → State N R X → Prop where
  | process (td : Batch N R X) : Stepped cfg traceId s (.process td) (s.process traceId td)
  | load {c j a : Nat} {td : Batch N R X} {groups : List (TraceKey × List X)} {single : Bool}
    {id : TraceKey} {spans : List X} {d : Delivery N R X}
    (hc : s.calls[c]? = some ⟨td, groups, single, .choosing⟩) (hj : groups[j]? = some (id, spans))
    (hid : s.idToTrace.lookup id = some a)
    (hd : d = ⟨s.received.length, a, id, spans, prepareTraceBatch spans single td⟩) :
    Stepped cfg traceId s (.group c j)
      { s.setCall c ⟨td, groups.eraseIdx j, single, .policies d 0⟩ with
        received := s.received ++ [d] }
  | store {c j : Nat} {td : Batch N R X} {groups : List (TraceKey × List X)} {single : Bool}
    {id : TraceKey} {spans : List X} {d : Delivery N R X}
    (hc : s.calls[c]? = some ⟨td, groups, single, .choosing⟩) (hj : groups[j]? = some (id, spans))
    (hid : s.idToTrace.lookup id = none)
    (hd : d = ⟨s.received.length, s.traces.length, id, spans, prepareTraceBatch spans single td⟩) :
    Stepped cfg traceId s (.group c j)
      { s.setCall c ⟨td, groups.eraseIdx j, single, .adding d⟩ with
        traces := s.traces ++ [.new cfg.policies]
        idToTrace := s.idToTrace.insert id s.traces.length
        received := s.received ++ [d] }
  | add {c : Nat} {call : Call N R X} {d : Delivery N R X} (hc : s.calls[c]? = some call)
    (hs : call.stage = .adding d) :
    Stepped cfg traceId s (.run c)
      { s.setCall c { call with stage := .posting d } with
        pendingIds := s.pendingIds ++ [⟨d.id, d.address⟩] }
  | post {c : Nat} {call : Call N R X} {d : Delivery N R X} (hc : s.calls[c]? = some call)
    (hs : call.stage = .posting d) :
    Stepped cfg traceId s (.run c)
      { s.setCall c { call with stage := .policies d 0 } with
        deleteChan := s.deleteChan ++ [d.id] }
  | full {c : Nat} {call : Call N R X} {d : Delivery N R X} (hc : s.calls[c]? = some call)
    (hs : call.stage = .posting d) :
    Stepped cfg traceId s (.run c) (s.setCall c { call with stage := .evicting d })
  | evict {c : Nat} {call : Call N R X} {d : Delivery N R X} {key : TraceKey}
    {deleteChan : List TraceKey} (hc : s.calls[c]? = some call) (hs : call.stage = .evicting d)
    (hkey : s.deleteChan = key :: deleteChan) :
    Stepped cfg traceId s (.run c)
      { s.setCall c { call with stage := .dropping d key } with deleteChan }
  | missing {c : Nat} {call : Call N R X} {d : Delivery N R X} {key : TraceKey}
    (hc : s.calls[c]? = some call) (hs : call.stage = .dropping d key) :
    Stepped cfg traceId s (.run c) (s.setCall c { call with stage := .posting d })
  | drop {c : Nat} {call : Call N R X} {d : Delivery N R X} {key : TraceKey}
    (hc : s.calls[c]? = some call) (hs : call.stage = .dropping d key) :
    Stepped cfg traceId s (.run c) (s.setCall c { call with stage := .deleting d key })
  | delete {c : Nat} {call : Call N R X} {d : Delivery N R X} {key : TraceKey}
    (hc : s.calls[c]? = some call) (hs : call.stage = .deleting d key) :
    Stepped cfg traceId s (.run c)
      { s.setCall c { call with stage := .posting d } with idToTrace := s.idToTrace.erase key }
  | leave {c i : Nat} {call : Call N R X} {d : Delivery N R X} {trace : TraceData N R X}
    (hc : s.calls[c]? = some call) (hs : call.stage = .policies d i)
    (ht : s.traces[d.address]? = some trace) (hd : trace.decisions[i]? = none) :
    Stepped cfg traceId s (.run c) (s.setCall c { call with stage := .choosing })
  | append {c i : Nat} {call : Call N R X} {d : Delivery N R X} {trace : TraceData N R X}
    (hc : s.calls[c]? = some call) (hs : call.stage = .policies d i)
    (ht : s.traces[d.address]? = some trace) (hd : trace.decisions[i]? = some .pending) :
    Stepped cfg traceId s (.run c)
      ((s.setTrace d.address
        { trace with receivedBatches := trace.receivedBatches ++ [d] }).setCall c
          { call with stage := .choosing })
  | late {c i : Nat} {call : Call N R X} {d : Delivery N R X} {trace : TraceData N R X}
    (hc : s.calls[c]? = some call) (hs : call.stage = .policies d i)
    (ht : s.traces[d.address]? = some trace) (hd : trace.decisions[i]? = some .sampled) :
    Stepped cfg traceId s (.run c)
      { s.setCall c { call with stage := .policies d (i + 1) } with
        forwarded := s.forwarded ++ [⟨d.address, i, d⟩] }
  | skip {c i : Nat} {call : Call N R X} {d : Delivery N R X} {trace : TraceData N R X}
    {decision : Decision} (hc : s.calls[c]? = some call) (hs : call.stage = .policies d i)
    (ht : s.traces[d.address]? = some trace) (hd : trace.decisions[i]? = some decision)
    (hp : decision ≠ .pending) (hn : decision ≠ .sampled) :
    Stepped cfg traceId s (.run c) (s.setCall c { call with stage := .policies d (i + 1) })
  | receive {e : Entry} {pendingIds : List Entry} (hh : s.held = none)
    (hp : s.pendingIds = e :: pendingIds) :
    Stepped cfg traceId s .collect { s with held := some e, pendingIds }
  | collect {e : Entry} (hh : s.held = some e) :
    Stepped cfg traceId s .collect
      { s with held := none, currentBatch := s.currentBatch ++ [e] }
  | tick {first : List Entry} {batches : List (List Entry)} (hp : s.phase = .idle)
    (hb : s.batches = first :: batches) :
    Stepped cfg traceId s .tick
      { s with
        batches := batches ++ [s.currentBatch]
        currentBatch := []
        phase := .batch first }
  | done (hp : s.phase = .batch []) : Stepped cfg traceId s .next { s with phase := .idle }
  | gone {e : Entry} {ids : List Entry} (hp : s.phase = .batch (e :: ids))
    (he : s.idToTrace.lookup e.id = none) :
    Stepped cfg traceId s .next { s with phase := .batch ids }
  | found {e : Entry} {ids : List Entry} {a : Nat} (hp : s.phase = .batch (e :: ids))
    (he : s.idToTrace.lookup e.id = some a) :
    Stepped cfg traceId s .next
      { s with phase := .evaluating a 0 ids, visited := s.visited ++ [a] }
  | decide {a i : Nat} {ids : List Entry} {trace : TraceData N R X} {result : Option Decision}
    {decision : Decision} (hp : s.phase = .evaluating a i ids) (ht : s.traces[a]? = some trace)
    (hi : i < trace.decisions.length) (hd : decision = result.getD .notSampled) :
    Stepped cfg traceId s (.evaluate result)
      { s.setTrace a { trace with decisions := trace.decisions.set i decision } with
        phase := if decision = .sampled then .reading a i ids else .evaluating a (i + 1) ids
        evaluated := s.evaluated ++ [(a, i)] }
  | clear {a i : Nat} {ids : List Entry} {trace : TraceData N R X}
    (hp : s.phase = .evaluating a i ids) (ht : s.traces[a]? = some trace)
    (hi : i = trace.decisions.length) :
    Stepped cfg traceId s .next
      { s.setTrace a { trace with receivedBatches := [] } with phase := .batch ids }
  | read {a i : Nat} {ids : List Entry} {trace : TraceData N R X}
    (hp : s.phase = .reading a i ids) (ht : s.traces[a]? = some trace) :
    Stepped cfg traceId s .next
      { s with
        forwarded := s.forwarded ++ trace.receivedBatches.map fun d => ⟨a, i, d⟩
        phase := .evaluating a (i + 1) ids }

section Inversion

variable {cfg : Config} {traceId : X → TraceKey} {s s' : State N R X}

theorem stepped_of_group {c j : Nat} (h : s.group cfg c j = some s') :
    Stepped cfg traceId s (.group c j) s' := by
  unfold State.group at h
  split at h
  case h_2 => cases h
  case h_1 td groups single hc =>
    split at h
    case h_1 => cases h
    case h_2 id spans hj =>
      dsimp only at h
      split at h <;> cases h
      case h_1 a hid => exact .load hc hj hid rfl
      case h_2 hid => exact .store hc hj hid rfl

theorem stepped_of_checkPolicy {c i : Nat} {call : Call N R X} {d : Delivery N R X}
    (hc : s.calls[c]? = some call) (hs : call.stage = .policies d i)
    (h : s.checkPolicy c call d i = some s') : Stepped cfg traceId s (.run c) s' := by
  unfold State.checkPolicy at h
  split at h
  case h_1 => cases h
  case h_2 trace ht =>
    split at h <;> cases h
    case h_1 hd => exact .leave hc hs ht hd
    case h_2 hd => exact .append hc hs ht hd
    case h_3 hd => exact .late hc hs ht hd
    case h_4 decision hp hn hd => exact .skip hc hs ht hd hp hn

theorem stepped_of_run {c : Nat} (h : s.run cfg c = some s') :
    Stepped cfg traceId s (.run c) s' := by
  unfold State.run at h
  split at h
  case h_1 => cases h
  case h_2 call hc =>
    split at h
    case h_1 => cases h
    case h_2 d hs =>
      obtain ⟨-, h⟩ := Option.ite_none_right_eq_some.1 h
      cases h
      exact .add hc hs
    case h_3 d hs =>
      split at h <;> cases h
      · exact .post hc hs
      · exact .full hc hs
    case h_4 d hs =>
      split at h <;> cases h
      exact .evict hc hs ‹_›
    case h_5 d key hs =>
      split at h <;> cases h
      · exact .missing hc hs
      · exact .drop hc hs
    case h_6 d key hs =>
      cases h
      exact .delete hc hs
    case h_7 d i hs => exact stepped_of_checkPolicy hc hs h

theorem stepped_of_collect (h : s.collect = some s') : Stepped cfg traceId s .collect s' := by
  unfold State.collect at h
  split at h <;> cases h
  case h_1 e hh => exact .collect hh
  case h_2 e pendingIds hh hp => exact .receive hh hp

theorem stepped_of_tick (h : s.tick = some s') : Stepped cfg traceId s .tick s' := by
  unfold State.tick at h
  split at h <;> cases h
  case h_1 first batches hp hb => exact .tick hp hb

theorem stepped_of_evaluate {result : Option Decision} (h : s.evaluate result = some s') :
    Stepped cfg traceId s (.evaluate result) s' := by
  unfold State.evaluate at h
  split at h
  case h_2 => cases h
  case h_1 a i ids hp =>
    split at h
    case h_1 => cases h
    case h_2 trace ht =>
      obtain ⟨hi, h⟩ := Option.ite_none_right_eq_some.1 h
      cases h
      exact .decide hp ht hi rfl

theorem stepped_of_next (h : s.next = some s') : Stepped cfg traceId s .next s' := by
  unfold State.next at h
  split at h
  case h_1 => cases h
  case h_2 hp =>
    cases h
    exact .done hp
  case h_3 e ids hp =>
    split at h <;> cases h
    case h_1 he => exact .gone hp he
    case h_2 a he => exact .found hp he
  case h_4 a i ids hp =>
    split at h
    case h_1 => cases h
    case h_2 trace ht =>
      obtain ⟨hi, h⟩ := Option.ite_none_right_eq_some.1 h
      cases h
      exact .clear hp ht hi
  case h_5 a i ids hp =>
    split at h <;> cases h
    case h_2 trace ht => exact .read hp ht

theorem stepped_of_step {act : Act N R X} (h : step cfg traceId s act = some s') :
    Stepped cfg traceId s act s' := by
  cases act with
  | process td =>
    cases h
    exact .process td
  | group c j => exact stepped_of_group h
  | run c => exact stepped_of_run h
  | collect => exact stepped_of_collect h
  | tick => exact stepped_of_tick h
  | evaluate result => exact stepped_of_evaluate h
  | next => exact stepped_of_next h

end Inversion

end Collector.TailSampling
