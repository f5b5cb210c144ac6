import Collector.Batch.Split
import Collector.Lib.Run

/-!
# The batch processor

`processor/batchprocessor/batch_processor.go`, for traces. The calls of `ConsumeTraces`, the
goroutine of `startProcessingCycle`, the timer, `Shutdown` and the goroutines that put the rest of
a split trace back on the channel take their steps in any order. A body of the `select` is one
step: only its receive and the goroutine it starts are seen by the others. The timer may fire at
any time.

A batch is the traces and their count, which is a `uint32`. The rest of a split trace is put back
behind what is on the channel by then. A trace that `splitTrace` returns whole is put back too, but
as it is one object, the batch has taken its spans by the time it is received again.
-/

namespace Collector.Batch

open Lib Pdata Pdata.Scoped

variable {R L X : Type}

/-- The settings of `Config` and the capacity of the channel, `runtime.NumCPU()`. -/
structure Config where
  sendBatchSize : UInt32
  sendBatchMaxSize : UInt32
  capacity : Nat
  capacity_pos : 0 < capacity

inductive Panic where
  | sendOnClosedChannel
  | crash (c : Crash)
  deriving DecidableEq, Repr

structure State (R L X : Type) where
  /-- The channel `newItem`: what is in it, and whether it is closed. -/
  newItem : List (Traces R L X) := []
  closed : Bool := false
  /-- The traces that goroutines are about to put back on the channel. -/
  requeueing : List (Traces R L X) := []
  /-- `batchTraces`. -/
  traceData : Traces R L X := []
  spanCount : UInt32 := 0
  /-- The batches that were passed to the next consumer. -/
  exported : List (Traces R L X) := []
  /-- The traces whose `ConsumeTraces` has returned. -/
  consumed : List (Traces R L X) := []
  /-- `done` is closed: the processing cycle has ended, and `Shutdown` returns. -/
  done : Bool := false
  panic : Option Panic := none
  deriving DecidableEq

namespace State

/-- `batchTraces.add`. -/
def add (s : State R L X) (td : Traces R L X) : State R L X :=
  if Scoped.spanCount td = 0 then s
  else { s with
    spanCount := s.spanCount + .ofNat (Scoped.spanCount td)
    traceData := s.traceData ++ td }

def sendItems (s : State R L X) : State R L X :=
  { s with exported := s.exported ++ [s.traceData], traceData := [], spanCount := 0 }

/-- `sendItems` unless the batch counts nothing. -/
def flush (s : State R L X) : State R L X := if 0 < s.spanCount then s.sendItems else s

/-- `add`, and `sendItems` once the batch is large enough. -/
def addAndSend (cfg : Config) (s : State R L X) (td : Traces R L X) : State R L X :=
  if cfg.sendBatchSize ≤ (s.add td).spanCount then (s.add td).sendItems else s.add td

/-- The maximum is passed with this trace. -/
def Splits (cfg : Config) (s : State R L X) (td : Traces R L X) : Prop :=
  0 < cfg.sendBatchMaxSize ∧
    cfg.sendBatchMaxSize < s.spanCount + .ofNat (Scoped.spanCount td)

instance (cfg : Config) (s : State R L X) (td : Traces R L X) : Decidable (s.Splits cfg td) :=
  inferInstanceAs (Decidable (_ ∧ _))

/-- How many spans of a trace that passes the maximum are taken: `sendBatchSize - itemCount`. -/
def splitSize (cfg : Config) (s : State R L X) : Nat := (cfg.sendBatchSize - s.spanCount).toNat

/-- A trace after `add` has moved its resources to the batch. -/
def emptied (td : Traces R L X) : Traces R L X := if Scoped.spanCount td = 0 then td else []

/-- The body of the `select` for an item that was received. -/
def receive (cfg : Config) (s : State R L X) (td : Traces R L X) : State R L X :=
  if s.Splits cfg td then
    match splitTrace (s.splitSize cfg) td with
    | .error c => { s with panic := some (.crash c) }
    | .ok (part, left) =>
      addAndSend cfg { s with requeueing := s.requeueing ++ [left.getD (emptied part)] } part
  else s.addAndSend cfg td

end State

inductive Event (R L X : Type) where
  /-- A call of `ConsumeTraces` puts its trace on the channel and returns. -/
  | consume (td : Traces R L X)
  /-- The processing cycle takes an item from the channel. -/
  | receive
  /-- The timer fires. -/
  | tick
  /-- One of the goroutines goes on to put its trace back. -/
  | requeue (i : Nat)
  /-- `Shutdown` closes the channel. -/
  | close
  /-- The processing cycle finds the channel closed and empty. -/
  | finish

/-- One step. `Shutdown` is called once, after the calls of `ConsumeTraces`. -/
def step (cfg : Config) (s : State R L X) (e : Event R L X) : Option (State R L X) :=
  if s.panic ≠ none then none
  else match e with
    | .consume td =>
      if s.closed = false ∧ s.newItem.length < cfg.capacity then
        some { s with newItem := s.newItem ++ [td], consumed := s.consumed ++ [td] }
      else none
    | .receive =>
      match s.newItem with
      | [] => none
      | td :: items =>
        if s.done = false then some ({ s with newItem := items }.receive cfg td) else none
    | .tick => if s.done = false then some s.flush else none
    | .requeue i =>
      match s.requeueing[i]? with
      | none => none
      | some td =>
        if s.closed then some { s with panic := some .sendOnClosedChannel }
        else if s.newItem.length < cfg.capacity then
          some { s with newItem := s.newItem ++ [td], requeueing := s.requeueing.eraseIdx i }
        else none
    | .close => if s.closed = false then some { s with closed := true } else none
    | .finish =>
      if s.done = false ∧ s.closed ∧ s.newItem.length = 0 then some { s.flush with done := true }
      else none

/-! ## What a step can do -/

inductive Took (cfg : Config) (s : State R L X) : Event R L X → State R L X → Prop where
  | consume {td : Traces R L X} (hopen : s.closed = false) :
    Took cfg s (.consume td)
      { s with newItem := s.newItem ++ [td], consumed := s.consumed ++ [td] }
  | receive {td : Traces R L X} {items : List (Traces R L X)} (hitem : s.newItem = td :: items)
      (hdone : s.done = false) :
    Took cfg s .receive ({ s with newItem := items }.receive cfg td)
  | tick (hdone : s.done = false) : Took cfg s .tick s.flush
  | requeue {i : Nat} {td : Traces R L X} (hitem : s.requeueing[i]? = some td)
      (hopen : s.closed = false) :
    Took cfg s (.requeue i)
      { s with newItem := s.newItem ++ [td], requeueing := s.requeueing.eraseIdx i }
  | sendOnClosed {i : Nat} {td : Traces R L X} (hitem : s.requeueing[i]? = some td)
      (hclosed : s.closed = true) :
    Took cfg s (.requeue i) { s with panic := some .sendOnClosedChannel }
  | close (hopen : s.closed = false) : Took cfg s .close { s with closed := true }
  | finish (hdone : s.done = false) (hclosed : s.closed = true) (hempty : s.newItem = []) :
    Took cfg s .finish { s.flush with done := true }

theorem took_of_step {cfg : Config} {s s' : State R L X} {e : Event R L X}
    (h : step cfg s e = some s') : s.panic = none ∧ Took cfg s e s' := by
  unfold step at h
  split at h
  case isTrue => cases h
  case isFalse hpanic =>
    refine ⟨not_not.1 hpanic, ?_⟩
    cases e with
    | consume td =>
      obtain ⟨hguard, h⟩ := Option.ite_none_right_eq_some.1 h
      cases h
      exact .consume hguard.1
    | receive =>
      dsimp only at h
      split at h
      case h_1 => cases h
      case h_2 td items hitem =>
        obtain ⟨hdone, h⟩ := Option.ite_none_right_eq_some.1 h
        cases h
        exact .receive hitem hdone
    | tick =>
      obtain ⟨hdone, h⟩ := Option.ite_none_right_eq_some.1 h
      cases h
      exact .tick hdone
    | requeue i =>
      dsimp only at h
      split at h
      case h_1 => cases h
      case h_2 td hitem =>
        split at h
        case isTrue hclosed =>
          cases h
          exact .sendOnClosed hitem hclosed
        case isFalse hopen =>
          obtain ⟨-, h⟩ := Option.ite_none_right_eq_some.1 h
          cases h
          exact .requeue hitem (Bool.eq_false_iff.2 hopen)
    | close =>
      obtain ⟨hopen, h⟩ := Option.ite_none_right_eq_some.1 h
      cases h
      exact .close hopen
    | finish =>
      obtain ⟨⟨hdone, hclosed, hempty⟩, h⟩ := Option.ite_none_right_eq_some.1 h
      cases h
      exact .finish hdone hclosed (List.length_eq_zero_iff.1 hempty)

/-- Only the batch and what was sent may differ. -/
structure State.Frame (s s' : State R L X) : Prop where
  newItem : s'.newItem = s.newItem
  closed : s'.closed = s.closed
  requeueing : s'.requeueing = s.requeueing
  consumed : s'.consumed = s.consumed
  done : s'.done = s.done
  panic : s'.panic = s.panic

theorem State.frame_flush (s : State R L X) : s.Frame s.flush := by
  unfold flush
  split <;> exact ⟨rfl, rfl, rfl, rfl, rfl, rfl⟩

theorem State.frame_addAndSend (cfg : Config) (s : State R L X) (td : Traces R L X) :
    s.Frame (s.addAndSend cfg td) := by
  unfold addAndSend add
  split <;> split <;> exact ⟨rfl, rfl, rfl, rfl, rfl, rfl⟩

theorem State.receive_cases (cfg : Config) (s : State R L X) (td : Traces R L X) :
    (¬ s.Splits cfg td ∧ s.receive cfg td = s.addAndSend cfg td) ∨
      (s.Splits cfg td ∧ ∃ c, splitTrace (s.splitSize cfg) td = .error c ∧
        s.receive cfg td = { s with panic := some (.crash c) }) ∨
      (s.Splits cfg td ∧ Returns (splitTrace (s.splitSize cfg) td) ∧ ∃ part rest : Traces R L X,
        Scoped.spanCount part = min (s.splitSize cfg) (Scoped.spanCount td) ∧
        (spansOf part ++ spansOf rest).Perm (spansOf td) ∧
        s.receive cfg td =
          { s with requeueing := s.requeueing ++ [rest] }.addAndSend cfg part) := by
  by_cases hsplits : s.Splits cfg td
  · refine .inr ?_
    cases hsplit : splitTrace (s.splitSize cfg) td with
    | error c =>
      refine .inl ⟨hsplits, c, rfl, ?_⟩
      rw [State.receive, if_pos hsplits, hsplit]
    | ok split =>
      obtain ⟨part, left⟩ := split
      refine .inr ⟨hsplits, returns_ok _, part, left.getD (emptied part), ?_, ?_, ?_⟩
      · rcases splitTrace_cases hsplit with ⟨hle, rfl, -⟩ | ⟨_, -, hparts⟩
        · exact (min_eq_right hle).symm
        · exact hparts.count.trans (min_eq_left (le_of_lt hparts.large)).symm
      · rcases splitTrace_cases hsplit with ⟨-, rfl, rfl⟩ | ⟨kept, rfl, hparts⟩
        · -- the trace itself comes back, without the spans that the batch took
          have hempty : spansOf (emptied part) = [] := by
            unfold emptied
            split
            case isTrue hzero => exact spansOf_eq_nil hzero
            case isFalse => rfl
          rw [Option.getD_none, hempty, List.append_nil]
        · exact hparts.perm
      · rw [State.receive, if_pos hsplits, hsplit]
  · refine .inl ⟨hsplits, ?_⟩
    rw [State.receive, if_neg hsplits]

/-! ## The count -/

/-- The `uint32` count of the batch has room for the item that is received. -/
def NoWrap (s : State R L X) : Event R L X → Prop
  | .receive => ∀ td ∈ s.newItem.head?, s.spanCount.toNat + Scoped.spanCount td < 2 ^ 32
  | _ => True

namespace State

def Counted (s : State R L X) : Prop := s.spanCount.toNat = Scoped.spanCount s.traceData

theorem counted_sendItems (s : State R L X) : s.sendItems.Counted := rfl

variable {s : State R L X} {td : Traces R L X}

theorem Counted.flush (h : s.Counted) : s.flush.Counted := by
  unfold State.flush
  split
  case isTrue => exact s.counted_sendItems
  case isFalse => exact h

variable (hroom : s.spanCount.toNat + Scoped.spanCount td < 2 ^ 32)

include hroom

theorem add_spanCount :
    (s.add td).spanCount.toNat = s.spanCount.toNat + Scoped.spanCount td := by
  unfold add
  split
  case isTrue hzero => rw [hzero, Nat.add_zero]
  case isFalse =>
    show (s.spanCount + .ofNat (Scoped.spanCount td)).toNat = _
    rw [UInt32.toNat_add, UInt32.toNat_ofNat', Nat.add_mod_mod, Nat.mod_eq_of_lt hroom]

theorem Counted.add (h : s.Counted) : (s.add td).Counted := by
  rw [Counted, add_spanCount hroom, h]
  unfold State.add
  split
  case isTrue hzero => rw [hzero, Nat.add_zero]
  case isFalse => exact (spanCount_append _ _).symm

theorem Counted.addAndSend (cfg : Config) (h : s.Counted) : (s.addAndSend cfg td).Counted := by
  unfold State.addAndSend
  split
  case isTrue => exact counted_sendItems _
  case isFalse => exact h.add hroom

theorem Counted.receive (cfg : Config) (h : s.Counted) : (s.receive cfg td).Counted := by
  rcases s.receive_cases cfg td with ⟨-, heq⟩ | ⟨-, c, -, heq⟩ | ⟨-, -, part, rest, -, hperm, heq⟩
  · rw [heq]
    exact h.addAndSend hroom cfg
  · rw [heq]
    exact h
  · rw [heq]
    have hrest : Counted { s with requeueing := s.requeueing ++ [rest] } := h
    refine hrest.addAndSend ?_ cfg
    have hlength := hperm.length_eq
    rw [List.length_append, length_spansOf, length_spansOf, length_spansOf] at hlength
    show s.spanCount.toNat + Scoped.spanCount part < 2 ^ 32
    omega

end State

/-- **The count of a batch is right as long as it has room for what is received.** -/
theorem counted_step (cfg : Config) (s : State R L X) (e : Event R L X) (s' : State R L X)
    (hroom : NoWrap s e) (hstep : step cfg s e = some s') (h : s.Counted) : s'.Counted := by
  cases (took_of_step hstep).2 with
  | consume | requeue | sendOnClosed | close => exact h
  | @receive td items hitem =>
    have hitems : State.Counted { s with newItem := items } := h
    refine hitems.receive ?_ cfg
    exact hroom td (by rw [hitem]; rfl)
  | tick | finish => exact h.flush

end Collector.Batch
