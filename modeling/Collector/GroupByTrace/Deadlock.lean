import Collector.GroupByTrace.Machine

/-!
# Deadlock of the event machine

The event goroutine is the only one that takes events from the channel, and it also fires one
itself: when a trace is evicted, while it handles another event. With a full channel it then waits
for room that only it could make. The handler of `stop` waits for the write side of `shutdownLock`,
and a call of `fire` keeps the read side while it waits for room. Nobody leaves such a state, and a
run stays out of it exactly when there is room to spare at the steps that could lead there.
-/

namespace Collector.GroupByTrace

open Lib Pdata.Scoped List State

variable {R L X K : Type}

def WaitsForOwnQueue (cfg : Config) (s : State R L X K) : Prop :=
  (∃ evicted batch work, s.phase = .evicting evicted batch work) ∧ s.hasRoom cfg = false

/-- The event goroutine waits for `shutdownLock`, and a goroutine that holds its read side waits for
room in the queue. -/
def WaitsForReader (cfg : Config) (s : State R L X K) : Prop :=
  s.phase = .stopping ∧ s.fires ≠ [] ∧ s.hasRoom cfg = false

def Deadlocked (cfg : Config) (s : State R L X K) : Prop :=
  WaitsForOwnQueue cfg s ∨ WaitsForReader cfg s

/-- There is room to spare. A trace is evicted only when the queue is not full, and nobody takes the
last place before the event of the eviction is sent. While the handler of `stop` waits, the last
place is taken only by the last event of the last call of `fire`. -/
def Spare [DecidableEq K] (cfg : Config) (s : State R L X K) : Act R L X → Prop
  | .run =>
    match s.phase, s.events with
    | .receiving ⟨batch :: _, _⟩, _ =>
      s.ringBuffer.contains batch.traceID = true ∨
        s.ringBuffer.evicts batch.traceID = false ∨ s.events.length < cfg.bufferSize
    | .idle, .stop :: events => s.fires.length = 0 ∨ events.length < cfg.bufferSize
    | _, _ => True
  | .send _ =>
    match s.phase with
    | .evicting _ _ _ => s.events.length + 1 < cfg.bufferSize
    | .stopping => s.fires.map List.length = [1] ∨ s.events.length + 1 < cfg.bufferSize
    | _ => True
  | .shutdown =>
    match s.phase with
    | .evicting _ _ _ => s.events.length + 1 < cfg.bufferSize
    | .stopping => s.fires.length = 0 ∨ s.events.length + 1 < cfg.bufferSize
    | _ => True
  | .consume _ | .expire _ | .release _ => True

section

variable {cfg : Config} {traceID : X → Go (Option K)} {s s' : State R L X K}

/-- Only a goroutine that takes events lets others in beyond the buffer. -/
theorem hasRoom_eq_false (h : s.phase ≠ .idle) :
    s.hasRoom cfg = false ↔ cfg.bufferSize ≤ s.events.length := by
  unfold hasRoom
  split
  case h_1 hphase _ => exact absurd hphase h
  case h_2 => simp

variable {events : List (Event R L X K)} {a : Act R L X} {fires : List (List (Event R L X K))}
  {e : Event R L X K}

theorem fire_cases (h : s.fire events = some s') :
    s.phase ≠ .stopping ∧ (s' = s ∨ s' = { s with fires := s.fires ++ [events] }) := by
  unfold fire at h
  split at h
  case h_1 => cases h
  case h_2 hphase =>
    refine ⟨hphase, ?_⟩
    split at h
    · exact .inl (Option.some.inj h).symm
    · exact .inr (Option.some.inj h).symm

/-! ## What is stuck stays so -/

/-- A step that leaves the phase and the queue alone, and the readers while `stop` waits. -/
structure Aside (s s' : State R L X K) : Prop where
  phase : s'.phase = s.phase
  events : s'.events = s.events
  fires : s.phase = .stopping → s'.fires = s.fires
  forwarded : s'.forwarded = s.forwarded

theorem Aside.fire (h : s.fire events = some s') : Aside s s' := by
  obtain ⟨hphase, rfl | rfl⟩ := fire_cases h
  · exact ⟨rfl, rfl, fun _ => rfl, rfl⟩
  · exact ⟨rfl, rfl, fun h => absurd h hphase, rfl⟩

theorem Aside.deadlocked (h : Aside s s') : Deadlocked cfg s' ↔ Deadlocked cfg s := by
  have hroom : s'.hasRoom cfg = s.hasRoom cfg := by
    unfold hasRoom
    rw [h.phase, h.events]
  unfold Deadlocked WaitsForOwnQueue WaitsForReader
  rw [hroom, h.phase]
  refine or_congr_right (and_congr_right fun hphase => ?_)
  rw [h.fires hphase]

theorem deadlocked_evicting {evicted : K} {batch : SingleTraceBatch R L X K}
    {work : Work R L X K} (hphase : s.phase = .evicting evicted batch work) :
    Deadlocked cfg s ↔ cfg.bufferSize ≤ s.events.length := by
  rw [← hasRoom_eq_false (by rw [hphase]; simp)]
  constructor
  · rintro (⟨-, hroom⟩ | ⟨hstopping, -⟩)
    · exact hroom
    · rw [hphase] at hstopping
      cases hstopping
  · exact fun hroom => .inl ⟨⟨evicted, batch, work, hphase⟩, hroom⟩

theorem deadlocked_stopping (hphase : s.phase = .stopping) :
    Deadlocked cfg s ↔ s.fires ≠ [] ∧ cfg.bufferSize ≤ s.events.length := by
  rw [← hasRoom_eq_false (by rw [hphase]; simp)]
  constructor
  · rintro (⟨⟨evicted, batch, work, hevicting⟩, -⟩ | ⟨-, hfull⟩)
    · rw [hphase] at hevicting
      cases hevicting
    · exact hfull
  · exact fun hfull => .inr ⟨hphase, hfull⟩

theorem not_deadlocked (hevicting : ∀ evicted batch work, s.phase ≠ .evicting evicted batch work)
    (hstopping : s.phase ≠ .stopping) : ¬ Deadlocked cfg s := by
  rintro (⟨⟨evicted, batch, work, hphase⟩, -⟩ | ⟨hphase, -⟩)
  · exact hevicting evicted batch work hphase
  · exact hstopping hphase

theorem deadlocked_iff_not {p : Prop}
    (hevicting : ∀ evicted batch work, s.phase ≠ .evicting evicted batch work)
    (hstopping : s.phase ≠ .stopping) (hp : p) : Deadlocked cfg s ↔ ¬ p :=
  iff_of_false (not_deadlocked hevicting hstopping) (not_not.2 hp)

theorem Deadlocked.no_room (h : Deadlocked cfg s) : s.hasRoom cfg = false := by
  rcases h with ⟨-, hroom⟩ | ⟨-, -, hroom⟩
  · exact hroom
  · exact hroom

theorem sent_last {i : Nat} (h : fires[i]? = some (e :: events)) :
    (if events.length = 0 then fires.eraseIdx i else fires.set i events) = [] ↔
      fires.map List.length = [1] := by
  obtain ⟨hi, hget⟩ := List.getElem?_eq_some_iff.1 h
  have hone : fires.map List.length = [1] → i = 0 ∧ fires = [e :: events] ∧ events = [] := by
    intro hlengths
    obtain ⟨events', rfl, hlength⟩ := map_eq_singleton_iff.1 hlengths
    have hzero : i = 0 := by simpa using hi
    subst hzero
    have heq : events' = e :: events := hget
    rw [heq] at hlength ⊢
    refine ⟨rfl, rfl, length_eq_zero_iff.1 ?_⟩
    simpa using hlength
  constructor
  · intro hnil
    split at hnil
    case isTrue hlast =>
      have hlength := congrArg List.length hnil
      rw [length_eraseIdx_of_lt hi, length_nil] at hlength
      have hfires : fires.length = 1 := by omega
      obtain ⟨events', rfl⟩ := length_eq_one_iff.1 hfires
      have hzero : i = 0 := by simpa using hi
      subst hzero
      have heq : events' = e :: events := hget
      rw [heq, map_singleton, length_cons, hlast]
    case isFalse =>
      rw [set_eq_nil_iff] at hnil
      rw [hnil] at hi
      cases hi
  · intro hlengths
    obtain ⟨rfl, rfl, rfl⟩ := hone hlengths
    rfl

theorem deadlocked_appended :
    Deadlocked cfg { s with events := s.events ++ [e], fires } ↔
      ((∃ evicted batch work, s.phase = .evicting evicted batch work) ∨
        s.phase = .stopping ∧ fires ≠ []) ∧ ¬ s.events.length + 1 < cfg.bufferSize := by
  set s' : State R L X K := { s with events := s.events ++ [e], fires } with hs'
  have hlength : s'.events.length = s.events.length + 1 := by simp [hs']
  cases hphase : s.phase with
  | evicting evicted batch work =>
    rw [deadlocked_evicting (s := s') hphase, hlength]
    simp
  | stopping =>
    rw [deadlocked_stopping (s := s') hphase, hlength]
    simp [hs']
  | idle | receiving | storing | removing | stopped =>
    refine iff_of_false (not_deadlocked (s := s') ?_ ?_) (by simp)
    all_goals simp [hs', hphase]

variable [DecidableEq K]

inductive Queued (cfg : Config) (traceID : X → Go (Option K)) (s : State R L X K) :
    Act R L X → State R L X K → Prop where
  /-- The callers, the timers and the releasing goroutines. -/
  | aside {a : Act R L X} {s' : State R L X K} (hspare : Spare cfg s a) (h : Aside s s') :
    Queued cfg traceID s a s'
  | send {i : Nat} {e : Event R L X K} {events : List (Event R L X K)}
    (hfire : s.fires[i]? = some (e :: events)) (hroom : s.hasRoom cfg = true) :
    Queued cfg traceID s (.send i) { s with
      events := s.events ++ [e]
      fires := if events.length = 0 then s.fires.eraseIdx i else s.fires.set i events }
  | shutdown (hroom : s.hasRoom cfg = true) :
    Queued cfg traceID s .shutdown { s with events := s.events ++ [.stop] }
  | run {s' : State R L X K} (h : s.run cfg traceID = some s') : Queued cfg traceID s .run s'

theorem queued_of_step (hstep : step cfg traceID s a = some s') : Queued cfg traceID s a s' := by
  obtain ⟨-, hstep⟩ := Option.ite_none_left_eq_some.1 hstep
  cases a with
  | consume td => exact .aside trivial (.fire hstep)
  | send i =>
    dsimp only at hstep
    split at hstep
    case h_1 hfire =>
      obtain ⟨hroom, hstep⟩ := Option.ite_none_right_eq_some.1 hstep
      cases hstep
      exact .send hfire hroom
    case h_2 => cases hstep
  | expire i =>
    dsimp only at hstep
    split at hstep
    case h_1 => cases hstep
    case h_2 =>
      obtain ⟨hphase, hevents, hfires, hforwarded⟩ := Aside.fire hstep
      exact .aside trivial ⟨hphase, hevents, hfires, hforwarded⟩
  | release i =>
    dsimp only [markAsReleased] at hstep
    split at hstep
    case h_1 => cases hstep
    case h_2 =>
      obtain ⟨-, hstep⟩ := Option.ite_none_left_eq_some.1 hstep
      split at hstep <;> cases hstep <;> exact .aside trivial ⟨rfl, rfl, fun _ => rfl, rfl⟩
    case h_3 =>
      obtain ⟨hphase, hevents, hfires, hforwarded⟩ := Aside.fire hstep
      exact .aside trivial ⟨hphase, hevents, hfires, hforwarded⟩
  | shutdown =>
    obtain ⟨hroom, hstep⟩ := Option.ite_none_right_eq_some.1 hstep
    cases hstep
    exact .shutdown hroom
  | run => exact .run hstep

theorem run_eq_none (h : Deadlocked cfg s) : s.run cfg traceID = none := by
  rcases h with ⟨⟨evicted, batch, work, hphase⟩, hroom⟩ | ⟨hphase, hfires, -⟩
  · unfold run
    rw [hphase]
    rw [hroom]
    rfl
  · unfold run
    rw [hphase]
    exact if_neg fun h => hfires (length_eq_zero_iff.1 h)

/-- **Nobody leaves a deadlock**, and nothing is forwarded in it. -/
theorem Deadlocked.step (h : Deadlocked cfg s) (hstep : step cfg traceID s a = some s') :
    Deadlocked cfg s' ∧ s'.forwarded = s.forwarded := by
  have hfull := h.no_room
  cases queued_of_step hstep with
  | aside _ haside => exact ⟨haside.deadlocked.2 h, haside.forwarded⟩
  | send _ hroom | shutdown hroom =>
    rw [hfull] at hroom
    cases hroom
  | run hrun =>
    rw [run_eq_none h] at hrun
    cases hrun

/-- **Once the event goroutine waits, it waits for ever.** -/
theorem Deadlocked.forever {acts : List (Act R L X)} (h : Deadlocked cfg s)
    (hrun : runFrom (GroupByTrace.step cfg traceID) s acts = some s') :
    Deadlocked cfg s' ∧ s'.forwarded = s.forwarded := by
  refine runFrom_invariant (I := fun t => Deadlocked cfg t ∧ t.forwarded = s.forwarded)
    (fun t a t' hstep ht => ?_) hrun ⟨h, rfl⟩
  obtain ⟨hstuck, hforwarded⟩ := ht.1.step hstep
  exact ⟨hstuck, hforwarded.trans ht.2⟩

/-! ## How it comes to that -/

/-- The loop takes an event: only `stop` makes the goroutine wait at once, when the queue has no
buffer. -/
theorem deadlocked_handle (hphase : s.phase = .idle) (hevents : s.events = e :: events) :
    Deadlocked cfg ({ s with events }.handle e) ↔ ¬ Spare cfg s .run := by
  unfold Spare
  rw [hphase, hevents]
  cases e with
  | stop =>
    rw [deadlocked_stopping rfl]
    simp [handle]
  | traceExpired id =>
    refine deadlocked_iff_not ?_ ?_ trivial
    all_goals
      unfold handle
      dsimp only
      split <;> simp
  | traceReceived | traceReleased | traceRemoved =>
    refine deadlocked_iff_not ?_ ?_ trivial
    all_goals simp [handle]

/-- `onTraceReceived` goes on: it waits at once when it evicts and the queue is full. -/
theorem deadlocked_receive {work : Work R L X K} (hphase : s.phase = .receiving work) :
    Deadlocked cfg (s.receive traceID work) ↔ ¬ Spare cfg s .run := by
  unfold Spare receive
  rw [hphase]
  split
  · dsimp only
    split
    case isTrue hcontains =>
      exact deadlocked_iff_not (by simp) (by simp) (.inl hcontains)
    case isFalse hcontains =>
      unfold RingBuffer.evicts
      split
      case h_1 hput | h_2 hput =>
        rw [hput]
        exact deadlocked_iff_not (by simp) (by simp) (.inr (.inl rfl))
      case h_3 hput =>
        rw [hput, deadlocked_evicting rfl]
        simp [hcontains]
  · split <;> exact deadlocked_iff_not (by simp) (by simp) trivial
  all_goals exact deadlocked_iff_not (by simp) (by simp) trivial

theorem deadlocked_of_run (h : s.run cfg traceID = some s') :
    Deadlocked cfg s' ↔ ¬ Spare cfg s .run := by
  have hspare : (∀ work, s.phase ≠ .receiving work) → s.phase ≠ .idle → Spare cfg s .run := by
    intro hreceiving hidle
    unfold Spare
    dsimp only
    split
    · exact absurd ‹_› (hreceiving _)
    · exact absurd ‹_› hidle
    · trivial
  unfold run at h
  split at h
  case h_1 hphase =>
    split at h
    case h_1 => cases h
    case h_2 hevents =>
      cases h
      exact deadlocked_handle hphase hevents
  case h_2 hphase =>
    cases h
    exact deadlocked_receive hphase
  case h_7 => cases h
  case h_4 hphase =>
    obtain ⟨-, h⟩ := Option.ite_none_right_eq_some.1 h
    cases h
    refine deadlocked_iff_not ?_ ?_ (hspare ?_ ?_)
    · unfold store
      split <;> simp
    · unfold store
      split <;> simp
    · simp [hphase]
    · simp [hphase]
  case h_3 hphase | h_5 hphase | h_6 hphase =>
    obtain ⟨-, h⟩ := Option.ite_none_right_eq_some.1 h
    cases h
    refine deadlocked_iff_not ?_ ?_ (hspare ?_ ?_)
    all_goals simp [hphase]

/-- **A step leads into a deadlock exactly when there is no room to spare.** -/
theorem deadlocked_of_step (hstep : step cfg traceID s a = some s') (hfree : ¬ Deadlocked cfg s) :
    Deadlocked cfg s' ↔ ¬ Spare cfg s a := by
  cases queued_of_step hstep with
  | aside hspare haside =>
    exact iff_of_false (fun h => hfree (haside.deadlocked.1 h)) (not_not.2 hspare)
  | send hfire _ =>
    rw [deadlocked_appended, Ne, sent_last hfire]
    unfold Spare
    cases hphase : s.phase <;> simp
  | shutdown =>
    rw [deadlocked_appended]
    unfold Spare
    cases hphase : s.phase <;> simp
  | run hrun => exact deadlocked_of_run hrun

end

/-- **The event machine does not deadlock when there is room to spare at every step**, and only
then. -/
theorem never_waits_iff [DecidableEq K] (cfg : Config) (traceID : X → Go (Option K))
    {acts : List (Act R L X)} {s : State R L X K}
    (hrun : runFrom (step cfg traceID) (.init cfg) acts = some s) :
    (¬ WaitsForOwnQueue cfg s ∧ ¬ WaitsForReader cfg s) ↔
      Meets (step cfg traceID) (Spare cfg) (.init cfg) acts := by
  have hinit : ¬ Deadlocked cfg (init cfg : State R L X K) :=
    not_deadlocked (fun _ _ _ h => by cases h) (fun h => by cases h)
  rw [← not_or]
  constructor
  · intro hfree
    exact Meets.of_run (A := fun _ _ => True) (I := fun _ => True)
      (fun _ _ _ _ _ _ => trivial)
      (fun s a s' _ hstep _ hspare hs hs' => (deadlocked_of_step hstep hs).1 hs' hspare)
      (fun s a s' _ hstep _ hs hspare => (deadlocked_of_step hstep hs).2 hspare)
      (fun s a s' _ hstep _ hs => (hs.step hstep).1)
      (meets_of_forall (fun _ _ _ => trivial) _) hrun trivial hinit hfree
  · intro hspare
    exact hspare.invariant (I := fun s => ¬ Deadlocked cfg s)
      (fun s a s' hspare hstep hs hs' => (deadlocked_of_step hstep hs).1 hs' hspare) hrun hinit

/-! ## Three runs -/

/-- One slot for a trace, and a queue of so many events. -/
def oneTrace (bufferSize : Nat) : Config := ⟨1, bufferSize⟩

def ownID (span : Nat) : Go (Option Nat) := .ok (some span)

def loneSpan (id : Nat) : Traces Unit Unit Nat := [some ⟨(), [some ⟨(), [id]⟩]⟩]

def enqueue (id : Nat) : List (Act Unit Unit Nat) := [.consume (loneSpan id), .send 0]

def storeBatch : List (Act Unit Unit Nat) := .replicate 5 .run

/-- A second trace evicts the first one, with room for the event, and the machine is shut down. -/
def evictAndStop : List (Act Unit Unit Nat) :=
  enqueue 1 ++ storeBatch ++ enqueue 2 ++ storeBatch ++ [.run, .run, .run, .shutdown, .run, .run]

def evictedAndStopped : State Unit Unit Nat Nat where
  ringBuffer := ⟨0, 1, [some 2], (∅ : GoMap Nat Nat).insert 2 0⟩
  st := { content := (∅ : GoMap Nat _).insert 2 [⟨(), [some ⟨(), [2]⟩]⟩] }
  timers := [1, 2]
  phase := .stopped
  closed := true
  received := [loneSpan 1, loneSpan 2]

theorem evictAndStop_spare :
    runFrom (step (oneTrace 2) ownID) (.init (oneTrace 2)) evictAndStop = some evictedAndStopped ∧
      Meets (step (oneTrace 2) ownID) (Spare (oneTrace 2)) (.init (oneTrace 2)) evictAndStop := by
  have hrun : runFrom (step (oneTrace 2) ownID) (.init (oneTrace 2)) evictAndStop =
      some evictedAndStopped := rfl
  refine ⟨hrun, (never_waits_iff (oneTrace 2) ownID hrun).1 ⟨?_, ?_⟩⟩
  · rintro ⟨⟨_, _, _, hphase⟩, -⟩
    cases hphase
  · rintro ⟨hphase, -⟩
    cases hphase

/-- A third event comes into the queue of one before the second trace evicts the first. In the other
run two callers are in `fire` when `stop` is handled: one takes its place, and the other waits. -/
theorem full_queue_deadlocks :
    (∃ s, runFrom (step (oneTrace 1) ownID) (.init (oneTrace 1))
        (enqueue 1 ++ storeBatch ++ enqueue 2 ++ [.run, .run] ++ enqueue 3 ++ [.run]) = some s ∧
      WaitsForOwnQueue (oneTrace 1) s) ∧
    ∃ s, runFrom (step (oneTrace 1) ownID) (.init (oneTrace 1))
        [.shutdown, .consume (loneSpan 1), .consume (loneSpan 2), .run, .send 0] = some s ∧
      WaitsForReader (oneTrace 1) s :=
  ⟨⟨_, rfl, ⟨_, _, _, rfl⟩, rfl⟩, _, rfl, rfl, cons_ne_nil _ _, rfl⟩

/-- Where the second trace evicts the first one, with the queue full. -/
def stuck : State Unit Unit Nat Nat := (runFrom (step (oneTrace 1) ownID) (.init (oneTrace 1))
  (enqueue 1 ++ storeBatch ++ enqueue 2 ++ [.run, .run] ++ enqueue 3 ++ [.run])).getD
    (.init (oneTrace 1))

/-- A call that comes later does not change that. -/
theorem stuck_forever : ∃ s, Deadlocked (oneTrace 1) s ∧
    runFrom (step (oneTrace 1) ownID) stuck [.consume (loneSpan 4)] = some s :=
  ⟨_, (Deadlocked.forever (s := stuck) (.inl ⟨⟨_, _, _, rfl⟩, rfl⟩)
    (rfl : runFrom (step (oneTrace 1) ownID) stuck [.consume (loneSpan 4)] = some _)).1, rfl⟩

end Collector.GroupByTrace
