import Mathlib.Data.List.Perm.Basic
import Collector.Lib.Collate
import Collector.Lib.Run
import Collector.Prometheus.Series

/-!
# The map of jobs and its garbage collection

`JobsMap` of `metrics_adjuster.go`, as `Commit` of `transaction.go` uses it: a call takes the map
of its job with `get` and adjusts its metrics on it, and `get` may start a goroutine that
removes what was not marked since the last time.

An event is one atomic step. `JobsMap.gc` holds the lock of the jobs from its start to its end, so
the steps of `get` wait for it. It does not hold the lock of a map between looking at its mark
and acting on it, and `AdjustMetrics` holds only that of its own map. A map of time series
is known by its place in `maps`, which keeps those that are no longer registered: calls may
still have them. `obtained` and `adjusted` are not in the code; they record what was done since the
last collection was completed.
-/

namespace Collector.Prometheus

open Lib OpenCensus

/-! ## The collection of one map -/

def filterValues {K V : Type} (p : V → Bool) (m : GoMap K V) : GoMap K V where
  entries := m.entries.filter fun e => p e.2
  nodupKeys := m.nodupKeys.sublist List.filter_sublist

theorem lookup_filterValues {K V : Type} [DecidableEq K] (p : V → Bool) (m : GoMap K V) (k : K) :
    (filterValues p m).lookup k = (m.lookup k).filter p := by
  ext v
  rw [Option.filter_eq_some_iff, ← Option.mem_def, ← Option.mem_def, AList.mem_lookup_iff,
    AList.mem_lookup_iff]
  exact List.mem_filter

/-- `timeseriesMap.gc`. -/
def TimeseriesMap.gc (tsm : TimeseriesMap) : TimeseriesMap :=
  if tsm.mark = false then tsm
  else ⟨false, mapValues (fun tsi => { tsi with mark := false })
    (filterValues TimeseriesInfo.mark tsm.tsiMap)⟩

/-! ## The system -/

/-- Where a call of `Commit` stands. -/
inductive Pc where
  | entered
  /-- `get` has found no map. -/
  | missing
  /-- `get` has the map, and `maybeGC` is still to come. -/
  | got (map : Nat)
  /-- `get` has returned. -/
  | returned (map : Nat)
  /-- `AdjustMetrics` has the lock of the map. -/
  | adjusting (map : Nat)
  | finished
  deriving DecidableEq, Repr

def Pc.map : Pc → Option Nat
  | .got r | .returned r | .adjusting r => some r
  | _ => none

structure Call (F N : Type) where
  /-- The key of the job and its instance. -/
  sig : String
  metrics : List (Metric (TimeSeries F N))
  pc : Pc

/-- A goroutine in `JobsMap.gc`: the entries that the loop has still to visit, and what it found out
about the first of them. -/
structure Collecting where
  todo : List (String × Nat)
  tsmNotMarked : Option Bool
  deriving DecidableEq, Repr

structure System (F N : Type) where
  gcInterval : Nat
  now : Nat
  lastGC : Nat
  jobsMap : GoMap String Nat
  maps : List (State F N)
  calls : List (Call F N)
  /-- The goroutines that wait to collect. -/
  spawned : Nat
  gc : Option Collecting
  obtained : List String
  adjusted : List (String × String)

inductive Event (F N : Type) where
  | tick (d : Nat)
  | commit (job target : String) (metrics : List (Metric (TimeSeries F N)))
  | lookup (i : Nat)
  | create (i : Nat)
  | maybeGC (i : Nat)
  | lock (i : Nat)
  | finish (i : Nat)
  | gcLock (order : List (String × Nat))
  | gcCheck
  | gcDelete
  | gcSweep
  | gcDone

namespace System

variable {F N : Type}

/-- `NewJobsMap`. -/
def init (gcInterval now : Nat) : System F N :=
  ⟨gcInterval, now, now, ∅, [], [], 0, none, [], []⟩

def setPc (s : System F N) (i : Nat) (c : Call F N) (pc : Pc) : System F N :=
  { s with calls := s.calls.set i { c with pc := pc } }

def obtain (s : System F N) (i : Nat) (c : Call F N) (r : Nat) : System F N :=
  { s.setPc i c (.got r) with obtained := c.sig :: s.obtained }

def Locked (s : System F N) (r : Nat) : Prop := ∃ c ∈ s.calls, c.pc = .adjusting r

instance (s : System F N) (r : Nat) : Decidable (s.Locked r) :=
  inferInstanceAs (Decidable (∃ c ∈ s.calls, c.pc = .adjusting r))

/-- `time.Since(jm.lastGC) > jm.gcInterval`. -/
def Due (s : System F N) : Prop := s.gcInterval < s.now - s.lastGC

instance (s : System F N) : Decidable s.Due := inferInstanceAs (Decidable (_ < _))

/-- The first lookup of `get`. -/
def lookupStep (s : System F N) (i : Nat) (c : Call F N) : System F N :=
  match s.jobsMap.lookup c.sig with
  | some r => s.obtain i c r
  | none => s.setPc i c .missing

/-- The second one, which makes a map where there is still none. -/
def createStep (s : System F N) (i : Nat) (c : Call F N) : System F N :=
  match s.jobsMap.lookup c.sig with
  | some r => s.obtain i c r
  | none =>
    { s with
      jobsMap := s.jobsMap.insert c.sig s.maps.length
      maps := s.maps ++ [newState] }.obtain i c s.maps.length

/-- `maybeGC`, after which `get` returns. -/
def maybeGCStep (s : System F N) (i : Nat) (c : Call F N) (r : Nat) : System F N :=
  { s.setPc i c (.returned r) with
    spawned := if s.Due then s.spawned + 1 else s.spawned
    obtained := c.sig :: s.obtained }

/-- The end of `AdjustMetrics`. -/
def finishStep (s : System F N) (i : Nat) (c : Call F N) (r : Nat) (st : State F N) : System F N :=
  { s.setPc i c .finished with
    maps := s.maps.set r st
    adjusted := ((items c.metrics).map fun x => (c.sig, signatureOf x)) ++ s.adjusted }

variable [Zero F] [Add F] [Sub F] [LT F] [DecidableLT F]
  [Zero N] [Add N] [Sub N] [LT N] [DecidableLT N]

/-- A step of a call; while a collection holds the lock of the jobs, `get` waits. -/
def callStep (s : System F N) (i : Nat) (c : Call F N) : Event F N → Option (System F N)
  | .lookup _ => if c.pc = .entered ∧ s.gc = none then some (s.lookupStep i c) else none
  | .create _ => if c.pc = .missing ∧ s.gc = none then some (s.createStep i c) else none
  | .maybeGC _ =>
    match c.pc with
    | .got r => if s.gc = none then some (s.maybeGCStep i c r) else none
    | _ => none
  | .lock _ =>
    match c.pc with
    | .returned r => if s.Locked r then none else some (s.setPc i c (.adjusting r))
    | _ => none
  | .finish _ =>
    match c.pc with
    | .adjusting r =>
      match (s.maps[r]?).map fun st => scrape st c.metrics with
      | some (.ok (st, _)) => some (s.finishStep i c r st)
      -- a crash ends the process
      | _ => none
    | _ => none
  | _ => none

/-- A step of the goroutine that collects, of which the loop is at the entry `(sig, r)`. -/
def visitStep (s : System F N) (sig : String) (r : Nat) (todo : List (String × Nat)) :
    Event F N → Option Bool → Option (System F N)
  | .gcCheck, none =>
    if s.Locked r then none
    else (s.maps[r]?).map fun st =>
      { s with gc := some ⟨(sig, r) :: todo, some (!st.tsm.mark)⟩ }
  | .gcDelete, some true =>
    some { s with jobsMap := s.jobsMap.erase sig, gc := some ⟨todo, none⟩ }
  | .gcSweep, some false =>
    if s.Locked r then none
    else (s.maps[r]?).map fun st =>
      { s with maps := s.maps.set r { st with tsm := st.tsm.gc }, gc := some ⟨todo, none⟩ }
  | _, _ => none

def step (s : System F N) (e : Event F N) : Option (System F N) :=
  match e with
  | .tick d => some { s with now := s.now + d }
  | .commit job target metrics =>
    some { s with calls := s.calls ++ [⟨job ++ ":" ++ target, metrics, .entered⟩] }
  | .lookup i | .create i | .maybeGC i | .lock i | .finish i =>
    (s.calls[i]?).bind fun c => s.callStep i c e
  | .gcLock order =>
    if s.gc = none ∧ 0 < s.spawned ∧ order.Perm s.jobsMap.pairs then
      some { s with
        spawned := s.spawned - 1
        -- whether it is still necessary is asked again under the lock
        gc := if s.Due then some ⟨order, none⟩ else none }
    else none
  | .gcDone =>
    match s.gc with
    | some ⟨[], _⟩ =>
      some { s with lastGC := s.now, gc := none, obtained := [], adjusted := [] }
    | _ => none
  | e =>
    match s.gc with
    | some ⟨(sig, r) :: todo, tsmNotMarked⟩ => s.visitStep sig r todo e tsmNotMarked
    | _ => none

inductive Transition (s : System F N) : Event F N → System F N → Prop
  | tick (d : Nat) : Transition s (.tick d) { s with now := s.now + d }
  | commit (job target : String) (metrics : List (Metric (TimeSeries F N))) :
      Transition s (.commit job target metrics)
        { s with calls := s.calls ++ [⟨job ++ ":" ++ target, metrics, .entered⟩] }
  | found {e : Event F N} {i : Nat} {c : Call F N} {r : Nat} (he : e = .lookup i ∨ e = .create i)
      (hc : s.calls[i]? = some c) (hgc : s.gc = none) (hr : s.jobsMap.lookup c.sig = some r) :
      Transition s e (s.obtain i c r)
  | missing {i : Nat} {c : Call F N} (hc : s.calls[i]? = some c) :
      Transition s (.lookup i) (s.setPc i c .missing)
  | made {i : Nat} {c : Call F N} (hc : s.calls[i]? = some c) (hgc : s.gc = none)
      (hr : s.jobsMap.lookup c.sig = none) :
      Transition s (.create i) ({ s with
        jobsMap := s.jobsMap.insert c.sig s.maps.length
        maps := s.maps ++ [newState] }.obtain i c s.maps.length)
  | maybeGC {i : Nat} {c : Call F N} {r : Nat} (hc : s.calls[i]? = some c) (hpc : c.pc = .got r)
      (hgc : s.gc = none) : Transition s (.maybeGC i) (s.maybeGCStep i c r)
  | lock {i : Nat} {c : Call F N} {r : Nat} (hc : s.calls[i]? = some c) (hpc : c.pc = .returned r) :
      Transition s (.lock i) (s.setPc i c (.adjusting r))
  | finish {i : Nat} {c : Call F N} {r : Nat} {st st' : State F N}
      {out : List (Metric (TimeSeries F N)) × Nat} (hc : s.calls[i]? = some c)
      (hpc : c.pc = .adjusting r) (hst : s.maps[r]? = some st)
      (hrun : scrape st c.metrics = .ok (st', out)) :
      Transition s (.finish i) (s.finishStep i c r st')
  | gcLock {order : List (String × Nat)} (hgc : s.gc = none) (horder : order.Perm s.jobsMap.pairs) :
      Transition s (.gcLock order) { s with
        spawned := s.spawned - 1
        gc := if s.Due then some ⟨order, none⟩ else none }
  | gcCheck {sig : String} {r : Nat} {todo : List (String × Nat)} {st : State F N}
      (hgc : s.gc = some ⟨(sig, r) :: todo, none⟩) (hst : s.maps[r]? = some st) :
      Transition s .gcCheck { s with gc := some ⟨(sig, r) :: todo, some (!st.tsm.mark)⟩ }
  | gcDelete {sig : String} {r : Nat} {todo : List (String × Nat)}
      (hgc : s.gc = some ⟨(sig, r) :: todo, some true⟩) :
      Transition s .gcDelete { s with jobsMap := s.jobsMap.erase sig, gc := some ⟨todo, none⟩ }
  | gcSweep {sig : String} {r : Nat} {todo : List (String × Nat)} {st : State F N}
      (hgc : s.gc = some ⟨(sig, r) :: todo, some false⟩) (hst : s.maps[r]? = some st) :
      Transition s .gcSweep { s with
        maps := s.maps.set r { st with tsm := st.tsm.gc }, gc := some ⟨todo, none⟩ }
  | gcDone {b : Option Bool} (hgc : s.gc = some ⟨[], b⟩) :
      Transition s .gcDone { s with lastGC := s.now, gc := none, obtained := [], adjusted := [] }

variable {s s' : System F N} {e : Event F N}

theorem transition_of_callStep {i : Nat} {c : Call F N} (hc : s.calls[i]? = some c)
    (h : s.callStep i c e = some s')
    (he : e = .lookup i ∨ e = .create i ∨ e = .maybeGC i ∨ e = .lock i ∨ e = .finish i) :
    Transition s e s' := by
  rcases he with rfl | rfl | rfl | rfl | rfl
  · obtain ⟨⟨-, hgc⟩, h⟩ := Option.ite_none_right_eq_some.1 h
    cases h
    unfold lookupStep
    split
    · exact .found (.inl rfl) hc hgc ‹_›
    · exact .missing hc
  · obtain ⟨⟨-, hgc⟩, h⟩ := Option.ite_none_right_eq_some.1 h
    cases h
    unfold createStep
    split
    · exact .found (.inr rfl) hc hgc ‹_›
    · exact .made hc hgc ‹_›
  · simp only [callStep] at h
    split at h
    · obtain ⟨hgc, h⟩ := Option.ite_none_right_eq_some.1 h
      cases h
      exact .maybeGC hc ‹_› hgc
    · cases h
  · simp only [callStep] at h
    split at h
    · obtain ⟨-, h⟩ := Option.ite_none_left_eq_some.1 h
      cases h
      exact .lock hc ‹_›
    · cases h
  · simp only [callStep] at h
    split at h
    case h_1 hpc =>
      split at h
      case h_1 hrun =>
        cases h
        obtain ⟨st, hst, hrun⟩ := Option.map_eq_some_iff.1 hrun
        exact .finish hc hpc hst hrun
      case h_2 => cases h
    case h_2 => cases h

theorem transition_of_visitStep {sig : String} {r : Nat} {todo : List (String × Nat)}
    {b : Option Bool} (hgc : s.gc = some ⟨(sig, r) :: todo, b⟩)
    (h : s.visitStep sig r todo e b = some s') : Transition s e s' := by
  unfold visitStep at h
  split at h
  · obtain ⟨-, h⟩ := Option.ite_none_left_eq_some.1 h
    obtain ⟨st, hst, rfl⟩ := Option.map_eq_some_iff.1 h
    exact .gcCheck hgc hst
  · cases h
    exact .gcDelete hgc
  · obtain ⟨-, h⟩ := Option.ite_none_left_eq_some.1 h
    obtain ⟨st, hst, rfl⟩ := Option.map_eq_some_iff.1 h
    exact .gcSweep hgc hst
  · cases h

theorem transition_of_step (h : s.step e = some s') : Transition s e s' := by
  cases e with
  | tick d => cases h; exact .tick d
  | commit job target metrics => cases h; exact .commit job target metrics
  | lookup i | create i | maybeGC i | lock i | finish i =>
    obtain ⟨c, hc, h⟩ := Option.bind_eq_some_iff.1 h
    exact transition_of_callStep hc h (by simp)
  | gcLock order =>
    obtain ⟨⟨hgc, -, horder⟩, h⟩ := Option.ite_none_right_eq_some.1 h
    cases h
    exact .gcLock hgc horder
  | gcDone =>
    simp only [step] at h
    split at h
    · cases h
      exact .gcDone ‹_›
    · cases h
  | gcCheck | gcDelete | gcSweep =>
    simp only [step] at h
    split at h
    · exact transition_of_visitStep ‹_› h
    · cases h

end System

end Collector.Prometheus
