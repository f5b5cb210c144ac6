import Collector.Lib.Accumulate
import Collector.OpenCensus.Metrics

/-!
# The metrics adjuster of the Prometheus receiver

`receiver/prometheusreceiver/internal/metrics_adjuster.go`. `AdjustMetrics` subtracts from each
cumulative time series the first one since the last reset. It updates the time series in place
and keeps pointers to them between scrapes, so the model has a store of time series: the
map of a job holds references into it, a scrape allocates its time series there, and what is emitted
is read from it at the end. A time series owns its points, and two points are the same
object when they belong to the same time series.

`F` stands for `float64` and `N` for `int64`. The elements that the metric builder makes are never
nil; which value a point has may change from one scrape to the next.
-/

namespace Collector.Prometheus

open OpenCensus (Timestamp MetricType MetricDescriptor LabelValue)

/-! ## Messages -/

structure DistributionValue (F N : Type) where
  count : N
  sum : F
  bounds : List F
  /-- The counts of the buckets. -/
  buckets : List N
  deriving DecidableEq, Repr

/-- `SummaryValue`; its snapshot is a list of percentiles and values. -/
structure SummaryValue (F N : Type) where
  count : Option N
  sum : Option F
  snapshot : Option (List (F × F))
  deriving DecidableEq, Repr

inductive PointValue (F N : Type) where
  | double (x : F)
  | distribution (d : DistributionValue F N)
  | summary (s : SummaryValue F N)
  deriving DecidableEq, Repr

structure Point (F N : Type) where
  timestamp : Timestamp
  value : PointValue F N
  deriving DecidableEq, Repr

structure TimeSeries (F N : Type) where
  startTimestamp : Option Timestamp
  labelValues : List LabelValue
  points : List (Point F N)
  deriving DecidableEq, Repr

/-- A metric with time series or with references to them. -/
structure Metric (A : Type) where
  descriptor : MetricDescriptor
  timeseries : List A
  deriving DecidableEq, Repr

/-! ## Signatures -/

def nonEmptyValues (values : List LabelValue) : List String :=
  (values.map LabelValue.value).filter (· ≠ "")

def getTimeseriesSignature (name : String) (values : List LabelValue) : String :=
  name ++ "," ++ ",".intercalate (nonEmptyValues values)

/-! ## Points -/

section Points

variable {F N : Type}

def PointValue.getDouble [Zero F] : PointValue F N → F
  | .double x => x
  | _ => 0

def PointValue.getDistribution : PointValue F N → Option (DistributionValue F N)
  | .distribution d => some d
  | _ => none

def PointValue.getSummary : PointValue F N → Option (SummaryValue F N)
  | .summary s => some s
  | _ => none

def adjustBuckets [Sub N] : List N → List N → Go (List N)
  | [], _ => .ok []
  | _ :: _, [] => .error .indexOutOfRange
  | c :: current, i :: initial => do
    let rest ← adjustBuckets current initial
    return (c - i) :: rest

variable [Zero F] [Add F] [Sub F] [LT F] [DecidableLT F]
  [Zero N] [Add N] [Sub N] [LT N] [DecidableLT N]

/-- The case `CUMULATIVE_DOUBLE` of `adjustPoint`. -/
def adjustDouble (current initial previous : PointValue F N) (same : Bool) :
    Option (PointValue F N) :=
  let previousValue :=
    if same then initial.getDouble else initial.getDouble + previous.getDouble
  if current.getDouble < previousValue then none
  else some (.double (current.getDouble - initial.getDouble))

/-- The case `CUMULATIVE_DISTRIBUTION`. -/
def adjustDistribution (current initial previous : PointValue F N) (same : Bool) :
    Go (Option (PointValue F N)) := do
  let initialDist ← deref initial.getDistribution
  let (previousCount, previousSum) ←
    if same then pure (initialDist.count, initialDist.sum)
    else do
      let previousDist ← deref previous.getDistribution
      pure (initialDist.count + previousDist.count, initialDist.sum + previousDist.sum)
  let currentDist ← deref current.getDistribution
  if currentDist.count < previousCount ∨ currentDist.sum < previousSum then return none
  else
    let buckets ← adjustBuckets currentDist.buckets initialDist.buckets
    return some (.distribution { currentDist with
      count := currentDist.count - initialDist.count
      sum := currentDist.sum - initialDist.sum
      buckets := buckets })

/-- The case `SUMMARY`; the snapshot is not adjusted. -/
def adjustSummary (current initial previous : PointValue F N) (same : Bool) :
    Go (Option (PointValue F N)) := do
  let currentSummary ← deref current.getSummary
  let initialSummary ← deref initial.getSummary
  let initialCount := initialSummary.count.getD 0
  let initialSum := initialSummary.sum.getD 0
  let (previousCount, previousSum) ←
    if same then pure (initialCount, initialSum)
    else do
      let previousSummary ← deref previous.getSummary
      pure (initialCount + previousSummary.count.getD 0, initialSum + previousSummary.sum.getD 0)
  if currentSummary.count.getD 0 < previousCount ∨ currentSummary.sum.getD 0 < previousSum then
    return none
  else
    return some (.summary { currentSummary with
      count := some (currentSummary.count.getD 0 - initialCount)
      sum := some (currentSummary.sum.getD 0 - initialSum) })

/-- `adjustPoint`, with the comparison of the pointers `initial` and `previous`. The adjusted
value, or nothing where a reset is detected. -/
def adjustPoint (type : MetricType) (current initial previous : PointValue F N) (same : Bool) :
    Go (Option (PointValue F N)) :=
  match type with
  | .cumulativeDouble => .ok (adjustDouble current initial previous same)
  | .cumulativeDistribution => adjustDistribution current initial previous same
  | .summary => adjustSummary current initial previous same
  | _ => .ok (some current)

/-- `adjustPoints`. The length of `previous` is not checked: the check of `current` is there
twice. -/
def adjustPoints (type : MetricType) (current initial previous : List (Point F N)) (same : Bool) :
    Go (Option (List (Point F N))) :=
  match current, initial with
  | [c], [i] => do
    let p ← index previous 0
    let adjusted ← adjustPoint type c.value i.value p.value same
    return adjusted.map fun v => [{ c with value := v }]
  | _, _ => .ok (some current)

theorem adjustPoints_single (type : MetricType) (c i p : Point F N) (same : Bool) :
    adjustPoints type [c] [i] [p] same = (do
      let adjusted ← adjustPoint type c.value i.value p.value same
      return adjusted.map fun v => [{ c with value := v }]) := rfl

/-- `adjustTimeseries`: the time series that `current` becomes. A nil `previous` has no points. -/
def adjustTimeseries (type : MetricType) (current initial : TimeSeries F N)
    (previous : Option (TimeSeries F N)) (same : Bool) : Go (Option (TimeSeries F N)) := do
  let points ← adjustPoints type current.points initial.points
    (previous.elim [] TimeSeries.points) same
  return points.map fun ps =>
    { current with startTimestamp := initial.startTimestamp, points := ps }

/-! What the cases do once the values that they read are there. Where `initial` and `previous` are
the same object there is nothing that was emitted for the last scrape. -/

/-- The histogram is below the last one; `emitted` is what was emitted for that. -/
def DistributionValue.Resets (current initial : DistributionValue F N)
    (emitted : Option (DistributionValue F N)) : Prop :=
  current.count < emitted.elim initial.count (fun p => initial.count + p.count) ∨
    current.sum < emitted.elim initial.sum (fun p => initial.sum + p.sum)

instance (current initial : DistributionValue F N) (emitted : Option (DistributionValue F N)) :
    Decidable (current.Resets initial emitted) :=
  inferInstanceAs (Decidable (_ ∨ _))

def DistributionValue.adjust (current initial : DistributionValue F N)
    (emitted : Option (DistributionValue F N)) : Go (Option (PointValue F N)) :=
  if current.Resets initial emitted then .ok none
  else do
    let buckets ← adjustBuckets current.buckets initial.buckets
    return some (.distribution { current with
      count := current.count - initial.count
      sum := current.sum - initial.sum
      buckets := buckets })

def SummaryValue.Resets (current initial : SummaryValue F N)
    (emitted : Option (SummaryValue F N)) : Prop :=
  current.count.getD 0 <
      emitted.elim (initial.count.getD 0) (fun p => initial.count.getD 0 + p.count.getD 0) ∨
    current.sum.getD 0 <
      emitted.elim (initial.sum.getD 0) (fun p => initial.sum.getD 0 + p.sum.getD 0)

instance (current initial : SummaryValue F N) (emitted : Option (SummaryValue F N)) :
    Decidable (current.Resets initial emitted) :=
  inferInstanceAs (Decidable (_ ∨ _))

def SummaryValue.adjust (current initial : SummaryValue F N)
    (emitted : Option (SummaryValue F N)) : Option (PointValue F N) :=
  if current.Resets initial emitted then none
  else some (.summary { current with
    count := some (current.count.getD 0 - initial.count.getD 0)
    sum := some (current.sum.getD 0 - initial.sum.getD 0) })

omit [Zero F] [Zero N] in
theorem adjustDistribution_same (c i : DistributionValue F N) (previous : PointValue F N) :
    adjustDistribution (.distribution c) (.distribution i) previous true = c.adjust i none := rfl

omit [Zero F] [Zero N] in
theorem adjustDistribution_distinct (c i p : DistributionValue F N) :
    adjustDistribution (.distribution c) (.distribution i) (.distribution p) false =
      c.adjust i (some p) := rfl

theorem adjustSummary_same (c i : SummaryValue F N) (previous : PointValue F N) :
    adjustSummary (.summary c) (.summary i) previous true = .ok (c.adjust i none) := by
  unfold SummaryValue.adjust
  rw [apply_ite Except.ok]
  rfl

theorem adjustSummary_distinct (c i p : SummaryValue F N) :
    adjustSummary (.summary c) (.summary i) (.summary p) false =
      .ok (c.adjust i (some p)) := by
  unfold SummaryValue.adjust
  rw [apply_ite Except.ok]
  rfl

end Points

/-! ## The loops -/

section Loops

variable {S A : Type}

/-- The loop of `adjustMetricTimeseries`: the time series that were adjusted, and the number of
the others. `step` handles one time series and says what is left of it. -/
def adjustMetricTimeseries (step : S → A → Go (S × Option A)) : S → List A → Go (S × List A × Nat)
  | s, [] => .ok (s, [], 0)
  | s, current :: rest => do
    let (s, adjusted) ← step s current
    let (s, filtered, dropped) ← adjustMetricTimeseries step s rest
    match adjusted with
    | some ts => return (s, ts :: filtered, dropped)
    | none => return (s, filtered, dropped + 1)

/-- The types that `adjustMetric` leaves alone. -/
def isGauge (type : MetricType) : Bool :=
  match type with
  | .gaugeDouble | .gaugeDistribution => true
  | _ => false

/-- `adjustMetric`: what is left of the metric, if anything, and the number of time series
dropped. -/
def adjustMetric (step : MetricDescriptor → S → A → Go (S × Option A)) (s : S) (metric : Metric A) :
    Go (S × Option (Metric A) × Nat) :=
  if isGauge metric.descriptor.type then .ok (s, some metric, 0)
  else do
    let (s, filtered, dropped) ←
      adjustMetricTimeseries (step metric.descriptor) s metric.timeseries
    return (s, if filtered = [] then none else some { metric with timeseries := filtered }, dropped)

/-- The loop of `AdjustMetrics`. -/
def adjustMetrics (step : MetricDescriptor → S → A → Go (S × Option A)) :
    S → List (Metric A) → Go (S × List (Metric A) × Nat)
  | s, [] => .ok (s, [], 0)
  | s, metric :: metrics => do
    let (s, adjusted, dropped) ← adjustMetric step s metric
    let (s, rest, droppedRest) ← adjustMetrics step s metrics
    return (s, adjusted.toList ++ rest, dropped + droppedRest)

end Loops

/-! ## The map of a job -/

abbrev Ref := Nat

/-- The time series that pointers may point to; those from `next` on are still to be allocated. -/
structure Store (F N : Type) where
  next : Nat
  cell : Ref → TimeSeries F N

structure TimeseriesInfo where
  mark : Bool := false
  initial : Option Ref := none
  previous : Option Ref := none
  deriving DecidableEq, Repr

structure TimeseriesMap where
  mark : Bool
  tsiMap : GoMap String TimeseriesInfo

def newTimeseriesMap : TimeseriesMap := ⟨true, ∅⟩

/-- `timeseriesMap.get`. Writes through the pointer that it returns are those of `put`. -/
def TimeseriesMap.get (tsm : TimeseriesMap) (sig : String) : TimeseriesMap × TimeseriesInfo :=
  let tsi : TimeseriesInfo := { (tsm.tsiMap.lookup sig).getD {} with mark := true }
  (⟨true, tsm.tsiMap.insert sig tsi⟩, tsi)

def TimeseriesMap.put (tsm : TimeseriesMap) (sig : String) (tsi : TimeseriesInfo) : TimeseriesMap :=
  { tsm with tsiMap := tsm.tsiMap.insert sig tsi }

/-- The time series that are allocated and the map of the job. -/
structure State (F N : Type) where
  store : Store F N
  tsm : TimeseriesMap

section Scrapes

variable {F N : Type} [Zero F] [Add F] [Sub F] [LT F] [DecidableLT F]
  [Zero N] [Add N] [Sub N] [LT N] [DecidableLT N]

/-- The body of the loop of `adjustMetricTimeseries`. -/
def adjustRef (descriptor : MetricDescriptor) (st : State F N) (current : Ref) :
    Go (State F N × Option Ref) :=
  let ts := st.store.cell current
  let sig := getTimeseriesSignature descriptor.name ts.labelValues
  let (tsm, tsi) := st.tsm.get sig
  let restart : State F N × Option Ref :=
    ({ st with tsm := tsm.put sig { tsi with initial := some current, previous := some current } },
      none)
  match tsi.initial with
  | none => .ok restart
  | some initial => do
    let adjusted ← adjustTimeseries descriptor.type ts (st.store.cell initial)
      (tsi.previous.map st.store.cell) (some initial = tsi.previous)
    match adjusted with
    | none => return restart
    | some ts' =>
      return ({ store := { st.store with cell := Function.update st.store.cell current ts' },
                tsm := tsm.put sig { tsi with previous := some current } }, some current)

/-- The time series of a scrape are new objects. -/
def Store.allocate (store : Store F N) : List (TimeSeries F N) → Store F N × List Ref
  | [] => (store, [])
  | ts :: rest =>
    let (store', refs) :=
      Store.allocate ⟨store.next + 1, Function.update store.cell store.next ts⟩ rest
    (store', store.next :: refs)

def Store.allocateMetrics (store : Store F N) :
    List (Metric (TimeSeries F N)) → Store F N × List (Metric Ref)
  | [] => (store, [])
  | m :: rest =>
    let (store, refs) := store.allocate m.timeseries
    let (store, metrics) := Store.allocateMetrics store rest
    (store, ⟨m.descriptor, refs⟩ :: metrics)

def Store.read (store : Store F N) (m : Metric Ref) : Metric (TimeSeries F N) :=
  ⟨m.descriptor, m.timeseries.map store.cell⟩

/-- `AdjustMetrics` on the metrics of a scrape: those that are left, and the number of time series
that were dropped. -/
def scrape (st : State F N) (metrics : List (Metric (TimeSeries F N))) :
    Go (State F N × List (Metric (TimeSeries F N)) × Nat) := do
  let (store, refs) := st.store.allocateMetrics metrics
  let (st, adjusted, dropped) ← adjustMetrics adjustRef { st with store } refs
  return (st, adjusted.map st.store.read, dropped)

/-- One scrape after the other, with what each of them returns. -/
def scrapeAll (st : State F N) (scrapes : List (List (Metric (TimeSeries F N)))) :
    Go (State F N × List (List (Metric (TimeSeries F N)) × Nat)) :=
  Lib.accumulate scrape st scrapes

def newState : State F N := ⟨⟨0, fun _ => ⟨none, [], []⟩⟩, newTimeseriesMap⟩

end Scrapes

end Collector.Prometheus
