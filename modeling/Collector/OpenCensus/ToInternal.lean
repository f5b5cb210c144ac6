import Collector.Lib.Guarded
import Collector.OpenCensus.Metrics
import Collector.Otlp.Metrics

/-!
# From OpenCensus to internal metrics

`translator/internaldata/oc_to_old_metrics.go`. Points are counted first and
each slice of points is allocated at the full count when its first point
arrives; a point is written at the next index, and the slices are cut to what
was filled at the end (`Slice`). The node and the resource go through
`resourceToInternal`, a parameter, since nothing downstream reads the result.
-/

namespace Collector.OpenCensus

open Lib

/-! ## Scalars -/

/-- `internal.TimestampToUnixNano`. -/
def timestampToUnixNano : Option Timestamp → UInt64
  | none => 0
  | some ts => UInt64.ofInt (ts.seconds.toInt * 1000000000 + ts.nanos.toInt)

/-- `descriptorTypeToInternal`; `none` is `invalidMetricType`. -/
def descriptorTypeToInternal : MetricType → Option Otlp.MetricType
  | .unspecified => some .invalidType
  | .gaugeInt64 => some .int64
  | .gaugeDouble => some .double
  | .cumulativeInt64 => some .monotonicInt64
  | .cumulativeDouble => some .monotonicDouble
  | .cumulativeDistribution => some .histogram
  | .summary => some .summary
  | _ => none

/-- `descriptorToInternal`. The temporality of the fresh descriptor is never set. -/
def descriptorToInternal (ocDescriptor : Option MetricDescriptor) : Option Otlp.MetricDescriptor :=
  match ocDescriptor with
  | none => none
  | some d =>
    match descriptorTypeToInternal d.type with
    | none => none
    | some type => some ⟨d.name, d.description, d.unit, type, .invalidTemporality⟩

/-! ## Labels -/

/-- `StringMap.Insert`. -/
def stringMapInsert (sm : List (Option Otlp.StringKeyValue)) (k v : String) :
    List (Option Otlp.StringKeyValue) :=
  if sm.any fun kv => kv.any fun kv => kv.key == k then sm else sm ++ [some ⟨k, v⟩]

/-- The body of `setLabelsMap`'s loop. A nil key is dereferenced when its value is set. -/
def setLabel (sm : List (Option Otlp.StringKeyValue)) (kv : Option LabelKey × Option LabelValue) :
    Go (List (Option Otlp.StringKeyValue)) :=
  match kv.2 with
  | none => .ok sm
  | some v =>
    if v.hasValue then do
      let k ← deref kv.1
      return stringMapInsert sm k.key v.value
    else .ok sm

/-- `setLabelsMap`; the loop runs to the shorter of the two lists. -/
def setLabelsMap (ocLabelsKeys : List (Option LabelKey))
    (ocLabelValues : List (Option LabelValue)) :
    Go (List (Option Otlp.StringKeyValue)) :=
  (ocLabelsKeys.zip ocLabelValues).foldlM setLabel []

/-! ## Values of points -/

section Values

variable {F : Type} [GoFloat F]

def exemplarToInternal (ocExemplar : Exemplar F) : Otlp.Exemplar F where
  value := ocExemplar.value
  timeUnixNano := timestampToUnixNano ocExemplar.timestamp
  attachments := ocExemplar.attachments.entries.map fun e => some ⟨e.1, e.2⟩

def histogramBucketsToInternal (ocBuckets : List (Option (Bucket F))) :
    List (Option (Otlp.Bucket F)) :=
  ocBuckets.map fun ocBucket =>
    some ⟨(ocBucket.elim 0 Bucket.count).toUInt64,
      (ocBucket.bind Bucket.exemplar).map exemplarToInternal⟩

def percentileToInternal (ocPercentiles : List (Option (ValueAtPercentile F))) :
    List (Option (Otlp.ValueAtPercentile F)) :=
  ocPercentiles.map fun p =>
    some ⟨p.elim (GoFloat.ofInt64 0) ValueAtPercentile.percentile,
      p.elim (GoFloat.ofInt64 0) ValueAtPercentile.value⟩

/-- `setHistogramDataPointValue`, on a point with these labels and times. -/
def histogramDataPoint (labels : List (Option Otlp.StringKeyValue)) (start time : UInt64)
    (d : Option (DistributionValue F)) : Otlp.HistogramDataPoint F where
  labels := labels
  startTimeUnixNano := start
  timeUnixNano := time
  count := (d.elim 0 DistributionValue.count).toUInt64
  sum := d.elim (GoFloat.ofInt64 0) DistributionValue.sum
  buckets := histogramBucketsToInternal (d.elim [] DistributionValue.buckets)
  explicitBounds := ((d.bind DistributionValue.bucketOptions).bind BucketOptions.explicit).getD []

/-- `setSummaryDataPointValue`, on a point with these labels and times. -/
def summaryDataPoint (labels : List (Option Otlp.StringKeyValue)) (start time : UInt64)
    (s : Option (SummaryValue F)) : Otlp.SummaryDataPoint F where
  labels := labels
  startTimeUnixNano := start
  timeUnixNano := time
  count := ((s.bind SummaryValue.count).getD 0).toUInt64
  sum := (s.bind SummaryValue.sum).getD (GoFloat.ofInt64 0)
  percentileValues :=
    percentileToInternal ((s.bind SummaryValue.snapshot).elim [] Snapshot.percentileValues)

end Values

/-! ## Slices of points -/

/-- A slice of points under construction, and the number of points written to it. -/
structure Slice (α : Type) where
  points : List α
  num : Nat

namespace Slice

variable {α : Type}

def empty : Slice α := ⟨[], 0⟩

/-- `Resize`, from a slice with fresh points `a` behind its end. -/
def resize (l : List α) (n : Nat) (a : α) : List α := (l ++ List.replicate (n - l.length) a).take n

/-- The slice allocated on its first use, when it has the point at index `num`. -/
def alloc (s : Slice α) (count : Nat) (fresh : α) : Go (Slice α) :=
  let points := if s.points.length = 0 then resize s.points count fresh else s.points
  if s.num < points.length then .ok ⟨points, s.num⟩ else .error .indexOutOfRange

/-- The point at index `num` filled in. -/
def fill (s : Slice α) (a : α) : Slice α := ⟨s.points.set s.num a, s.num + 1⟩

/-- The final `Resize`; a slice that was never opened stays nil. -/
def trim (s : Slice α) (fresh : α) : Option (List (Option α)) :=
  if s.points.length = 0 then none else some ((resize s.points s.num fresh).map some)

end Slice

section SetDataPoints

variable {F S : Type} [GoFloat F]

structure Slices (F : Type) where
  int64 : Slice Otlp.Int64DataPoint
  double : Slice (Otlp.DoubleDataPoint F)
  histogram : Slice (Otlp.HistogramDataPoint F)
  summary : Slice (Otlp.SummaryDataPoint F)

def freshInt64 : Otlp.Int64DataPoint := ⟨[], 0, 0, 0⟩
def freshDouble : Otlp.DoubleDataPoint F := ⟨[], 0, 0, GoFloat.ofInt64 0⟩
def freshHistogram : Otlp.HistogramDataPoint F := ⟨[], 0, 0, 0, GoFloat.ofInt64 0, [], []⟩
def freshSummary : Otlp.SummaryDataPoint F := ⟨[], 0, 0, 0, GoFloat.ofInt64 0, []⟩

/-- The body of `setDataPoints`'s inner loop, for a point that is not nil. -/
def setDataPoint (count : Nat) (keys : List (Option LabelKey)) (ts : TimeSeries F) (st : Slices F)
    (point : Point F) : Go (Slices F) :=
  let start := timestampToUnixNano ts.startTimestamp
  let time := timestampToUnixNano point.timestamp
  match point.value with
  | none => return st
  | some (.int64 n) => do
    let slice ← st.int64.alloc count freshInt64
    let labels ← setLabelsMap keys ts.labelValues
    return { st with int64 := slice.fill ⟨labels, start, time, n⟩ }
  | some (.double x) => do
    let slice ← st.double.alloc count freshDouble
    let labels ← setLabelsMap keys ts.labelValues
    return { st with double := slice.fill ⟨labels, start, time, x⟩ }
  | some (.distribution d) => do
    let slice ← st.histogram.alloc count freshHistogram
    let labels ← setLabelsMap keys ts.labelValues
    return { st with histogram := slice.fill (histogramDataPoint labels start time d) }
  | some (.summary s) => do
    let slice ← st.summary.alloc count freshSummary
    let labels ← setLabelsMap keys ts.labelValues
    return { st with summary := slice.fill (summaryDataPoint labels start time s) }

/-- `getPointsCount`; nil points count, a nil time series has none. -/
def getPointsCount (ocMetric : Metric F S) : Nat :=
  (ocMetric.timeseries.map fun ts => ts.elim 0 fun ts => ts.points.length).sum

/-- `setDataPoints`, on the metric with this descriptor. -/
def setDataPoints (ocMetric : Metric F S) (desc : Option Otlp.MetricDescriptor) :
    Go (Otlp.Metric F) := do
  let keys := ocMetric.metricDescriptor.elim [] MetricDescriptor.labelKeys
  let count := getPointsCount ocMetric
  let st ← ocMetric.timeseries.foldlM (skipNil fun st ts =>
    ts.points.foldlM (skipNil (setDataPoint count keys ts)) st)
    ⟨Slice.empty, Slice.empty, Slice.empty, Slice.empty⟩
  return ⟨desc, st.int64.trim freshInt64, st.double.trim freshDouble,
    st.histogram.trim freshHistogram, st.summary.trim freshSummary⟩

def ocMetricToInternal (ocMetric : Metric F S) : Go (Otlp.Metric F) :=
  setDataPoints ocMetric (descriptorToInternal ocMetric.metricDescriptor)

end SetDataPoints

/-! ## Batches -/

section Batches

variable {F N S R : Type} [GoFloat F] (resourceToInternal : Option N → Option S → R)

/-- `appendOcToMetriData`: the metrics without a resource of their own share the first resource
metrics, every other metric gets one for itself (`ocMetricToResourceMetrics`). -/
def appendOcToMetriData (md : MetricsData F N S) (dest : Otlp.MetricData F R) :
    Go (Otlp.MetricData F R) :=
  if md.node.isNone && md.resource.isNone && md.metrics.isEmpty then return dest
  else if md.metrics.isEmpty then
    return dest ++ [some ⟨resourceToInternal md.node md.resource, []⟩]
  else do
    let ms ← md.metrics.reduceOption.mapM fun m => return (m.resource, ← ocMetricToInternal m)
    let combined := (ms.filter fun m => m.1.isNone).map fun m => some m.2
    let distinct := (ms.filter fun m => m.1.isSome).map fun m =>
      some ⟨resourceToInternal md.node m.1, [some ⟨[some m.2]⟩]⟩
    return dest ++ some ⟨resourceToInternal md.node md.resource, [some ⟨combined⟩]⟩ :: distinct

def ocSliceToMetricData (ocmds : List (MetricsData F N S)) : Go (Otlp.MetricData F R) :=
  ocmds.foldlM (fun dest ocmd => appendOcToMetriData resourceToInternal ocmd dest) []

end Batches

end Collector.OpenCensus
