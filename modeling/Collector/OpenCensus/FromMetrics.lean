import Mathlib.Data.String.Basic
import Collector.Lib.Guarded
import Collector.Lib.Tabulate
import Collector.OpenCensus.FromInternal
import Collector.Otlp.Metrics

/-!
# From internal metrics to OpenCensus

`translator/internaldata/old_metrics_to_oc.go`. OpenCensus has one list of label keys for a metric
and a list of values, matched by position, for each time series, so the keys of all points are
collected and sorted first. The resource goes through `resourceToOC`, a parameter.
-/

namespace Collector.OpenCensus

open Lib

/-! ## Label keys -/

structure LabelKeys where
  keys : List (Option LabelKey)
  keyIndices : GoMap String Nat

def addLabelKeys (keySet : GoMap String Unit) (labels : List (Option Otlp.StringKeyValue)) :
    GoMap String Unit :=
  enter Otlp.StringKeyValue.key (fun _ => ()) keySet labels.reduceOption

/-- A loop of `collectLabelKeys`, over the points of one kind. -/
def addPointsKeys {P : Type} (labels : P → List (Option Otlp.StringKeyValue))
    (points : Option (List (Option P))) (keySet : GoMap String Unit) : GoMap String Unit :=
  (points.getD []).reduceOption.foldl (fun keySet p => addLabelKeys keySet (labels p)) keySet

/-- `sort.Strings`. -/
def sortStrings (l : List String) : List String := l.mergeSort fun a b => a ≤ b

section Metrics

variable {F N S R : Type}

def labelKeySet (metric : Otlp.Metric F) : GoMap String Unit :=
  addPointsKeys Otlp.SummaryDataPoint.labels metric.summaryDataPoints <|
  addPointsKeys Otlp.HistogramDataPoint.labels metric.histogramDataPoints <|
  addPointsKeys Otlp.DoubleDataPoint.labels metric.doubleDataPoints <|
  addPointsKeys Otlp.Int64DataPoint.labels metric.int64DataPoints ∅

def indexKeys (sortedKeys : List String) : LabelKeys where
  keys := sortedKeys.map fun key => some ⟨key, ""⟩
  keyIndices := enter Prod.fst Prod.snd ∅ sortedKeys.zipIdx

/-- `collectLabelKeys`. The set is visited in any order, but then it is sorted. -/
def collectLabelKeys (metric : Otlp.Metric F) : LabelKeys :=
  indexKeys (sortStrings (labelKeySet metric).keys)

/-- `labelValuesToOC`: every key has a value, which is set where the point has the label. -/
def labelValuesToOC (labels : List (Option Otlp.StringKeyValue)) (labelKeys : LabelKeys) :
    Go (List (Option LabelValue)) :=
  if labelKeys.keys.length = 0 then .ok []
  else do
    let labelValues ← labels.foldlM (skipNil fun labelValues kv =>
        setIndex labelValues ((labelKeys.keyIndices.lookup kv.key).getD 0) ⟨kv.value, true⟩)
      (List.replicate labelKeys.keys.length ⟨"", false⟩)
    return labelValues.map some

/-! ## Descriptors -/

def descriptorTypeToOC : Otlp.MetricType → MetricType
  | .invalidType => .unspecified
  | .int64 => .gaugeInt64
  | .double => .gaugeDouble
  | .monotonicInt64 => .cumulativeInt64
  | .monotonicDouble => .cumulativeDouble
  | .histogram => .cumulativeDistribution
  | .summary => .summary
  | .unrecognized _ => .unrecognized (-1)

def descriptorToOC (descriptor : Option Otlp.MetricDescriptor) (labelKeys : LabelKeys) :
    Option MetricDescriptor :=
  descriptor.map fun d =>
    ⟨d.name, d.description, d.unit, descriptorTypeToOC d.type, labelKeys.keys⟩

/-! ## Points -/

def pointToOC (start time : UInt64) (labels : List (Option Otlp.StringKeyValue))
    (labelKeys : LabelKeys) (value : PointValue F) : Go (TimeSeries F) := do
  let labelValues ← labelValuesToOC labels labelKeys
  return {
    startTimestamp := unixNanoToTimestamp start
    labelValues
    points := [some ⟨unixNanoToTimestamp time, some value⟩] }

def int64PointToOC (labelKeys : LabelKeys) (point : Otlp.Int64DataPoint) : Go (TimeSeries F) :=
  pointToOC point.startTimeUnixNano point.timeUnixNano point.labels labelKeys (.int64 point.value)

def doublePointToOC (labelKeys : LabelKeys) (point : Otlp.DoubleDataPoint F) :
    Go (TimeSeries F) :=
  pointToOC point.startTimeUnixNano point.timeUnixNano point.labels labelKeys
    (.double point.value)

def exemplarToOC (exemplar : Otlp.Exemplar F) : Exemplar F where
  value := exemplar.value
  timestamp := unixNanoToTimestamp exemplar.timeUnixNano
  attachments := enter Otlp.StringKeyValue.key Otlp.StringKeyValue.value ∅
    exemplar.attachments.reduceOption

def histogramBucketsToOC (buckets : List (Option (Otlp.Bucket F))) :
    Go (List (Option (Bucket F))) :=
  buckets.mapM fun bucket => do
    let bucket ← deref bucket
    return some ⟨bucket.count.toInt64, bucket.exemplar.map exemplarToOC⟩

def histogramExplicitBoundsToOC (bounds : List F) : Option (BucketOptions F) :=
  if bounds.length = 0 then none else some ⟨some bounds⟩

def histogramPointToOC (labelKeys : LabelKeys) (point : Otlp.HistogramDataPoint F) :
    Go (TimeSeries F) := do
  let buckets ← histogramBucketsToOC point.buckets
  pointToOC point.startTimeUnixNano point.timeUnixNano point.labels labelKeys
    (.distribution (some {
      count := point.count.toInt64
      sum := point.sum
      bucketOptions := histogramExplicitBoundsToOC point.explicitBounds
      buckets }))

def percentileToOC (percentiles : List (Option (Otlp.ValueAtPercentile F))) :
    Go (Option (Snapshot F)) :=
  if percentiles.length = 0 then .ok none
  else do
    let ocPercentiles ← percentiles.mapM fun p => do
      let p ← deref p
      return some ⟨p.percentile, p.value⟩
    return some ⟨ocPercentiles⟩

def summaryPointToOC (labelKeys : LabelKeys) (point : Otlp.SummaryDataPoint F) :
    Go (TimeSeries F) := do
  let snapshot ← percentileToOC point.percentileValues
  pointToOC point.startTimeUnixNano point.timeUnixNano point.labels labelKeys
    (.summary (some ⟨some point.count.toInt64, some point.sum, snapshot⟩))

/-- A loop of `dataPointsToTimeseries`, over the points of one kind. -/
def pointsToTimeseries {P : Type} (toOC : P → Go (TimeSeries F))
    (points : Option (List (Option P))) : Go (List (Option (TimeSeries F))) :=
  (points.getD []).reduceOption.mapM fun p => return some (← toOC p)

def dataPointsToTimeseries (metric : Otlp.Metric F) (labelKeys : LabelKeys) :
    Go (List (Option (TimeSeries F))) := do
  let ips ← pointsToTimeseries (int64PointToOC labelKeys) metric.int64DataPoints
  let dps ← pointsToTimeseries (doublePointToOC labelKeys) metric.doubleDataPoints
  let hps ← pointsToTimeseries (histogramPointToOC labelKeys) metric.histogramDataPoints
  let sps ← pointsToTimeseries (summaryPointToOC labelKeys) metric.summaryDataPoints
  return ips ++ dps ++ hps ++ sps

/-! ## Batches -/

def metricToOC (metric : Otlp.Metric F) : Go (Metric F S) := do
  let labelKeys := collectLabelKeys metric
  let timeseries ← dataPointsToTimeseries metric labelKeys
  return ⟨descriptorToOC metric.metricDescriptor labelKeys, timeseries, none⟩

/-- The inner loop of `ResourceMetricsToOC`, which passes over what is nil. -/
def libraryMetricsToOC (ilm : Option (Otlp.InstrumentationLibraryMetrics F)) :
    Go (List (Option (Metric F S))) :=
  match ilm with
  | none => .ok []
  | some ilm => ilm.metrics.reduceOption.mapM fun m => return some (← metricToOC m)

variable (resourceToOC : R → Option N × Option S)

def resourceMetricsToOC (rm : Otlp.ResourceMetrics F R) : Go (MetricsData F N S) :=
  let translated := resourceToOC rm.resource
  match rm.instrumentationLibraryMetrics with
  | [] => .ok ⟨translated.1, translated.2, []⟩
  | first :: rest => do
    -- the capacity of the result is the number of metrics of the first library
    let _ ← deref first
    let ocMetrics ← (first :: rest).mapM libraryMetricsToOC
    return ⟨translated.1, translated.2, ocMetrics.flatten⟩

def metricDataToOC (md : Otlp.MetricData F R) : Go (List (MetricsData F N S)) :=
  md.reduceOption.mapM (resourceMetricsToOC resourceToOC)

end Metrics

end Collector.OpenCensus
