import Mathlib.Algebra.GroupWithZero.Nat
import Mathlib.Data.List.ReduceOption
import Collector.Go.Runtime

/-!
# OTLP metrics, version 1 (old)

The messages of `opentelemetry-proto-gen/metrics/v1old`, as the generated Go
code holds them: every element of a repeated message field is a pointer that
may be nil, and a repeated field itself may be a nil slice, which the remote
write exporter tells apart from an empty one. `F` is `float64` and `R` the
resource, which no code modelled here looks into.
-/

namespace Collector.Otlp

/-- `MetricDescriptor_Type`; a proto3 enum may hold a value outside its declaration. -/
inductive MetricType where
  | invalidType
  | int64
  | monotonicInt64
  | double
  | monotonicDouble
  | histogram
  | summary
  | unrecognized (n : Int32)
  deriving DecidableEq, Repr

/-- `MetricDescriptor_Type.String()`. -/
def MetricType.string : MetricType → String
  | invalidType => "INVALID_TYPE"
  | int64 => "INT64"
  | monotonicInt64 => "MONOTONIC_INT64"
  | double => "DOUBLE"
  | monotonicDouble => "MONOTONIC_DOUBLE"
  | histogram => "HISTOGRAM"
  | summary => "SUMMARY"
  | unrecognized n => toString n.toInt

/-- `MetricDescriptor_Temporality`. -/
inductive Temporality where
  | invalidTemporality
  | instantaneous
  | delta
  | cumulative
  | unrecognized (n : Int32)
  deriving DecidableEq, Repr

structure StringKeyValue where
  key : String
  value : String
  deriving DecidableEq, Repr

structure MetricDescriptor where
  name : String
  description : String
  unit : String
  type : MetricType
  temporality : Temporality
  deriving DecidableEq, Repr

structure Int64DataPoint where
  labels : List (Option StringKeyValue)
  startTimeUnixNano : UInt64
  timeUnixNano : UInt64
  value : Int64
  deriving DecidableEq, Repr

structure DoubleDataPoint (F : Type) where
  labels : List (Option StringKeyValue)
  startTimeUnixNano : UInt64
  timeUnixNano : UInt64
  value : F
  deriving DecidableEq, Repr

structure Exemplar (F : Type) where
  value : F
  timeUnixNano : UInt64
  attachments : List (Option StringKeyValue)
  deriving DecidableEq, Repr

structure Bucket (F : Type) where
  count : UInt64
  exemplar : Option (Exemplar F)
  deriving DecidableEq, Repr

structure HistogramDataPoint (F : Type) where
  labels : List (Option StringKeyValue)
  startTimeUnixNano : UInt64
  timeUnixNano : UInt64
  count : UInt64
  sum : F
  buckets : List (Option (Bucket F))
  explicitBounds : List F
  deriving DecidableEq, Repr

structure ValueAtPercentile (F : Type) where
  percentile : F
  value : F
  deriving DecidableEq, Repr

structure SummaryDataPoint (F : Type) where
  labels : List (Option StringKeyValue)
  startTimeUnixNano : UInt64
  timeUnixNano : UInt64
  count : UInt64
  sum : F
  percentileValues : List (Option (ValueAtPercentile F))
  deriving DecidableEq, Repr

/-- A metric. The field of points is the one of the descriptor's type; nil is `none`. -/
structure Metric (F : Type) where
  metricDescriptor : Option MetricDescriptor
  int64DataPoints : Option (List (Option Int64DataPoint))
  doubleDataPoints : Option (List (Option (DoubleDataPoint F)))
  histogramDataPoints : Option (List (Option (HistogramDataPoint F)))
  summaryDataPoints : Option (List (Option (SummaryDataPoint F)))
  deriving DecidableEq, Repr

structure InstrumentationLibraryMetrics (F : Type) where
  metrics : List (Option (Metric F))
  deriving DecidableEq, Repr

structure ResourceMetrics (F R : Type) where
  resource : R
  instrumentationLibraryMetrics : List (Option (InstrumentationLibraryMetrics F))
  deriving DecidableEq, Repr

/-- `dataold.MetricData`, the slice it points to. -/
abbrev MetricData (F R : Type) := List (Option (ResourceMetrics F R))

/-- The metrics of a batch that are not nil, nor under a nil entry. -/
def metricsOf {F R : Type} (md : MetricData F R) : List (Metric F) :=
  md.reduceOption.flatMap fun rm =>
    rm.instrumentationLibraryMetrics.reduceOption.flatMap fun ilm => ilm.metrics.reduceOption

/-- `MetricData.MetricCount`: nil metrics are counted, what hangs under a nil parent is not. -/
def metricCount {F R : Type} (md : MetricData F R) : Nat :=
  (md.map fun
    | none => 0
    | some rm => (rm.instrumentationLibraryMetrics.map fun
      | none => 0
      | some ilm => ilm.metrics.length).sum).sum

theorem length_flatMap_reduceOption_le {α β : Type} {f : α → List β} {g : Option α → Nat}
    (h : ∀ a, (f a).length ≤ g (some a)) (l : List (Option α)) :
    (l.reduceOption.flatMap f).length ≤ (l.map g).sum := by
  induction l with
  | nil => exact Nat.le_refl 0
  | cons a l ih =>
    cases a with
    | none =>
      rw [List.reduceOption_cons_of_none, List.map_cons, List.sum_cons]
      omega
    | some a =>
      have := h a
      simp only [List.reduceOption_cons_of_some, List.flatMap_cons, List.length_append,
        List.map_cons, List.sum_cons]
      omega

theorem length_metricsOf_le {F R : Type} (md : MetricData F R) :
    (metricsOf md).length ≤ metricCount md := by
  refine length_flatMap_reduceOption_le (fun rm => ?_) md
  refine length_flatMap_reduceOption_le (fun ilm => ?_) rm.instrumentationLibraryMetrics
  exact ilm.metrics.reduceOption_length_le

/-- The second result of `MetricData.MetricAndDataPointCount`: nil points are counted. -/
def dataPointCount {F R : Type} (md : MetricData F R) : Nat :=
  ((metricsOf md).map fun m =>
    (m.int64DataPoints.getD []).length + (m.doubleDataPoints.getD []).length +
      (m.histogramDataPoints.getD []).length + (m.summaryDataPoints.getD []).length).sum

/-! ## Removing nil entries -/

/-- A metric without its nil points. A nil slice stays nil. -/
def Metric.removeNils {F : Type} (m : Metric F) : Metric F where
  metricDescriptor := m.metricDescriptor
  int64DataPoints := m.int64DataPoints.map fun pts => pts.filter Option.isSome
  doubleDataPoints := m.doubleDataPoints.map fun pts => pts.filter Option.isSome
  histogramDataPoints := m.histogramDataPoints.map fun pts => pts.filter Option.isSome
  summaryDataPoints := m.summaryDataPoints.map fun pts => pts.filter Option.isSome

def InstrumentationLibraryMetrics.removeNils {F : Type} (ilm : InstrumentationLibraryMetrics F) :
    InstrumentationLibraryMetrics F where
  metrics := (ilm.metrics.filter Option.isSome).map fun m => m.map Metric.removeNils

def ResourceMetrics.removeNils {F R : Type} (rm : ResourceMetrics F R) : ResourceMetrics F R where
  resource := rm.resource
  instrumentationLibraryMetrics := (rm.instrumentationLibraryMetrics.filter Option.isSome).map
    fun ilm => ilm.map InstrumentationLibraryMetrics.removeNils

/-- A batch without its nil resource metrics, library metrics, metrics and points. -/
def removeNils {F R : Type} (md : MetricData F R) : MetricData F R :=
  (md.filter Option.isSome).map fun rm => rm.map ResourceMetrics.removeNils

end Collector.Otlp
