import Collector.Go.Runtime

/-!
# OpenCensus metrics

The messages of `opencensus-proto/gen-go/metrics/v1` and the `MetricsData` the
OpenCensus receivers deliver. As in the generated code a message field is a
pointer that may be nil, and so is each element of a repeated one. `N` and `S`
are the node and the resource.
-/

namespace Collector.OpenCensus

/-- `google.protobuf.Timestamp`. -/
structure Timestamp where
  seconds : Int64
  nanos : Int32
  deriving DecidableEq, Repr

/-- `MetricDescriptor_Type`. -/
inductive MetricType where
  | unspecified
  | gaugeInt64
  | gaugeDouble
  | gaugeDistribution
  | cumulativeInt64
  | cumulativeDouble
  | cumulativeDistribution
  | summary
  | unrecognized (n : Int32)
  deriving DecidableEq, Repr

structure LabelKey where
  key : String
  description : String
  deriving DecidableEq, Repr

structure LabelValue where
  value : String
  hasValue : Bool
  deriving DecidableEq, Repr

structure MetricDescriptor where
  name : String
  description : String
  unit : String
  type : MetricType
  labelKeys : List (Option LabelKey)
  deriving DecidableEq, Repr

/-- `DistributionValue_Exemplar`. -/
structure Exemplar (F : Type) where
  value : F
  timestamp : Option Timestamp
  attachments : GoMap String String

/-- `DistributionValue_Bucket`. -/
structure Bucket (F : Type) where
  count : Int64
  exemplar : Option (Exemplar F)

/-- `DistributionValue_BucketOptions`: the bounds of its `Explicit` case, if it has one. -/
structure BucketOptions (F : Type) where
  explicit : Option (List F)

structure DistributionValue (F : Type) where
  count : Int64
  sum : F
  bucketOptions : Option (BucketOptions F)
  buckets : List (Option (Bucket F))

/-- `SummaryValue_Snapshot_ValueAtPercentile`. -/
structure ValueAtPercentile (F : Type) where
  percentile : F
  value : F

/-- `SummaryValue_Snapshot`, as far as the translation reads it. -/
structure Snapshot (F : Type) where
  percentileValues : List (Option (ValueAtPercentile F))

structure SummaryValue (F : Type) where
  count : Option Int64
  sum : Option F
  snapshot : Option (Snapshot F)

/-- The `oneof` of a point; the message inside may still be nil. -/
inductive PointValue (F : Type) where
  | int64 (n : Int64)
  | double (x : F)
  | distribution (d : Option (DistributionValue F))
  | summary (s : Option (SummaryValue F))

structure Point (F : Type) where
  timestamp : Option Timestamp
  value : Option (PointValue F)

structure TimeSeries (F : Type) where
  startTimestamp : Option Timestamp
  labelValues : List (Option LabelValue)
  points : List (Option (Point F))

structure Metric (F S : Type) where
  metricDescriptor : Option MetricDescriptor
  timeseries : List (Option (TimeSeries F))
  resource : Option S

/-- `consumerdata.MetricsData`. -/
structure MetricsData (F N S : Type) where
  node : Option N
  resource : Option S
  metrics : List (Option (Metric F S))

end Collector.OpenCensus
