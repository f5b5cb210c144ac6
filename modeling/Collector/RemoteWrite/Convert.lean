import Collector.Go.Errors
import Collector.RemoteWrite.Labels

/-!
# Conversion of a batch to time series

The loop of `PushMetrics` over a batch and the three handlers of `exporter.go`.
`tsMap` is passed along explicitly, with the number of label sets made so far:
the `n`-th call of `createLabelSet` ranges over its map in the order `ords n`.
`Conversion.lean` says what a conversion computes.
-/

namespace Collector.RemoteWrite

open Otlp Lib

/-- `prompb.Sample`. -/
structure Sample (F : Type) where
  value : F
  timestamp : Int64
  deriving DecidableEq, Repr

def convertTimeStamp (timestamp : UInt64) : Int64 := (timestamp / 1000000).toInt64

/-- `tsMap`, and the label sets made so far. -/
structure ConvState (F : Type) where
  tsMap : TsMap (Sample F)
  calls : Nat

/-- What the loop of `PushMetrics` carries along. -/
structure PushState (F τ : Type) where
  conv : ConvState F
  dropped : Nat
  errs : List (GoError τ)

/-- `desc.GetType()`. -/
def getType (desc : Option MetricDescriptor) : MetricType :=
  match desc with
  | none => .invalidType
  | some desc => desc.type

section Handlers

variable {F R τ : Type} [Unicode] [GoFloat F] (ords : Nat → MapOrder Label) (ns : String)

/-- One `createLabelSet` and the `addSample` that follows it. -/
def emit (st : ConvState F) (labels : List (Option StringKeyValue)) (extras : List String)
    (sample : Sample F) (ty : MetricType) : Go (ConvState F) := do
  let labels ← createLabelSet (ords st.calls) labels extras
  return ⟨addSample st.tsMap (some sample) (some labels) ty, st.calls + 1⟩

/-- The loop body of `handleScalarMetric` for an int point. -/
def addInt64Point (desc : Option MetricDescriptor) (st : ConvState F) (pt : Int64DataPoint) :
    Go (ConvState F) :=
  let name := getPromMetricName desc ns
  emit ords st pt.labels [nameStr, name]
    ⟨GoFloat.ofInt64 pt.value, convertTimeStamp pt.timeUnixNano⟩ (getType desc)

/-- The loop body of `handleScalarMetric` for a double point. -/
def addDoublePoint (desc : Option MetricDescriptor) (st : ConvState F) (pt : DoubleDataPoint F) :
    Go (ConvState F) :=
  let name := getPromMetricName desc ns
  emit ords st pt.labels [nameStr, name] ⟨pt.value, convertTimeStamp pt.timeUnixNano⟩
    (getType desc)

def handleScalarMetric (st : ConvState F) (metric : Metric F) :
    Go (ConvState F × Option (GoError τ)) := do
  let desc ← deref metric.metricDescriptor
  match desc.type with
  | .monotonicInt64 | .int64 =>
    match metric.int64DataPoints with
    | none => return (st, some (.new ("nil data point field in metric " ++ desc.name)))
    | some pts =>
      let st ← pts.foldlM (skipNil (addInt64Point ords ns metric.metricDescriptor)) st
      return (st, none)
  | .monotonicDouble | .double =>
    match metric.doubleDataPoints with
    | none => return (st, some (.new ("nil data point field in metric " ++ desc.name)))
    | some pts =>
      let st ← pts.foldlM (skipNil (addDoublePoint ords ns metric.metricDescriptor)) st
      return (st, none)
  | _ => return (st, some (.new "invalid metric type: wants int or double data points"))

/-- The body of the loop over the buckets of a histogram point: bucket `le` takes the bound of the
same index. The second component is `totalCount`. -/
def addBucket (desc : Option MetricDescriptor) (pt : HistogramDataPoint F)
    (acc : ConvState F × UInt64) (bk : Option (Bucket F) × Nat) : Go (ConvState F × UInt64) := do
  let bucket ← deref bk.1
  let bound ← index pt.explicitBounds bk.2
  let boundStr := GoFloat.formatFloat bound
  let st ← emit ords acc.1 pt.labels
    [nameStr, getPromMetricName desc ns ++ bucketStr, leStr, boundStr]
    ⟨GoFloat.ofUint64 bucket.count, convertTimeStamp pt.timeUnixNano⟩ (getType desc)
  return (st, acc.2 + bucket.count)

/-- The loop body of `handleHistogramMetric`. -/
def addHistogramPoint (desc : Option MetricDescriptor) (st : ConvState F)
    (pt : HistogramDataPoint F) : Go (ConvState F) := do
  let time := convertTimeStamp pt.timeUnixNano
  let mType := getType desc
  let baseName := getPromMetricName desc ns
  let st ← emit ords st pt.labels [nameStr, baseName ++ sumStr] ⟨pt.sum, time⟩ mType
  let st ← emit ords st pt.labels [nameStr, baseName ++ countStr]
    ⟨GoFloat.ofUint64 pt.count, time⟩ mType
  let acc ← pt.buckets.zipIdx.foldlM (addBucket ords ns desc pt) (st, 0)
  emit ords acc.1 pt.labels [nameStr, baseName ++ bucketStr, leStr, pInfStr]
    ⟨GoFloat.ofUint64 acc.2, time⟩ mType

def handleHistogramMetric (st : ConvState F) (metric : Metric F) :
    Go (ConvState F × Option (GoError τ)) :=
  match metric.histogramDataPoints with
  | none => return (st, some (.new "invalid metric type: wants histogram points"))
  | some pts => do
    let st ← pts.foldlM (skipNil (addHistogramPoint ords ns metric.metricDescriptor)) st
    return (st, none)

/-- The body of the loop over the percentiles of a summary point. -/
def addQuantile (desc : Option MetricDescriptor) (pt : SummaryDataPoint F) (st : ConvState F)
    (qt : Option (ValueAtPercentile F)) : Go (ConvState F) := do
  let qt ← deref qt
  let percentileStr := GoFloat.formatFloat qt.percentile
  emit ords st pt.labels [nameStr, getPromMetricName desc ns, quantileStr, percentileStr]
    ⟨qt.value, convertTimeStamp pt.timeUnixNano⟩ (getType desc)

/-- The loop body of `handleSummaryMetric`. Unlike the other handlers it does not pass over nil
points: `pt.TimeUnixNano` is read at once. -/
def addSummaryPoint (desc : Option MetricDescriptor) (st : ConvState F)
    (pt : Option (SummaryDataPoint F)) : Go (ConvState F) := do
  let pt ← deref pt
  let time := convertTimeStamp pt.timeUnixNano
  let mType := getType desc
  let baseName := getPromMetricName desc ns
  let st ← emit ords st pt.labels [nameStr, baseName ++ sumStr] ⟨pt.sum, time⟩ mType
  let st ← emit ords st pt.labels [nameStr, baseName ++ countStr]
    ⟨GoFloat.ofUint64 pt.count, time⟩ mType
  pt.percentileValues.foldlM (addQuantile ords ns desc pt) st

def handleSummaryMetric (st : ConvState F) (metric : Metric F) :
    Go (ConvState F × Option (GoError τ)) :=
  match metric.summaryDataPoints with
  | none => return (st, some (.new "invalid metric type: wants summary points"))
  | some pts => do
    let st ← pts.foldlM (addSummaryPoint ords ns metric.metricDescriptor) st
    return (st, none)

/-- `dropped++` and `errs = append(errs, err)`. -/
def PushState.drop (st : PushState F τ) (err : GoError τ) : PushState F τ :=
  { st with dropped := st.dropped + 1, errs := st.errs ++ [err] }

def PushState.handled (st : PushState F τ) (res : ConvState F × Option (GoError τ)) :
    PushState F τ :=
  match res with
  | (conv, none) => { st with conv }
  | (conv, some err) => { st with conv }.drop err

/-- The body of `PushMetrics`'s innermost loop, for a metric that is not nil. -/
def pushMetric (st : PushState F τ) (metric : Metric F) : Go (PushState F τ) :=
  if validateMetrics metric.metricDescriptor then
    match getType metric.metricDescriptor with
    | .monotonicInt64 | .int64 | .monotonicDouble | .double =>
      return st.handled (← handleScalarMetric ords ns st.conv metric)
    | .histogram => return st.handled (← handleHistogramMetric ords ns st.conv metric)
    | .summary => return st.handled (← handleSummaryMetric ords ns st.conv metric)
    | _ => return st.drop (.new "unsupported metric type")
  else return st.drop (.new "invalid temporality and type combination")

/-- The three nested loops of `PushMetrics`, which pass over nil entries on each level. -/
def pushAll (st : PushState F τ) (md : MetricData F R) : Go (PushState F τ) :=
  md.foldlM (skipNil fun st rm =>
    rm.instrumentationLibraryMetrics.foldlM (skipNil fun st ilm =>
      ilm.metrics.foldlM (skipNil (pushMetric ords ns)) st) st) st

/-- `tsMap`, `dropped` and `errs` at the start of `PushMetrics`. -/
def PushState.init : PushState F τ := ⟨⟨∅, 0⟩, 0, []⟩

/-- What `PushMetrics` computes before it exports. -/
def convert (md : MetricData F R) : Go (PushState F τ) := pushAll ords ns PushState.init md

end Handlers

end Collector.RemoteWrite
