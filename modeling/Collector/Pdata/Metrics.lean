import Mathlib.Data.List.Perm.Basic
import Collector.OpenCensus.Translation

/-!
# Metrics in the pipelines

`pdata.Metrics` holds one of two representations: the old internal one, or the
OpenCensus batches as a receiver delivered them. `consumer/pdatautil` converts
and counts them. A value that holds neither stops the process at the first look
and never enters a pipeline.
-/

namespace Collector.Pdata

open Otlp

/-- `pdata.Metrics`. -/
inductive Metrics (F N S R : Type) where
  | internal (md : MetricData F R)
  | openCensus (ocmds : List (OpenCensus.MetricsData F N S))

namespace Metrics

variable {F N S R : Type}

/-- `pdatautil.MetricCount`. -/
def metricCount : Metrics F N S R → Nat
  | internal md => Otlp.metricCount md
  | openCensus ocmds => (ocmds.map fun ocmd => ocmd.metrics.length).sum

/-- `pdatautil.MetricPointCount`. -/
def dataPointCount : Metrics F N S R → Nat
  | internal md => Otlp.dataPointCount md
  | openCensus ocmds =>
    (ocmds.map fun ocmd => (ocmd.metrics.map fun m =>
      m.elim 0 OpenCensus.getPointsCount).sum).sum

/-- `pdatautil.TimeseriesAndPointCount`. -/
def timeseriesAndPointCount (md : OpenCensus.MetricsData F N S) : Nat × Nat :=
  ((md.metrics.map fun m => m.elim 0 fun m => m.timeseries.length).sum,
    (md.metrics.map fun m => m.elim 0 OpenCensus.getPointsCount).sum)

/-- `pdatautil.MetricAndDataPointCount`. Of OpenCensus batches it counts the time series, where
`MetricCount` counts the metrics. -/
def metricAndDataPointCount : Metrics F N S R → Nat × Nat
  | internal md => (Otlp.metricCount md, Otlp.dataPointCount md)
  | openCensus ocmds =>
    ((ocmds.map fun ocmd => (timeseriesAndPointCount ocmd).1).sum,
      (ocmds.map fun ocmd => (timeseriesAndPointCount ocmd).2).sum)

/-- `pdatautil.MetricsToOldInternalMetrics`. -/
def toOldInternalMetrics [GoFloat F] (resourceToInternal : Option N → Option S → R) :
    Metrics F N S R → Go (MetricData F R)
  | internal md => .ok md
  | openCensus ocmds => OpenCensus.ocSliceToMetricData resourceToInternal ocmds

section Translation

variable [GoFloat F] {resourceToInternal : Option N → Option S → R} {md : Metrics F N S R}
  {md' : MetricData F R}

/-- The metrics of a batch that are not nil, in the internal form. -/
def metrics : Metrics F N S R → List (Metric F)
  | internal md => metricsOf md
  | openCensus ocmds =>
    ocmds.flatMap fun ocmd => ocmd.metrics.reduceOption.map OpenCensus.internalMetric

theorem length_metrics_le (md : Metrics F N S R) : md.metrics.length ≤ md.metricCount := by
  cases md with
  | internal md => exact length_metricsOf_le md
  | openCensus ocmds =>
    induction ocmds with
    | nil => exact Nat.le_refl 0
    | cons ocmd ocmds ih =>
      have := ocmd.metrics.reduceOption_length_le
      simp only [metrics, metricCount, List.flatMap_cons, List.length_append, List.length_map,
        List.map_cons, List.sum_cons] at ih ⊢
      omega

theorem metricsOf_perm (h : md.toOldInternalMetrics resourceToInternal = .ok md') :
    (metricsOf md').Perm md.metrics := by
  cases md with
  | internal md =>
    cases h
    exact List.Perm.refl _
  | openCensus ocmds =>
    obtain ⟨-, rfl⟩ := OpenCensus.ocSliceToMetricData_eq_ok h
    rw [OpenCensus.metricsOf_translated]
    refine List.Perm.flatMap_left ocmds fun ocmd _ => ?_
    by_cases he : ocmd.metrics = []
    · rw [OpenCensus.metricsOf_internalBatch_nil resourceToInternal he, he]
      exact List.Perm.refl _
    · rw [OpenCensus.metricsOf_internalBatch resourceToInternal he]
      refine List.Perm.map _ ?_
      have h := List.filter_append_perm (fun oc => oc.resource.isNone) ocmd.metrics.reduceOption
      simpa using h

theorem metricCount_ne_zero {m : Metric F}
    (h : md.toOldInternalMetrics resourceToInternal = .ok md') (hm : m ∈ metricsOf md') :
    md.metricCount ≠ 0 := by
  have hpos := List.length_pos_of_mem ((metricsOf_perm h).mem_iff.1 hm)
  have hle := md.length_metrics_le
  omega

end Translation

end Metrics

end Collector.Pdata
