import Collector.RemoteWrite.Conversion

/-!
# Nil entries in a batch

`PushMetrics` means to pass over nil resource metrics, library metrics, metrics
and points. A batch and the same batch without its nil entries have the same
emissions, so their conversions agree whenever the first one returns; it
returns exactly for a `Convertible` batch. `handleSummaryMetric` is the handler
that has no check: one nil summary point ends the process.
-/

namespace Collector.RemoteWrite

open Otlp Lib List

section NilTolerance

theorem reduceOption_filter_isSome {α : Type} (l : List (Option α)) :
    (l.filter Option.isSome).reduceOption = l.reduceOption := by
  induction l with
  | nil => rfl
  | cons a l ih =>
    cases a with
    | none => rw [filter_cons_of_neg (by simp), ih, reduceOption_cons_of_none]
    | some a =>
      rw [filter_cons_of_pos rfl, reduceOption_cons_of_some, ih,
        reduceOption_cons_of_some]

theorem getD_map_filter {α : Type} (l : Option (List (Option α))) :
    ((l.map fun pts => pts.filter Option.isSome).getD []).reduceOption =
      (l.getD []).reduceOption := by
  cases l with
  | none => rfl
  | some l => exact reduceOption_filter_isSome l

variable {F R : Type}

theorem metricsOf_removeNils (md : MetricData F R) :
    metricsOf (removeNils md) = (metricsOf md).map Metric.removeNils := by
  simp only [metricsOf, removeNils, reduceOption_map, reduceOption_filter_isSome,
    flatMap_map, map_flatMap, ResourceMetrics.removeNils,
    InstrumentationLibraryMetrics.removeNils]

theorem MetricOk.removeNils {m : Metric F} (h : MetricOk m) : MetricOk m.removeNils := by
  intro hv
  have hp := h hv
  show PointsOk m.removeNils (getType m.metricDescriptor)
  cases ht : getType m.metricDescriptor <;>
    simp only [ht, PointsOk, Metric.removeNils, Option.mem_def, Option.map_eq_some_iff,
      forall_exists_index, and_imp, forall_apply_eq_imp_iff₂, reduceOption_filter_isSome] at hp ⊢
  case summary => exact fun pts hpts => ⟨by simp, (hp pts hpts).2⟩
  all_goals exact hp

theorem Convertible.removeNils {md : MetricData F R} (h : Convertible md) :
    Convertible (removeNils md) := by
  intro m hm
  rw [metricsOf_removeNils] at hm
  obtain ⟨m', hm', rfl⟩ := mem_map.1 hm
  exact (h m' hm').removeNils

variable [Unicode] [GoFloat F] (ns : String)

theorem metricEmissions_removeNils (m : Metric F) :
    metricEmissions ns m.removeNils = metricEmissions ns m := by
  show (if validateMetrics m.metricDescriptor then
    pointEmissions ns m.removeNils (getType m.metricDescriptor) else []) = _
  unfold metricEmissions
  cases getType m.metricDescriptor <;>
    simp only [pointEmissions, Metric.removeNils, getD_map_filter]

theorem emissions_removeNils (md : MetricData F R) :
    emissions ns (removeNils md) = emissions ns md := by
  simp only [emissions, metricsOf_removeNils, flatMap_map, metricEmissions_removeNils]

/-- The conversion returns, with the `tsMap` of the batch without its nil entries. -/
def NilTolerant (τ : Type) (ords : Nat → MapOrder Label) (md : MetricData F R) : Prop :=
  ∃ st st', convert (τ := τ) ords ns md = .ok st ∧
    convert (τ := τ) ords ns (removeNils md) = .ok st' ∧ st.conv.tsMap = st'.conv.tsMap

/-- **Which batches convert as if they had no nil entries.** -/
theorem nilTolerant_iff (τ : Type) (md : MetricData F R) :
    (∀ ords, NilTolerant ns τ ords md) ↔ Convertible md := by
  constructor
  · intro h
    by_contra hn
    obtain ⟨st, _, hst, -⟩ := h fun _ => .stored
    obtain ⟨c, hc⟩ := convert_crash (τ := τ) (fun _ => .stored) ns hn
    rw [hc] at hst
    cases hst
  · intro h ords
    refine ⟨_, _, convert_ok ords ns h, convert_ok ords ns h.removeNils, ?_⟩
    rw [pushed, pushed, emissions_removeNils]

end NilTolerance

section NilSummary

attribute [local instance] Unicode.latin1 GoFloat.whole

def nilSummaryPoint : MetricData Int Unit :=
  [some ⟨(), [some ⟨[some ⟨some ⟨"m", "", "", .summary, .cumulative⟩, none, none, none,
    some [none]⟩]⟩]⟩]

theorem nilSummaryPoint_crashes : ¬ NilTolerant "" Unit (fun _ => .stored) nilSummaryPoint := by
  rintro ⟨st, st', h, -⟩
  have hc : convert (F := Int) (τ := Unit) (fun _ => .stored) "" nilSummaryPoint =
      .error .nilDereference := rfl
  cases h

end NilSummary

end Collector.RemoteWrite
