import Collector.Pdata.Metrics
import Collector.RemoteWrite.Grouping

/-!
# OpenCensus metrics at the remote write exporter

`descriptorToInternal` fills a descriptor without setting its temporality, and
`validateMetrics` asks cumulative temporality of counters, histograms and
summaries. So of the metrics a receiver delivers in OpenCensus form only gauges
are ever exported; the others are dropped as invalid.
-/

namespace Collector.RemoteWrite

open Otlp Lib OpenCensus List

/-! ## Well-typed OpenCensus metrics -/

section WellTyped

variable {F S : Type}

/-- The kind of points a metric of this type has; only these types are received. -/
def kindMatches : OpenCensus.MetricType → PointValue F → Bool
  | .gaugeInt64, .int64 _ | .cumulativeInt64, .int64 _ => true
  | .gaugeDouble, .double _ | .cumulativeDouble, .double _ => true
  | .cumulativeDistribution, .distribution _ => true
  | .summary, .summary _ => true
  | _, _ => false

def knownType : OpenCensus.MetricType → Bool
  | .gaugeInt64 | .gaugeDouble | .cumulativeInt64 | .cumulativeDouble | .cumulativeDistribution
  | .summary => true
  | _ => false

def isGauge : OpenCensus.MetricType → Bool
  | .gaugeInt64 | .gaugeDouble => true
  | _ => false

/-- A metric with a descriptor of a known type and points of the matching kind. -/
def WellTyped (oc : OpenCensus.Metric F S) : Prop :=
  ∃ d, oc.metricDescriptor = some d ∧ knownType d.type = true ∧
    ∀ tp ∈ pointsOf oc, ∃ v, tp.2.value = some v ∧ kindMatches d.type v = true

def IsGauge (oc : OpenCensus.Metric F S) : Prop :=
  ∃ d, oc.metricDescriptor = some d ∧ isGauge d.type = true

variable [GoFloat F] {oc : OpenCensus.Metric F S}

theorem isGauge_of_validateMetrics (h : WellTyped oc)
    (hv : validateMetrics (internalMetric oc).metricDescriptor = true) : IsGauge oc := by
  obtain ⟨d, hd, hk, -⟩ := h
  refine ⟨d, hd, ?_⟩
  simp only [internalMetric, hd, descriptorToInternal] at hv
  cases ht : d.type <;> simp only [ht, knownType, Bool.false_eq_true] at hk <;>
    simp only [ht, descriptorTypeToInternal] at hv <;>
      first | rfl | exact absurd hv Bool.false_ne_true

theorem validateMetrics_of_isGauge (h : IsGauge oc) :
    validateMetrics (internalMetric oc).metricDescriptor = true := by
  obtain ⟨d, hd, hg⟩ := h
  simp only [internalMetric, hd, descriptorToInternal]
  cases ht : d.type <;> simp only [ht, isGauge, Bool.false_eq_true] at hg <;> rfl

theorem labels_foldl_addPoint (keys : List (Option LabelKey))
    (l : List (OpenCensus.TimeSeries F × Point F)) (acc : Points F)
    (hi : ∀ pt ∈ acc.int64, none ∉ pt.labels) (hd : ∀ pt ∈ acc.double, none ∉ pt.labels) :
    (∀ pt ∈ (l.foldl (addPoint keys) acc).int64, none ∉ pt.labels) ∧
      ∀ pt ∈ (l.foldl (addPoint keys) acc).double, none ∉ pt.labels := by
  induction l generalizing acc with
  | nil => exact ⟨hi, hd⟩
  | cons tp l ih =>
    have hl := none_notMem_labelsOf keys tp.1.labelValues
    refine ih _ ?_ ?_
    · intro pt hpt
      unfold addPoint at hpt
      split at hpt
      case h_2 =>
        rcases mem_append.1 hpt with hpt | hpt
        · exact hi pt hpt
        · rw [mem_singleton.1 hpt]; exact hl
      all_goals exact hi pt hpt
    · intro pt hpt
      unfold addPoint at hpt
      split at hpt
      case h_3 =>
        rcases mem_append.1 hpt with hpt | hpt
        · exact hd pt hpt
        · rw [mem_singleton.1 hpt]; exact hl
      all_goals exact hd pt hpt

theorem metricOk_of_isGauge (h : IsGauge oc) : MetricOk (internalMetric oc) := by
  intro _
  obtain ⟨hi, hd⟩ := labels_foldl_addPoint (labelKeysOf oc) (pointsOf oc) Points.none
    (fun _ h => nomatch h) (fun _ h => nomatch h)
  obtain ⟨d, hdesc, hg⟩ := h
  have hsome : ∀ {α : Type} (l : List α) pts, pts ∈ sliceOf l →
      ∀ pt ∈ pts.reduceOption, pt ∈ l := by
    intro α l pts hpts pt hpt
    unfold sliceOf at hpts
    split at hpts
    · cases hpts
    · cases hpts
      simpa [List.reduceOption] using hpt
  simp only [internalMetric, hdesc, descriptorToInternal]
  cases ht : d.type <;> simp only [ht, isGauge, Bool.false_eq_true] at hg
  · exact fun pts hpts pt hpt => hi pt (hsome _ pts hpts pt hpt)
  · exact fun pts hpts pt hpt => hd pt (hsome _ pts hpts pt hpt)

theorem length_foldl_addPoint (keys : List (Option LabelKey))
    (l : List (OpenCensus.TimeSeries F × Point F)) (acc : Points F) :
    acc.int64.length ≤ (l.foldl (addPoint keys) acc).int64.length ∧
      acc.double.length ≤ (l.foldl (addPoint keys) acc).double.length := by
  induction l generalizing acc with
  | nil => exact ⟨Nat.le_refl _, Nat.le_refl _⟩
  | cons tp l ih =>
    have hstep : acc.int64.length ≤ (addPoint keys acc tp).int64.length ∧
        acc.double.length ≤ (addPoint keys acc tp).double.length := by
      unfold addPoint
      split <;> simp
    obtain ⟨hi, hd⟩ := ih (addPoint keys acc tp)
    rw [foldl_cons]
    omega

theorem getD_sliceOf {α : Type} (l : List α) : ((sliceOf l).getD []).reduceOption = l := by
  cases l with
  | nil => rfl
  | cons a l => simp [sliceOf, List.reduceOption]

theorem emissions_of_isGauge [Unicode] (ns : String) (hw : WellTyped oc) (hg : IsGauge oc)
    (hp : pointsOf oc ≠ []) : metricEmissions ns (internalMetric oc) ≠ [] := by
  have hv := validateMetrics_of_isGauge hg
  obtain ⟨d, hd, -, hkind⟩ := hw
  obtain ⟨d', hd', hgauge⟩ := hg
  cases hd.symm.trans hd'
  obtain ⟨tp, l, hl⟩ := exists_cons_of_ne_nil hp
  obtain ⟨v, hval, hm⟩ := hkind tp (by rw [hl]; exact mem_cons_self)
  have hlen := length_foldl_addPoint (labelKeysOf oc) l
    (addPoint (labelKeysOf oc) Points.none tp)
  have hpts : pointsByKind oc = l.foldl (addPoint (labelKeysOf oc))
      (addPoint (labelKeysOf oc) Points.none tp) := by
    rw [pointsByKind, hl, foldl_cons]
  rw [metricEmissions, if_pos hv]
  cases ht : d.type with
  | gaugeInt64 =>
    have hty : getType (internalMetric oc).metricDescriptor = .int64 := by
      simp [internalMetric, hd, descriptorToInternal, ht, descriptorTypeToInternal, getType]
    have hone : 0 < (addPoint (labelKeysOf oc) Points.none tp).int64.length := by
      cases v <;> simp only [ht, kindMatches, Bool.false_eq_true] at hm
      simp [addPoint, hval]
    have hpos : 0 < (pointsByKind oc).int64.length := by
      rw [hpts]
      exact Nat.lt_of_lt_of_le hone hlen.1
    rw [hty]
    simp only [pointEmissions, internalMetric, getD_sliceOf]
    exact mt map_eq_nil_iff.1 (ne_nil_of_length_pos hpos)
  | gaugeDouble =>
    have hty : getType (internalMetric oc).metricDescriptor = .double := by
      simp [internalMetric, hd, descriptorToInternal, ht, descriptorTypeToInternal, getType]
    have hone : 0 < (addPoint (labelKeysOf oc) Points.none tp).double.length := by
      cases v <;> simp only [ht, kindMatches, Bool.false_eq_true] at hm
      simp [addPoint, hval]
    have hpos : 0 < (pointsByKind oc).double.length := by
      rw [hpts]
      exact Nat.lt_of_lt_of_le hone hlen.2
    rw [hty]
    simp only [pointEmissions, internalMetric, getD_sliceOf]
    exact mt map_eq_nil_iff.1 (ne_nil_of_length_pos hpos)
  | _ => simp [ht, isGauge] at hgauge

end WellTyped

section Export

variable {F N S R : Type} [Unicode] [GoFloat F] (resourceToInternal : Option N → Option S → R)
  (ns : String)

def metricsIn (ocmds : List (OpenCensus.MetricsData F N S)) : List (OpenCensus.Metric F S) :=
  ocmds.flatMap fun ocmd => ocmd.metrics.reduceOption

/-- The batches translate, every metric is valid, and one sample at least of each metric with a
point reaches `tsMap`. -/
def Exportable (τ : Type) (ocmds : List (OpenCensus.MetricsData F N S)) : Prop :=
  ∃ md, ocSliceToMetricData resourceToInternal ocmds = .ok md ∧
    (∀ m ∈ metricsOf md, validateMetrics m.metricDescriptor = true) ∧
    ∀ oc ∈ metricsIn ocmds, pointsOf oc ≠ [] →
      ∃ m ∈ metricsOf md, ocMetricToInternal oc = .ok m ∧ ∃ e ∈ metricEmissions ns m,
        ∀ ords, ∃ st, convert (τ := τ) ords ns md = .ok st ∧
          ∃ k ts, st.conv.tsMap.lookup k = some ts ∧ e.sample ∈ ts.samples

omit [Unicode] [GoFloat F] in
theorem batchTranslatesOk_iff {ocmds : List (OpenCensus.MetricsData F N S)} :
    BatchTranslatesOk ocmds ↔ ∀ oc ∈ metricsIn ocmds, TranslatesOk oc := by
  simp only [BatchTranslatesOk, metricsIn, mem_flatMap, forall_exists_index, and_imp]
  exact ⟨fun h oc md hmd hoc => h md hmd oc hoc, fun h md hmd oc hoc => h oc md hmd hoc⟩

/-- **Only gauges are exported.** -/
theorem exportable_iff (τ : Type) {ocmds : List (OpenCensus.MetricsData F N S)}
    (hw : ∀ oc ∈ metricsIn ocmds, WellTyped oc) :
    Exportable resourceToInternal ns τ ocmds ↔
      ∀ oc ∈ metricsIn ocmds, IsGauge oc ∧ TranslatesOk oc := by
  have hmem : ∀ oc, oc ∈ metricsIn ocmds → internalMetric oc ∈
      metricsOf (ocmds.flatMap (internalBatch resourceToInternal)) := by
    intro oc hoc
    obtain ⟨md, hmd, hoc⟩ := mem_flatMap.1 hoc
    exact (mem_metricsOf_translated resourceToInternal).2 ⟨md, hmd, oc, hoc, rfl⟩
  constructor
  · rintro ⟨md, hmd, hvalid, -⟩
    obtain ⟨hok, rfl⟩ := ocSliceToMetricData_eq_ok hmd
    intro oc hoc
    exact ⟨isGauge_of_validateMetrics (hw oc hoc) (hvalid _ (hmem oc hoc)),
      batchTranslatesOk_iff.1 hok oc hoc⟩
  · intro h
    have hok : BatchTranslatesOk ocmds := batchTranslatesOk_iff.2 fun oc hoc => (h oc hoc).2
    have hgauge : ∀ m ∈ metricsOf (ocmds.flatMap (internalBatch resourceToInternal)),
        ∃ oc ∈ metricsIn ocmds, internalMetric oc = m := by
      intro m hm
      obtain ⟨md, hmd, oc, hoc, he⟩ := (mem_metricsOf_translated resourceToInternal).1 hm
      exact ⟨oc, mem_flatMap.2 ⟨md, hmd, hoc⟩, he⟩
    have hconv : Convertible (ocmds.flatMap (internalBatch resourceToInternal)) := by
      intro m hm
      obtain ⟨oc, hoc, rfl⟩ := hgauge m hm
      exact metricOk_of_isGauge (h oc hoc).1
    refine ⟨_, ocSliceToMetricData_ok resourceToInternal hok, ?_, ?_⟩
    · intro m hm
      obtain ⟨oc, hoc, rfl⟩ := hgauge m hm
      exact validateMetrics_of_isGauge (h oc hoc).1
    · intro oc hoc hp
      obtain ⟨e, he⟩ := exists_mem_of_ne_nil _
        (emissions_of_isGauge ns (hw oc hoc) (h oc hoc).1 hp)
      refine ⟨_, hmem oc hoc, ocMetricToInternal_ok (h oc hoc).2, e, he, fun ords => ?_⟩
      exact sample_mem_tsMap ns τ ords hconv (mem_flatMap.2 ⟨_, hmem oc hoc, he⟩)

end Export

section Counter

attribute [local instance] Unicode.latin1 GoFloat.whole

def intBatch (type : OpenCensus.MetricType) : List (OpenCensus.MetricsData Int Unit Unit) :=
  [⟨none, none, [some ⟨some ⟨"m", "", "", type, []⟩,
    [some ⟨none, [], [some ⟨none, some (.int64 1)⟩]⟩], none⟩]⟩]

theorem wellTyped_intBatch {type : OpenCensus.MetricType} (h : knownType type = true)
    (hk : kindMatches (F := Int) type (.int64 1) = true) :
    ∀ oc ∈ metricsIn (intBatch type), WellTyped oc := by
  intro oc hoc
  rw [mem_singleton.1 hoc]
  refine ⟨_, rfl, h, fun tp htp => ?_⟩
  rw [mem_singleton.1 htp]
  exact ⟨_, rfl, hk⟩

/-- A gauge is exported. -/
theorem exportable_gauge :
    (∀ oc ∈ metricsIn (intBatch .gaugeInt64), WellTyped oc) ∧
      (Exportable (fun _ _ => ()) "" Unit (intBatch .gaugeInt64) ↔
        ∀ oc ∈ metricsIn (intBatch .gaugeInt64), IsGauge oc ∧ TranslatesOk oc) :=
  ⟨wellTyped_intBatch rfl rfl,
    exportable_iff (fun _ _ => ()) "" Unit (wellTyped_intBatch rfl rfl)⟩

/-- A counter is not. -/
theorem counter_not_exportable :
    (∀ oc ∈ metricsIn (intBatch .cumulativeInt64), WellTyped oc) ∧
      ¬ Exportable (fun _ _ => ()) "" Unit (intBatch .cumulativeInt64) := by
  refine ⟨wellTyped_intBatch rfl rfl, ?_⟩
  rintro ⟨md, hmd, hvalid, -⟩
  cases hmd
  exact absurd (hvalid _ mem_cons_self) Bool.false_ne_true

end Counter

end Collector.RemoteWrite
