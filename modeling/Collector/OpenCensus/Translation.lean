import Collector.OpenCensus.ToInternal

/-!
# What the translation computes

Every slice of points is filled in order and cut to length (`Slice.Filled`), so
a metric keeps its points, sorted by kind, and the only way to crash is a nil
label key whose value is set (`TranslatesOk`). `ocSliceToMetricData_guarded`
says it of a whole batch, and `mem_metricsOf` which metrics the batch holds.
-/

namespace Collector.OpenCensus

open Lib List

/-! ## Labels -/

def LabelsOk (keys : List (Option LabelKey)) (vals : List (Option LabelValue)) : Prop :=
  ∀ kv ∈ keys.zip vals, kv.2.any LabelValue.hasValue = true → kv.1 ≠ none

/-- `setLabel` where it does not crash. -/
def withLabel (sm : List (Option Otlp.StringKeyValue))
    (kv : Option LabelKey × Option LabelValue) : List (Option Otlp.StringKeyValue) :=
  match kv with
  | (some k, some v) => if v.hasValue then stringMapInsert sm k.key v.value else sm
  | _ => sm

def labelsOf (keys : List (Option LabelKey)) (vals : List (Option LabelValue)) :
    List (Option Otlp.StringKeyValue) :=
  (keys.zip vals).foldl withLabel []

theorem setLabel_guarded :
    Guarded setLabel (fun kv => kv.2.any LabelValue.hasValue = true → kv.1 ≠ none) withLabel where
  run sm kv h := by
    obtain ⟨k, v⟩ := kv
    cases v with
    | none => cases k <;> rfl
    | some v =>
      by_cases hv : v.hasValue = true
      · cases k with
        | none => exact absurd rfl (h (by simpa using hv))
        | some k => simp [setLabel, withLabel, hv, deref]
      · cases k <;> simp [setLabel, withLabel, hv]
  fail sm kv h := by
    obtain ⟨k, v⟩ := kv
    obtain ⟨hv, hk⟩ := Classical.not_imp.1 h
    cases v with
    | none => cases hv
    | some v =>
      have hv' : v.hasValue = true := by simpa using hv
      cases k with
      | none => exact ⟨.nilDereference, by simp [setLabel, hv', deref]⟩
      | some k => exact absurd (by simp) hk

theorem setLabelsMap_ok {keys : List (Option LabelKey)} {vals : List (Option LabelValue)}
    (h : LabelsOk keys vals) : setLabelsMap keys vals = .ok (labelsOf keys vals) :=
  setLabel_guarded.foldlM.run _ _ h

theorem setLabelsMap_crash {keys : List (Option LabelKey)} {vals : List (Option LabelValue)}
    (h : ¬ LabelsOk keys vals) : ∃ c, setLabelsMap keys vals = .error c :=
  setLabel_guarded.foldlM.fail _ _ h

theorem none_notMem_stringMapInsert {sm : List (Option Otlp.StringKeyValue)} {k v : String}
    (h : none ∉ sm) : none ∉ stringMapInsert sm k v := by
  unfold stringMapInsert
  split
  · exact h
  · simpa using h

theorem none_notMem_labelsOf (keys : List (Option LabelKey)) (vals : List (Option LabelValue)) :
    none ∉ labelsOf keys vals := by
  have h : ∀ (l : List (Option LabelKey × Option LabelValue)) sm, none ∉ sm →
      none ∉ l.foldl withLabel sm := by
    intro l
    induction l with
    | nil => intro sm hsm; exact hsm
    | cons kv l ih =>
      intro sm hsm
      refine ih _ ?_
      unfold withLabel
      split
      · split
        · exact none_notMem_stringMapInsert hsm
        · exact hsm
      · exact hsm
  exact h _ _ (not_mem_nil)

/-! ## Slices -/

namespace Slice

variable {α : Type}

/-- The slice holds `l`, with fresh points up to `count` once it was opened. -/
structure Filled (count : Nat) (fresh : α) (s : Slice α) (l : List α) : Prop where
  num : s.num = l.length
  points : s.points = if l = [] then [] else l ++ List.replicate (count - l.length) fresh

variable {count : Nat} {fresh : α} {s : Slice α} {l : List α}

theorem filled_empty : Filled count fresh (empty : Slice α) [] := ⟨rfl, rfl⟩

theorem Filled.alloc (h : Filled count fresh s l) (hlt : l.length < count) :
    s.alloc count fresh = .ok ⟨l ++ List.replicate (count - l.length) fresh, l.length⟩ := by
  have hp : (if s.points.length = 0 then resize s.points count fresh else s.points) =
      l ++ List.replicate (count - l.length) fresh := by
    rw [h.points]
    cases l with
    | nil => simp [resize]
    | cons a l => simp
  unfold Slice.alloc
  simp only [hp, h.num]
  rw [if_pos (by simp; omega)]

theorem filled_fill (hlt : l.length < count) (a : α) :
    Filled count fresh (fill ⟨l ++ List.replicate (count - l.length) fresh, l.length⟩ a)
      (l ++ [a]) := by
  refine ⟨by simp [fill], ?_⟩
  obtain ⟨n, hn⟩ : ∃ n, count - l.length = n + 1 := ⟨count - l.length - 1, by omega⟩
  have hn' : count - (l ++ [a]).length = n := by simp; omega
  rw [if_neg (by simp), hn', fill, hn, replicate_succ,
    set_append_right _ _ (Nat.le_refl _)]
  simp

theorem Filled.next {β γ : Type} (h : Filled count fresh s l) (hlt : l.length < count)
    {call : Go β} {b : β} (hb : call = .ok b) (mk : β → α) (put : Slice α → γ) :
    ∃ s', (do let slice ← s.alloc count fresh
              let b ← call
              return put (slice.fill (mk b))) = .ok (put s') ∧
      Filled count fresh s' (l ++ [mk b]) :=
  ⟨_, by rw [h.alloc hlt, hb]; rfl, filled_fill hlt (mk b)⟩

theorem alloc_crash {β γ : Type} {call : Go β} {c : Crash} (hc : call = .error c)
    (k : Slice α → β → Go γ) :
    ∃ c, (do let slice ← s.alloc count fresh
             let b ← call
             k slice b) = .error c := by
  cases s.alloc count fresh with
  | error e => exact ⟨e, rfl⟩
  | ok slice => exact ⟨c, by rw [hc]; rfl⟩

theorem Filled.trim (h : Filled count fresh s l) :
    s.trim fresh = if l = [] then none else some (l.map some) := by
  unfold Slice.trim
  rw [h.points, h.num]
  cases l with
  | nil => rfl
  | cons a l => simp [resize]

end Slice

/-! ## Points -/

section Points

variable {F S : Type}

/-- The points of a metric by kind. -/
structure Points (F : Type) where
  int64 : List Otlp.Int64DataPoint
  double : List (Otlp.DoubleDataPoint F)
  histogram : List (Otlp.HistogramDataPoint F)
  summary : List (Otlp.SummaryDataPoint F)

def Points.none : Points F := ⟨[], [], [], []⟩

/-- No kind has more than `n` points. -/
def Points.AtMost (acc : Points F) (n : Nat) : Prop :=
  acc.int64.length ≤ n ∧ acc.double.length ≤ n ∧ acc.histogram.length ≤ n ∧ acc.summary.length ≤ n

def PointOk (keys : List (Option LabelKey)) (tp : TimeSeries F × Point F) : Prop :=
  tp.2.value.isSome = true → LabelsOk keys tp.1.labelValues

/-- The points of a metric that are not nil, each with its time series. -/
def pointsOf (ocMetric : Metric F S) : List (TimeSeries F × Point F) :=
  ocMetric.timeseries.reduceOption.flatMap fun ts => ts.points.reduceOption.map fun p => (ts, p)

def labelKeysOf (ocMetric : Metric F S) : List (Option LabelKey) :=
  ocMetric.metricDescriptor.elim [] MetricDescriptor.labelKeys

def TranslatesOk (ocMetric : Metric F S) : Prop :=
  ∀ tp ∈ pointsOf ocMetric, PointOk (labelKeysOf ocMetric) tp

theorem length_pointsOf_le (ocMetric : Metric F S) :
    (pointsOf ocMetric).length ≤ getPointsCount ocMetric := by
  unfold pointsOf getPointsCount
  induction ocMetric.timeseries with
  | nil => exact Nat.le_refl _
  | cons ts l ih =>
    cases ts with
    | none => simpa [reduceOption_cons_of_none] using ih
    | some ts =>
      have hts : ts.points.reduceOption.length ≤ ts.points.length :=
        reduceOption_length_le ts.points
      simp only [reduceOption_cons_of_some, flatMap_cons, length_append,
        length_map, map_cons, sum_cons, Option.elim_some]
      omega

variable [GoFloat F]

def addPoint (keys : List (Option LabelKey)) (acc : Points F) (tp : TimeSeries F × Point F) :
    Points F :=
  let labels := labelsOf keys tp.1.labelValues
  let start := timestampToUnixNano tp.1.startTimestamp
  let time := timestampToUnixNano tp.2.timestamp
  match tp.2.value with
  | .none => acc
  | some (.int64 n) => { acc with int64 := acc.int64 ++ [⟨labels, start, time, n⟩] }
  | some (.double x) => { acc with double := acc.double ++ [⟨labels, start, time, x⟩] }
  | some (.distribution d) =>
    { acc with histogram := acc.histogram ++ [histogramDataPoint labels start time d] }
  | some (.summary s) =>
    { acc with summary := acc.summary ++ [summaryDataPoint labels start time s] }

structure Slices.Filled (count : Nat) (st : Slices F) (acc : Points F) : Prop where
  int64 : st.int64.Filled count freshInt64 acc.int64
  double : st.double.Filled count freshDouble acc.double
  histogram : st.histogram.Filled count freshHistogram acc.histogram
  summary : st.summary.Filled count freshSummary acc.summary

variable {keys : List (Option LabelKey)} {l : List (TimeSeries F × Point F)}

theorem setDataPoint_ok {count n : Nat} {st : Slices F} {acc : Points F}
    {tp : TimeSeries F × Point F} (h : st.Filled count acc) (hn : acc.AtMost n) (hlt : n < count)
    (hok : PointOk keys tp) :
    ∃ st', setDataPoint count keys tp.1 st tp.2 = .ok st' ∧
      st'.Filled count (addPoint keys acc tp) ∧ (addPoint keys acc tp).AtMost (n + 1) := by
  obtain ⟨ts, time, value⟩ := tp
  obtain ⟨hi, hd, hh, hs⟩ := hn
  cases value with
  | none =>
    refine ⟨st, rfl, h, ?_⟩
    simp only [addPoint]
    exact ⟨by omega, by omega, by omega, by omega⟩
  | some v =>
    have hl := setLabelsMap_ok (hok rfl)
    cases v with
    | int64 v =>
      obtain ⟨s', hrun, hf⟩ := h.int64.next (by omega) hl _ fun s => { st with int64 := s }
      exact ⟨_, hrun, ⟨hf, h.2, h.3, h.4⟩, by simp [addPoint, Points.AtMost]; omega⟩
    | double v =>
      obtain ⟨s', hrun, hf⟩ := h.double.next (by omega) hl _ fun s => { st with double := s }
      exact ⟨_, hrun, ⟨h.1, hf, h.3, h.4⟩, by simp [addPoint, Points.AtMost]; omega⟩
    | distribution v =>
      obtain ⟨s', hrun, hf⟩ := h.histogram.next (by omega) hl _ fun s => { st with histogram := s }
      exact ⟨_, hrun, ⟨h.1, h.2, hf, h.4⟩, by simp [addPoint, Points.AtMost]; omega⟩
    | summary v =>
      obtain ⟨s', hrun, hf⟩ := h.summary.next (by omega) hl _ fun s => { st with summary := s }
      exact ⟨_, hrun, ⟨h.1, h.2, h.3, hf⟩, by simp [addPoint, Points.AtMost]; omega⟩

theorem setDataPoint_crash (count : Nat) (st : Slices F) {tp : TimeSeries F × Point F}
    (hok : ¬ PointOk keys tp) : ∃ c, setDataPoint count keys tp.1 st tp.2 = .error c := by
  obtain ⟨ts, time, value⟩ := tp
  obtain ⟨hv, hl⟩ := Classical.not_imp.1 hok
  obtain ⟨c, hc⟩ := setLabelsMap_crash hl
  cases value with
  | none => cases hv
  | some v =>
    cases v with
    | int64 | double | distribution | summary => exact Slice.alloc_crash hc _

/-- **The loop over the points of a metric.** The invariant is that every kind has taken at most
as many points as were seen. -/
theorem foldlM_setDataPoint_ok {count n : Nat} {st : Slices F} {acc : Points F}
    (h : st.Filled count acc) (hn : acc.AtMost n) (hle : n + l.length ≤ count)
    (hok : ∀ tp ∈ l, PointOk keys tp) :
    ∃ st', l.foldlM (fun st tp => setDataPoint count keys tp.1 st tp.2) st = .ok st' ∧
      st'.Filled count (l.foldl (addPoint keys) acc) := by
  induction l generalizing n st acc with
  | nil => exact ⟨st, rfl, h⟩
  | cons tp l ih =>
    rw [length_cons] at hle
    obtain ⟨st₁, h₁, hf, hn₁⟩ := setDataPoint_ok h hn (by omega) (hok tp mem_cons_self)
    obtain ⟨st', h', hf'⟩ := ih hf hn₁ (by omega) fun tp htp => hok tp (mem_cons_of_mem _ htp)
    exact ⟨st', by rw [foldlM_cons, h₁]; exact h', hf'⟩

theorem foldlM_setDataPoint_crash (count : Nat) (st : Slices F)
    (hok : ¬ ∀ tp ∈ l, PointOk keys tp) :
    ∃ c, l.foldlM (fun st tp => setDataPoint count keys tp.1 st tp.2) st = .error c := by
  induction l generalizing st with
  | nil => exact absurd (fun _ htp => nomatch htp) hok
  | cons tp l ih =>
    rw [foldlM_cons]
    cases hs : setDataPoint count keys tp.1 st tp.2 with
    | error e => exact ⟨e, rfl⟩
    | ok st' =>
      refine ih st' fun hl => hok fun tp' htp' => ?_
      rcases mem_cons.1 htp' with rfl | htp'
      · by_contra hn
        obtain ⟨c, hc⟩ := setDataPoint_crash count st hn
        rw [hs] at hc
        cases hc
      · exact hl tp' htp'

/-! ## Metrics -/

/-- The points of a metric by kind, as the loops of `setDataPoints` meet them. -/
def pointsByKind (ocMetric : Metric F S) : Points F :=
  (pointsOf ocMetric).foldl (addPoint (labelKeysOf ocMetric)) Points.none

def sliceOf {α : Type} (l : List α) : Option (List (Option α)) :=
  if l = [] then none else some (l.map some)

/-- `ocMetricToInternal` where it does not crash. -/
def internalMetric (ocMetric : Metric F S) : Otlp.Metric F where
  metricDescriptor := descriptorToInternal ocMetric.metricDescriptor
  int64DataPoints := sliceOf (pointsByKind ocMetric).int64
  doubleDataPoints := sliceOf (pointsByKind ocMetric).double
  histogramDataPoints := sliceOf (pointsByKind ocMetric).histogram
  summaryDataPoints := sliceOf (pointsByKind ocMetric).summary

theorem foldlM_timeseries (count : Nat) (ocMetric : Metric F S) (st : Slices F) :
    ocMetric.timeseries.foldlM (skipNil fun st ts =>
      ts.points.foldlM (skipNil (setDataPoint count (labelKeysOf ocMetric) ts)) st) st =
    (pointsOf ocMetric).foldlM
      (fun st tp => setDataPoint count (labelKeysOf ocMetric) tp.1 st tp.2) st := by
  rw [foldlM_skipNil_eq, pointsOf, foldlM_flatMap]
  simp only [foldlM_skipNil_eq, foldlM_map]

theorem ocMetricToInternal_ok {ocMetric : Metric F S} (h : TranslatesOk ocMetric) :
    ocMetricToInternal ocMetric = .ok (internalMetric ocMetric) := by
  have hempty : (⟨.empty, .empty, .empty, .empty⟩ : Slices F).Filled (getPointsCount ocMetric)
      Points.none :=
    ⟨Slice.filled_empty, Slice.filled_empty, Slice.filled_empty, Slice.filled_empty⟩
  have hle := length_pointsOf_le ocMetric
  obtain ⟨st, hst, hf⟩ := foldlM_setDataPoint_ok (n := 0) hempty ⟨by rfl, by rfl, by rfl, by rfl⟩
    (by omega) h
  have hloop := (foldlM_timeseries (getPointsCount ocMetric) ocMetric _).trans hst
  show (_ >>= fun st : Slices F => _) = _
  rw [show ocMetric.metricDescriptor.elim [] MetricDescriptor.labelKeys = labelKeysOf ocMetric from
    rfl, hloop]
  show Except.ok _ = Except.ok _
  rw [hf.int64.trim, hf.double.trim, hf.histogram.trim, hf.summary.trim]
  rfl

theorem ocMetricToInternal_crash {ocMetric : Metric F S} (h : ¬ TranslatesOk ocMetric) :
    ∃ c, ocMetricToInternal ocMetric = .error c := by
  obtain ⟨c, hc⟩ := foldlM_setDataPoint_crash (getPointsCount ocMetric)
    ⟨.empty, .empty, .empty, .empty⟩ h
  have hloop := (foldlM_timeseries (getPointsCount ocMetric) ocMetric _).trans hc
  refine ⟨c, ?_⟩
  show (_ >>= fun st : Slices F => _) = _
  rw [show ocMetric.metricDescriptor.elim [] MetricDescriptor.labelKeys = labelKeysOf ocMetric from
    rfl, hloop]
  rfl

end Points

/-! ## Batches -/

section Batches

variable {F N S R : Type} [GoFloat F] (resourceToInternal : Option N → Option S → R)

/-- What `appendOcToMetriData` appends where it does not crash. -/
def internalBatch (md : MetricsData F N S) : Otlp.MetricData F R :=
  if md.node.isNone && md.resource.isNone && md.metrics.isEmpty then []
  else if md.metrics.isEmpty then [some ⟨resourceToInternal md.node md.resource, []⟩]
  else
    let ms := md.metrics.reduceOption.map fun m => (m.resource, internalMetric m)
    some ⟨resourceToInternal md.node md.resource,
      [some ⟨(ms.filter fun m => m.1.isNone).map fun m => some m.2⟩]⟩ ::
    (ms.filter fun m => m.1.isSome).map fun m =>
      some ⟨resourceToInternal md.node m.1, [some ⟨[some m.2]⟩]⟩

theorem appendOcToMetriData_guarded :
    Guarded (fun dest md => appendOcToMetriData (F := F) resourceToInternal md dest)
      (fun md => ∀ m ∈ md.metrics.reduceOption, TranslatesOk m)
      (fun dest md => dest ++ internalBatch resourceToInternal md) where
  run dest md h := by
    unfold appendOcToMetriData internalBatch
    split
    · simp; rfl
    · split
      · rfl
      · rw [mapM_ok (g := fun m => (m.resource, internalMetric m)) fun m hm => by
          rw [ocMetricToInternal_ok (h m hm)]; rfl]
        rfl
  fail dest md h := by
    obtain ⟨m, hm⟩ := Classical.not_forall.1 h
    obtain ⟨hm, hbad⟩ := Classical.not_imp.1 hm
    have hne : md.metrics.isEmpty = false := by
      cases hms : md.metrics with
      | nil => rw [hms] at hm; cases hm
      | cons => rfl
    obtain ⟨c, hc⟩ := ocMetricToInternal_crash hbad
    obtain ⟨c', hc'⟩ := mapM_fail hm
      (f := fun m => (do return (m.resource, ← ocMetricToInternal m) : Go _))
      ⟨c, by rw [hc]; rfl⟩
    refine ⟨c', ?_⟩
    unfold appendOcToMetriData
    simp only [hne, Bool.and_false, Bool.false_eq_true, if_false]
    rw [hc']
    rfl

def BatchTranslatesOk (ocmds : List (MetricsData F N S)) : Prop :=
  ∀ md ∈ ocmds, ∀ m ∈ md.metrics.reduceOption, TranslatesOk m

variable {ocmds : List (MetricsData F N S)} {md : MetricsData F N S}

/-- **The translation of a batch.** It crashes unless every metric translates. -/
theorem ocSliceToMetricData_ok (h : BatchTranslatesOk ocmds) :
    ocSliceToMetricData resourceToInternal ocmds =
      .ok (ocmds.flatMap (internalBatch resourceToInternal)) := by
  rw [flatMap_eq_foldl]
  exact (appendOcToMetriData_guarded resourceToInternal).foldlM.run [] ocmds h

theorem ocSliceToMetricData_crash (h : ¬ BatchTranslatesOk ocmds) :
    ∃ c, ocSliceToMetricData resourceToInternal ocmds = .error c :=
  (appendOcToMetriData_guarded resourceToInternal).foldlM.fail [] ocmds h

variable {resourceToInternal} in
theorem ocSliceToMetricData_eq_ok {md : Otlp.MetricData F R}
    (h : ocSliceToMetricData resourceToInternal ocmds = .ok md) :
    BatchTranslatesOk ocmds ∧ md = ocmds.flatMap (internalBatch resourceToInternal) := by
  have hok : BatchTranslatesOk ocmds := by
    by_contra hn
    obtain ⟨c, hc⟩ := ocSliceToMetricData_crash resourceToInternal hn
    rw [hc] at h
    cases h
  rw [ocSliceToMetricData_ok resourceToInternal hok] at h
  cases h
  exact ⟨hok, rfl⟩

theorem metricsOf_internalBatch_nil (he : md.metrics = []) :
    Otlp.metricsOf (internalBatch resourceToInternal md) = [] := by
  unfold internalBatch
  rw [he]
  cases md.node <;> cases md.resource <;> simp [Otlp.metricsOf, List.reduceOption]

theorem metricsOf_internalBatch (he : md.metrics ≠ []) :
    Otlp.metricsOf (internalBatch resourceToInternal md) =
      ((md.metrics.reduceOption.filter fun oc => oc.resource.isNone) ++
        md.metrics.reduceOption.filter fun oc => oc.resource.isSome).map internalMetric := by
  have he' : md.metrics.isEmpty = false := by simpa using he
  unfold internalBatch
  simp only [he', Bool.and_false, Bool.false_eq_true, if_false, Otlp.metricsOf, map_append]
  rw [reduceOption_cons_of_some, flatMap_cons]
  congr 1
  · simp [List.reduceOption, filter_map, filterMap_map, Function.comp_def]
  · simp [List.reduceOption, filter_map, filterMap_map, Function.comp_def,
      flatMap_map, ← map_eq_flatMap]

theorem mem_metricsOf_internalBatch {m : Otlp.Metric F} :
    m ∈ Otlp.metricsOf (internalBatch resourceToInternal md) ↔
      ∃ oc ∈ md.metrics.reduceOption, internalMetric oc = m := by
  by_cases he : md.metrics = []
  · rw [metricsOf_internalBatch_nil resourceToInternal he, he]
    simp [List.reduceOption]
  · rw [metricsOf_internalBatch resourceToInternal he, mem_map]
    have hmem : ∀ oc : Metric F S, oc ∈
        (md.metrics.reduceOption.filter fun oc => oc.resource.isNone) ++
          (md.metrics.reduceOption.filter fun oc => oc.resource.isSome) ↔
        oc ∈ md.metrics.reduceOption := by
      intro oc
      cases h : oc.resource <;> simp [h]
    simp only [hmem]

theorem metricsOf_translated (ocmds : List (MetricsData F N S)) :
    Otlp.metricsOf (ocmds.flatMap (internalBatch resourceToInternal)) =
      ocmds.flatMap fun md => Otlp.metricsOf (internalBatch resourceToInternal md) := by
  simp only [Otlp.metricsOf, List.reduceOption, filterMap_flatMap, flatMap_assoc]

theorem mem_metricsOf_translated {m : Otlp.Metric F} :
    m ∈ Otlp.metricsOf (ocmds.flatMap (internalBatch resourceToInternal)) ↔
      ∃ md ∈ ocmds, ∃ oc ∈ md.metrics.reduceOption, internalMetric oc = m := by
  simp [metricsOf_translated, mem_metricsOf_internalBatch]

end Batches

end Collector.OpenCensus
