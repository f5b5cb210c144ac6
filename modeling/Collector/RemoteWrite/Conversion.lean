import Collector.RemoteWrite.Convert

/-!
# What a conversion computes

A batch decides alone whether its conversion crashes (`Convertible`), which
samples it emits (`emissions`, in order, each with its type and label set) and
which metrics it rejects (`rejection`). `convert_guarded` connects the loops of
`Convert.lean` to that description: a convertible batch leaves `tsMap` as
`recordAll` does, one `addSample` for each emission, and any other crashes.
-/

namespace Collector.RemoteWrite

open Otlp Lib List

/-- A sample on its way into `tsMap`, with the label set that `createLabelSet` put together. -/
structure Emission (σ : Type) where
  ty : MetricType
  labels : List Label
  sample : σ
  deriving DecidableEq, Repr

/-! ## Guards -/

section Guards

variable {F R : Type}

/-- The buckets can be paired with bounds and no pointer is nil. -/
def HistogramOk (pt : HistogramDataPoint F) : Prop :=
  none ∉ pt.labels ∧ none ∉ pt.buckets ∧ pt.buckets.length ≤ pt.explicitBounds.length

def SummaryOk (pt : SummaryDataPoint F) : Prop :=
  none ∉ pt.labels ∧ none ∉ pt.percentileValues

def PointsOk (m : Metric F) : MetricType → Prop
  | .monotonicInt64 | .int64 => ∀ pts ∈ m.int64DataPoints, ∀ pt ∈ pts.reduceOption, none ∉ pt.labels
  | .monotonicDouble | .double =>
    ∀ pts ∈ m.doubleDataPoints, ∀ pt ∈ pts.reduceOption, none ∉ pt.labels
  | .histogram => ∀ pts ∈ m.histogramDataPoints, ∀ pt ∈ pts.reduceOption, HistogramOk pt
  | .summary => ∀ pts ∈ m.summaryDataPoints, none ∉ pts ∧ ∀ pt ∈ pts.reduceOption, SummaryOk pt
  | _ => True

def MetricOk (m : Metric F) : Prop :=
  validateMetrics m.metricDescriptor = true → PointsOk m (getType m.metricDescriptor)

def Convertible (md : MetricData F R) : Prop := ∀ m ∈ metricsOf md, MetricOk m

end Guards

/-! ## Emissions -/

section Emissions

variable {F R τ : Type} [Unicode] [GoFloat F] (ns : String)

/-- The emission of one `createLabelSet` and `addSample`. -/
def emission (desc : Option MetricDescriptor) (labels : List (Option StringKeyValue))
    (extras : List String) (value : F) (time : UInt64) : Emission (Sample F) :=
  ⟨getType desc, labelSet labels extras, ⟨value, convertTimeStamp time⟩⟩

def int64Emission (desc : Option MetricDescriptor) (pt : Int64DataPoint) : Emission (Sample F) :=
  emission desc pt.labels [nameStr, getPromMetricName desc ns] (GoFloat.ofInt64 pt.value)
    pt.timeUnixNano

def doubleEmission (desc : Option MetricDescriptor) (pt : DoubleDataPoint F) :
    Emission (Sample F) :=
  emission desc pt.labels [nameStr, getPromMetricName desc ns] pt.value pt.timeUnixNano

def bucketEmission (desc : Option MetricDescriptor) (pt : HistogramDataPoint F)
    (bk : Bucket F × F) : Emission (Sample F) :=
  emission desc pt.labels
    [nameStr, getPromMetricName desc ns ++ bucketStr, leStr, GoFloat.formatFloat bk.2]
    (GoFloat.ofUint64 bk.1.count) pt.timeUnixNano

/-- `totalCount` after the loop over the buckets. -/
def totalCount (bks : List (Bucket F)) : UInt64 := bks.foldl (fun n bk => n + bk.count) 0

def histogramEmissions (desc : Option MetricDescriptor) (pt : HistogramDataPoint F) :
    List (Emission (Sample F)) :=
  [emission desc pt.labels [nameStr, getPromMetricName desc ns ++ sumStr] pt.sum pt.timeUnixNano,
    emission desc pt.labels [nameStr, getPromMetricName desc ns ++ countStr]
      (GoFloat.ofUint64 pt.count) pt.timeUnixNano] ++
  (pt.buckets.reduceOption.zip pt.explicitBounds).map (bucketEmission ns desc pt) ++
  [emission desc pt.labels [nameStr, getPromMetricName desc ns ++ bucketStr, leStr, pInfStr]
    (GoFloat.ofUint64 (totalCount pt.buckets.reduceOption)) pt.timeUnixNano]

def quantileEmission (desc : Option MetricDescriptor) (pt : SummaryDataPoint F)
    (qt : ValueAtPercentile F) : Emission (Sample F) :=
  emission desc pt.labels
    [nameStr, getPromMetricName desc ns, quantileStr, GoFloat.formatFloat qt.percentile] qt.value
    pt.timeUnixNano

def summaryEmissions (desc : Option MetricDescriptor) (pt : SummaryDataPoint F) :
    List (Emission (Sample F)) :=
  [emission desc pt.labels [nameStr, getPromMetricName desc ns ++ sumStr] pt.sum pt.timeUnixNano,
    emission desc pt.labels [nameStr, getPromMetricName desc ns ++ countStr]
      (GoFloat.ofUint64 pt.count) pt.timeUnixNano] ++
  pt.percentileValues.reduceOption.map (quantileEmission ns desc pt)

def pointEmissions (m : Metric F) : MetricType → List (Emission (Sample F))
  | .monotonicInt64 | .int64 =>
    (m.int64DataPoints.getD []).reduceOption.map (int64Emission ns m.metricDescriptor)
  | .monotonicDouble | .double =>
    (m.doubleDataPoints.getD []).reduceOption.map (doubleEmission ns m.metricDescriptor)
  | .histogram =>
    (m.histogramDataPoints.getD []).reduceOption.flatMap (histogramEmissions ns m.metricDescriptor)
  | .summary =>
    (m.summaryDataPoints.getD []).reduceOption.flatMap (summaryEmissions ns m.metricDescriptor)
  | _ => []

def metricEmissions (m : Metric F) : List (Emission (Sample F)) :=
  if validateMetrics m.metricDescriptor then pointEmissions ns m (getType m.metricDescriptor)
  else []

/-- **The samples of a batch**, in the order of their `addSample` calls. -/
def emissions (md : MetricData F R) : List (Emission (Sample F)) :=
  (metricsOf md).flatMap (metricEmissions ns)

def pointsError (m : Metric F) : MetricType → Option (GoError τ)
  | .monotonicInt64 | .int64 =>
    if m.int64DataPoints.isSome then none
    else some (.new ("nil data point field in metric " ++ (m.metricDescriptor.elim "" (·.name))))
  | .monotonicDouble | .double =>
    if m.doubleDataPoints.isSome then none
    else some (.new ("nil data point field in metric " ++ (m.metricDescriptor.elim "" (·.name))))
  | .histogram =>
    if m.histogramDataPoints.isSome then none
    else some (.new "invalid metric type: wants histogram points")
  | .summary =>
    if m.summaryDataPoints.isSome then none
    else some (.new "invalid metric type: wants summary points")
  | _ => some (.new "unsupported metric type")

def rejection (m : Metric F) : Option (GoError τ) :=
  if validateMetrics m.metricDescriptor then pointsError m (getType m.metricDescriptor)
  else some (.new "invalid temporality and type combination")

end Emissions

/-! ## Accepted metrics -/

section Accepted

variable {F R τ : Type}

def pointsPresent (m : Metric F) : MetricType → Bool
  | .monotonicInt64 | .int64 => m.int64DataPoints.isSome
  | .monotonicDouble | .double => m.doubleDataPoints.isSome
  | .histogram => m.histogramDataPoints.isSome
  | .summary => m.summaryDataPoints.isSome
  | _ => false

def hasPoint (m : Metric F) : MetricType → Bool
  | .monotonicInt64 | .int64 => (m.int64DataPoints.getD []).any Option.isSome
  | .monotonicDouble | .double => (m.doubleDataPoints.getD []).any Option.isSome
  | .histogram => (m.histogramDataPoints.getD []).any Option.isSome
  | .summary => (m.summaryDataPoints.getD []).any Option.isSome
  | _ => false

def accepts (m : Metric F) : Bool :=
  validateMetrics m.metricDescriptor && pointsPresent m (getType m.metricDescriptor)

def exports (m : Metric F) : Bool :=
  validateMetrics m.metricDescriptor && hasPoint m (getType m.metricDescriptor)

theorem rejection_eq_none_iff {m : Metric F} :
    (rejection m : Option (GoError τ)) = none ↔ accepts m = true := by
  unfold rejection accepts
  cases hv : validateMetrics m.metricDescriptor with
  | false => simp
  | true =>
    cases getType m.metricDescriptor <;>
      simp [pointsError, pointsPresent, Option.isSome_iff_ne_none]

theorem reduceOption_eq_nil_iff {α : Type} {l : List (Option α)} :
    l.reduceOption = [] ↔ l.any Option.isSome = false := by
  simp [List.reduceOption, filterMap_eq_nil_iff]

theorem flatMap_reduceOption_eq_nil_iff {α β : Type} {f : α → List β} (hf : ∀ a, f a ≠ [])
    {l : List (Option α)} : l.reduceOption.flatMap f = [] ↔ l.any Option.isSome = false := by
  rw [← reduceOption_eq_nil_iff]
  cases l.reduceOption with
  | nil => simp
  | cons a t => simp [hf]

theorem metricEmissions_eq_nil_iff [Unicode] [GoFloat F] {ns : String} {m : Metric F} :
    metricEmissions ns m = [] ↔ exports m = false := by
  unfold metricEmissions exports
  cases hv : validateMetrics m.metricDescriptor with
  | false => simp
  | true =>
    show pointEmissions ns m (getType m.metricDescriptor) = [] ↔
      hasPoint m (getType m.metricDescriptor) = false
    cases getType m.metricDescriptor with
    | int64 | monotonicInt64 | double | monotonicDouble =>
      exact map_eq_nil_iff.trans reduceOption_eq_nil_iff
    | histogram => exact flatMap_reduceOption_eq_nil_iff fun pt => by simp [histogramEmissions]
    | summary => exact flatMap_reduceOption_eq_nil_iff fun pt => by simp [summaryEmissions]
    | invalidType | unrecognized => exact iff_of_true rfl rfl

end Accepted

/-! ## Recording emissions -/

section Record

variable {F : Type} (ords : Nat → MapOrder Label)

/-- The `addSample` call of an emission. -/
def record (st : ConvState F) (e : Emission (Sample F)) : ConvState F :=
  ⟨addSample st.tsMap (some e.sample) (some ((ords st.calls).order e.labels)) e.ty, st.calls + 1⟩

def recordAll (st : ConvState F) (es : List (Emission (Sample F))) : ConvState F :=
  es.foldl (record ords) st

theorem recordAll_append (st : ConvState F) (es es' : List (Emission (Sample F))) :
    recordAll ords st (es ++ es') = recordAll ords (recordAll ords st es) es' :=
  foldl_append

@[simp] theorem recordAll_nil (st : ConvState F) : recordAll ords st [] = st := rfl

theorem recordAll_cons (st : ConvState F) (e : Emission (Sample F))
    (es : List (Emission (Sample F))) :
    recordAll ords st (e :: es) = recordAll ords (record ords st e) es := rfl

theorem foldl_recordAll {α : Type} (f : α → List (Emission (Sample F))) (l : List α)
    (st : ConvState F) :
    l.foldl (fun st a => recordAll ords st (f a)) st = recordAll ords st (l.flatMap f) := by
  induction l generalizing st with
  | nil => rfl
  | cons a l ih => rw [foldl_cons, ih, flatMap_cons, recordAll_append]

theorem foldl_record {α : Type} (f : α → Emission (Sample F)) (l : List α) (st : ConvState F) :
    l.foldl (fun st a => record ords st (f a)) st = recordAll ords st (l.map f) := by
  unfold recordAll
  rw [foldl_map]

variable [Unicode] {st : ConvState F} {labels : List (Option StringKeyValue)} {extras : List String}
  {k : ConvState F → Go (ConvState F)}

theorem emit_ok {desc : Option MetricDescriptor} {value : F} {time : UInt64} (h : none ∉ labels) :
    emit ords st labels extras ⟨value, convertTimeStamp time⟩ (getType desc) =
      .ok (record ords st (emission desc labels extras value time)) := by
  unfold emit
  rw [createLabelSet_ok h]
  rfl

theorem emit_crash (st : ConvState F) (extras : List String) (sample : Sample F) (ty : MetricType)
    (h : none ∈ labels) : ∃ c, emit ords st labels extras sample ty = .error c := by
  obtain ⟨c, hc⟩ := createLabelSet_crash (ords st.calls) extras h
  exact ⟨c, by unfold emit; rw [hc]; rfl⟩

theorem emit_bind {desc : Option MetricDescriptor} {value : F} {time : UInt64} (h : none ∉ labels) :
    (emit ords st labels extras ⟨value, convertTimeStamp time⟩ (getType desc) >>= k) =
      k (record ords st (emission desc labels extras value time)) := by
  rw [emit_ok ords h]
  rfl

theorem emit_bind_crash {sample : Sample F} {ty : MetricType} (h : none ∈ labels) :
    ∃ c, (emit ords st labels extras sample ty >>= k) = .error c := by
  obtain ⟨c, hc⟩ := emit_crash ords st extras sample ty h
  exact ⟨c, by rw [hc]; rfl⟩

end Record

/-! ## Points -/

section Points

variable {F : Type} [Unicode] [GoFloat F] (ords : Nat → MapOrder Label) (ns : String)
  (desc : Option MetricDescriptor)

theorem addInt64Point_guarded :
    Guarded (addInt64Point (F := F) ords ns desc) (fun pt => none ∉ pt.labels)
      (fun st pt => record ords st (int64Emission ns desc pt)) where
  run _ _ h := emit_ok ords h
  fail _ _ h := emit_crash ords _ _ _ _ (not_not.1 h)

omit [GoFloat F] in
theorem addDoublePoint_guarded :
    Guarded (addDoublePoint (F := F) ords ns desc) (fun pt => none ∉ pt.labels)
      (fun st pt => record ords st (doubleEmission ns desc pt)) where
  run _ _ h := emit_ok ords h
  fail _ _ h := emit_crash ords _ _ _ _ (not_not.1 h)

/-- `addBucket` where it does not crash. -/
def bucketStep (pt : HistogramDataPoint F) (acc : ConvState F × UInt64)
    (bk : Option (Bucket F) × Nat) : ConvState F × UInt64 :=
  match bk.1, pt.explicitBounds[bk.2]? with
  | some b, some bound =>
    (record ords acc.1 (bucketEmission ns desc pt (b, bound)), acc.2 + b.count)
  | _, _ => acc

theorem addBucket_guarded {pt : HistogramDataPoint F} (hl : none ∉ pt.labels) :
    Guarded (addBucket ords ns desc pt)
      (fun bk => bk.1 ≠ none ∧ bk.2 < pt.explicitBounds.length) (bucketStep ords ns desc pt) where
  run acc bk h := by
    obtain ⟨bk, le⟩ := bk
    cases bk with
    | none => exact absurd rfl h.1
    | some bk =>
      have hi : pt.explicitBounds[le]? = some pt.explicitBounds[le] := getElem?_eq_getElem h.2
      simp only [addBucket, bucketStep, deref_some, index_ok h.2, hi]
      show (emit ords acc.1 pt.labels _ _ _ >>= fun st => Except.ok (st, acc.2 + bk.count)) = _
      rw [emit_ok ords hl]
      rfl
  fail acc bk h := by
    obtain ⟨bk, le⟩ := bk
    cases bk with
    | none => exact ⟨.nilDereference, rfl⟩
    | some bk =>
      have hle : pt.explicitBounds.length ≤ le := by
        by_contra hn
        exact h ⟨by simp, by simpa using hn⟩
      refine ⟨.indexOutOfRange, ?_⟩
      simp only [addBucket, deref_some, index_crash hle]
      rfl

theorem foldl_bucketStep (pt : HistogramDataPoint F) (bks : List (Option (Bucket F)))
    (k : Nat) (acc : ConvState F × UInt64) (hb : none ∉ bks)
    (hk : k + bks.length ≤ pt.explicitBounds.length) :
    (bks.zipIdx k).foldl (bucketStep ords ns desc pt) acc =
      (recordAll ords acc.1
        ((bks.reduceOption.zip (pt.explicitBounds.drop k)).map (bucketEmission ns desc pt)),
        bks.reduceOption.foldl (fun n bk => n + bk.count) acc.2) := by
  induction bks generalizing k acc with
  | nil => rfl
  | cons bk bks ih =>
    cases bk with
    | none => exact absurd mem_cons_self hb
    | some bk =>
      have hlt : k < pt.explicitBounds.length := by simp only [length_cons] at hk; omega
      have hstep : bucketStep ords ns desc pt acc (some bk, k) =
          (record ords acc.1 (bucketEmission ns desc pt (bk, pt.explicitBounds[k])),
            acc.2 + bk.count) := by
        simp [bucketStep, hlt]
      rw [zipIdx_cons, foldl_cons, hstep,
        ih (k + 1) _ (fun h => hb (mem_cons_of_mem _ h))
          (by simp only [length_cons] at hk; omega),
        drop_eq_getElem_cons hlt, reduceOption_cons_of_some, zip_cons_cons,
        map_cons, recordAll_cons]
      rfl

omit [Unicode] in
theorem zipIdx_guard {α : Type} {l : List (Option α)} {n : Nat} :
    (∀ a ∈ l.zipIdx, a.1 ≠ none ∧ a.2 < n) ↔ none ∉ l ∧ l.length ≤ n := by
  constructor
  · intro h
    refine ⟨fun hn => ?_, ?_⟩
    · obtain ⟨i, hi, e⟩ := getElem_of_mem hn
      exact (h (l[i], i) (mk_mem_zipIdx_iff_getElem?.2 (getElem?_eq_getElem hi))).1 e
    · by_contra hlt
      have hn : n < l.length := by omega
      have := (h (l[n], n) (mk_mem_zipIdx_iff_getElem?.2 (getElem?_eq_getElem hn))).2
      simp at this
  · rintro ⟨hn, hle⟩ ⟨a, i⟩ hmem
    have hi := mk_mem_zipIdx_iff_getElem?.1 hmem
    refine ⟨fun e => hn (e ▸ mem_of_getElem? hi), ?_⟩
    obtain ⟨hlt, -⟩ := List.getElem?_eq_some_iff.1 hi
    exact Nat.lt_of_lt_of_le hlt hle

theorem addHistogramPoint_guarded :
    Guarded (addHistogramPoint (F := F) ords ns desc) HistogramOk
      (fun st pt => recordAll ords st (histogramEmissions ns desc pt)) where
  run st pt h := by
    obtain ⟨hl, hb, hle⟩ := h
    refine ((emit_bind ords hl).trans (emit_bind ords hl)).trans ?_
    rw [(addBucket_guarded ords ns desc hl).foldlM.run _ _ (zipIdx_guard.2 ⟨hb, hle⟩),
      foldl_bucketStep ords ns desc pt pt.buckets 0 _ hb (by omega)]
    refine (emit_ok ords hl).trans ?_
    rw [histogramEmissions, recordAll_append, recordAll_append]
    rfl
  fail st pt h := by
    by_cases hl : none ∈ pt.labels
    · exact emit_bind_crash ords hl
    · obtain ⟨c, hc⟩ := (addBucket_guarded ords ns desc hl).foldlM.fail _ pt.buckets.zipIdx
        fun hn => h ⟨hl, zipIdx_guard.1 hn⟩
      refine ⟨c, ((emit_bind ords hl).trans (emit_bind ords hl)).trans ?_⟩
      rw [hc]
      rfl

theorem addQuantile_guarded {pt : SummaryDataPoint F} (hl : none ∉ pt.labels) :
    Guarded (addQuantile ords ns desc pt) (fun qt => qt ≠ none)
      (fun st qt => qt.elim st fun qt => record ords st (quantileEmission ns desc pt qt)) where
  run st qt h := by
    cases qt with
    | none => exact absurd rfl h
    | some qt => exact emit_ok ords hl
  fail st qt h := by
    cases qt with
    | none => exact ⟨.nilDereference, rfl⟩
    | some qt => exact absurd (by simp) h

theorem addSummaryPoint_guarded :
    Guarded (addSummaryPoint (F := F) ords ns desc) (fun pt => ∃ p, pt = some p ∧ SummaryOk p)
      (fun st pt => pt.elim st fun pt => recordAll ords st (summaryEmissions ns desc pt)) where
  run st pt h := by
    obtain ⟨pt, rfl, hl, hq⟩ := h
    refine ((emit_bind ords hl).trans (emit_bind ords hl)).trans ?_
    rw [(addQuantile_guarded ords ns desc hl).foldlM.run _ _ (forall_mem_ne'.2 hq),
      foldl_elim_reduceOption, foldl_record, Option.elim_some, summaryEmissions, recordAll_append]
    rfl
  fail st pt h := by
    cases pt with
    | none => exact ⟨.nilDereference, rfl⟩
    | some pt =>
      by_cases hl : none ∈ pt.labels
      · exact emit_bind_crash ords hl
      · obtain ⟨c, hc⟩ := (addQuantile_guarded ords ns desc hl).foldlM.fail _ pt.percentileValues
          fun hn => h ⟨pt, rfl, hl, forall_mem_ne'.1 hn⟩
        exact ⟨c, ((emit_bind ords hl).trans (emit_bind ords hl)).trans hc⟩

end Points

/-! ## Metrics -/

section Metrics

variable {F τ : Type} (ords : Nat → MapOrder Label)

/-- What settling a metric does to the state of the loop: its samples are recorded, and it is
dropped with the error, if there is one. -/
def settled (st : PushState F τ) (es : List (Emission (Sample F))) (err : Option (GoError τ)) :
    PushState F τ :=
  ⟨recordAll ords st.conv es, st.dropped + err.toList.length, st.errs ++ err.toList⟩

/-- How a handler settles a metric: with an error when the field of points is nil, otherwise by the
loop over the points. -/
def byPoints {α : Type} (loop : ConvState F → List α → Go (ConvState F)) (st : PushState F τ)
    (pts : Option (List α)) (err : GoError τ) : Go (PushState F τ) :=
  match pts with
  | none => .ok (st.drop err)
  | some pts => (loop st.conv pts).map fun conv => { st with conv }

section

variable {α : Type} {loop : ConvState F → List α → Go (ConvState F)} {ok : List α → Prop}
  {em : List α → List (Emission (Sample F))} {err : GoError τ} {pts : Option (List α)}
  (hg : Guarded loop ok fun st pts => recordAll ords st (em pts))

include hg

theorem byPoints_run (hnil : em [] = []) (st : PushState F τ) (h : ∀ l ∈ pts, ok l) :
    byPoints loop st pts err =
      .ok (settled ords st (em (pts.getD [])) (if pts.isSome then none else some err)) := by
  cases pts with
  | none => simp [byPoints, PushState.drop, settled, hnil]
  | some l =>
    simp only [byPoints, hg.run st.conv l (h l rfl)]
    simp [settled, Except.map]

theorem byPoints_crash (st : PushState F τ) (h : ¬ ∀ l ∈ pts, ok l) :
    ∃ c, byPoints loop st pts err = .error c := by
  cases pts with
  | none => exact absurd (fun _ hl => nomatch hl) h
  | some l =>
    obtain ⟨c, hc⟩ := hg.fail st.conv l fun hl => h fun l' hl' => by cases hl'; exact hl
    exact ⟨c, by unfold byPoints; simp only [hc, Except.map]⟩

end

variable [Unicode] [GoFloat F] (ns : String)

def pushPoints (m : Metric F) (st : PushState F τ) : MetricType → Go (PushState F τ)
  | .monotonicInt64 | .int64 =>
    byPoints (fun st l => l.foldlM (skipNil (addInt64Point ords ns m.metricDescriptor)) st) st
      m.int64DataPoints
      (.new ("nil data point field in metric " ++ m.metricDescriptor.elim "" (·.name)))
  | .monotonicDouble | .double =>
    byPoints (fun st l => l.foldlM (skipNil (addDoublePoint ords ns m.metricDescriptor)) st) st
      m.doubleDataPoints
      (.new ("nil data point field in metric " ++ m.metricDescriptor.elim "" (·.name)))
  | .histogram =>
    byPoints (fun st l => l.foldlM (skipNil (addHistogramPoint ords ns m.metricDescriptor)) st) st
      m.histogramDataPoints (.new "invalid metric type: wants histogram points")
  | .summary =>
    byPoints (fun st l => l.foldlM (addSummaryPoint ords ns m.metricDescriptor) st) st
      m.summaryDataPoints (.new "invalid metric type: wants summary points")
  | _ => .ok (st.drop (.new "unsupported metric type"))

omit [Unicode] [GoFloat F] in
theorem bind_handled (st : PushState F τ) (loop : Go (ConvState F)) :
    ((loop >>= fun conv => pure (conv, none)) >>= fun r => pure (st.handled r)) =
      loop.map fun conv => { st with conv } := by
  cases loop <;> rfl

theorem pushMetric_eq (st : PushState F τ) (m : Metric F) :
    pushMetric ords ns st m =
      if validateMetrics m.metricDescriptor then
        pushPoints ords ns m st (getType m.metricDescriptor)
      else .ok (st.drop (.new "invalid temporality and type combination")) := by
  unfold pushMetric
  split
  · obtain ⟨desc, is, ds, hs, ss⟩ := m
    cases desc with
    | none => rename_i h; simp [validateMetrics] at h
    | some desc =>
      obtain ⟨name, description, unit, type, temporality⟩ := desc
      cases type with
      | int64 | monotonicInt64 =>
        cases is with
        | none => rfl
        | some l => exact bind_handled st _
      | double | monotonicDouble =>
        cases ds with
        | none => rfl
        | some l => exact bind_handled st _
      | histogram =>
        cases hs with
        | none => rfl
        | some l => exact bind_handled st _
      | summary =>
        cases ss with
        | none => rfl
        | some l => exact bind_handled st _
      | invalidType | unrecognized => rfl
  · rfl

theorem pushPoints_guarded (ty : MetricType) :
    Guarded (fun (st : PushState F τ) m => pushPoints ords ns m st ty) (fun m => PointsOk m ty)
      (fun st m => settled ords st (pointEmissions ns m ty) (pointsError m ty)) := by
  have hi := fun desc => (addInt64Point_guarded (F := F) ords ns desc).foldlM_skipNil
  have hd := fun desc => (addDoublePoint_guarded (F := F) ords ns desc).foldlM_skipNil
  have hh := fun desc => (addHistogramPoint_guarded (F := F) ords ns desc).foldlM_skipNil
  have hs := fun desc => (addSummaryPoint_guarded (F := F) ords ns desc).foldlM
  simp only [foldl_record, foldl_recordAll, foldl_elim_reduceOption, forall_some_iff]
    at hi hd hh hs
  constructor
  · intro st m h
    cases ty with
    | int64 | monotonicInt64 => exact byPoints_run ords (hi _) rfl st h
    | double | monotonicDouble => exact byPoints_run ords (hd _) rfl st h
    | histogram => exact byPoints_run ords (hh _) rfl st h
    | summary => exact byPoints_run ords (hs _) rfl st h
    | invalidType | unrecognized =>
      simp [pushPoints, settled, pointEmissions, pointsError, PushState.drop]
  · intro st m h
    cases ty with
    | int64 | monotonicInt64 => exact byPoints_crash ords (hi _) st h
    | double | monotonicDouble => exact byPoints_crash ords (hd _) st h
    | histogram => exact byPoints_crash ords (hh _) st h
    | summary => exact byPoints_crash ords (hs _) st h
    | invalidType | unrecognized => exact absurd trivial h

theorem pushMetric_guarded :
    Guarded (pushMetric (F := F) (τ := τ) ords ns) MetricOk
      (fun st m => settled ords st (metricEmissions ns m) (rejection m)) where
  run st m h := by
    rw [pushMetric_eq]
    by_cases hv : validateMetrics m.metricDescriptor = true
    · rw [if_pos hv, (pushPoints_guarded ords ns _).run st m (h hv), metricEmissions, rejection,
        if_pos hv, if_pos hv]
    · rw [if_neg hv, metricEmissions, rejection, if_neg hv, if_neg hv]
      rfl
  fail st m h := by
    obtain ⟨hv, hp⟩ := Classical.not_imp.1 h
    rw [pushMetric_eq, if_pos hv]
    exact (pushPoints_guarded ords ns _).fail st m hp

end Metrics

/-! ## Batches -/

section Batches

variable {F R τ : Type} [Unicode] [GoFloat F] (ords : Nat → MapOrder Label) (ns : String)

def rejections (md : MetricData F R) : List (GoError τ) := (metricsOf md).filterMap rejection

/-- The state of `PushMetrics` after a convertible batch. -/
def pushed (st : PushState F τ) (md : MetricData F R) : PushState F τ :=
  ⟨recordAll ords st.conv (emissions ns md), st.dropped + (rejections (τ := τ) md).length,
    st.errs ++ rejections md⟩

theorem foldl_settled (ms : List (Metric F)) (st : PushState F τ) :
    ms.foldl (fun st m => settled ords st (metricEmissions ns m) (rejection m)) st =
      ⟨recordAll ords st.conv (ms.flatMap (metricEmissions ns)),
        st.dropped + (ms.filterMap (rejection (τ := τ))).length,
        st.errs ++ ms.filterMap rejection⟩ := by
  induction ms generalizing st with
  | nil => simp
  | cons m ms ih =>
    rw [foldl_cons, ih, flatMap_cons, recordAll_append]
    cases h : rejection (τ := τ) m <;> simp [settled, h, Nat.add_comm, Nat.add_assoc]

/-- **The conversion of a batch.** It crashes unless the batch is convertible. -/
theorem pushAll_guarded :
    Guarded (pushAll (F := F) (R := R) (τ := τ) ords ns) Convertible (pushed ords ns) := by
  have h := (((pushMetric_guarded (F := F) (τ := τ) ords ns).foldlM_skipNil.comap
    InstrumentationLibraryMetrics.metrics).foldlM_skipNil.comap
    (ResourceMetrics.instrumentationLibraryMetrics (R := R))).foldlM_skipNil
  refine h.congr (fun md => ?_) (fun st md => ?_)
  · simp only [Convertible, metricsOf, mem_flatMap]
    exact ⟨fun h rm hrm ilm hilm m hm => h m ⟨rm, hrm, ilm, hilm, hm⟩,
      fun h m ⟨rm, hrm, ilm, hilm, hm⟩ => h rm hrm ilm hilm m hm⟩
  · simp only [← foldl_flatMap]
    exact (foldl_settled ords ns (metricsOf md) st).symm

theorem convert_ok {md : MetricData F R} (h : Convertible md) :
    convert ords ns md = .ok (pushed ords ns (PushState.init : PushState F τ) md) :=
  (pushAll_guarded ords ns).run _ md h

theorem convert_crash {md : MetricData F R} (h : ¬ Convertible md) :
    ∃ c, convert (τ := τ) ords ns md = .error c :=
  (pushAll_guarded ords ns).fail _ md h

end Batches

end Collector.RemoteWrite
