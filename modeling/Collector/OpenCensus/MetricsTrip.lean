import Collector.OpenCensus.FromMetrics
import Collector.OpenCensus.Translation

/-!
# Metrics through OpenCensus and back

A label goes from the map of its point to the position of its key in the list of all keys, and
back. The list of values that `labelValuesToOC` fills is the list of keys under one function
(`labelValuesToOC_eq`), and writing a value is an update of that function; so a point gets back
the labels it had, in the order of the keys.
-/

namespace Collector.OpenCensus

open Lib List

/-! ## Times -/

theorem ofInt_toInt64 (u : UInt64) : UInt64.ofInt u.toInt64.toInt = u := by
  have h : u.toInt64.toInt = Int.bmod u.toNat (2 ^ 64) := BitVec.toInt_eq_toNat_bmod u.toBitVec
  have hmod : Int.bmod u.toNat (2 ^ 64) % (2 ^ 64 : Int) = (u.toNat : Int) := by
    have hlt := u.toNat_lt
    have := Int.bmod_emod (x := (u.toNat : Int)) (m := 2 ^ 64)
    omega
  rw [h, UInt64.ofInt, hmod]
  simp

theorem timestampToUnixNano_unixNanoToTimestamp (u : UInt64) :
    timestampToUnixNano (unixNanoToTimestamp u) = u := by
  unfold unixNanoToTimestamp
  split
  case isTrue h => rw [h]; rfl
  case isFalse =>
    have hlo := Int64.le_toInt u.toInt64
    have hhi := Int64.toInt_lt u.toInt64
    simp only [timestampToUnixNano]
    rw [Int64.toInt_ofInt_of_le (by omega) (by omega),
      Int32.toInt_ofInt_of_le (by omega) (by omega), Int.mul_comm, Int.mul_ediv_add_emod,
      ofInt_toInt64]

/-! ## Labels -/

/-- Labels that are a map: none is nil, and the keys are distinct. -/
structure LabelMap (labels : List (Option Otlp.StringKeyValue)) : Prop where
  noNil : none ∉ labels
  distinct : (labels.reduceOption.map Otlp.StringKeyValue.key).Nodup

/-- The value of each key, as the loop of `labelValuesToOC` sets them. -/
def valuesByKey (labels : List Otlp.StringKeyValue) : String → LabelValue :=
  labels.foldl (fun f kv => Function.update f kv.key ⟨kv.value, true⟩) fun _ => ⟨"", false⟩

variable {labels : List Otlp.StringKeyValue} {key : String} {ks : List String}

theorem foldl_update_of_notMem (f : String → LabelValue)
    (h : key ∉ labels.map Otlp.StringKeyValue.key) :
    labels.foldl (fun f kv => Function.update f kv.key ⟨kv.value, true⟩) f key = f key := by
  induction labels generalizing f with
  | nil => rfl
  | cons kv labels ih =>
    rw [map_cons, mem_cons, not_or] at h
    rw [foldl_cons, ih _ h.2, Function.update_of_ne h.1]

theorem foldl_update_of_mem {kv : Otlp.StringKeyValue} (f : String → LabelValue)
    (hn : (labels.map Otlp.StringKeyValue.key).Nodup) (h : kv ∈ labels) :
    labels.foldl (fun f kv => Function.update f kv.key ⟨kv.value, true⟩) f kv.key =
      ⟨kv.value, true⟩ := by
  induction labels generalizing f with
  | nil => cases h
  | cons kv' labels ih =>
    rw [map_cons, nodup_cons] at hn
    rw [foldl_cons]
    rcases mem_cons.1 h with rfl | h
    · rw [foldl_update_of_notMem _ hn.1, Function.update_self]
    · exact ih _ hn.2 h

theorem valuesByKey_eq_iff (hn : (labels.map Otlp.StringKeyValue.key).Nodup) (key value : String) :
    (valuesByKey labels key).hasValue = true ∧ (valuesByKey labels key).value = value ↔
      (⟨key, value⟩ : Otlp.StringKeyValue) ∈ labels := by
  unfold valuesByKey
  by_cases hmem : key ∈ labels.map Otlp.StringKeyValue.key
  · obtain ⟨kv, hkv, rfl⟩ := mem_map.1 hmem
    rw [foldl_update_of_mem _ hn hkv]
    constructor
    · rintro ⟨-, rfl⟩
      exact hkv
    · intro h
      have hsame := inj_on_of_nodup_map hn hkv h rfl
      exact ⟨rfl, by rw [hsame]⟩
  · rw [foldl_update_of_notMem _ hmem]
    refine iff_of_false (fun h => by cases h.1) fun h => hmem ?_
    exact mem_map.2 ⟨_, h, rfl⟩

theorem set_map_eq_map_update {β : Type} (hn : ks.Nodup) {i : Nat} (hi : ks[i]? = some key)
    (f : String → β) (b : β) : (ks.map f).set i b = ks.map (Function.update f key b) := by
  obtain ⟨hlt, rfl⟩ := List.getElem?_eq_some_iff.1 hi
  rw [hn.map_update, if_pos (getElem_mem hlt), hn.idxOf_getElem i hlt]

theorem lookup_keyIndices (hn : ks.Nodup) (h : key ∈ ks) :
    ∃ i, (indexKeys ks).keyIndices.lookup key = some i ∧ ks[i]? = some key := by
  obtain ⟨i, hlt, rfl⟩ := getElem_of_mem h
  have hmem : (ks[i], i) ∈ ks.zipIdx := mk_mem_zipIdx_iff_getElem?.2 (by simp)
  refine ⟨i, ?_, by simp⟩
  exact lookup_enter_of_mem Prod.snd ∅ (by rwa [zipIdx_map_fst]) hmem

variable {labels : List (Option Otlp.StringKeyValue)}

/-- **The values of a point**, where all its keys are among those of the metric. -/
theorem labelValuesToOC_eq (hn : ks.Nodup)
    (h : ∀ kv ∈ labels.reduceOption, kv.key ∈ ks) :
    labelValuesToOC labels (indexKeys ks) =
      .ok (ks.map fun key => some (valuesByKey labels.reduceOption key)) := by
  have hloop : ∀ (l : List Otlp.StringKeyValue) (f : String → LabelValue), (∀ kv ∈ l, kv.key ∈ ks) →
      l.foldlM (fun labelValues kv => setIndex labelValues
          (((indexKeys ks).keyIndices.lookup kv.key).getD 0) ⟨kv.value, true⟩) (ks.map f) =
        (.ok (ks.map (l.foldl (fun f kv => Function.update f kv.key ⟨kv.value, true⟩) f)) :
          Go (List LabelValue)) := by
    intro l
    induction l with
    | nil => intro f _; rfl
    | cons kv l ih =>
      intro f hl
      obtain ⟨i, hi, hget⟩ := lookup_keyIndices hn (hl kv mem_cons_self)
      have hlt := (List.getElem?_eq_some_iff.1 hget).1
      rw [foldlM_cons, hi, Option.getD_some, setIndex, if_pos (by rwa [length_map]),
        set_map_eq_map_update hn hget]
      exact ih _ fun kv hkv => hl kv (mem_cons_of_mem _ hkv)
  unfold labelValuesToOC
  cases ks with
  | nil => rfl
  | cons k ks =>
    rw [if_neg (by simp [indexKeys]), foldlM_skipNil_eq]
    have hdefault : List.replicate (indexKeys (k :: ks)).keys.length (⟨"", false⟩ : LabelValue) =
        (k :: ks).map fun _ => ⟨"", false⟩ := by
      rw [map_const', indexKeys, length_map]
    rw [hdefault, hloop _ _ h]
    show Except.ok _ = _
    rw [map_map]
    rfl

theorem labelsOf_map (hn : ks.Nodup) (f : String → LabelValue) :
    labelsOf (indexKeys ks).keys (ks.map fun key => some (f key)) =
      (ks.filter fun key => (f key).hasValue).map fun key => some ⟨key, (f key).value⟩ := by
  have hloop : ∀ (l : List String) (sm : List (Option Otlp.StringKeyValue)), l.Nodup →
      (∀ key ∈ l, ∀ kv, some kv ∈ sm → kv.key ≠ key) →
      (l.map fun key => (some (⟨key, ""⟩ : LabelKey), some (f key))).foldl withLabel sm =
        sm ++ (l.filter fun key => (f key).hasValue).map fun key => some ⟨key, (f key).value⟩ := by
    intro l
    induction l with
    | nil => intro sm _ _; simp
    | cons key l ih =>
      intro sm hnod hnew
      obtain ⟨hnot, hnod⟩ := nodup_cons.1 hnod
      rw [map_cons, foldl_cons]
      by_cases hv : (f key).hasValue = true
      · have habsent : (sm.any fun kv => kv.any fun kv => kv.key == key) = false := by
          rw [any_eq_false]
          intro kv hkv
          cases kv with
          | none => simp
          | some kv => simpa using hnew key mem_cons_self kv hkv
        have hstep : withLabel sm (some ⟨key, ""⟩, some (f key)) =
            sm ++ [some ⟨key, (f key).value⟩] := by
          simp [withLabel, stringMapInsert, hv, habsent]
        rw [hstep, ih _ hnod, filter_cons, if_pos hv, map_cons, append_assoc]
        · rfl
        · intro key' hkey' kv hkv
          rcases mem_append.1 hkv with hkv | hkv
          · exact hnew key' (mem_cons_of_mem _ hkey') kv hkv
          · cases mem_singleton.1 hkv
            rintro rfl
            exact hnot hkey'
      · have hstep : withLabel sm (some ⟨key, ""⟩, some (f key)) = sm := by
          simp [withLabel, hv]
        rw [hstep, ih _ hnod fun key' hkey' => hnew key' (mem_cons_of_mem _ hkey'),
          filter_cons, if_neg hv]
  unfold labelsOf indexKeys
  rw [zip_map']
  exact (hloop ks [] hn (by simp)).trans (nil_append _)

theorem labelsOf_perm (hn : ks.Nodup)
    (hmap : LabelMap labels) (h : ∀ kv ∈ labels.reduceOption, kv.key ∈ ks) :
    (labelsOf (indexKeys ks).keys
      (ks.map fun key => some (valuesByKey labels.reduceOption key))).Perm labels := by
  rw [labelsOf_map hn]
  have hnodup : labels.Nodup := by
    rw [← map_some_reduceOption hmap.noNil]
    exact (hmap.distinct.of_map _).map fun _ _ => Option.some.inj
  rw [perm_ext_iff_of_nodup ?_ hnodup]
  · intro kv
    cases kv with
    | none => simp [hmap.noNil]
    | some kv =>
      have hkv := valuesByKey_eq_iff hmap.distinct kv.key kv.value
      rw [reduceOption_mem_iff] at hkv
      simp only [mem_map, mem_filter, Option.some.injEq]
      constructor
      · rintro ⟨key, ⟨-, hv⟩, rfl⟩
        exact hkv.1 ⟨hv, rfl⟩
      · intro hmem
        obtain ⟨hv, hvalue⟩ := hkv.2 hmem
        refine ⟨kv.key, ⟨h kv (reduceOption_mem_iff.2 hmem), hv⟩, ?_⟩
        rw [hvalue]
  · refine (hn.filter _).map fun key key' he => ?_
    exact congrArg Otlp.StringKeyValue.key (Option.some.inj he)

/-! ## What stays the same -/

section Same

variable {F : Type}

/-- All but the temporality. -/
def SameDescriptor (d d' : Otlp.MetricDescriptor) : Prop :=
  d' = { d with temporality := d'.temporality }

structure SameInt64 (p p' : Otlp.Int64DataPoint) : Prop where
  labels : p'.labels.Perm p.labels
  rest : p' = { p with labels := p'.labels }

structure SameDouble (p p' : Otlp.DoubleDataPoint F) : Prop where
  labels : p'.labels.Perm p.labels
  rest : p' = { p with labels := p'.labels }

structure SameSummary (p p' : Otlp.SummaryDataPoint F) : Prop where
  labels : p'.labels.Perm p.labels
  rest : p' = { p with labels := p'.labels }

structure SameExemplar (e e' : Otlp.Exemplar F) : Prop where
  attachments : e'.attachments.Perm e.attachments
  rest : e' = { e with attachments := e'.attachments }

structure SameBucket (b b' : Otlp.Bucket F) : Prop where
  count : b'.count = b.count
  exemplar : Option.Rel SameExemplar b.exemplar b'.exemplar

structure SameHistogram (p p' : Otlp.HistogramDataPoint F) : Prop where
  labels : p'.labels.Perm p.labels
  buckets : List.Forall₂ (Option.Rel SameBucket) p.buckets p'.buckets
  rest : p' = { p with labels := p'.labels, buckets := p'.buckets }

/-- The same points in the same order; a nil slice is one without points. -/
def SamePoints {P : Type} (same : P → P → Prop) (l l' : Option (List (Option P))) : Prop :=
  List.Forall₂ (Option.Rel same) (l.getD []) (l'.getD [])

structure SameMetric (m m' : Otlp.Metric F) : Prop where
  descriptor : Option.Rel SameDescriptor m.metricDescriptor m'.metricDescriptor
  int64 : SamePoints SameInt64 m.int64DataPoints m'.int64DataPoints
  double : SamePoints SameDouble m.doubleDataPoints m'.doubleDataPoints
  histogram : SamePoints SameHistogram m.histogramDataPoints m'.histogramDataPoints
  summary : SamePoints SameSummary m.summaryDataPoints m'.summaryDataPoints

/-! ## Which metrics -/

/-- No point of the slice is nil, and all are as `ok` says. -/
def EveryPoint {P : Type} (ok : P → Prop) (l : Option (List (Option P))) : Prop :=
  ∀ p ∈ l.getD [], ∃ q, p = some q ∧ ok q

structure HistogramWhole (p : Otlp.HistogramDataPoint F) : Prop where
  labels : LabelMap p.labels
  buckets : none ∉ p.buckets
  attachments : ∀ b, some b ∈ p.buckets → ∀ e, b.exemplar = some e → none ∉ e.attachments

structure SummaryWhole (p : Otlp.SummaryDataPoint F) : Prop where
  labels : LabelMap p.labels
  percentiles : none ∉ p.percentileValues

/-- A metric without nil elements, of a known type, with distinct label keys in each point. -/
structure MetricWhole (m : Otlp.Metric F) : Prop where
  known : ∃ d, m.metricDescriptor = some d ∧ ∀ n, d.type ≠ .unrecognized n
  int64 : EveryPoint (fun p => LabelMap p.labels) m.int64DataPoints
  double : EveryPoint (fun p => LabelMap p.labels) m.doubleDataPoints
  histogram : EveryPoint HistogramWhole m.histogramDataPoints
  summary : EveryPoint SummaryWhole m.summaryDataPoints

def DistinctAttachments (m : Otlp.Metric F) : Prop :=
  ∀ p, some p ∈ m.histogramDataPoints.getD [] → ∀ b, some b ∈ p.buckets →
    ∀ e, b.exemplar = some e → (e.attachments.reduceOption.map Otlp.StringKeyValue.key).Nodup

variable {P : Type} {l : Option (List (Option P))} {ok : P → Prop}

theorem EveryPoint.noNil
    (h : EveryPoint ok l) : none ∉ l.getD [] := (forall_some_iff.1 h).1

theorem EveryPoint.of_mem
    (h : EveryPoint ok l) {p : P} (hp : p ∈ (l.getD []).reduceOption) : ok p :=
  (forall_some_iff.1 h).2 p hp

theorem samePoints_sliceOf {same : P → P → Prop}
    (h : EveryPoint ok l) {f : P → P}
    (hf : ∀ p ∈ (l.getD []).reduceOption, same p (f p)) :
    SamePoints same l (sliceOf ((l.getD []).reduceOption.map f)) := by
  have hslice : (sliceOf ((l.getD []).reduceOption.map f)).getD [] =
      (l.getD []).reduceOption.map fun p => some (f p) := by
    unfold sliceOf
    split
    case isTrue hnil => simp [map_eq_nil_iff.1 hnil]
    case isFalse => simp [Function.comp_def]
  unfold SamePoints
  rw [hslice]
  conv_lhs => rw [← map_some_reduceOption h.noNil]
  rw [forall₂_map_left_iff, forall₂_map_right_iff, forall₂_same]
  exact fun p hp => .some (hf p hp)

end Same

/-! ## Values -/

section Values

variable {F : Type}

theorem attachments_perm (h : LabelMap labels) :
    ((enter Otlp.StringKeyValue.key Otlp.StringKeyValue.value ∅
      labels.reduceOption).entries.map fun e => some (⟨e.1, e.2⟩ : Otlp.StringKeyValue)).Perm
        labels := by
  have hentries := entries_enter_perm Otlp.StringKeyValue.value h.distinct
    (m := ∅) fun kv _ => AList.notMem_empty kv.key
  have hperm := hentries.map fun e => some (⟨e.1, e.2⟩ : Otlp.StringKeyValue)
  rw [map_append, map_map] at hperm
  refine hperm.trans (.of_eq ?_)
  exact map_some_reduceOption h.noNil

theorem sameExemplar {e : Otlp.Exemplar F} (h : LabelMap e.attachments) :
    SameExemplar e (exemplarToInternal (exemplarToOC e)) where
  attachments := attachments_perm h
  rest := by
    simp [exemplarToInternal, exemplarToOC, timestampToUnixNano_unixNanoToTimestamp]

def bucketTrip (b : Otlp.Bucket F) : Otlp.Bucket F :=
  ⟨b.count.toInt64.toUInt64, b.exemplar.map fun e => exemplarToInternal (exemplarToOC e)⟩

theorem histogramBucketsToOC_eq {buckets : List (Option (Otlp.Bucket F))} (h : none ∉ buckets) :
    histogramBucketsToOC buckets = .ok (buckets.reduceOption.map fun b =>
      some ⟨b.count.toInt64, b.exemplar.map exemplarToOC⟩) := by
  unfold histogramBucketsToOC
  conv_lhs => rw [← map_some_reduceOption h]
  rw [mapM_map]
  exact mapM_ok fun b _ => rfl

theorem sameBuckets {p : Otlp.HistogramDataPoint F} (h : HistogramWhole p)
    (hd : ∀ b, some b ∈ p.buckets → ∀ e, b.exemplar = some e →
      (e.attachments.reduceOption.map Otlp.StringKeyValue.key).Nodup) :
    List.Forall₂ (Option.Rel SameBucket) p.buckets
      (p.buckets.reduceOption.map fun b => some (bucketTrip b)) := by
  conv_lhs => rw [← map_some_reduceOption h.buckets]
  rw [forall₂_map_left_iff, forall₂_map_right_iff, forall₂_same]
  intro b hb
  have hmem := reduceOption_mem_iff.1 hb
  refine .some ⟨by simp [bucketTrip], ?_⟩
  unfold bucketTrip
  cases he : b.exemplar with
  | none => exact .none
  | some e => exact .some (sameExemplar ⟨h.attachments b hmem e he, hd b hmem e he⟩)

/-- `percentileToOC` where no percentile is nil. -/
def snapshotOf (percentiles : List (Option (Otlp.ValueAtPercentile F))) : Option (Snapshot F) :=
  if percentiles.length = 0 then none
  else some ⟨percentiles.reduceOption.map fun p => some ⟨p.percentile, p.value⟩⟩

theorem percentileToOC_eq {percentiles : List (Option (Otlp.ValueAtPercentile F))}
    (h : none ∉ percentiles) : percentileToOC percentiles = .ok (snapshotOf percentiles) := by
  unfold percentileToOC snapshotOf
  split
  case isTrue => rfl
  case isFalse =>
    have hloop : (percentiles.mapM fun p => do
        let p ← deref p
        return some (⟨p.percentile, p.value⟩ : ValueAtPercentile F) : Go _) =
        .ok (percentiles.reduceOption.map fun p => some ⟨p.percentile, p.value⟩) := by
      conv_lhs => rw [← map_some_reduceOption h]
      rw [mapM_map]
      exact mapM_ok fun p _ => rfl
    rw [hloop]
    rfl

end Values

/-! ## Metrics -/

section Metrics

variable {F N S R R' : Type}

/-- A point of any kind, on its way to a time series. -/
structure FlatPoint (F : Type) where
  start : UInt64
  time : UInt64
  labels : List (Option Otlp.StringKeyValue)
  value : PointValue F

def flatInt64 (p : Otlp.Int64DataPoint) : FlatPoint F :=
  ⟨p.startTimeUnixNano, p.timeUnixNano, p.labels, .int64 p.value⟩

def flatDouble (p : Otlp.DoubleDataPoint F) : FlatPoint F :=
  ⟨p.startTimeUnixNano, p.timeUnixNano, p.labels, .double p.value⟩

def flatHistogram (p : Otlp.HistogramDataPoint F) : FlatPoint F :=
  ⟨p.startTimeUnixNano, p.timeUnixNano, p.labels, .distribution (some {
    count := p.count.toInt64
    sum := p.sum
    bucketOptions := histogramExplicitBoundsToOC p.explicitBounds
    buckets := p.buckets.reduceOption.map fun b =>
      some ⟨b.count.toInt64, b.exemplar.map exemplarToOC⟩ })⟩

def flatSummary (p : Otlp.SummaryDataPoint F) : FlatPoint F :=
  ⟨p.startTimeUnixNano, p.timeUnixNano, p.labels,
    .summary (some ⟨some p.count.toInt64, some p.sum, snapshotOf p.percentileValues⟩)⟩

def flatPoints (m : Otlp.Metric F) : List (FlatPoint F) :=
  (m.int64DataPoints.getD []).reduceOption.map flatInt64 ++
  (m.doubleDataPoints.getD []).reduceOption.map flatDouble ++
  (m.histogramDataPoints.getD []).reduceOption.map flatHistogram ++
  (m.summaryDataPoints.getD []).reduceOption.map flatSummary

def FlatPoint.point (q : FlatPoint F) : Point F := ⟨unixNanoToTimestamp q.time, some q.value⟩

def FlatPoint.series (ks : List String) (q : FlatPoint F) : TimeSeries F where
  startTimestamp := unixNanoToTimestamp q.start
  labelValues := ks.map fun key => some (valuesByKey q.labels.reduceOption key)
  points := [some q.point]

/-! ### The keys of a metric -/

theorem mem_keys_enter {α K V : Type} [DecidableEq K] {k : α → K} {v : α → V}
    {m : AList fun _ : K => V} {l : List α} {key : K} :
    key ∈ enter k v m l ↔ key ∈ m ∨ key ∈ l.map k := by
  induction l generalizing m with
  | nil => simp [enter]
  | cons a l ih =>
    show key ∈ enter k v (m.insert (k a) (v a)) l ↔ _
    rw [ih, AList.mem_insert, map_cons, mem_cons]
    tauto

theorem mem_addPointsKeys {labels : P → List (Option Otlp.StringKeyValue)}
    {points : Option (List (Option P))} {keySet : GoMap String Unit} :
    key ∈ addPointsKeys labels points keySet ↔ key ∈ keySet ∨
      ∃ p ∈ (points.getD []).reduceOption, ∃ kv ∈ (labels p).reduceOption, kv.key = key := by
  unfold addPointsKeys
  induction (points.getD []).reduceOption generalizing keySet with
  | nil => simp
  | cons p l ih =>
    rw [foldl_cons, ih, addLabelKeys, mem_keys_enter, exists_mem_cons_iff, mem_map,
      or_assoc]

variable {m : Otlp.Metric F} {q : FlatPoint F}

theorem mem_labelKeySet (hq : q ∈ flatPoints m) :
    ∀ kv ∈ q.labels.reduceOption, kv.key ∈ labelKeySet m := by
  intro kv hkv
  unfold labelKeySet
  simp only [mem_addPointsKeys]
  simp only [flatPoints, mem_append, mem_map] at hq
  rcases hq with ((⟨p, hp, rfl⟩ | ⟨p, hp, rfl⟩) | ⟨p, hp, rfl⟩) | ⟨p, hp, rfl⟩
  · exact .inl (.inl (.inl (.inr ⟨p, hp, kv, hkv, rfl⟩)))
  · exact .inl (.inl (.inr ⟨p, hp, kv, hkv, rfl⟩))
  · exact .inl (.inr ⟨p, hp, kv, hkv, rfl⟩)
  · exact .inr ⟨p, hp, kv, hkv, rfl⟩

/-- The keys of a metric, as `collectLabelKeys` sorts them. -/
def sortedKeys (m : Otlp.Metric F) : List String := sortStrings (labelKeySet m).keys

theorem nodup_sortedKeys (m : Otlp.Metric F) : (sortedKeys m).Nodup :=
  (mergeSort_perm _ _).nodup_iff.2 (AList.keys_nodup _)

theorem mem_sortedKeys (hq : q ∈ flatPoints m) :
    ∀ kv ∈ q.labels.reduceOption, kv.key ∈ sortedKeys m := fun kv hkv =>
  (mergeSort_perm _ _).mem_iff.2 (AList.mem_keys.1 (mem_labelKeySet hq kv hkv))

/-! ### There -/

theorem pointToOC_eq (hn : ks.Nodup) (h : ∀ kv ∈ q.labels.reduceOption, kv.key ∈ ks) :
    pointToOC q.start q.time q.labels (indexKeys ks) q.value = .ok (q.series ks) := by
  unfold pointToOC
  rw [labelValuesToOC_eq hn h]
  rfl

theorem pointsToTimeseries_eq {toOC : P → Go (TimeSeries F)} {flat : P → FlatPoint F}
    {points : Option (List (Option P))}
    (h : ∀ p ∈ (points.getD []).reduceOption, toOC p = .ok ((flat p).series ks)) :
    pointsToTimeseries toOC points =
      .ok (((points.getD []).reduceOption.map flat).map fun q => some (q.series ks)) := by
  rw [map_map]
  refine mapM_ok fun p hp => ?_
  rw [h p hp]
  rfl

theorem dataPointsToTimeseries_eq (h : MetricWhole m) (hn : ks.Nodup)
    (hks : ∀ q ∈ flatPoints m, ∀ kv ∈ q.labels.reduceOption, kv.key ∈ ks) :
    dataPointsToTimeseries m (indexKeys ks) =
      .ok ((flatPoints m).map fun q => some (q.series ks)) := by
  have hmem : ∀ q ∈ flatPoints m,
      pointToOC q.start q.time q.labels (indexKeys ks) q.value = .ok (q.series ks) :=
    fun q hq => pointToOC_eq hn (hks q hq)
  simp only [flatPoints, mem_append, mem_map] at hmem
  have hint : ∀ p ∈ (m.int64DataPoints.getD []).reduceOption,
      int64PointToOC (indexKeys ks) p = .ok ((flatInt64 p).series ks) :=
    fun p hp => hmem (flatInt64 p) (.inl (.inl (.inl ⟨p, hp, rfl⟩)))
  have hdouble : ∀ p ∈ (m.doubleDataPoints.getD []).reduceOption,
      doublePointToOC (indexKeys ks) p = .ok ((flatDouble p).series ks) :=
    fun p hp => hmem (flatDouble p) (.inl (.inl (.inr ⟨p, hp, rfl⟩)))
  have hhist : ∀ p ∈ (m.histogramDataPoints.getD []).reduceOption,
      histogramPointToOC (indexKeys ks) p = .ok ((flatHistogram p).series ks) := by
    intro p hp
    unfold histogramPointToOC
    rw [histogramBucketsToOC_eq (h.histogram.of_mem hp).buckets]
    exact hmem (flatHistogram p) (.inl (.inr ⟨p, hp, rfl⟩))
  have hsum : ∀ p ∈ (m.summaryDataPoints.getD []).reduceOption,
      summaryPointToOC (indexKeys ks) p = .ok ((flatSummary p).series ks) := by
    intro p hp
    unfold summaryPointToOC
    rw [percentileToOC_eq (h.summary.of_mem hp).percentiles]
    exact hmem (flatSummary p) (.inr ⟨p, hp, rfl⟩)
  unfold dataPointsToTimeseries
  rw [pointsToTimeseries_eq hint, pointsToTimeseries_eq hdouble, pointsToTimeseries_eq hhist,
    pointsToTimeseries_eq hsum]
  simp only [flatPoints, map_append]
  rfl

/-! ### Back -/

theorem pointsOf_series {oc : Metric F S} {l : List (FlatPoint F)}
    (h : oc.timeseries = l.map fun q => some (q.series ks)) :
    pointsOf oc = l.map fun q => (q.series ks, q.point) := by
  unfold pointsOf
  rw [h]
  clear h
  induction l with
  | nil => rfl
  | cons q l ih =>
    rw [map_cons, reduceOption_cons_of_some, flatMap_cons, ih, map_cons]
    rfl

variable [GoFloat F]

def labelsTrip (ks : List String) (labels : List (Option Otlp.StringKeyValue)) :
    List (Option Otlp.StringKeyValue) :=
  labelsOf (indexKeys ks).keys (ks.map fun key => some (valuesByKey labels.reduceOption key))

def FlatPoint.int64? (ks : List String) (q : FlatPoint F) : Option Otlp.Int64DataPoint :=
  match q.value with
  | .int64 n => some ⟨labelsTrip ks q.labels, q.start, q.time, n⟩
  | _ => none

def FlatPoint.double? (ks : List String) (q : FlatPoint F) : Option (Otlp.DoubleDataPoint F) :=
  match q.value with
  | .double x => some ⟨labelsTrip ks q.labels, q.start, q.time, x⟩
  | _ => none

def FlatPoint.histogram? (ks : List String) (q : FlatPoint F) :
    Option (Otlp.HistogramDataPoint F) :=
  match q.value with
  | .distribution d => some (histogramDataPoint (labelsTrip ks q.labels) q.start q.time d)
  | _ => none

def FlatPoint.summary? (ks : List String) (q : FlatPoint F) : Option (Otlp.SummaryDataPoint F) :=
  match q.value with
  | .summary x => some (summaryDataPoint (labelsTrip ks q.labels) q.start q.time x)
  | _ => none

open FlatPoint (int64? double? histogram? summary?)

def histogramTrip (ks : List String) (p : Otlp.HistogramDataPoint F) : Otlp.HistogramDataPoint F :=
  histogramDataPoint (labelsTrip ks p.labels) p.startTimeUnixNano p.timeUnixNano (some {
    count := p.count.toInt64
    sum := p.sum
    bucketOptions := histogramExplicitBoundsToOC p.explicitBounds
    buckets := p.buckets.reduceOption.map fun b =>
      some ⟨b.count.toInt64, b.exemplar.map exemplarToOC⟩ })

def summaryTrip (ks : List String) (p : Otlp.SummaryDataPoint F) : Otlp.SummaryDataPoint F :=
  summaryDataPoint (labelsTrip ks p.labels) p.startTimeUnixNano p.timeUnixNano
    (some ⟨some p.count.toInt64, some p.sum, snapshotOf p.percentileValues⟩)

theorem foldl_addPoint (ks : List String) (l : List (FlatPoint F)) (acc : Points F) :
    (l.map fun q => (q.series ks, q.point)).foldl (addPoint (indexKeys ks).keys) acc =
      ⟨acc.int64 ++ l.filterMap (int64? ks),
        acc.double ++ l.filterMap (double? ks),
        acc.histogram ++ l.filterMap (histogram? ks),
        acc.summary ++ l.filterMap (summary? ks)⟩ := by
  induction l generalizing acc with
  | nil => simp
  | cons q l ih =>
    rw [map_cons, foldl_cons, ih]
    obtain ⟨start, time, labels, value⟩ := q
    cases value <;>
      simp [addPoint, FlatPoint.series, FlatPoint.point, int64?, double?,
        histogram?, summary?, labelsTrip, filterMap_cons,
        timestampToUnixNano_unixNanoToTimestamp]

theorem filterMap_flatPoints (ks : List String) (m : Otlp.Metric F) :
    (flatPoints m).filterMap (int64? ks) =
      (m.int64DataPoints.getD []).reduceOption.map (fun p =>
        { p with labels := labelsTrip ks p.labels }) ∧
    (flatPoints m).filterMap (double? ks) =
      (m.doubleDataPoints.getD []).reduceOption.map (fun p =>
        { p with labels := labelsTrip ks p.labels }) ∧
    (flatPoints m).filterMap (histogram? ks) =
      (m.histogramDataPoints.getD []).reduceOption.map (histogramTrip ks) ∧
    (flatPoints m).filterMap (summary? ks) =
      (m.summaryDataPoints.getD []).reduceOption.map (summaryTrip ks) := by
  refine ⟨?_, ?_, ?_, ?_⟩ <;>
    simp [flatPoints, filterMap_map, Function.comp_def, flatInt64, flatDouble, flatHistogram,
      flatSummary, int64?, double?, histogram?, summary?,
      histogramTrip, summaryTrip]

theorem pointsByKind_series {d : Otlp.MetricDescriptor} (hdesc : m.metricDescriptor = some d)
    (ks : List String) :
    pointsByKind (⟨descriptorToOC m.metricDescriptor (indexKeys ks),
      (flatPoints m).map fun q => some (q.series ks), none⟩ : Metric F S) =
    ⟨(m.int64DataPoints.getD []).reduceOption.map fun p =>
        { p with labels := labelsTrip ks p.labels },
      (m.doubleDataPoints.getD []).reduceOption.map fun p =>
        { p with labels := labelsTrip ks p.labels },
      (m.histogramDataPoints.getD []).reduceOption.map (histogramTrip ks),
      (m.summaryDataPoints.getD []).reduceOption.map (summaryTrip ks)⟩ := by
  obtain ⟨hint, hdouble, hhist, hsum⟩ := filterMap_flatPoints ks m
  unfold pointsByKind labelKeysOf
  rw [pointsOf_series rfl, hdesc, ← hint, ← hdouble, ← hhist, ← hsum]
  exact foldl_addPoint ks (flatPoints m) Points.none

theorem labelsOk_indexKeys (ks : List String) (vals : List (Option LabelValue)) :
    LabelsOk (indexKeys ks).keys vals := by
  intro kv hkv _ hnil
  have hmem : kv.1 ∈ (indexKeys ks).keys := (of_mem_zip hkv).1
  obtain ⟨key, -, hkey⟩ := mem_map.1 hmem
  rw [hnil] at hkey
  cases hkey

theorem sameDescriptor_trip {d : Otlp.MetricDescriptor} (h : ∀ n, d.type ≠ .unrecognized n)
    (labelKeys : LabelKeys) :
    Option.Rel SameDescriptor (some d)
      (descriptorToInternal (descriptorToOC (some d) labelKeys)) := by
  obtain ⟨name, description, unit, type, temporality⟩ := d
  cases type with
  | unrecognized n => exact absurd rfl (h n)
  | invalidType | int64 | monotonicInt64 | double | monotonicDouble | histogram | summary =>
    exact .some rfl

theorem sameHistogram_trip {p : Otlp.HistogramDataPoint F}
    (hlabels : (labelsTrip ks p.labels).Perm p.labels) (h : HistogramWhole p)
    (hd : ∀ b, some b ∈ p.buckets → ∀ e, b.exemplar = some e →
      (e.attachments.reduceOption.map Otlp.StringKeyValue.key).Nodup) :
    SameHistogram p (histogramTrip ks p) where
  labels := hlabels
  buckets := by
    have hb := sameBuckets h hd
    simpa [histogramTrip, histogramDataPoint, histogramBucketsToInternal, bucketTrip,
      Function.comp_def] using hb
  rest := by
    have hbounds : (((histogramExplicitBoundsToOC p.explicitBounds).bind
        BucketOptions.explicit).getD []) = p.explicitBounds := by
      unfold histogramExplicitBoundsToOC
      split
      case isTrue hnil => rw [length_eq_zero_iff.1 hnil]; rfl
      case isFalse => rfl
    simp [histogramTrip, histogramDataPoint, hbounds]

theorem sameSummary_trip {p : Otlp.SummaryDataPoint F}
    (hlabels : (labelsTrip ks p.labels).Perm p.labels) (h : SummaryWhole p) :
    SameSummary p (summaryTrip ks p) where
  labels := hlabels
  rest := by
    have hvalues : percentileToInternal
        ((snapshotOf p.percentileValues).elim [] Snapshot.percentileValues) =
          p.percentileValues := by
      have hsnap : (snapshotOf p.percentileValues).elim [] Snapshot.percentileValues =
          p.percentileValues.reduceOption.map fun v => some ⟨v.percentile, v.value⟩ := by
        unfold snapshotOf
        split
        case isTrue hnil => rw [length_eq_zero_iff.1 hnil]; rfl
        case isFalse => rfl
      rw [hsnap, percentileToInternal, map_map]
      exact map_some_reduceOption h.percentiles
    simp [summaryTrip, summaryDataPoint, hvalues]

theorem metricToOC_trip (h : MetricWhole m) (hd : DistinctAttachments m) :
    ∃ oc : Metric F S, metricToOC m = .ok oc ∧ oc.resource = none ∧ TranslatesOk oc ∧
      SameMetric m (internalMetric oc) := by
  obtain ⟨d, hdesc, hknown⟩ := h.known
  have hn := nodup_sortedKeys m
  refine ⟨⟨descriptorToOC m.metricDescriptor (indexKeys (sortedKeys m)),
    (flatPoints m).map fun q => some (q.series (sortedKeys m)), none⟩, ?_, rfl, ?_, ?_⟩
  · show (dataPointsToTimeseries m (indexKeys (sortedKeys m)) >>= _) = _
    rw [dataPointsToTimeseries_eq h hn fun q hq => mem_sortedKeys hq]
    rfl
  · intro tp htp _
    rw [hdesc]
    exact labelsOk_indexKeys _ _
  · have hlabels : ∀ q ∈ flatPoints m, LabelMap q.labels →
        (labelsTrip (sortedKeys m) q.labels).Perm q.labels :=
      fun q hq hmap => labelsOf_perm hn hmap (mem_sortedKeys hq)
    simp only [flatPoints, mem_append, mem_map] at hlabels
    have hpoints := pointsByKind_series (S := S) hdesc (sortedKeys m)
    unfold internalMetric
    rw [hpoints]
    constructor
    case descriptor =>
      rw [hdesc]
      exact sameDescriptor_trip hknown _
    case int64 =>
      refine samePoints_sliceOf h.int64 fun p hp => ⟨?_, rfl⟩
      exact hlabels (flatInt64 p) (.inl (.inl (.inl ⟨p, hp, rfl⟩))) (h.int64.of_mem hp)
    case double =>
      refine samePoints_sliceOf h.double fun p hp => ⟨?_, rfl⟩
      exact hlabels (flatDouble p) (.inl (.inl (.inr ⟨p, hp, rfl⟩))) (h.double.of_mem hp)
    case histogram =>
      refine samePoints_sliceOf h.histogram fun p hp => ?_
      have hp' := h.histogram.of_mem hp
      have hperm := hlabels (flatHistogram p) (.inl (.inr ⟨p, hp, rfl⟩)) hp'.labels
      exact sameHistogram_trip hperm hp' (hd p (reduceOption_mem_iff.1 hp))
    case summary =>
      refine samePoints_sliceOf h.summary fun p hp => ?_
      have hp' := h.summary.of_mem hp
      exact sameSummary_trip (hlabels (flatSummary p) (.inr ⟨p, hp, rfl⟩) hp'.labels) hp'

end Metrics

/-! ## Batches -/

section Batches

variable {F N S R R' : Type}

def metricsIn (rm : Otlp.ResourceMetrics F R) : List (Otlp.Metric F) :=
  rm.instrumentationLibraryMetrics.reduceOption.flatMap fun ilm => ilm.metrics.reduceOption

/-- The metrics of a batch, resource by resource; a resource without metrics does not count. -/
def metricGroups (md : Otlp.MetricData F R) : List (List (Otlp.Metric F)) :=
  md.reduceOption.flatMap fun rm => if metricsIn rm = [] then [] else [metricsIn rm]

/-- A batch without nil elements, of metrics as above. -/
structure BatchWhole (md : Otlp.MetricData F R) : Prop where
  resources : none ∉ md
  libraries : ∀ rm, some rm ∈ md → none ∉ rm.instrumentationLibraryMetrics
  metrics : ∀ rm, some rm ∈ md → ∀ ilm, some ilm ∈ rm.instrumentationLibraryMetrics →
    none ∉ ilm.metrics
  whole : ∀ m ∈ Otlp.metricsOf md, MetricWhole m

variable [GoFloat F]

def Translated (m : Otlp.Metric F) (oc : Option (Metric F S)) : Prop :=
  ∃ x, oc = some x ∧ x.resource = none ∧ TranslatesOk x ∧ SameMetric m (internalMetric x)

theorem libraryMetricsToOC_trip {ilm : Otlp.InstrumentationLibraryMetrics F}
    (h : ∀ m ∈ ilm.metrics.reduceOption, MetricWhole m ∧ DistinctAttachments m) :
    ∃ ocs : List (Option (Metric F S)), libraryMetricsToOC (some ilm) = .ok ocs ∧
      List.Forall₂ Translated ilm.metrics.reduceOption ocs := by
  refine mapM_forall₂ fun m hm => ?_
  obtain ⟨oc, hoc, hres, htrans, hsame⟩ := metricToOC_trip (S := S) (h m hm).1 (h m hm).2
  exact ⟨some oc, by rw [hoc]; rfl, oc, rfl, hres, htrans, hsame⟩

theorem resourceMetricsToOC_trip (resourceToOC : R → Option N × Option S)
    {rm : Otlp.ResourceMetrics F R} (hnil : none ∉ rm.instrumentationLibraryMetrics)
    (h : ∀ m ∈ metricsIn rm, MetricWhole m ∧ DistinctAttachments m) :
    ∃ x : MetricsData F N S, resourceMetricsToOC resourceToOC rm = .ok x ∧
      List.Forall₂ Translated (metricsIn rm) x.metrics := by
  unfold resourceMetricsToOC metricsIn at *
  cases hlibs : rm.instrumentationLibraryMetrics with
  | nil => exact ⟨_, rfl, .nil⟩
  | cons first rest =>
    rw [hlibs] at hnil h
    obtain ⟨ocs, hocs, hrel⟩ := mapM_forall₂ (f := libraryMetricsToOC)
      (P := fun ilm (ocs : List (Option (Metric F S))) =>
        List.Forall₂ Translated (ilm.elim [] fun ilm => ilm.metrics.reduceOption) ocs)
      (l := first :: rest) fun ilm hilm => by
        cases ilm with
        | none => exact absurd hilm hnil
        | some ilm =>
          refine libraryMetricsToOC_trip fun m hm => h m ?_
          exact mem_flatMap.2 ⟨ilm, reduceOption_mem_iff.2 hilm, hm⟩
    cases first with
    | none => exact absurd mem_cons_self hnil
    | some first =>
      refine ⟨⟨_, _, ocs.flatten⟩,
        bind_eq_ok.2 ⟨first, rfl, bind_eq_ok.2 ⟨ocs, hocs, rfl⟩⟩, ?_⟩
      have hflat : ((some first :: rest).reduceOption.flatMap fun ilm => ilm.metrics.reduceOption) =
          ((some first :: rest).map fun ilm =>
            ilm.elim [] fun ilm => ilm.metrics.reduceOption).flatten := by
        conv_rhs => rw [← map_some_reduceOption hnil]
        rw [map_map, flatMap_def]
        rfl
      rw [hflat]
      exact rel_flatten (forall₂_map_left_iff.2 hrel)

theorem exists_of_translated {ms : List (Otlp.Metric F)} {ocs : List (Option (Metric F S))}
    (h : List.Forall₂ Translated ms ocs) :
    ∃ xs : List (Metric F S), ocs = xs.map some ∧
      (∀ x ∈ xs, x.resource = none ∧ TranslatesOk x) ∧
      List.Forall₂ SameMetric ms (xs.map internalMetric) := by
  induction h with
  | nil => exact ⟨[], rfl, nofun, .nil⟩
  | cons hm _ ih =>
    obtain ⟨x, rfl, hres, htrans, hsame⟩ := hm
    obtain ⟨xs, rfl, hxs, hrest⟩ := ih
    exact ⟨x :: xs, rfl, forall_mem_cons.2 ⟨⟨hres, htrans⟩, hxs⟩, .cons hsame hrest⟩

variable (resourceToInternal : Option N → Option S → R')

theorem metricGroups_internalBatch {x : MetricsData F N S} {ms : List (Otlp.Metric F)}
    (h : List.Forall₂ Translated ms x.metrics) :
    List.Forall₂ (List.Forall₂ SameMetric) (if ms = [] then [] else [ms])
      (metricGroups (internalBatch resourceToInternal x)) := by
  obtain ⟨xs, hxs, hown, hsame⟩ := exists_of_translated h
  cases xs with
  | nil =>
    cases hsame
    unfold internalBatch
    rw [hxs]
    cases x.node <;> cases x.resource <;> simp [metricGroups, metricsIn, List.reduceOption]
  | cons y ys =>
    have hms : ms ≠ [] := by
      rintro rfl
      cases hsame
    have hreduce : x.metrics.reduceOption = y :: ys := by
      rw [hxs]
      simp [List.reduceOption]
    have hnone : ∀ m ∈ (y :: ys).map (fun m => (m.resource, internalMetric m)),
        m.1.isNone = true := by
      intro m hm
      obtain ⟨z, hz, rfl⟩ := mem_map.1 hm
      rw [(hown z hz).1]
      rfl
    have hbatch : internalBatch resourceToInternal x =
        [some ⟨resourceToInternal x.node x.resource,
          [some ⟨((y :: ys).map internalMetric).map some⟩]⟩] := by
      unfold internalBatch
      have hempty : x.metrics.isEmpty = false := by rw [hxs]; rfl
      rw [hempty, Bool.and_false, if_neg Bool.false_ne_true, if_neg Bool.false_ne_true, hreduce]
      show some _ :: _ = _
      rw [filter_eq_self.2 hnone,
        filter_eq_nil_iff.2 fun m hm => by simpa using hnone m hm]
      simp [Function.comp_def]
    rw [if_neg hms, hbatch]
    have hgroups : metricGroups [some (⟨resourceToInternal x.node x.resource,
        [some ⟨((y :: ys).map internalMetric).map some⟩]⟩ : Otlp.ResourceMetrics F R')] =
        [(y :: ys).map internalMetric] := by
      simp [metricGroups, metricsIn, List.reduceOption, Function.comp_def]
    rw [hgroups]
    exact .cons hsame .nil

variable (resourceToOC : R → Option N × Option S)

/-- **The trip**: all metrics come back, in order and resource by resource. -/
def Survives (md : Otlp.MetricData F R) : Prop :=
  ∃ ocs md', metricDataToOC resourceToOC md = .ok ocs ∧
    ocSliceToMetricData resourceToInternal ocs = .ok md' ∧
    List.Forall₂ (List.Forall₂ SameMetric) (metricGroups md) (metricGroups md')

/-- **Metrics survive the trip through OpenCensus.** -/
theorem metrics_survive {md : Otlp.MetricData F R} (h : BatchWhole md)
    (hd : ∀ m ∈ Otlp.metricsOf md, DistinctAttachments m) :
    Survives resourceToInternal resourceToOC md := by
  have hone : ∀ rm ∈ md.reduceOption, ∃ x : MetricsData F N S,
      resourceMetricsToOC resourceToOC rm = .ok x ∧
        List.Forall₂ Translated (metricsIn rm) x.metrics := by
    intro rm hrm
    refine resourceMetricsToOC_trip resourceToOC
      (h.libraries rm (reduceOption_mem_iff.1 hrm)) fun m hm => ?_
    have hmem : m ∈ Otlp.metricsOf md := mem_flatMap.2 ⟨rm, hrm, hm⟩
    exact ⟨h.whole m hmem, hd m hmem⟩
  obtain ⟨ocs, hocs, hrel⟩ := mapM_forall₂ hone
  have htrans : BatchTranslatesOk ocs := by
    intro x hx y hy
    obtain ⟨rm, hrm, hrun⟩ := mem_of_mapM hocs x hx
    obtain ⟨x', hrun', hx'⟩ := hone rm hrm
    rw [hrun] at hrun'
    cases hrun'
    obtain ⟨xs, hxs, hown, -⟩ := exists_of_translated hx'
    rw [hxs, reduceOption_mem_iff] at hy
    obtain ⟨z, hz, hzy⟩ := mem_map.1 hy
    cases hzy
    exact (hown y hz).2
  refine ⟨ocs, _, hocs, ocSliceToMetricData_ok resourceToInternal htrans, ?_⟩
  have hgroups : metricGroups (ocs.flatMap (internalBatch resourceToInternal)) =
      ocs.flatMap fun x => metricGroups (internalBatch resourceToInternal x) := by
    simp only [metricGroups, List.reduceOption, filterMap_flatMap, flatMap_assoc]
  rw [hgroups]
  exact rel_flatMap hrel fun rm x hx => metricGroups_internalBatch resourceToInternal hx

end Batches

/-! ### Histograms with an exemplar -/

/-- A histogram of two points. One has a label and one bucket, with an exemplar that has these
attachments. -/
def exemplarMetric (attachments : List (Option Otlp.StringKeyValue)) : Otlp.Metric Int where
  metricDescriptor := some ⟨"m", "", "1", .histogram, .cumulative⟩
  int64DataPoints := none
  doubleDataPoints := none
  histogramDataPoints :=
    some [some ⟨[some ⟨"l", "v"⟩], 1, 2, 1, 5, [some ⟨1, some ⟨5, 2, attachments⟩⟩], []⟩,
      some ⟨[], 1, 3, 0, 0, [some ⟨0, none⟩], []⟩]
  summaryDataPoints := none

def exemplarBatch (attachments : List (Option Otlp.StringKeyValue)) : Otlp.MetricData Int Unit :=
  [some ⟨(), [some ⟨[some (exemplarMetric attachments)]⟩]⟩]

theorem batchWhole_exemplarBatch {attachments : List (Option Otlp.StringKeyValue)}
    (h : none ∉ attachments) : BatchWhole (exemplarBatch attachments) where
  resources := by simp [exemplarBatch]
  libraries := by simp [exemplarBatch]
  metrics := by simp [exemplarBatch]
  whole := by
    intro m hm
    obtain rfl : m = exemplarMetric attachments := by
      simpa [Otlp.metricsOf, exemplarBatch, List.reduceOption] using hm
    constructor
    case known => exact ⟨_, rfl, by simp⟩
    case int64 | double | summary => simp [EveryPoint, exemplarMetric]
    case histogram =>
      intro p hp
      rcases mem_pair.1 hp with rfl | rfl
      all_goals
        refine ⟨_, rfl, ⟨by simp, by simp [List.reduceOption]⟩, by simp, fun b hb e he => ?_⟩
        obtain rfl := Option.some.inj (mem_singleton.1 hb)
        cases he
      exact h

attribute [local instance] GoFloat.whole

theorem metrics_survive_exemplar :
    Survives (fun (_ : Option Unit) (_ : Option Unit) => ()) (fun _ => (none, none))
      (exemplarBatch [some ⟨"a", "1"⟩, some ⟨"b", "2"⟩]) := by
  refine metrics_survive _ _ (batchWhole_exemplarBatch (by simp)) fun m hm => ?_
  obtain rfl : m = exemplarMetric [some ⟨"a", "1"⟩, some ⟨"b", "2"⟩] := by
    simpa [Otlp.metricsOf, exemplarBatch, List.reduceOption] using hm
  intro p hp b hb e he
  simp only [exemplarMetric, Option.getD_some, mem_pair, Option.some.injEq] at hp
  rcases hp with rfl | rfl
  all_goals
    obtain rfl := Option.some.inj (mem_singleton.1 hb)
    cases he
  decide

/-- Of two attachments under one key only the second comes back. -/
theorem repeated_attachment_lost :
    BatchWhole (exemplarBatch [some ⟨"a", "1"⟩, some ⟨"a", "2"⟩]) ∧
    ¬ Survives (fun (_ : Option Unit) (_ : Option Unit) => ()) (fun _ => (none, none))
      (exemplarBatch [some ⟨"a", "1"⟩, some ⟨"a", "2"⟩]) := by
  refine ⟨batchWhole_exemplarBatch (by simp), ?_⟩
  rintro ⟨ocs, md', hocs, hmd, hrel⟩
  have hrun : (metricDataToOC (fun _ => ((none : Option Unit), (none : Option Unit)))
      (exemplarBatch [some ⟨"a", "1"⟩, some ⟨"a", "2"⟩]) >>=
        ocSliceToMetricData fun _ _ => ()).toOption.map metricGroups =
      some [[{ exemplarMetric [some ⟨"a", "2"⟩] with
        metricDescriptor := some ⟨"m", "", "1", .histogram, .invalidTemporality⟩ }]] := by
    decide +kernel
  rw [hocs, ok_bind, hmd] at hrun
  rw [show metricGroups md' = _ from Option.some.inj hrun] at hrel
  have hgroups : metricGroups (exemplarBatch [some ⟨"a", "1"⟩, some ⟨"a", "2"⟩]) =
      [[exemplarMetric [some ⟨"a", "1"⟩, some ⟨"a", "2"⟩]]] := rfl
  cases hrel with
  | cons hgroup _ =>
    cases hgroup with
    | cons hmetric _ =>
      cases hmetric.histogram with
      | cons hpoint _ =>
        cases hpoint with
        | some hpoint =>
          cases hpoint.buckets with
          | cons hbucket _ =>
            cases hbucket with
            | some hbucket =>
              cases hbucket.exemplar with
              | some hexemplar => exact absurd hexemplar.attachments.length_eq (by decide)

end Collector.OpenCensus
