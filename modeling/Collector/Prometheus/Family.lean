import Mathlib.Algebra.Ring.Int.Defs
import Mathlib.Data.List.ReduceOption
import Mathlib.Data.List.Sort
import Collector.Lib.Tabulate
import Collector.Prometheus.Adjuster

/-!
# Metrics of the metric builder

`receiver/prometheusreceiver/internal/metricfamily.go`: the samples of a scrape are collected in
groups, and `ToMetric` makes a time series with one point of each group of a family. Which value the
point has follows from the type of the family (`toMetric_built`).

`F` stands for `float64`, `N` for `int64`, and `int64` for the conversion. How the samples come into
the groups is not modelled here.
-/

namespace Collector.Prometheus

open Lib OpenCensus

/-- `sort.Slice`. It sorts a list among whose elements `less` is a strict weak order, and may put
elements that are not ordered either way round. -/
structure SliceSort (α : Type) where
  sort : (α → α → Bool) → List α → List α
  perm : ∀ less l, (sort less l).Perm l
  sorted : ∀ less l, (∀ a ∈ l, ∀ b ∈ l, less a b → less b a = false) →
    (∀ a ∈ l, ∀ b ∈ l, ∀ c ∈ l, less b a = false → less c b = false → less c a = false) →
    (sort less l).Pairwise fun a b => less b a = false

/-- The sort that keeps the order of such elements. -/
def SliceSort.stable {α : Type} : SliceSort α where
  sort less l := l.insertionSort fun a b => less b a = false
  perm _ l := List.perm_insertionSort _ l
  sorted less l asymm trans := by
    -- On the elements of the list alone, the relation is total and transitive.
    have htotal : Std.Total fun a b : { x // x ∈ l } => less b a = false := ⟨fun a b => by
      by_cases h : less b a
      · exact .inr (asymm b b.2 a a.2 h)
      · exact .inl (by simpa using h)⟩
    have htrans : IsTrans { x // x ∈ l } fun a b => less b a = false :=
      ⟨fun a b c => trans a a.2 b b.2 c c.2⟩
    have hsorted := List.pairwise_insertionSort
      (fun a b : { x // x ∈ l } => less b a = false) l.attach
    have hmap := List.map_insertionSort (fun a b : { x // x ∈ l } => less b a = false)
      (fun a b : α => less b a = false) Subtype.val l.attach fun _ _ _ _ => Iff.rfl
    rw [List.attach_map_subtype_val] at hmap
    rw [← hmap]
    exact List.pairwise_map.2 hsorted

/-- `textparse.MetricType`. -/
inductive TextMetricType where
  | counter | gauge | unknown | histogram | gaugeHistogram | summary | info | stateset
  deriving DecidableEq, Repr

def convToOCAMetricType : TextMetricType → MetricType
  | .counter => .cumulativeDouble
  | .gauge | .unknown => .gaugeDouble
  | .histogram => .cumulativeDistribution
  | .summary => .summary
  | _ => .unspecified

/-- The unit that a word at the end of a name stands for. -/
def knownUnit (word : String) : String :=
  if word ∈ ["millisecond", "milliseconds", "ms"] then "ms"
  else if word ∈ ["second", "seconds", "s"] then "s"
  else if word ∈ ["microsecond", "microseconds", "us"] then "us"
  else if word ∈ ["nanosecond", "nanoseconds", "ns"] then "ns"
  else if word ∈ ["byte", "bytes", "by"] then "By"
  else if word ∈ ["bit", "bits"] then "Bi"
  else if word ∈ ["kilogram", "kilograms", "kg"] then "kg"
  else if word ∈ ["gram", "grams", "g"] then "g"
  else if word ∈ ["meter", "meters", "metre", "metres", "m"] then "m"
  else if word ∈ ["kilometer", "kilometers", "kilometre", "kilometres", "km"] then "km"
  else if word ∈ ["milimeter", "milimeters", "milimetre", "milimetres", "mm"] then "mm"
  else if word ∈ ["nanogram", "ng", "nanograms"] then "ng"
  else ""

/-- `heuristicalMetricAndKnownUnits`. The names of metrics are ASCII, and so is `toLower`. -/
def heuristicalMetricAndKnownUnits (metricName parsedUnit : String) : String :=
  if parsedUnit ≠ "" then parsedUnit
  else
    -- the last underscore is where the name, read backwards, has its first
    match metricName.toList.reverse.span (· ≠ '_') with
    | ([], _) | (_, []) | (_, [_]) => ""
    | (word, _) => knownUnit (String.ofList word.reverse).toLower

structure DataPoint (F : Type) where
  value : F
  boundary : F
  deriving DecidableEq, Repr

/-- `labels.Label`. -/
structure Label where
  name : String
  value : String
  deriving DecidableEq, Repr

/-- `labels.Labels`, a set of labels: its `Get` and `Map`, and what is documented of them. -/
class LabelSet where
  getLabel : List Label → String → String
  labelMap : List Label → GoMap String String
  get_absent : ∀ ls k, (∀ l ∈ ls, l.name ≠ k) → getLabel ls k = ""
  get_present : ∀ ls, (ls.map Label.name).Nodup → ∀ l ∈ ls, getLabel ls l.name = l.value
  map_absent : ∀ ls k, (∀ l ∈ ls, l.name ≠ k) → (labelMap ls).lookup k = none
  map_present : ∀ ls, (ls.map Label.name).Nodup → ∀ l ∈ ls,
    (labelMap ls).lookup l.name = some l.value

export LabelSet (getLabel labelMap)

/-- Labels in a list, of which `Get` takes the first of a name. -/
@[reducible] def LabelSet.listed : LabelSet where
  getLabel ls k := ((ls.find? (·.name == k)).map Label.value).getD ""
  labelMap ls := enter Label.name Label.value ∅ ls
  get_absent ls k h := by
    rw [List.find?_eq_none.2 fun l hl => by simpa using h l hl]
    rfl
  get_present ls h l hl := by
    induction ls with
    | nil => cases hl
    | cons a ls ih =>
      rw [List.map_cons, List.nodup_cons] at h
      rw [List.find?_cons]
      rcases List.mem_cons.1 hl with rfl | hl
      · simp
      · have hne : a.name ≠ l.name := fun he => h.1 (he ▸ List.mem_map_of_mem hl)
        simp only [beq_eq_false_iff_ne.2 hne]
        exact ih h.2 hl
  map_absent ls k h := by
    have hnone : k ∉ ls.map Label.name := fun hk => by
      obtain ⟨l, hl, hname⟩ := List.mem_map.1 hk
      exact h l hl hname
    rw [lookup_enter_of_notMem _ _ hnone]
    rfl
  map_present ls h l hl := lookup_enter_of_mem Label.value ∅ h hl

/-- `metricGroup`: the samples with one set of labels. -/
structure MetricGroup (F : Type) where
  ts : Int64
  ls : List Label
  count : F
  hasCount : Bool
  sum : F
  hasSum : Bool
  value : F
  complexValue : List (DataPoint F)

/-- `scrape.MetricMetadata`. -/
structure MetricMetadata where
  help : String
  unit : String
  deriving DecidableEq, Repr

structure MetricFamily (F : Type) where
  name : String
  mtype : MetricType
  droppedTimeseries : Nat
  labelKeysOrdered : List String
  metadata : MetricMetadata
  groupOrders : GoMap String Nat
  groups : GoMap String (MetricGroup F)

def timestampFromMs (timeAtMs : Int64) : Timestamp :=
  ⟨timeAtMs / 1000, ((timeAtMs % 1000) * 1000000).toInt32⟩

def populateLabelValues [LabelSet] (orderedKeys : List String) (ls : List Label) :
    List LabelValue :=
  orderedKeys.map fun k =>
    let value := ((labelMap ls).lookup k).getD ""
    ⟨value, value ≠ ""⟩

def isCumulativeType : MetricType → Bool
  | .cumulativeDouble | .cumulativeInt64 | .cumulativeDistribution | .summary => true
  | _ => false

section

variable {F N : Type}

/-- `getGroups`: the groups in the order in which they were made. -/
def MetricFamily.getGroups (ord : MapOrder (String × Nat)) (mf : MetricFamily F) :
    Go (List (Option (MetricGroup F))) :=
  (ord.order mf.groupOrders.pairs).foldlM
    (fun groups kv => setIndex groups kv.2 (mf.groups.lookup kv.1))
    (List.replicate mf.groupOrders.pairs.length none)

def MetricFamily.getLabelKeys (mf : MetricFamily F) : List (Option LabelKey) :=
  mf.labelKeysOrdered.map fun k => some ⟨k, ""⟩

variable [LabelSet]

def toDoubleValueTimeSeries (mtype : MetricType) (orderedLabelKeys : List String)
    (mg : MetricGroup F) : Option (TimeSeries F N) :=
  some {
    startTimestamp := if isCumulativeType mtype then some (timestampFromMs mg.ts) else none
    labelValues := populateLabelValues orderedLabelKeys mg.ls
    points := [{ timestamp := timestampFromMs mg.ts, value := .double mg.value }] }

variable [Sub F] [Mul F] [OfNat F 100] [LT F] [DecidableLT F]
  (sort : SliceSort (DataPoint F)) (int64 : F → N)

def sortPoints (complexValue : List (DataPoint F)) : List (DataPoint F) :=
  sort.sort (fun a b => a.boundary < b.boundary) complexValue

/-- The counts of the buckets: what each cumulative value adds to the one before it. -/
def bucketCounts : Option F → List (DataPoint F) → List N
  | _, [] => []
  | below, p :: points =>
    int64 (below.elim p.value fun b => p.value - b) :: bucketCounts (some p.value) points

def toDistributionTimeSeries (orderedLabelKeys : List String) (mg : MetricGroup F) :
    Option (TimeSeries F N) :=
  if ¬ (mg.hasCount ∧ mg.hasSum) ∨ mg.complexValue.length = 0 then none
  else
    let complexValue := sortPoints sort mg.complexValue
    some {
      startTimestamp := some (timestampFromMs mg.ts)
      labelValues := populateLabelValues orderedLabelKeys mg.ls
      points := [{
        timestamp := timestampFromMs mg.ts
        value := .distribution {
          count := int64 mg.count
          sum := mg.sum
          -- the last boundary, +Inf, is not a bound
          bounds := complexValue.dropLast.map DataPoint.boundary
          buckets := bucketCounts int64 none complexValue } }] }

def toSummaryTimeSeries (orderedLabelKeys : List String) (mg : MetricGroup F) :
    Option (TimeSeries F N) :=
  if ¬ (mg.hasCount ∧ mg.hasSum) then none
  else
    let percentiles :=
      (sortPoints sort mg.complexValue).map fun p => (p.boundary * 100, p.value)
    some {
      startTimestamp := some (timestampFromMs mg.ts)
      labelValues := populateLabelValues orderedLabelKeys mg.ls
      points := [{
        timestamp := timestampFromMs mg.ts
        value := .summary {
          sum := some mg.sum
          count := some (int64 mg.count)
          snapshot := if percentiles.length ≠ 0 then some percentiles else none } }] }

/-- What the loops of `ToMetric` do with a group, by the type of the family. -/
def MetricFamily.toTimeSeries (mf : MetricFamily F) (mg : Option (MetricGroup F)) :
    Go (Option (TimeSeries F N)) := do
  let mg ← deref mg
  match mf.mtype with
  | .cumulativeDistribution =>
    return toDistributionTimeSeries sort int64 mf.labelKeysOrdered mg
  | .summary => return toSummaryTimeSeries sort int64 mf.labelKeysOrdered mg
  | _ => return toDoubleValueTimeSeries mf.mtype mf.labelKeysOrdered mg

/-- `ToMetric`: the metric, if it has time series, and the numbers of all time series and of
those dropped. The family is not used again. -/
def MetricFamily.toMetric (ord : MapOrder (String × Nat)) (mf : MetricFamily F) :
    Go (Option (Metric (TimeSeries F N)) × Nat × Nat) := do
  let groups ← mf.getGroups ord
  let made ← groups.mapM (mf.toTimeSeries sort int64)
  let timeseries := made.reduceOption
  let droppedTimeseries := mf.droppedTimeseries + made.countP Option.isNone
  if timeseries.length ≠ 0 then
    return (some {
      descriptor := {
        name := mf.name
        description := mf.metadata.help
        unit := heuristicalMetricAndKnownUnits mf.name mf.metadata.unit
        type := mf.mtype
        labelKeys := mf.getLabelKeys }
      timeseries := timeseries }, timeseries.length + droppedTimeseries, droppedTimeseries)
  else return (none, droppedTimeseries, droppedTimeseries)

end

/-! ## What is delivered -/

variable {F N : Type}

/-- The value that a point of a metric of this type has. -/
def PointValue.Fits (type : MetricType) (v : PointValue F N) : Prop :=
  match type with
  | .cumulativeDistribution => ∃ d, v = .distribution d
  | .summary => ∃ s, v = .summary s
  | _ => ∃ x, v = .double x

/-- A time series of a metric of this type: one point, with its value. -/
def TimeSeries.Built (type : MetricType) (ts : TimeSeries F N) : Prop :=
  ∃ p, ts.points = [p] ∧ p.value.Fits type

variable [LabelSet] [Sub F] [Mul F] [OfNat F 100] [LT F] [DecidableLT F]
  {sort : SliceSort (DataPoint F)} {int64 : F → N}

variable {mf : MetricFamily F}

theorem built_of_toTimeSeries {mg : Option (MetricGroup F)}
    {ts : TimeSeries F N} (h : mf.toTimeSeries sort int64 mg = .ok (some ts)) :
    ts.Built mf.mtype ∧ (isCumulativeType mf.mtype = true →
      ts.startTimestamp = ts.points.head?.map Point.timestamp) := by
  obtain ⟨mg, -, h⟩ := bind_eq_ok.1 h
  split at h
  case h_1 htype =>
    unfold toDistributionTimeSeries at h
    split at h
    · cases h
    · cases h
      exact ⟨⟨_, rfl, by rw [htype]; exact ⟨_, rfl⟩⟩, fun _ => rfl⟩
  case h_2 htype =>
    unfold toSummaryTimeSeries at h
    split at h
    · cases h
    · cases h
      exact ⟨⟨_, rfl, by rw [htype]; exact ⟨_, rfl⟩⟩, fun _ => rfl⟩
  case h_3 hdist hsum =>
    cases h
    refine ⟨⟨_, rfl, ?_⟩, fun hc => if_pos hc⟩
    unfold PointValue.Fits
    split
    · exact absurd ‹_› hdist
    · exact absurd ‹_› hsum
    · exact ⟨_, rfl⟩

theorem mem_toMetric {ord : MapOrder (String × Nat)}
    {m : Metric (TimeSeries F N)} {n : Nat × Nat}
    (h : mf.toMetric sort int64 ord = .ok (some m, n)) :
    m.descriptor.type = mf.mtype ∧
      ∀ ts ∈ m.timeseries, ∃ mg, mf.toTimeSeries sort int64 mg = .ok (some ts) := by
  obtain ⟨groups, -, h⟩ := bind_eq_ok.1 h
  obtain ⟨made, hmade, h⟩ := bind_eq_ok.1 h
  simp only at h
  split at h
  case isFalse => cases h
  case isTrue =>
    cases h
    refine ⟨rfl, fun ts hts => ?_⟩
    obtain ⟨mg, -, hmg⟩ := mem_of_mapM hmade _ (List.reduceOption_mem_iff.1 hts)
    exact ⟨mg, hmg⟩

/-- **What the builder delivers**: each time series has one point, with the value of the type, and
starts at the time of its point where the type is cumulative. -/
theorem toMetric_built {ord : MapOrder (String × Nat)}
    {m : Metric (TimeSeries F N)} {n : Nat × Nat}
    (h : mf.toMetric sort int64 ord = .ok (some m, n)) :
    ∀ ts ∈ m.timeseries, ts.Built m.descriptor.type ∧ (isCumulativeType m.descriptor.type = true →
      ts.startTimestamp = ts.points.head?.map Point.timestamp) := by
  obtain ⟨htype, hmade⟩ := mem_toMetric h
  intro ts hts
  obtain ⟨mg, hmg⟩ := hmade ts hts
  rw [htype]
  exact built_of_toTimeSeries hmg

/-- A scrape of one series. -/
def pointScrape (name : String) (type : MetricType) (v : PointValue Int Int) :
    List (Metric (TimeSeries Int Int)) :=
  [⟨⟨name, "", "1", type, []⟩, [⟨some ⟨0, 0⟩, [], [⟨⟨0, 0⟩, v⟩]⟩]⟩]

def counterScrape (x : Int) : List (Metric (TimeSeries Int Int)) :=
  pointScrape "m" .cumulativeDouble (.double x)

end Collector.Prometheus
