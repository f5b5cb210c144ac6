import Mathlib.Data.List.Sort
import Collector.Lib.Guarded
import Collector.Otlp.Metrics

/-!
# Labels, signatures and the map of time series

`helper.go` of the Prometheus remote write exporter. `createLabelSet` builds a
map of labels and returns its values in the order of one `range` loop;
`timeSeriesSignature` sorts them by name in place and joins type, names and
values with dashes; `addSample` looks the result up in `tsMap`. The sample is a
type variable: no code here looks into it.
-/

namespace Collector.RemoteWrite

open Otlp Lib

def nameStr : String := "__name__"
def sumStr : String := "_sum"
def countStr : String := "_count"
def bucketStr : String := "_bucket"
def leStr : String := "le"
def quantileStr : String := "quantile"
def pInfStr : String := "+Inf"
def totalStr : String := "total"
def delimeter : String := "_"
def keyStr : String := "key"

/-- `prompb.Label`. -/
structure Label where
  name : String
  value : String
  deriving DecidableEq, Repr

/-- `prompb.TimeSeries`. -/
structure TimeSeries (σ : Type) where
  labels : List Label
  samples : List σ
  deriving DecidableEq, Repr

/-- The map `PushMetrics` builds, from signatures to time series. -/
abbrev TsMap (σ : Type) := GoMap String (TimeSeries σ)

/-! ## Validation -/

def validateMetrics : Option MetricDescriptor → Bool
  | none => false
  | some desc =>
    match desc.type with
    | .monotonicDouble | .monotonicInt64 | .histogram | .summary => desc.temporality == .cumulative
    | .int64 | .double => true
    | _ => false

/-! ## Names -/

section Names

variable [Unicode]

def sanitizeRune (r : Char) : Char := if isLetter r || isDigit r then r else '_'

/-- `sanitize`. The tests on `s[0]` look at the first byte: the lead byte of a character beyond
ASCII, read as a rune, is neither a digit nor an underscore. -/
def sanitize (s : String) : String :=
  match s.toList.map sanitizeRune with
  | [] => s
  | c :: cs =>
    let s := if latin1Digit c then keyStr.toList ++ delimeter.toList ++ c :: cs else c :: cs
    String.ofList (if s.head? = some '_' then keyStr.toList ++ s else s)

def getPromMetricName (desc : Option MetricDescriptor) (ns : String) : String :=
  match desc with
  | none => ""
  | some desc =>
    let isCounter := desc.type == .monotonicInt64 || desc.type == .monotonicDouble
    let b := ns
    let b := if b ≠ "" then b ++ delimeter else b
    let b := b ++ desc.name
    let b := if b ≠ "" && isCounter then b ++ delimeter ++ totalStr else b
    sanitize b

/-! ## Label sets -/

/-- Prometheus's internal labels are exempt from sanitizing. -/
def isInternalLabel (name : String) : Bool :=
  decide (name.utf8ByteSize > 4) && "__".toList.isPrefixOf name.toList &&
    "__".toList.isSuffixOf name.toList

/-- The loop of `createLabelSet` over the extra pairs; an unpaired string is ignored. -/
def addExtras (l : GoMap String Label) : List String → GoMap String Label
  | k :: v :: extras =>
    let name := if isInternalLabel k then k else sanitize k
    addExtras (l.insert k ⟨name, v⟩) extras
  | _ => l

/-- The body of `createLabelSet`'s loop over the OTLP labels. -/
def addLabel (l : GoMap String Label) (lb : StringKeyValue) : GoMap String Label :=
  l.insert lb.key ⟨sanitize lb.key, lb.value⟩

/-- `createLabelSet`. A nil OTLP label is dereferenced. -/
def createLabelSet (ord : MapOrder Label) (labels : List (Option StringKeyValue))
    (extras : List String) : Go (List Label) := do
  let l ← labels.foldlM (fun l lb => return addLabel l (← deref lb)) (∅ : GoMap String Label)
  return ord.order (addExtras l extras).values

/-- The labels `createLabelSet` puts together, before a `range` loop orders them. -/
def labelSet (labels : List (Option StringKeyValue)) (extras : List String) : List Label :=
  (addExtras (labels.reduceOption.foldl addLabel ∅) extras).values

theorem addLabel_guarded :
    Guarded (fun l (lb : Option StringKeyValue) => (do return addLabel l (← deref lb) : Go _))
      (fun lb => lb ≠ none) (fun l lb => lb.elim l (addLabel l)) where
  run l lb h := by
    cases lb with
    | none => exact absurd rfl h
    | some lb => rfl
  fail l lb h := by
    cases lb with
    | none => exact ⟨_, rfl⟩
    | some lb => exact absurd (by simp) h

theorem createLabelSet_ok {ord : MapOrder Label} {labels : List (Option StringKeyValue)}
    {extras : List String} (h : none ∉ labels) :
    createLabelSet ord labels extras = .ok (ord.order (labelSet labels extras)) := by
  have hl : ∀ lb ∈ labels, lb ≠ none := fun lb hlb e => h (e ▸ hlb)
  unfold createLabelSet labelSet
  rw [addLabel_guarded.foldlM.run _ _ hl, foldl_elim_reduceOption]
  rfl

theorem createLabelSet_crash (ord : MapOrder Label) {labels : List (Option StringKeyValue)}
    (extras : List String) (h : none ∈ labels) :
    ∃ c, createLabelSet ord labels extras = .error c := by
  have hl : ¬ ∀ lb ∈ labels, lb ≠ none := fun hn => hn none h rfl
  obtain ⟨c, hc⟩ := addLabel_guarded.foldlM.fail (∅ : GoMap String Label) labels hl
  exact ⟨c, by unfold createLabelSet; rw [hc]; rfl⟩

end Names

/-! ## Signatures and samples -/

/-- `sort.Sort(ByLabelName(labels))`. The sort need not be stable; the order of equal names is
already arbitrary before it. -/
def sortByLabelName (labels : List Label) : List Label :=
  labels.insertionSort fun a b => a.name ≤ b.name

/-- The text `timeSeriesSignature` writes for sorted labels. -/
def joinLabels (t : MetricType) (labels : List Label) : String :=
  labels.foldl (fun b lb => b ++ "-" ++ lb.name ++ "-" ++ lb.value) t.string

def timeSeriesSignature (t : MetricType) (labels : List Label) : String :=
  joinLabels t (sortByLabelName labels)

/-- `addSample`. The new series keeps the slice that `timeSeriesSignature` has sorted. -/
def addSample {σ : Type} (tsMap : TsMap σ) (sample : Option σ) (labels : Option (List Label))
    (ty : MetricType) : TsMap σ :=
  match sample, labels with
  | some sample, some labels =>
    let sig := timeSeriesSignature ty labels
    match tsMap.lookup sig with
    | some ts => tsMap.insert sig { ts with samples := ts.samples ++ [sample] }
    | none => tsMap.insert sig ⟨sortByLabelName labels, [sample]⟩
  | _, _ => tsMap

end Collector.RemoteWrite
