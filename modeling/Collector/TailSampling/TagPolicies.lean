import Collector.OpenCensus.Traces
import Collector.TailSampling.Machine

/-!
# The tag policies

`numeric_tag_filter.go` and `string_tag_filter.go` of the tail sampling processor. Both read
a span attribute through a getter of the protobuf message. For a value of another type
`GetStringValue` gives nil, which the string policy tests for, but `GetIntValue` gives 0: a range
with 0 in it samples on any attribute under the key (`zero_sampled`).
-/

namespace Collector.TailSampling

open OpenCensus List

/-- What the policies read of a `Node`. -/
structure TagNode where
  attributes : Option (GoMap String String)

/-- What the policies read of a `Span`. The inner option is a nil `AttributeMap`; a value is nil
where the pointer or its `oneof` is. -/
structure TagSpan (F : Type) where
  attributes : Option (Option (GoMap String (Option (AttributeValue F))))

variable {F R : Type}

def getIntValue : Option (AttributeValue F) → Int64
  | some (.int n) => n
  | _ => 0

def getStringValue : Option (AttributeValue F) → Option TruncatableString
  | some (.string s) => s
  | _ => none

def TagNode.get (node : Option TagNode) (key : String) : Option String :=
  node.bind fun n => n.attributes.bind (·.lookup key)

def TagSpan.get (span : Option (TagSpan F)) (key : String) : Option (Option (AttributeValue F)) :=
  span.bind fun s => s.attributes.bind fun attributes => attributes.bind (·.lookup key)

abbrev TagTrace (F R : Type) := TraceData (Option TagNode) R (Option (TagSpan F))

structure NumericAttributeFilter where
  key : String
  minValue : Int64
  maxValue : Int64

def NumericAttributeFilter.evaluate (naf : NumericAttributeFilter) (trace : TagTrace F R) :
    Decision :=
  let samples span := (TagSpan.get span naf.key).any fun v =>
    naf.minValue ≤ getIntValue v && getIntValue v ≤ naf.maxValue
  if trace.receivedBatches.any fun d => d.batch.spans.any samples then .sampled else .notSampled

structure StringAttributeFilter where
  key : String
  values : GoMap String Unit

def newStringAttributeFilter (key : String) (values : List String) : StringAttributeFilter :=
  ⟨key, values.foldl (fun m value => if value ≠ "" then m.insert value () else m) ∅⟩

def StringAttributeFilter.evaluate (saf : StringAttributeFilter) (trace : TagTrace F R) :
    Decision :=
  let configured value := decide (value ∈ saf.values)
  let samples span := (TagSpan.get span saf.key).any fun v =>
    (getStringValue v).any fun s => configured s.value
  if trace.receivedBatches.any fun d =>
    (TagNode.get d.batch.node saf.key).any configured || d.batch.spans.any samples
  then .sampled else .notSampled

theorem mem_newStringAttributeFilter {key value : String} {values : List String} :
    value ∈ (newStringAttributeFilter key values).values ↔ value ∈ values ∧ value ≠ "" := by
  have hfold : ∀ m : GoMap String Unit,
      value ∈ values.foldl (fun m value => if value ≠ "" then m.insert value () else m) m ↔
        value ∈ m ∨ value ∈ values ∧ value ≠ "" := by
    induction values with
    | nil => simp
    | cons v values ih =>
      intro m
      rw [foldl_cons, ih]
      by_cases hv : v = ""
      · grind
      · grind [AList.mem_insert]
  exact (hfold ∅).trans (by simp)

theorem getStringValue_eq_some {v : Option (AttributeValue F)} {s : TruncatableString} :
    getStringValue v = some s ↔ v = some (.string (some s)) := by
  unfold getStringValue
  split <;> simp_all

theorem StringAttributeFilter.evaluate_iff {saf : StringAttributeFilter} {trace : TagTrace F R} :
    saf.evaluate trace = .sampled ↔ ∃ d ∈ trace.receivedBatches,
      (∃ value, TagNode.get d.batch.node saf.key = some value ∧ value ∈ saf.values) ∨
      ∃ span ∈ d.batch.spans, ∃ s, TagSpan.get span saf.key = some (some (.string (some s))) ∧
        s.value ∈ saf.values := by
  simp [evaluate, Option.any_eq_true, getStringValue_eq_some, or_iff_not_imp_left]

theorem NumericAttributeFilter.evaluate_iff {naf : NumericAttributeFilter}
    {trace : TagTrace F R} :
    naf.evaluate trace = .sampled ↔ ∃ d ∈ trace.receivedBatches, ∃ span ∈ d.batch.spans,
      ∃ v, TagSpan.get span naf.key = some v ∧
        naf.minValue ≤ getIntValue v ∧ getIntValue v ≤ naf.maxValue := by
  simp [evaluate, Option.any_eq_true]

/-- Some span has an integer in the range under the key. -/
def NumericAttributeFilter.Finds (naf : NumericAttributeFilter) (trace : TagTrace F R) : Prop :=
  ∃ d ∈ trace.receivedBatches, ∃ span ∈ d.batch.spans, ∃ n,
    TagSpan.get span naf.key = some (some (.int n)) ∧ naf.minValue ≤ n ∧ n ≤ naf.maxValue

def NumericAttributeFilter.IntegersOnly (naf : NumericAttributeFilter) (trace : TagTrace F R) :
    Prop :=
  ∀ d ∈ trace.receivedBatches, ∀ span ∈ d.batch.spans, ∀ v,
    TagSpan.get span naf.key = some v → ∃ n, v = some (.int n)

theorem getIntValue_of_not_int {v : Option (AttributeValue F)} (h : ∀ n, v ≠ some (.int n)) :
    getIntValue v = 0 := by
  unfold getIntValue
  split
  · exact absurd rfl (h _)
  · rfl

theorem NumericAttributeFilter.evaluate_iff_finds {naf : NumericAttributeFilter}
    {trace : TagTrace F R} :
    (naf.evaluate trace = .sampled ↔ naf.Finds trace) ↔
      (naf.minValue ≤ 0 → 0 ≤ naf.maxValue → naf.Finds trace ∨ naf.IntegersOnly trace) := by
  rw [NumericAttributeFilter.evaluate_iff]
  constructor
  · intro h hmin hmax
    refine or_iff_not_imp_left.2 fun hnone d hd span hspan v hv => ?_
    by_contra hint
    -- The getter gives 0, and so the policy samples.
    have hzero := getIntValue_of_not_int (not_exists.1 hint)
    exact hnone (h.1 ⟨d, hd, span, hspan, v, hv, hzero ▸ hmin, hzero ▸ hmax⟩)
  · intro h
    refine ⟨?_, fun ⟨d, hd, span, hspan, n, hn⟩ => ⟨d, hd, span, hspan, _, hn⟩⟩
    rintro ⟨d, hd, span, hspan, v, hv, hmin, hmax⟩
    by_cases hint : ∃ n, v = some (.int n)
    · obtain ⟨n, rfl⟩ := hint
      exact ⟨d, hd, span, hspan, n, hv, hmin, hmax⟩
    · rw [getIntValue_of_not_int (not_exists.1 hint)] at hmin hmax
      exact (h hmin hmax).resolve_right fun hall => hint (hall d hd span hspan v hv)

/-- The string policy samples as it should. The numeric one does unless 0 is in its range, some
span has another value than an integer under its key and none an integer in the range. -/
theorem tag_policies_exact (naf : NumericAttributeFilter) (key : String) (values : List String)
    (trace : TagTrace F R) :
    ((naf.evaluate trace = .sampled ↔ naf.Finds trace) ↔
      (naf.minValue ≤ 0 → 0 ≤ naf.maxValue → naf.Finds trace ∨ naf.IntegersOnly trace)) ∧
    ((newStringAttributeFilter key values).evaluate trace = .sampled ↔
      ∃ d ∈ trace.receivedBatches,
        (∃ value, TagNode.get d.batch.node key = some value ∧ value ∈ values ∧ value ≠ "") ∨
        ∃ span ∈ d.batch.spans, ∃ s, TagSpan.get span key = some (some (.string (some s))) ∧
          s.value ∈ values ∧ s.value ≠ "") := by
  refine ⟨NumericAttributeFilter.evaluate_iff_finds, ?_⟩
  simp only [StringAttributeFilter.evaluate_iff, mem_newStringAttributeFilter]
  rfl

/-- A trace with one span, which has `v` under the key `k`. -/
def tagged (v : AttributeValue Int) : TagTrace Int Unit :=
  let span := ⟨some (some (AList.insert "k" (some v) ∅))⟩
  ⟨[], [⟨0, 0, [], [], { node := none, resource := (), spans := [some span] }⟩]⟩

theorem get_tagged (v : AttributeValue Int) : ∀ d ∈ (tagged v).receivedBatches,
    ∀ span ∈ d.batch.spans, TagSpan.get span "k" = some (some v) := by
  simp only [tagged, mem_singleton, forall_eq]
  rfl

theorem zero_sampled :
    NumericAttributeFilter.evaluate ⟨"k", 0, 10⟩ (tagged (.bool true)) = .sampled ∧
      ¬ NumericAttributeFilter.Finds ⟨"k", 0, 10⟩ (tagged (.bool true)) := by
  refine ⟨by decide, ?_⟩
  rintro ⟨d, hd, span, hspan, n, hn, -⟩
  rw [get_tagged _ d hd span hspan] at hn
  cases hn

end Collector.TailSampling
