import Collector.Jaeger.Trip

/-!
# References of Jaeger spans

`jThriftSpanToInternal` of `translator/trace/jaeger/jaegerthrift_to_traces.go`, with the messages
of `github.com/jaegertracing/jaeger/thrift-gen/jaeger`, and what becomes of the references of a
span, proto or thrift. The reference that is passed over as the parent is told by its span id
alone, so one into another trace is passed over with it (`references_kept_iff`).
-/

namespace Collector.Jaeger

open Lib
open Pdata (AttributeMap SpanEvent SpanLink)
open Translator List

variable {F : Type}

/-! ## Thrift -/

namespace Thrift

structure SpanRef where
  refType : SpanRefType
  traceIdLow : Int64
  traceIdHigh : Int64
  spanId : Int64

structure Log (F : Type) where
  timestamp : Int64
  fields : List (Option (Tag F))

structure Span (F : Type) where
  traceIdLow : Int64
  traceIdHigh : Int64
  spanId : Int64
  parentSpanId : Int64
  operationName : String
  references : List (Option SpanRef)
  startTime : Int64
  duration : Int64
  tags : List (Option (Tag F))
  logs : List (Option (Log F))

end Thrift

def microsecondsToUnixNano (ms : Int64) : UInt64 := ms.toUInt64 * 1000

/-- `jThriftTagsToInternalAttributes`; `lib` quotes a `TagType`. -/
def jThriftTagsToInternalAttributes (lib : Library) (tags : List (Option (Tag F)))
    (dest : AttributeMap F) : Go (AttributeMap F) :=
  tags.foldlM (fun dest tag => do return upsertTag lib dest (← deref tag)) dest

/-- The body of the loop in `jThriftLogsToSpanEvents`. -/
def thriftLogToEvent (lib : Library) (log : Option (Thrift.Log F)) :
    Go (Option (SpanEvent F)) := do
  let log ← deref log
  let attrs ← jThriftTagsToInternalAttributes lib log.fields []
  let timestamp := microsecondsToUnixNano log.timestamp
  return some (match attrs.get tagMessage with
    | some name => ⟨timestamp, name.stringVal, (attrs.delete tagMessage).1, 0⟩
    | none => ⟨timestamp, "", attrs, 0⟩)

def jThriftLogsToSpanEvents (lib : Library) (logs : List (Option (Thrift.Log F))) :
    Go (List (Option (SpanEvent F))) :=
  logs.mapM (thriftLogToEvent lib)

def jThriftReferencesToSpanLinks (refs : List (Option Thrift.SpanRef)) (excludeParentID : Int64) :
    Go (List (Option (SpanLink F))) := do
  let refs ← refs.mapM deref
  return compactLinks (fun ref => ref.spanId = excludeParentID ∧ ref.refType = .childOf)
    (fun ref => newLink ref.traceIdHigh.toUInt64 ref.traceIdLow.toUInt64 ref.spanId.toUInt64) refs

/-- `jThriftSpanToInternal`, into a span that was just made; the trace state is left among the
attributes. -/
def jThriftSpanToInternal (lib : Library) (span : Thrift.Span F) : Go (Pdata.Span F) := do
  let attrs ← jThriftTagsToInternalAttributes lib span.tags []
  let (attrs, status) := setInternalSpanStatus lib attrs
  let (attrs, kind) := kindFromAttrs attrs
  let events ← jThriftLogsToSpanEvents lib span.logs
  let links ← jThriftReferencesToSpanLinks span.references span.parentSpanId
  return {
    traceId := uint64ToByteTraceID span.traceIdHigh.toUInt64 span.traceIdLow.toUInt64
    spanId := uint64ToByteSpanID span.spanId.toUInt64
    traceState := ""
    parentSpanId :=
      if span.parentSpanId ≠ 0 then uint64ToByteSpanID span.parentSpanId.toUInt64 else []
    name := span.operationName
    kind
    startTime := microsecondsToUnixNano span.startTime
    endTime := microsecondsToUnixNano (span.startTime + span.duration)
    attributes := attrs
    droppedAttributesCount := 0
    events
    droppedEventsCount := 0
    links
    droppedLinksCount := 0
    status }

/-! ### Where it returns -/

structure Thrift.Span.NoNil (span : Thrift.Span F) : Prop where
  tags : none ∉ span.tags
  logs : ∀ log ∈ span.logs, ∃ l, log = some l ∧ none ∉ l.fields
  references : none ∉ span.references

theorem returns_deref_iff {α : Type} (p : Option α) : Returns (deref p) ↔ ¬none = p := by
  cases p <;> simp [deref, Returns]

theorem returns_thriftTags {lib : Library} {tags : List (Option (Tag F))} {dest : AttributeMap F} :
    Returns (jThriftTagsToInternalAttributes lib tags dest) ↔ none ∉ tags :=
  (returns_foldlM fun _ tag => returns_bind_pure.trans (returns_deref_iff tag)).trans
    forall_mem_ne

theorem returns_thriftLogs {lib : Library} {logs : List (Option (Thrift.Log F))} :
    Returns (jThriftLogsToSpanEvents lib logs) ↔
      ∀ log ∈ logs, ∃ l, log = some l ∧ none ∉ l.fields := by
  unfold jThriftLogsToSpanEvents
  rw [returns_mapM]
  refine forall₂_congr fun log _ => ?_
  cases log with
  | none => exact iff_of_false (not_returns_error _) (by simp)
  | some l =>
    simp only [Option.some.injEq, exists_eq_left']
    exact returns_bind_pure.trans returns_thriftTags

theorem returns_thriftReferences {refs : List (Option Thrift.SpanRef)} {parent : Int64} :
    Returns (jThriftReferencesToSpanLinks (F := F) refs parent) ↔ none ∉ refs := by
  refine returns_bind_pure.trans (returns_mapM.trans ?_)
  exact (forall₂_congr fun ref _ => returns_deref_iff ref).trans forall_mem_ne

def SpanRef.ofThrift (ref : Thrift.SpanRef) : SpanRef where
  traceId := ⟨ref.traceIdLow.toUInt64, ref.traceIdHigh.toUInt64⟩
  spanId := ref.spanId.toUInt64
  refType := ref.refType

theorem thriftReferences_eq {refs : List (Option Thrift.SpanRef)} (h : none ∉ refs)
    (parent : Int64) : jThriftReferencesToSpanLinks (F := F) refs parent =
      .ok (jReferencesToSpanLinks (refs.reduceOption.map .ofThrift) parent.toUInt64) := by
  have hderef : refs.mapM deref = .ok refs.reduceOption := by
    conv_lhs => rw [← map_some_reduceOption h, mapM_map]
    exact (mapM_ok fun ref _ => rfl).trans (by rw [map_id'])
  have hinj : ∀ a b : Int64, a.toUInt64 = b.toUInt64 ↔ a = b := by
    refine fun a b => ⟨fun h => ?_, congrArg _⟩
    cases a
    cases b
    cases h
    rfl
  unfold jThriftReferencesToSpanLinks
  rw [jReferencesToSpanLinks_eq, hderef, filter_map, map_map]
  simp only [Function.comp_def, SpanRef.ofThrift, hinj]
  show Except.ok (compactLinks _ _ _) = _
  rw [compactLinks_eq]
  simp

theorem thriftLinks_iff {lib : Library} {span : Thrift.Span F}
    {links : List (Option (SpanLink F))} :
    (∃ dest, jThriftSpanToInternal lib span = .ok dest ∧ dest.links = links) ↔ span.NoNil ∧
      jReferencesToSpanLinks (span.references.reduceOption.map .ofThrift)
        span.parentSpanId.toUInt64 = links := by
  constructor
  · rintro ⟨dest, h, rfl⟩
    obtain ⟨attrs, hattrs, h⟩ := bind_eq_ok.1 h
    obtain ⟨events, hevents, h⟩ := bind_eq_ok.1 h
    obtain ⟨links, hlinks, h⟩ := bind_eq_ok.1 h
    cases h
    have hrefs := returns_thriftReferences.1 ⟨links, hlinks⟩
    rw [thriftReferences_eq hrefs] at hlinks
    exact ⟨⟨returns_thriftTags.1 ⟨attrs, hattrs⟩, returns_thriftLogs.1 ⟨events, hevents⟩, hrefs⟩,
      Except.ok.inj hlinks⟩
  · rintro ⟨hnil, rfl⟩
    obtain ⟨attrs, hattrs⟩ := returns_thriftTags.2 hnil.tags
    obtain ⟨events, hevents⟩ := returns_thriftLogs.2 hnil.logs
    exact ⟨_, bind_eq_ok.2 ⟨attrs, hattrs, bind_eq_ok.2 ⟨events, hevents,
      bind_eq_ok.2 ⟨_, thriftReferences_eq hnil.references _, rfl⟩⟩⟩, rfl⟩

/-! ## Which references become links -/

def SpanRef.link (ref : SpanRef) : SpanLink F :=
  newLink ref.traceId.high ref.traceId.low ref.spanId

/-- The reference stands for the parent of a span of the trace `own`. -/
def SpanRef.IsParent (own : TraceID) (parent : UInt64) (ref : SpanRef) : Prop :=
  ref.refType = .childOf ∧ ref.traceId = own ∧ ref.spanId = parent

instance (own : TraceID) (parent : UInt64) : DecidablePred (SpanRef.IsParent own parent) :=
  fun _ => inferInstanceAs (Decidable (_ ∧ _ ∧ _))

/-- The links of all references but those that stand for the parent. -/
def linksExcept (own : TraceID) (parent : UInt64) (refs : List SpanRef) :
    List (Option (SpanLink F)) :=
  (refs.filter fun ref => ¬ref.IsParent own parent).map fun ref => some ref.link

/-- No reference to a parent with this span id is into another trace. -/
def OwnParents (own : TraceID) (parent : UInt64) (refs : List SpanRef) : Prop :=
  ∀ ref ∈ refs, ref.refType = .childOf → ref.spanId = parent → ref.traceId = own

theorem links_eq_iff {own : TraceID} {parent : UInt64} {refs : List SpanRef} :
    (jReferencesToSpanLinks refs parent : List (Option (SpanLink F))) =
      linksExcept own parent refs ↔ OwnParents own parent refs := by
  rw [jReferencesToSpanLinks_eq, linksExcept]
  constructor
  · intro h ref hmem htype hid
    have hsub : (refs.filter fun ref => ¬(ref.spanId = parent ∧ ref.refType = .childOf)).Sublist
        (refs.filter fun ref => ¬ref.IsParent own parent) := by
      apply monotone_filter_right
      intro ref hkeep
      simp only [decide_eq_true_eq] at hkeep ⊢
      exact fun hparent => hkeep ⟨hparent.2.2, hparent.1⟩
    have hlength := congrArg List.length h
    rw [length_map, length_map] at hlength
    by_contra hother
    have hlink : ref ∈ refs.filter fun ref => ¬ref.IsParent own parent := by
      refine mem_filter.2 ⟨hmem, ?_⟩
      simp only [decide_eq_true_eq]
      exact fun hparent => hother hparent.2.1
    rw [← hsub.eq_of_length hlength, mem_filter] at hlink
    simp [htype, hid] at hlink
  · intro h
    have hfilter : (refs.filter fun ref => ¬(ref.spanId = parent ∧ ref.refType = .childOf)) =
        refs.filter fun ref => ¬ref.IsParent own parent := by
      refine filter_congr fun ref hmem => ?_
      rw [decide_eq_decide]
      exact not_congr ⟨fun hp => ⟨hp.2, h ref hmem hp.2 hp.1, hp.1⟩, fun hp => ⟨hp.2.2, hp.1⟩⟩
    rw [hfilter]
    rfl

/-- **Which references become links**: all but those that stand for the parent, unless one into
another trace has the same span id. -/
theorem references_kept_iff (lib : Library) :
    (∀ span : Span F, (jSpanToInternal lib span).links =
        linksExcept span.traceId (lib.parentSpanID span.traceId span.references)
          span.references ↔
      OwnParents span.traceId (lib.parentSpanID span.traceId span.references)
        span.references) ∧
    ∀ span : Thrift.Span F, (∃ dest, jThriftSpanToInternal lib span = .ok dest ∧ dest.links =
        linksExcept ⟨span.traceIdLow.toUInt64, span.traceIdHigh.toUInt64⟩
          span.parentSpanId.toUInt64 (span.references.reduceOption.map .ofThrift)) ↔
      span.NoNil ∧ OwnParents ⟨span.traceIdLow.toUInt64, span.traceIdHigh.toUInt64⟩
        span.parentSpanId.toUInt64 (span.references.reduceOption.map .ofThrift) :=
  ⟨fun _ => links_eq_iff, fun _ => thriftLinks_iff.trans (and_congr_right fun _ => links_eq_iff)⟩

/-- A span of trace 1 with a parent in its trace and one of the same span id in trace 2. -/
def twoParents : Span Int where
  traceId := ⟨1, 0⟩
  spanId := 5
  operationName := ""
  references := [⟨⟨1, 0⟩, 3, .childOf⟩, ⟨⟨2, 0⟩, 3, .childOf⟩]
  startTime := 0
  duration := 0
  tags := []
  logs := []

theorem other_parent_lost : (jSpanToInternal noLibrary twoParents).links = [] ∧
    linksExcept (F := Int) twoParents.traceId
        (noLibrary.parentSpanID twoParents.traceId twoParents.references) twoParents.references =
      [some (SpanRef.link ⟨⟨2, 0⟩, 3, .childOf⟩)] := ⟨rfl, rfl⟩

end Collector.Jaeger
