import Collector.Jaeger.Trip

/-!
# Traces to Jaeger batches

`InternalTracesToJaegerProto` of `traces_to_jaegerproto.go`: a batch for every resource that has
something, with all spans of its libraries. The identifiers of a span and of its parent have to be
valid, or there is no batch at all; a link with other identifiers is left out.
-/

namespace Collector.Jaeger

open Pdata (AttributeMap SpanLink LibraryItems ResourceItems ResourceAttributes SpanTraces itemsOf)
open Lib Translator List

variable {F τ : Type}

/-! ## Batches -/

/-- `model.Process`. -/
structure Process (F : Type) where
  serviceName : String
  tags : List (Tag F)

/-- `model.Batch`. -/
structure Batch (F : Type) where
  process : Process F
  spans : List (Span F)

abbrev ResourceSpans (F : Type) := ResourceItems (ResourceAttributes F) (Option (Pdata.Span F))

def appendTagsFromResourceAttributes (dest : List (Tag F)) (attrs : AttributeMap F) :
    List (Tag F) :=
  attrs.foldl (fun dest kv =>
    match kv with
    | .nil => dest
    | .mk k v =>
      if k = "service.name" then dest else dest ++ [attributeToJaegerProtoTag k v]) dest

def resourceToJaegerProtoProcess : ResourceAttributes F → Process F
  | none => ⟨resourceNotSet, []⟩
  | some attrs =>
    if attrs.length = 0 then ⟨resourceNoAttrs, []⟩
    else match attrs.get "service.name" with
      | none => ⟨"", appendTagsFromResourceAttributes [] attrs⟩
      | some serviceName => ⟨serviceName.stringVal,
          if attrs.length - 1 = 0 then [] else appendTagsFromResourceAttributes [] attrs⟩

/-- The body of the loop over the spans. -/
def addSpan (jSpans : List (Span F)) (span : Pdata.Span F) :
    Except (GoError τ) (List (Span F)) := do
  let jSpan ← spanToJaegerProto span
  return jSpans ++ [jSpan]

/-- The body of the loop over the libraries. -/
def addLibrary (jSpans : List (Span F)) (ils : LibraryItems (Option (Pdata.Span F))) :
    Except (GoError τ) (List (Span F)) :=
  ils.items.foldlM (skipNil addSpan) jSpans

/-- The first library is read before the loop, also a nil one. -/
def resourceSpansToJaegerProto (rs : ResourceSpans F) :
    Go (Except (GoError τ) (Option (Batch F))) :=
  let process := resourceToJaegerProtoProcess rs.resource
  if rs.resource.isNone ∧ rs.libraries.length = 0 then .ok (.ok none)
  else if rs.libraries.length = 0 then .ok (.ok (some ⟨process, []⟩))
  else do
    let _ ← deref (← index rs.libraries 0)
    return do
      let jSpans ← rs.libraries.foldlM (skipNil addLibrary) []
      return some ⟨process, jSpans⟩

/-- The loop over the resources. -/
def addBatches (batches : List (Batch F)) : SpanTraces F → Go (Except (GoError τ) (List (Batch F)))
  | [] => .ok (.ok batches)
  | none :: td => addBatches batches td
  | some rs :: td => do
    match ← resourceSpansToJaegerProto rs with
    | .error err => return .error err
    | .ok none => addBatches batches td
    | .ok (some batch) => addBatches (batches ++ [batch]) td

def internalTracesToJaegerProto (td : SpanTraces F) : Go (Except (GoError τ) (List (Batch F))) :=
  if td.length = 0 then .ok (.ok []) else addBatches [] td

/-! ## Identifiers -/

variable {traceID spanID : List UInt8}

theorem returns_unless {α : Type} {a : α} {p : Prop} [Decidable p] {err : GoError τ} :
    Returns (if p then .error err else pure a) ↔ ¬ p := by
  split
  · exact iff_of_false (not_returns_error err) (not_not.2 ‹_›)
  · exact iff_of_true (returns_ok a) ‹_›

theorem returns_traceID :
    Returns (traceIDToJaegerProto (τ := τ) traceID) ↔ ValidTraceID traceID := by
  unfold traceIDToJaegerProto ValidTraceID
  by_cases hlen : traceID.length = 16
  · obtain ⟨high, low, hok, -, hzero⟩ := traceID_trip (τ := τ) hlen
    have hne : (∃ b ∈ traceID, b ≠ 0) ↔ ¬ (low = 0 ∧ high = 0) := by simp [hzero]
    rw [hok, ok_bind, and_iff_right hlen, hne]
    exact returns_unless
  · refine iff_of_false ?_ fun h => hlen h.1
    unfold bytesToUInt64TraceID
    split <;> simp [*, Returns, bind, Except.bind]

theorem returns_spanID :
    Returns (spanIDToJaegerProto (τ := τ) spanID) ↔ ValidSpanID spanID := by
  unfold spanIDToJaegerProto ValidSpanID
  by_cases hlen : spanID.length = 8
  · obtain ⟨id, hok, -, hzero⟩ := spanID_trip (τ := τ) hlen
    have hne : (∃ b ∈ spanID, b ≠ 0) ↔ id ≠ 0 := by simp [hzero]
    rw [hok, ok_bind, and_iff_right hlen, hne]
    exact returns_unless
  · refine iff_of_false ?_ fun h => hlen h.1
    unfold bytesToUInt64SpanID
    split <;> simp [*, Returns, bind, Except.bind]

theorem traceID_back {id : TraceID} (h : traceIDToJaegerProto (τ := τ) traceID = .ok id) :
    uint64ToByteTraceID id.high id.low = traceID := by
  obtain ⟨id', h', hback⟩ := traceIDToJaegerProto_ok (τ := τ) (returns_traceID.1 ⟨id, h⟩)
  rwa [Except.ok.inj (h.symm.trans h')]

theorem spanID_back {id : UInt64} (h : spanIDToJaegerProto (τ := τ) spanID = .ok id) :
    uint64ToByteSpanID id = spanID := by
  obtain ⟨id', h', -, hback⟩ := spanIDToJaegerProto_ok (τ := τ) (returns_spanID.1 ⟨id, h⟩)
  rwa [Except.ok.inj (h.symm.trans h')]

/-! ## References -/

/-- A reference by the bytes of its identifiers. -/
structure Reference where
  traceId : List UInt8
  spanId : List UInt8
  refType : SpanRefType

def SpanRef.toReference (ref : SpanRef) : Reference where
  traceId := uint64ToByteTraceID ref.traceId.high ref.traceId.low
  spanId := uint64ToByteSpanID ref.spanId
  refType := ref.refType

instance : DecidablePred ValidTraceID := fun traceID =>
  inferInstanceAs (Decidable (traceID.length = 16 ∧ ∃ b ∈ traceID, b ≠ 0))

instance : DecidablePred ValidSpanID := fun spanID =>
  inferInstanceAs (Decidable (spanID.length = 8 ∧ ∃ b ∈ spanID, b ≠ 0))

def linkReferences (links : List (SpanLink F)) : List Reference :=
  (links.filter fun l => ValidTraceID l.traceId ∧ ValidSpanID l.spanId).map fun l =>
    ⟨l.traceId, l.spanId, .followsFrom⟩

/-- The parent, if there is one, and then the links that have identifiers. -/
def referencesOf (span : Pdata.Span F) : List Reference :=
  (if span.parentSpanId = [] then [] else [⟨span.traceId, span.parentSpanId, .childOf⟩]) ++
    linkReferences span.links.reduceOption

theorem map_toReference_links (links : List (SpanLink F)) :
    (links.filterMap linkToReference).map SpanRef.toReference = linkReferences links := by
  unfold linkReferences
  induction links with
  | nil => rfl
  | cons l links ih =>
    by_cases hl : ValidTraceID l.traceId ∧ ValidSpanID l.spanId
    · obtain ⟨ref, href, htype, htrace, hspan⟩ := linkToReference_ok hl.1 hl.2
      rw [filterMap_cons_some href, filter_cons_of_pos (by simpa using hl), map_cons, map_cons, ih,
        SpanRef.toReference, htrace, hspan, htype]
    · have hnone : linkToReference l = none := by
        unfold linkToReference
        split
        · rfl
        · split
          · rfl
          · exact absurd ⟨returns_traceID.1 ⟨_, ‹_›⟩, returns_spanID.1 ⟨_, ‹_›⟩⟩ hl
      rw [filterMap_cons_none hnone, filter_cons_of_neg (by simpa using hl), ih]

theorem references_spec {span : Pdata.Span F} {traceId : TraceID}
    (htrace : uint64ToByteTraceID traceId.high traceId.low = span.traceId) :
    (Returns (makeJaegerProtoReferences (τ := τ) span.links span.parentSpanId traceId) ↔
      (span.parentSpanId ≠ [] → ValidSpanID span.parentSpanId)) ∧
    ∀ refs, makeJaegerProtoReferences (τ := τ) span.links span.parentSpanId traceId = .ok refs →
      refs.map SpanRef.toReference = referencesOf span := by
  unfold makeJaegerProtoReferences referencesOf
  rw [← returns_spanID (τ := τ), ← map_toReference_links]
  by_cases hnil : span.parentSpanId = []
  · simp [hnil, Returns, pure, Except.pure, bind, Except.bind]
  · have hlen : span.parentSpanId.length ≠ 0 := fun h => hnil (length_eq_zero_iff.1 h)
    rw [if_pos hlen, if_neg hnil]
    cases hid : spanIDToJaegerProto (τ := τ) span.parentSpanId with
    | error err => simp [hnil, Returns, bind, Except.bind]
    | ok id =>
      have hparent : SpanRef.toReference ⟨traceId, id, .childOf⟩ =
          ⟨span.traceId, span.parentSpanId, .childOf⟩ := by
        rw [SpanRef.toReference, htrace, spanID_back hid]
      simp [Returns, pure, Except.pure, bind, Except.bind, hparent]

/-! ## Spans -/

/-- The identifiers with which a span can be exported. -/
structure Exportable (span : Pdata.Span F) : Prop where
  traceId : ValidTraceID span.traceId
  spanId : ValidSpanID span.spanId
  parent : span.parentSpanId ≠ [] → ValidSpanID span.parentSpanId

/-- The exported span: its identifiers and its references. -/
structure ExportOf (τ : Type) (span : Pdata.Span F) (j : Span F) : Prop where
  translated : spanToJaegerProto (τ := τ) span = .ok j
  traceId : uint64ToByteTraceID j.traceId.high j.traceId.low = span.traceId
  spanId : uint64ToByteSpanID j.spanId = span.spanId
  references : j.references.map SpanRef.toReference = referencesOf span

theorem spanToJaegerProto_spec (span : Pdata.Span F) :
    (Returns (spanToJaegerProto (τ := τ) span) ↔ Exportable span) ∧
    ∀ j, spanToJaegerProto (τ := τ) span = .ok j → ExportOf τ span j := by
  have hids : Exportable span ↔ Returns (traceIDToJaegerProto (τ := τ) span.traceId) ∧
      Returns (spanIDToJaegerProto (τ := τ) span.spanId) ∧
      (span.parentSpanId ≠ [] → ValidSpanID span.parentSpanId) := by
    rw [returns_traceID, returns_spanID]
    exact ⟨fun h => ⟨h.1, h.2, h.3⟩, fun h => ⟨h.1, h.2.1, h.2.2⟩⟩
  rw [hids]
  cases htrace : traceIDToJaegerProto (τ := τ) span.traceId with
  | error err => simp [spanToJaegerProto, htrace, Returns, bind, Except.bind]
  | ok traceId =>
    cases hspan : spanIDToJaegerProto (τ := τ) span.spanId with
    | error err => simp [spanToJaegerProto, htrace, hspan, Returns, bind, Except.bind]
    | ok spanId =>
      obtain ⟨hreturns, hrefs⟩ := references_spec (τ := τ) (traceID_back htrace)
      rw [← hreturns]
      cases hmake : makeJaegerProtoReferences (τ := τ) span.links span.parentSpanId traceId with
      | error err => simp [spanToJaegerProto, htrace, hspan, hmake, Returns, bind, Except.bind]
      | ok refs =>
        obtain ⟨j, hj, rfl, rfl, rfl⟩ : ∃ j, spanToJaegerProto (τ := τ) span = .ok j ∧
            j.traceId = traceId ∧ j.spanId = spanId ∧ j.references = refs := by
          rw [spanToJaegerProto, htrace, ok_bind, hspan, ok_bind, hmake]
          exact ⟨_, rfl, rfl, rfl, rfl⟩
        rw [hj]
        refine ⟨iff_of_true ⟨_, rfl⟩ ⟨⟨_, rfl⟩, ⟨_, rfl⟩, _, rfl⟩, ?_⟩
        rintro _ ⟨⟩
        exact ⟨hj, traceID_back htrace, spanID_back hspan, hrefs _ hmake⟩

/-! ## Resources -/

variable {rs : ResourceSpans F}

/-- The spans of a resource, library by library. -/
def spansOf (rs : ResourceSpans F) : List (Pdata.Span F) :=
  rs.libraries.reduceOption.flatMap fun ils => ils.items.reduceOption

/-- A resource that gets a batch. -/
def hasBatch (rs : ResourceSpans F) : Bool := rs.resource.isSome || !rs.libraries.isEmpty

def batchOf (rs : ResourceSpans F) : Except (GoError τ) (Batch F) := do
  return ⟨resourceToJaegerProtoProcess rs.resource, ← (spansOf rs).mapM spanToJaegerProto⟩

theorem foldlM_addSpan (spans : List (Pdata.Span F)) (jSpans : List (Span F)) :
    spans.foldlM (addSpan (τ := τ)) jSpans =
      (jSpans ++ ·) <$> spans.mapM (spanToJaegerProto (τ := τ)) := by
  induction spans generalizing jSpans with
  | nil => simp [pure, Except.pure, Functor.map, Except.map]
  | cons span spans ih => simp [addSpan, ih]

theorem foldlM_addLibrary (rs : ResourceSpans F) :
    rs.libraries.foldlM (skipNil addLibrary) [] =
      (spansOf rs).mapM (spanToJaegerProto (τ := τ)) := by
  have hlibrary : addLibrary (F := F) (τ := τ) = fun jSpans ils =>
      ils.items.reduceOption.foldlM addSpan jSpans := by
    funext jSpans ils
    exact foldlM_skipNil_eq addSpan ils.items jSpans
  rw [foldlM_skipNil_eq, hlibrary, ← foldlM_flatMap]
  exact (foldlM_addSpan (spansOf rs) []).trans (by simp)

theorem resourceSpansToJaegerProto_eq (h : none ∉ rs.libraries) :
    resourceSpansToJaegerProto (τ := τ) rs =
      .ok (if hasBatch rs then some <$> batchOf rs else .ok none) := by
  obtain ⟨resource, libraries⟩ := rs
  match libraries with
  | [] => cases resource <;> rfl
  | none :: libraries => exact absurd mem_cons_self h
  | some ils :: libraries =>
    have hspans := foldlM_addLibrary (τ := τ) ⟨resource, some ils :: libraries⟩
    have hbatch : hasBatch ⟨resource, some ils :: libraries⟩ = true := Bool.or_true _
    rw [resourceSpansToJaegerProto, if_neg (by simp), if_neg (by simp), hspans, if_pos hbatch,
      batchOf]
    cases (spansOf ⟨resource, some ils :: libraries⟩).mapM (spanToJaegerProto (τ := τ)) <;> rfl

/-! ## Traces -/

/-- No resource spans, library or span is nil. -/
structure NoNilSpans (td : SpanTraces F) : Prop where
  resources : none ∉ td
  libraries : ∀ rs, some rs ∈ td → none ∉ rs.libraries
  spans : none ∉ itemsOf td

/-- The resources that get a batch, in order. -/
def exported (td : SpanTraces F) : List (ResourceSpans F) := td.reduceOption.filter hasBatch

variable {td : SpanTraces F}

theorem addBatches_eq (h : ∀ rs, some rs ∈ td → none ∉ rs.libraries)
    (batches : List (Batch F)) : addBatches (τ := τ) batches td =
      .ok ((batches ++ ·) <$> (exported td).mapM batchOf) := by
  induction td generalizing batches with
  | nil => simp [addBatches, exported, pure, Except.pure, Functor.map, Except.map]
  | cons rs td ih =>
    have htd := ih fun rs hrs => h rs (mem_cons_of_mem _ hrs)
    cases rs with
    | none => exact htd batches
    | some rs =>
      rw [addBatches, resourceSpansToJaegerProto_eq (h rs mem_cons_self), ok_bind]
      by_cases hbatch : hasBatch rs = true
      · have hexported : exported (some rs :: td) = rs :: exported td := filter_cons_of_pos hbatch
        rw [if_pos hbatch, hexported, mapM_cons]
        cases batchOf (τ := τ) rs with
        | error err => rfl
        | ok batch => exact (htd _).trans (by simp)
      · have hexported : exported (some rs :: td) = exported td := filter_cons_of_neg hbatch
        rw [if_neg hbatch, hexported]
        exact htd batches

theorem some_mem_itemsOf {span : Pdata.Span F} :
    some span ∈ itemsOf td ↔ ∃ rs ∈ exported td, span ∈ spansOf rs := by
  simp only [itemsOf, exported, spansOf, mem_flatMap, mem_filter, reduceOption_mem_iff]
  constructor
  · rintro ⟨_ | rs, hrs, hspan⟩
    · cases hspan
    · obtain ⟨_ | ils, hils, hspan⟩ := mem_flatMap.1 hspan
      · cases hspan
      · have hbatch : hasBatch rs = true := by simp [hasBatch, ne_nil_of_mem hils]
        exact ⟨rs, ⟨hrs, hbatch⟩, ils, hils, hspan⟩
  · rintro ⟨rs, ⟨hrs, -⟩, ils, hils, hspan⟩
    exact ⟨some rs, hrs, mem_flatMap.2 ⟨some ils, hils, hspan⟩⟩

/-- The batch of a resource, with its spans. -/
structure BatchOf (τ : Type) (rs : ResourceSpans F) (batch : Batch F) : Prop where
  process : batch.process = resourceToJaegerProtoProcess rs.resource
  spans : Forall₂ (ExportOf τ) (spansOf rs) batch.spans

theorem batchOf_spec (rs : ResourceSpans F) :
    (Returns (batchOf (τ := τ) rs) ↔ ∀ span ∈ spansOf rs, Exportable span) ∧
    ∀ batch, batchOf (τ := τ) rs = .ok batch → BatchOf τ rs batch := by
  constructor
  · rw [batchOf, returns_bind_pure, returns_mapM]
    simp only [(spanToJaegerProto_spec _).1]
  · intro batch h
    obtain ⟨jSpans, hspans, h⟩ := bind_eq_ok.1 h
    cases h
    exact ⟨rfl, (forall₂_of_mapM hspans).imp fun span j => (spanToJaegerProto_spec span).2 j⟩

/-- **The export is all or nothing, and in order.** -/
theorem export_all_or_nothing (h : NoNilSpans td) :
    ∃ r, internalTracesToJaegerProto (τ := τ) td = .ok r ∧
      ((∃ err, r = .error err) ↔ ∃ span, some span ∈ itemsOf td ∧ ¬ Exportable span) ∧
      ∀ batches, r = .ok batches → Forall₂ (BatchOf τ) (exported td) batches := by
  refine ⟨(exported td).mapM batchOf, ?_, ?_, fun batches hr => ?_⟩
  · unfold internalTracesToJaegerProto
    split
    · rename_i hlen
      rw [length_eq_zero_iff.1 hlen]
      rfl
    · rw [addBatches_eq h.libraries]
      simp
  · have hreturns : Returns ((exported td).mapM (batchOf (τ := τ))) ↔
        ∀ span, some span ∈ itemsOf td → Exportable span := by
      simp only [returns_mapM, (batchOf_spec _).1, some_mem_itemsOf, forall_exists_index, and_imp]
      exact ⟨fun h span rs hrs => h rs hrs span, fun h rs hrs span => h span rs hrs⟩
    rw [← not_iff_not]
    push Not
    rw [← hreturns]
    cases (exported td).mapM (batchOf (τ := τ)) <;> simp [Returns]
  · exact (forall₂_of_mapM hr).imp fun rs batch => (batchOf_spec rs).2 batch

/-- A resource with nothing, one without libraries, and one with a span in each of two libraries. -/
def threeResources (parentSpanId : List UInt8) : SpanTraces Int :=
  [some ⟨none, []⟩, some ⟨some [], []⟩, some ⟨none, [some ⟨[some (exampleSpan [])]⟩,
    some ⟨[some { exampleSpan [] with parentSpanId }]⟩]⟩]

theorem noNilSpans_threeResources (parentSpanId : List UInt8) :
    NoNilSpans (threeResources parentSpanId) := by
  constructor <;> simp [threeResources, itemsOf]

theorem export_threeResources :
    (∃ batches, internalTracesToJaegerProto (τ := Empty) (threeResources []) = .ok (.ok batches) ∧
      Forall₂ (BatchOf Empty) (exported (threeResources [])) batches ∧
      batches.map (·.spans.length) = [0, 2]) ∧
    ∃ err, internalTracesToJaegerProto (τ := Empty) (threeResources [1]) = .ok (.error err) := by
  obtain ⟨r, hrun, -, hok⟩ := export_all_or_nothing (τ := Empty) (noNilSpans_threeResources [])
  cases hrun
  exact ⟨⟨_, rfl, hok _ rfl, rfl⟩, _, rfl⟩

end Collector.Jaeger
