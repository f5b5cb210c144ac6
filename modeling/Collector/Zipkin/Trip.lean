import Collector.Zipkin.FromInternal
import Collector.Zipkin.ResourceTags

/-!
# Spans through Zipkin v2

A span with no attributes, events or links goes out as a model with a few tags (`Written`) and
comes back from it with the fields it had (`Written.sameCore`). The spans of a batch come back in
the order that the sort gives them.
-/

namespace Collector.Zipkin

open Lib
open Pdata (AnyValue AttributeMap InstrumentationLibrary KeyValue SpanKind)
open Translator List

variable {F τ : Type}

/-- A span that the trip keeps. -/
structure CoreSpan (span : Pdata.Span F) : Prop where
  traceId : span.traceId.length = 16
  spanId : span.spanId.length = 8
  parent : span.parentSpanId = [] ∨
    span.parentSpanId.length = 8 ∧ span.parentSpanId ≠ span.spanId
  kind : ∀ n, span.kind ≠ .unrecognized n
  status : ∀ status ∈ span.status, 0 ≤ status.code ∧ status.code < 17
  startTime : 0 < span.startTime.toNat ∧ span.startTime.toNat < 2 ^ 63
  attributes : span.attributes = []
  events : span.events = []
  links : span.links = []

/-- The end is after the start, by less than the largest duration. -/
def Lasts (span : Pdata.Span F) : Prop :=
  span.startTime.toNat < span.endTime.toNat ∧
    span.endTime.toNat - span.startTime.toNat < 2 ^ 63

structure SameCore (span span' : Pdata.Span F) : Prop where
  traceId : span'.traceId = span.traceId
  spanId : span'.spanId = span.spanId
  parentSpanId : span'.parentSpanId = span.parentSpanId
  name : span'.name = span.name
  kind : span'.kind = span.kind
  startTime : span'.startTime = span.startTime
  endTime : span'.endTime = span.endTime
  traceState : span'.traceState = span.traceState
  status : span'.status = span.status

/-- What is written for a span of a service. -/
structure Written (service : String) (span : Pdata.Span F) (z : SpanModel) : Prop where
  traceId : uint64ToByteTraceID z.traceId.high z.traceId.low = span.traceId
  id : uint64ToByteSpanID z.id = span.spanId
  parent : z.parentId = none ∧ span.parentSpanId = [] ∨
    ∃ id, z.parentId = some id ∧ id ≠ z.id ∧ uint64ToByteSpanID id = span.parentSpanId
  name : z.name = span.name
  kind : z.kind = spanKindToZipkinKind span.kind
  timestamp : z.timestamp = unixNanoToTime span.startTime
  duration : z.duration = if span.endTime ≠ 0 then (span.endTime - span.startTime).toInt64 else 0
  localEndpoint : z.localEndpoint = some { serviceName := service }
  annotations : z.annotations = []
  traceState : z.tags.lookup tagW3CTraceState =
    if span.traceState ≠ "" then some span.traceState else none
  spanKind : z.tags.lookup tagSpanKind = if span.kind = .internal then some "internal" else none
  statusCode : z.tags.lookup tagStatusCode = span.status.map fun st => statusCodeName st.code
  statusMsg : z.tags.lookup tagStatusMsg =
    span.status.bind fun st => if st.message ≠ "" then some st.message else none
  links : ∀ i, z.tags.lookup (linkKey i) = none

/-! ## Out -/

/-- Nothing but the library is in the tags. -/
def LibraryTags (tags : GoMap String String) : Prop :=
  ∀ k, k ≠ tagInstrumentationName → k ≠ tagInstrumentationVersion → tags.lookup k = none

variable {zTags tags : GoMap String String}

theorem libraryTags_extract (il : Option InstrumentationLibrary) (h : LibraryTags zTags) :
    LibraryTags (extractInstrumentationLibraryTags il zTags) := by
  have hinsert : ∀ {key : String} (v : String) {tags : GoMap String String},
      (key = tagInstrumentationName ∨ key = tagInstrumentationVersion) → LibraryTags tags →
      LibraryTags (tags.insert key v) := by
    intro key v tags hkey htags k hname hversion
    have hne : k ≠ key := by
      rcases hkey with rfl | rfl
      · exact hname
      · exact hversion
    rw [AList.lookup_insert_ne hne]
    exact htags k hname hversion
  unfold extractInstrumentationLibraryTags
  cases il with
  | none => exact h
  | some il =>
    have hname : LibraryTags
        (if il.name ≠ "" then zTags.insert tagInstrumentationName il.name else zTags) := by
      split
      · exact hinsert _ (.inl rfl) h
      · exact h
    dsimp only
    split
    · exact hinsert _ (.inr rfl) hname
    · exact hname

variable (lib : Printer F τ)

theorem resourceTags [GoFloat F] (service : String) :
    ∃ zTags, resourceToZipkinEndpointServiceNameAndAttributeMap lib
      (some [KeyValue.mk "service.name" (.string service)]) = (service, zTags) ∧
      LibraryTags zTags := by
  refine ⟨((∅ : GoMap String String).insert "service.name" service).erase "service.name", ?_, ?_⟩
  · show extractZipkinServiceName ((∅ : GoMap String String).insert "service.name" service) = _
    rw [extractZipkinServiceName, AList.lookup_insert]
  · intro k _ _
    by_cases hk : k = "service.name"
    · rw [hk, AList.lookup_erase]
    · rw [AList.lookup_erase_ne hk, AList.lookup_insert_ne hk, AList.lookup_empty]

def endpointKeys : List String :=
  ["peer.service", "net.host.ip", "net.host.port", "net.peer.ip", "net.peer.port"]

theorem zipkinEndpointFromTags_clear
    (h : ∀ k ∈ endpointKeys, tags.lookup k = none) (service : String) (remote : Bool) :
    zipkinEndpointFromTags lib tags service remote [] =
      (if service = "" then none else some { serviceName := service }, []) := by
  have hpeer := h "peer.service" (by decide)
  have hip : tags.lookup (if remote then "net.peer.ip" else "net.host.ip") = none := by
    cases remote <;> exact h _ (by decide)
  have hport : tags.lookup (if remote then "net.peer.port" else "net.host.port") = none := by
    cases remote <;> exact h _ (by decide)
  simp only [zipkinEndpointFromTags, hpeer, hip, hport]
  by_cases hempty : service = "" <;> simp [hempty]

def stateTags (span : Pdata.Span F) (zTags : GoMap String String) : GoMap String String :=
  if span.traceState ≠ "" then zTags.insert tagW3CTraceState span.traceState else zTags

/-- The tags of a span before its endpoints are read. -/
def ownTags (span : Pdata.Span F) (zTags : GoMap String String) : GoMap String String :=
  if span.kind = .internal then (stateTags span zTags).insert tagSpanKind "internal"
  else stateTags span zTags

section Lookups

variable {span : Pdata.Span F} {zTags : GoMap String String} {k : String}

theorem lookup_stateTags_self (h : zTags.lookup tagW3CTraceState = none) :
    (stateTags span zTags).lookup tagW3CTraceState =
      if span.traceState ≠ "" then some span.traceState else none := by
  unfold stateTags
  split
  · exact AList.lookup_insert _
  · exact h

theorem lookup_stateTags_ne (h : k ≠ tagW3CTraceState) :
    (stateTags span zTags).lookup k = zTags.lookup k := by
  unfold stateTags
  split
  · exact AList.lookup_insert_ne h
  · rfl

theorem lookup_ownTags_self (h : zTags.lookup tagSpanKind = none) :
    (ownTags span zTags).lookup tagSpanKind =
      if span.kind = .internal then some "internal" else none := by
  unfold ownTags
  split
  · exact AList.lookup_insert _
  · exact (lookup_stateTags_ne (by decide)).trans h

theorem lookup_ownTags_ne (h : k ≠ tagSpanKind) :
    (ownTags span zTags).lookup k = (stateTags span zTags).lookup k := by
  unfold ownTags
  split
  · exact AList.lookup_insert_ne h
  · rfl

end Lookups

variable {k service : String} (status : Option Pdata.SpanStatus)

theorem lookup_addStatusTags_ne (tags : GoMap String String)
    (hcode : k ≠ tagStatusCode) (hmsg : k ≠ tagStatusMsg) :
    (addStatusTags status tags).lookup k = tags.lookup k := by
  cases status with
  | none => rfl
  | some st =>
    dsimp only [addStatusTags]
    split
    · rw [AList.lookup_insert_ne hmsg, AList.lookup_insert_ne hcode]
    · rw [AList.lookup_insert_ne hcode]

theorem lookup_addStatusTags_code
    (h : tags.lookup tagStatusCode = none) :
    (addStatusTags status tags).lookup tagStatusCode =
      status.map fun st => statusCodeName st.code := by
  cases status with
  | none => exact h
  | some st =>
    dsimp only [addStatusTags]
    split
    · rfl
    · rfl

theorem lookup_addStatusTags_msg
    (h : tags.lookup tagStatusMsg = none) :
    (addStatusTags status tags).lookup tagStatusMsg =
      status.bind fun st => if st.message ≠ "" then some st.message else none := by
  cases status with
  | none => exact h
  | some st =>
    rw [Option.bind_some]
    dsimp only [addStatusTags]
    split
    · exact AList.lookup_insert _
    · exact (AList.lookup_insert_ne (by decide)).trans h

/-- The keys that the tags of a span without attributes are under. -/
def writtenKeys : List String :=
  [tagInstrumentationName, tagInstrumentationVersion, tagW3CTraceState, tagSpanKind, tagStatusCode,
    tagStatusMsg]

variable {span : Pdata.Span F}

theorem lookup_written (h : LibraryTags zTags) (hk : k ∉ writtenKeys) :
    (ownTags span zTags).lookup k = none ∧
      (addStatusTags span.status (ownTags span zTags)).lookup k = none := by
  simp only [writtenKeys, mem_cons, not_mem_nil, or_false, not_or] at hk
  obtain ⟨hname, hversion, hstate, hkind, hcode, hmsg⟩ := hk
  have hown : (ownTags span zTags).lookup k = none := by
    rw [lookup_ownTags_ne hkind, lookup_stateTags_ne hstate]
    exact h k hname hversion
  exact ⟨hown, (lookup_addStatusTags_ne _ _ hcode hmsg).trans hown⟩

theorem linkKey_notMem_written (i : Nat) : linkKey i ∉ writtenKeys := by
  intro h
  have hall : ∀ k ∈ writtenKeys, ¬"otlp.link.".toList <+: k.toList := by decide
  exact not_prefix_link (hall _ h) i rfl

theorem parentToZipkin_written (h : CoreSpan span) {id : UInt64}
    (hid : uint64ToByteSpanID id = span.spanId) :
    ∃ parentId, parentToZipkin (τ := τ) span.parentSpanId = .ok parentId ∧
      (parentId = none ∧ span.parentSpanId = [] ∨
        ∃ p, parentId = some p ∧ p ≠ id ∧ uint64ToByteSpanID p = span.parentSpanId) := by
  rcases h.parent with hroot | ⟨hlength, hne⟩
  · refine ⟨none, ?_, .inl ⟨rfl, hroot⟩⟩
    rw [hroot]
    rfl
  · obtain ⟨p, hp, hback, -⟩ := spanID_trip (τ := τ) hlength
    refine ⟨some p, ?_, .inr ⟨p, rfl, ?_, hback⟩⟩
    · rw [parentToZipkin, if_pos (by omega), hp]
      rfl
    · rintro rfl
      exact hne (hback.symm.trans hid)

theorem spanToZipkinSpan_written [GoFloat F] (h : CoreSpan span)
    (hservice : service ≠ "") (htags : LibraryTags zTags) :
    ∃ z, spanToZipkinSpan lib span service zTags = .ok z ∧ Written service span z := by
  obtain ⟨high, low, htrace, htraceBack, -⟩ := traceID_trip (τ := τ) h.traceId
  obtain ⟨id, hid, hidBack, -⟩ := spanID_trip (τ := τ) h.spanId
  obtain ⟨parentId, hparent, hparentBack⟩ := parentToZipkin_written (τ := τ) h hidBack
  have hagg : aggregateSpanTags span zTags = zTags := by
    rw [aggregateSpanTags, h.attributes]
    rfl
  have hclear : ∀ k ∈ endpointKeys, (ownTags span zTags).lookup k = none := by
    have hnot : ∀ k ∈ endpointKeys, k ∉ writtenKeys := by decide
    exact fun k hk => (lookup_written htags (hnot k hk)).1
  have hlocal := zipkinEndpointFromTags_clear lib hclear service false
  have hremote := zipkinEndpointFromTags_clear lib hclear "" true
  rw [if_neg hservice] at hlocal
  have hlinks : ∀ tags, spanLinksToZipkinTags lib span.links tags = .ok tags := by
    intro tags
    rw [h.links]
    rfl
  have hevents : spanEventsToZipkinAnnotations lib span.events = .ok [] := by
    rw [h.events]
    rfl
  have hspan : spanToZipkinSpan lib span service zTags = .ok
      { traceId := ⟨high, low⟩, id, parentId, sampled := some true, err := statusErr span.status,
        name := span.name, kind := spanKindToZipkinKind span.kind,
        timestamp := unixNanoToTime span.startTime,
        duration := if span.endTime ≠ 0 then (span.endTime - span.startTime).toInt64 else 0,
        localEndpoint := some { serviceName := service }, remoteEndpoint := none,
        annotations := [], tags := addStatusTags span.status (ownTags span zTags) } := by
    unfold ownTags stateTags at hlocal hremote ⊢
    unfold spanToZipkinSpan
    rw [hagg, htrace]
    simp only [ok_bind, hid, hparent, hevents, hlinks, hlocal, hremote]
    rfl
  have hnone : ∀ k, k ≠ tagInstrumentationName ∧ k ≠ tagInstrumentationVersion →
      zTags.lookup k = none := fun k hk => htags k hk.1 hk.2
  exact ⟨_, hspan,
    { traceId := htraceBack
      id := hidBack
      parent := hparentBack
      name := rfl
      kind := rfl
      timestamp := rfl
      duration := rfl
      localEndpoint := rfl
      annotations := rfl
      traceState := by
        rw [lookup_addStatusTags_ne _ _ (by decide) (by decide), lookup_ownTags_ne (by decide)]
        exact lookup_stateTags_self (hnone _ (by decide))
      spanKind := by
        rw [lookup_addStatusTags_ne _ _ (by decide) (by decide)]
        exact lookup_ownTags_self (hnone _ (by decide))
      statusCode := lookup_addStatusTags_code _ (by
        rw [lookup_ownTags_ne (by decide), lookup_stateTags_ne (by decide)]
        exact hnone _ (by decide))
      statusMsg := lookup_addStatusTags_msg _ (by
        rw [lookup_ownTags_ne (by decide), lookup_stateTags_ne (by decide)]
        exact hnone _ (by decide))
      links := fun i => (lookup_written htags (linkKey_notMem_written i)).2 }⟩

/-! ## Back -/

theorem lookup_traceStateFromTags (tags : GoMap String String) (h : k ≠ tagW3CTraceState) :
    (traceStateFromTags tags).2.lookup k = tags.lookup k := by
  unfold traceStateFromTags
  split
  · exact AList.lookup_erase_ne h
  · rfl

theorem lookup_zipkinKindToSpanKind (kind : Kind) (tags : GoMap String String)
    (h : k ≠ tagSpanKind) :
    (zipkinKindToSpanKind kind tags).2.lookup k = tags.lookup k := by
  unfold zipkinKindToSpanKind
  split
  iterate 4 rfl
  split
  · exact AList.lookup_erase_ne h
  · rfl

theorem kind_trip {kind : SpanKind} (hkind : ∀ n, kind ≠ .unrecognized n)
    (h : tags.lookup tagSpanKind = if kind = .internal then some "internal" else none) :
    (zipkinKindToSpanKind (spanKindToZipkinKind kind) tags).1 = kind := by
  cases kind with
  | unrecognized n => exact absurd rfl (hkind n)
  | internal | unspecified => simp [zipkinKindToSpanKind, spanKindToZipkinKind, h]
  | server | client | producer | consumer => rfl

theorem statusCode_trip {code : Int32} (h : 0 ≤ code ∧ code < 17) :
    statusCodeValue (statusCodeName code) = code := by
  have hall : ∀ i : Fin 17, statusCodeValue (statusCodeName (.ofNat i)) = .ofNat i := by decide
  have hlow : 0 ≤ code.toInt := Int32.le_iff_toInt_le.1 h.1
  have hhigh : code.toInt < 17 := Int32.lt_iff_toInt_lt.1 h.2
  obtain ⟨n, hn⟩ := Int.eq_ofNat_of_zero_le hlow
  have hcode : code = .ofNat n := by
    rw [← Int32.ofInt_toInt code, hn]
    rfl
  rw [hcode]
  exact hall ⟨n, by omega⟩

theorem status_trip {status : Option Pdata.SpanStatus}
    (hstatus : ∀ st ∈ status, 0 ≤ st.code ∧ st.code < 17)
    (hcode : tags.lookup tagStatusCode = status.map fun st => statusCodeName st.code)
    (hmsg : tags.lookup tagStatusMsg =
      status.bind fun st => if st.message ≠ "" then some st.message else none) :
    (populateSpanStatus tags).1 = status := by
  unfold populateSpanStatus
  cases status with
  | none =>
    rw [hcode]
    rfl
  | some st =>
    have herase : (tags.erase tagStatusCode).lookup tagStatusMsg =
        if st.message ≠ "" then some st.message else none :=
      (AList.lookup_erase_ne (by decide)).trans hmsg
    rw [hcode]
    simp only [Option.map_some, herase]
    by_cases hm : st.message = ""
    · rw [if_neg (not_not.2 hm), statusCode_trip (hstatus st rfl), ← hm]
    · rw [if_pos hm, statusCode_trip (hstatus st rfl)]

def endBack (span : Pdata.Span F) : UInt64 :=
  if 0 < (if span.endTime ≠ 0 then (span.endTime - span.startTime).toInt64 else 0) then
    span.endTime
  else 0

theorem endBack_of_lasts (h : Lasts span) : endBack span = span.endTime := by
  have hend : span.endTime ≠ 0 := by
    intro hzero
    have := h.1
    rw [hzero] at this
    exact absurd this (Nat.not_lt_zero _)
  have hsub : (span.endTime - span.startTime).toNat =
      span.endTime.toNat - span.startTime.toNat :=
    UInt64.toNat_sub_of_le _ _ (UInt64.le_iff_toNat_le.2 h.1.le)
  have hpos : 0 < (span.endTime - span.startTime).toInt64 := by
    rw [Int64.lt_iff_toInt_lt, toInt_toInt64 (hsub ▸ h.2), hsub]
    have := h.1
    show (0 : Int) < _
    omega
  rw [endBack, if_pos hend, if_pos hpos]

theorem Written.sameCore {lib : Library F τ} {span' : Pdata.Span F} {z : SpanModel}
    (hw : Written service span z) (hc : CoreSpan span) (ht : Translates lib z span') :
    SameCore { span with endTime := endBack span } span' := by
  obtain ⟨tags, hagree, hspan⟩ := ht
  have hlookup : ∀ k ∉ nonSpanAttributes, tags.lookup k = z.tags.lookup k := hagree
  have hstart : span.startTime ≠ 0 := by
    intro hzero
    have := hc.startTime.1
    rw [hzero] at this
    exact absurd this (Nat.not_lt_zero _)
  have hnano : Time.unixNano z.timestamp = span.startTime.toInt64 := by
    rw [hw.timestamp, unixNanoToTime, if_neg hstart, Time.unixNano, Int64.ofInt_toInt]
  simp only [zSpanToInternal] at hspan
  obtain ⟨⟨links, tags'⟩, -, hspan⟩ := bind_eq_ok.1 hspan
  obtain ⟨events, -, hspan⟩ := bind_eq_ok.1 hspan
  cases hspan
  refine ⟨hw.traceId, hw.id, ?_, hw.name, ?_, ?_, ?_, ?_, ?_⟩
  · rcases hw.parent with ⟨hnone, hroot⟩ | ⟨p, hp, hne, hback⟩
    · simp only [hnone]
      exact hroot.symm
    · simp only [hp]
      exact (if_pos hne).trans hback
  · rw [hw.kind]
    refine kind_trip hc.kind ?_
    rw [lookup_traceStateFromTags _ (by decide), hlookup _ (by decide)]
    exact hw.spanKind
  · rw [hnano]
    exact UInt64.toUInt64_toInt64 span.startTime
  · dsimp only [endBack]
    rw [hnano, hw.duration]
    by_cases hend : span.endTime ≠ 0
    · have hsum : (span.startTime.toInt64 + (span.endTime - span.startTime).toInt64).toUInt64 =
          span.endTime := by
        rw [Int64.toUInt64_add, UInt64.toUInt64_toInt64, UInt64.toUInt64_toInt64, UInt64.add_comm,
          UInt64.sub_add_cancel]
      rw [if_pos hend, hsum]
    · rw [if_neg hend, if_neg (by decide), if_neg (by decide)]
  · dsimp only [traceStateFromTags]
    rw [hlookup _ (by decide), hw.traceState]
    by_cases hs : span.traceState = ""
    · rw [if_neg (not_not.2 hs)]
      exact hs.symm
    · rw [if_pos hs]
  · refine status_trip hc.status ?_ ?_
    · rw [lookup_zipkinKindToSpanKind _ _ (by decide), lookup_traceStateFromTags _ (by decide),
        hlookup _ (by decide)]
      exact hw.statusCode
    · rw [lookup_zipkinKindToSpanKind _ _ (by decide), lookup_traceStateFromTags _ (by decide),
        hlookup _ (by decide)]
      exact hw.statusMsg

/-! ## A batch -/

/-- The traces with a batch of spans of one service and one library. -/
def batchOf (service : String) (library : Option InstrumentationLibrary)
    (spans : List (Pdata.Span F)) : List (Option (InternalSpans F)) :=
  [some ⟨some [KeyValue.mk "service.name" (.string service)],
    [some ⟨library, spans.map some⟩]⟩]

def spansOf (td : List (ResourceSpans F (Filled F))) : List (Pdata.Span F) :=
  (places td).map Place.span

theorem batch_written [GoFloat F] (hservice : service ≠ "")
    (library : Option InstrumentationLibrary) {spans : List (Pdata.Span F)}
    (h : ∀ span ∈ spans, CoreSpan span) :
    ∃ zs, internalTracesToZipkinSpans lib (batchOf service library spans) = .ok (.ok zs) ∧
      List.Forall₂ (fun span z => CoreSpan span ∧ Written service span z) spans zs := by
  obtain ⟨zTags, hresource, htags⟩ := resourceTags lib service
  have hspan : ∀ span ∈ spans, ∃ z, elementToZipkinSpan lib service
      (extractInstrumentationLibraryTags library zTags) (some span) = pure z ∧
      (CoreSpan span ∧ Written service span z) := by
    intro span hspan
    obtain ⟨z, hz, hw⟩ := spanToZipkinSpan_written lib (h span hspan) hservice
      (libraryTags_extract library htags)
    exact ⟨z, congrArg (fun r => ExceptT.mk (pure r)) hz, h span hspan, hw⟩
  obtain ⟨zs, hspans, hall⟩ := mapM_pure_forall₂ hspan
  have hzs : (spans.map some).mapM (elementToZipkinSpan lib service
      (extractInstrumentationLibraryTags library zTags)) = pure zs := mapM_map.trans hspans
  have hlibrary : addLibrary lib service (zTags, []) (some ⟨library, spans.map some⟩) =
      pure (extractInstrumentationLibraryTags library zTags, zs) := by
    show (spans.map some).mapM (elementToZipkinSpan lib service
      (extractInstrumentationLibraryTags library zTags)) >>= _ = _
    rw [hzs, pure_bind]
    rfl
  have hrs : resourceSpansToZipkinSpans lib ⟨some [KeyValue.mk "service.name" (.string service)],
      [some ⟨library, spans.map some⟩]⟩ = pure zs := by
    rw [resourceSpansToZipkinSpans, if_neg (by simp), hresource]
    simp only [foldlM_cons, foldlM_nil, hlibrary, pure_bind]
  refine ⟨zs, ?_, hall⟩
  rw [internalTracesToZipkinSpans, batchOf]
  simp only [foldlM_cons, foldlM_nil, addResource, hrs, pure_bind, nil_append]
  rfl

theorem batch_back [GoFloat F] (printer : Printer F τ) (lib : Library F τ)
    (sort : InterfaceSort (Option SpanModel)) (hservice : service ≠ "")
    (library : Option InstrumentationLibrary) {spans : List (Pdata.Span F)}
    (h : ∀ span ∈ spans, CoreSpan span) :
    ∃ zs td, internalTracesToZipkinSpans printer (batchOf service library spans) = .ok (.ok zs) ∧
      v2SpansToInternalTraces lib sort (zs.map some) = .ok (.ok td) ∧
      ∃ spans', spans'.Perm spans ∧ List.Forall₂ (fun span span' =>
        SameCore { span with endTime := endBack span } span') spans' (spansOf td) := by
  obtain ⟨zs, hout, hwritten⟩ := batch_written printer hservice library h
  have hz : ∀ z, some z ∈ zs.map some → ∃ span : Pdata.Span F, Written service span z := by
    intro z hmem
    obtain ⟨z', hz', heq⟩ := mem_map.1 hmem
    cases heq
    exact forall_mem_right_of_forall₂ (P := fun z => ∃ span : Pdata.Span F, Written service span z)
      (fun span z h => ⟨span, h.2⟩) hwritten z hz'
  have hdecodes : ∀ z, some z ∈ zs.map some → Decodes lib z := by
    intro z hmem
    obtain ⟨span, hw⟩ := hz z hmem
    refine ⟨⟨([], z.tags), ?_⟩, [], ?_⟩
    · rw [zTagsToSpanLinks, linksFromTags, hw.links 0]
    · rw [populateSpanEvents, hw.annotations]
      rfl
  have hname : ∀ z, some z ∈ zs.map some → serviceOf z ≠ "" := by
    intro z hmem
    obtain ⟨span, hw⟩ := hz z hmem
    show extractLocalServiceName (some z) ≠ ""
    rw [extractLocalServiceName, hw.localEndpoint]
    exact hservice
  obtain ⟨td, hrun, hruns⟩ := v2SpansToInternalTraces_runs lib sort hdecodes hname
  have hback : List.Forall₂ (fun z p => Translates lib z p.span) (inOrder sort (zs.map some))
      (places td) := forall₂_headed_iff.2 ((standsAt_headed hruns).imp fun x p hx => hx.span)
  have hperm : zs.Perm (inOrder sort (zs.map some)) := by
    have hinOrder := inOrder_perm sort (zs.map some)
    rw [List.reduceOption, filterMap_map] at hinOrder
    exact (hinOrder.trans (List.Perm.of_eq (filterMap_some))).symm
  -- the order of the pass is moved to the spans
  have hcomp : Relation.Comp (List.Forall₂ fun span z => CoreSpan span ∧ Written service span z)
      List.Perm spans (inOrder sort (zs.map some)) := ⟨zs, hwritten, hperm⟩
  rw [forall₂_comp_perm_eq_perm_comp_forall₂] at hcomp
  obtain ⟨spans', hspans', hwritten'⟩ := hcomp
  refine ⟨zs, td, hout, hrun, spans', hspans'.symm, ?_⟩
  rw [spansOf, forall₂_map_right_iff]
  exact forall₂_comp (fun span z p hw ht => hw.2.sameCore hw.1 ht) hwritten' hback

/-- A batch of spans that last comes back, in some order, with its core fields. -/
theorem core_survives [GoFloat F] (printer : Printer F τ) (lib : Library F τ)
    (sort : InterfaceSort (Option SpanModel)) {service : String} (hservice : service ≠ "")
    (library : Option InstrumentationLibrary) {spans : List (Pdata.Span F)}
    (h : ∀ span ∈ spans, CoreSpan span) (hlasts : ∀ span ∈ spans, Lasts span) :
    ∃ zs td, internalTracesToZipkinSpans printer (batchOf service library spans) = .ok (.ok zs) ∧
      v2SpansToInternalTraces lib sort (zs.map some) = .ok (.ok td) ∧
      ∃ spans', spans'.Perm spans ∧ List.Forall₂ SameCore spans' (spansOf td) := by
  obtain ⟨zs, td, hout, hrun, spans', hperm, hall⟩ := batch_back printer lib sort hservice library h
  refine ⟨zs, td, hout, hrun, spans', hperm, ?_⟩
  have hends : ∀ span ∈ spans', endBack span = span.endTime := fun span hspan =>
    endBack_of_lasts (hlasts span (hperm.mem_iff.1 hspan))
  refine ((forall₂_and_left _ _).2 ⟨hends, hall⟩).imp fun span span' hboth => ?_
  obtain ⟨hend, hsame⟩ := hboth
  rw [hend] at hsame
  exact hsame

/-! ## A span that takes no time -/

/-! ## Spans of any kind

`SentAs` takes a call of `spanToZipkinSpan` that returns apart: where the times, the annotations,
the endpoints and the tags come from. -/

section Sent

variable [GoFloat F] {lib : Printer F τ} {span : Pdata.Span F} {service : String}
  {zTags : GoMap String String} {z : SpanModel}

/-- The tags that the endpoints are read from. -/
def fullTags (span : Pdata.Span F) (zTags : GoMap String String) : GoMap String String :=
  ownTags span (aggregateSpanTags span zTags)

/-- The local and the remote endpoint, and the keys they were read from. -/
def endpointsOf (lib : Printer F τ) (tags : GoMap String String) (service : String) :
    Option Endpoint × Option Endpoint × List String :=
  let (localEndpoint, keys) := zipkinEndpointFromTags lib tags service false []
  let (remoteEndpoint, keys) := zipkinEndpointFromTags lib tags "" true keys
  (localEndpoint, remoteEndpoint, keys)

/-- The span `z` is what `span` is sent as. -/
structure SentAs (lib : Printer F τ) (span : Pdata.Span F) (service : String)
    (zTags : GoMap String String) (z : SpanModel) : Prop where
  timestamp : z.timestamp = unixNanoToTime span.startTime
  duration : z.duration = if span.endTime ≠ 0 then (span.endTime - span.startTime).toInt64 else 0
  annotations : spanEventsToZipkinAnnotations lib span.events = .ok z.annotations
  localEndpoint : z.localEndpoint = (endpointsOf lib (fullTags span zTags) service).1
  remoteEndpoint : z.remoteEndpoint = (endpointsOf lib (fullTags span zTags) service).2.1
  tags : spanLinksToZipkinTags lib span.links (addStatusTags span.status (removeRedundentTags
    (endpointsOf lib (fullTags span zTags) service).2.2 (fullTags span zTags))) = .ok z.tags

theorem sentAs_of_ok (h : spanToZipkinSpan lib span service zTags = .ok z) :
    SentAs lib span service zTags z := by
  obtain ⟨⟨high, low⟩, -, h⟩ := bind_eq_ok.1 h
  obtain ⟨id, -, h⟩ := bind_eq_ok.1 h
  obtain ⟨parentId, -, h⟩ := bind_eq_ok.1 h
  obtain ⟨annotations, hannotations, h⟩ := bind_eq_ok.1 h
  obtain ⟨tags, htags, h⟩ := bind_eq_ok.1 h
  cases h
  exact ⟨rfl, rfl, hannotations, rfl, rfl, htags⟩

end Sent

section Example

attribute [local instance] GoFloat.whole

def noPrinter : Printer Int Unit where
  quote _ := ""
  marshal _ := .ok ""
  hexEncode _ := ""
  parseIP _ := none
  parsePort _ := 0

def spanUntil (endTime : UInt64) : Pdata.Span Int where
  traceId := [0, 0, 0, 0, 0, 0, 0, 1, 0, 0, 0, 0, 0, 0, 0, 2]
  spanId := [0, 0, 0, 0, 0, 0, 0, 3]
  traceState := "a=b"
  parentSpanId := [0, 0, 0, 0, 0, 0, 0, 4]
  name := "span"
  kind := .internal
  startTime := 5
  endTime := endTime
  attributes := []
  droppedAttributesCount := 0
  events := []
  droppedEventsCount := 0
  links := []
  droppedLinksCount := 0
  status := some ⟨2, "failed"⟩

theorem coreSpan_spanUntil (endTime : UInt64) : CoreSpan (spanUntil endTime) where
  traceId := rfl
  spanId := rfl
  parent := .inr ⟨rfl, (by decide :
    ([0, 0, 0, 0, 0, 0, 0, 4] : List UInt8) ≠ [0, 0, 0, 0, 0, 0, 0, 3])⟩
  kind n h := by cases h
  status st h := by
    cases h
    decide
  startTime := (by decide : 0 < (5 : UInt64).toNat ∧ (5 : UInt64).toNat < 2 ^ 63)
  attributes := rfl
  events := rfl
  links := rfl

theorem spansUntil_survive :
    ∃ zs td, internalTracesToZipkinSpans noPrinter
        (batchOf "a" (some ⟨"library", "1"⟩) [spanUntil 9, spanUntil 6]) = .ok (.ok zs) ∧
      v2SpansToInternalTraces noLibrary .stable (zs.map some) = .ok (.ok td) ∧
      ∃ spans', spans'.Perm [spanUntil 9, spanUntil 6] ∧
        List.Forall₂ SameCore spans' (spansOf td) := by
  refine core_survives noPrinter noLibrary .stable (by decide) _ ?_ ?_
  · intro span hspan
    have hcases : span = spanUntil 9 ∨ span = spanUntil 6 := by simpa using hspan
    rcases hcases with rfl | rfl <;> exact coreSpan_spanUntil _
  · intro span hspan
    have hcases : span = spanUntil 9 ∨ span = spanUntil 6 := by simpa using hspan
    rcases hcases with rfl | rfl
    · exact (by decide : 5 < 9 ∧ 9 - 5 < 2 ^ 63)
    · exact (by decide : 5 < 6 ∧ 6 - 5 < 2 ^ 63)

/-- A span that ends when it starts comes back without an end. -/
theorem no_duration_lost :
    CoreSpan (spanUntil 5) ∧ (spanUntil 5).startTime ≤ (spanUntil 5).endTime ∧
      ∃ zs td, internalTracesToZipkinSpans noPrinter
          (batchOf "a" (some ⟨"library", "1"⟩) [spanUntil 5]) = .ok (.ok zs) ∧
        v2SpansToInternalTraces noLibrary .stable (zs.map some) = .ok (.ok td) ∧
        (∃ span', spansOf td = [span'] ∧ span'.endTime = 0) ∧
        ¬∃ spans', spans'.Perm [spanUntil 5] ∧ List.Forall₂ SameCore spans' (spansOf td) := by
  have hcore : ∀ span ∈ [spanUntil 5], CoreSpan span := fun span hspan =>
    mem_singleton.1 hspan ▸ coreSpan_spanUntil 5
  obtain ⟨zs, td, hout, hrun, spans', hperm, hall⟩ := batch_back noPrinter noLibrary .stable
    (by decide : "a" ≠ "") (some ⟨"library", "1"⟩) hcore
  rw [perm_singleton] at hperm
  subst hperm
  obtain ⟨span', rest, hsame, hrest, htd⟩ := forall₂_cons_left_iff.1 hall
  rw [forall₂_nil_left_iff] at hrest
  subst hrest
  have hend : span'.endTime = 0 := hsame.endTime
  refine ⟨coreSpan_spanUntil 5, UInt64.le_refl 5, zs, td, hout, hrun, ⟨span', htd, hend⟩, ?_⟩
  rintro ⟨spans', hperm, hsurvive⟩
  rw [perm_singleton] at hperm
  subst hperm
  rw [htd] at hsurvive
  have hfive : span'.endTime = 5 := (forall₂_cons.1 hsurvive).1.endTime
  rw [hend] at hfive
  exact absurd hfive (by decide)

end Example

end Collector.Zipkin
