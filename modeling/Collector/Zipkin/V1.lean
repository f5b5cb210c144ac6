import Collector.Lib.Guarded
import Collector.OpenCensus.Traces
import Collector.Zipkin.ToInternal

/-!
# Zipkin v1

`translator/trace/zipkin/zipkinv1_to_protospan.go` and `status_code.go`: from a JSON body to spans
of OpenCensus. What `json.Unmarshal` leaves nil is nil here: a span, an annotation, a binary
annotation, an endpoint.

A nil annotation is passed over, but a nil span and a nil binary annotation are read. Whether the
translation gets there depends on the spans before, the first of which may have been refused
(`v1_returns_iff`).
-/

namespace Collector.Zipkin.V1

open Lib
open OpenCensus (AttributeValue SpanAttributes Span SpanKind TimeEvent TimeEvents
  Timestamp)
open Translator

/-! ## Messages -/

structure Endpoint where
  serviceName : String
  ipv4 : String := ""
  ipv6 : String := ""
  port : Int32 := 0
  deriving DecidableEq, Repr

structure Annotation where
  timestamp : Int64
  value : String
  endpoint : Option Endpoint
  deriving DecidableEq, Repr

structure BinaryAnnotation where
  key : String
  value : String
  endpoint : Option Endpoint
  deriving DecidableEq, Repr

/-- `zipkinV1Span`. -/
structure ZSpan where
  traceID : String
  name : String
  parentID : String
  id : String
  timestamp : Int64
  duration : Int64
  annotations : List (Option Annotation)
  binaryAnnotations : List (Option BinaryAnnotation)
  deriving DecidableEq, Repr

inductive OpenTracingSpanKind where
  | unspecified | client | server | consumer | producer | internal
  deriving DecidableEq, Repr

def OpenTracingSpanKind.asString : OpenTracingSpanKind → String
  | unspecified => ""
  | client => "client"
  | server => "server"
  | consumer => "consumer"
  | producer => "producer"
  | internal => "internal"

/-- A `consumerdata.TraceData`: the name and the attributes of its node, and its spans. -/
structure ServiceSpans (F : Type) where
  name : String
  attributes : Option (GoMap String String)
  spans : List (Span F)

/-- What the translation takes from the standard library. -/
structure Library (F τ : Type) where
  /-- `json.Unmarshal`. -/
  unmarshal : List UInt8 → Except (GoError τ) (List (Option ZSpan))
  /-- The value that `strconv.ParseInt(s, 10, 64)` returns, with or without an error. -/
  parseInt : String → Int64
  /-- The value that `strconv.ParseFloat(s, 64)` returns. -/
  parseFloat : String → F
  /-- `strconv.Atoi`. -/
  atoi : String → Option Int64
  /-- `timestamppb.New(time.Now())`. -/
  now : Timestamp
  /-- The order in which a `range` visits the services. -/
  order : MapOrder (String × ServiceSpans F)

variable {F τ : Type}

/-! ## Identifiers -/

def hexDigit (b : UInt8) : Option Nat :=
  if 48 ≤ b ∧ b ≤ 57 then some (b.toNat - 48)
  else if 97 ≤ b ∧ b ≤ 102 then some (b.toNat - 87)
  else if 65 ≤ b ∧ b ≤ 70 then some (b.toNat - 55)
  else none

/-- `strconv.ParseUint(s, 16, 64)`, for up to 16 digits. -/
def parseHex (s : List UInt8) : Option UInt64 :=
  if s = [] then none
  else (s.foldlM (fun n b => (hexDigit b).map (16 * n + ·)) 0).map UInt64.ofNat

def hexTraceIDToOCTraceID (hex : String) : Except (GoError τ) (List UInt8) :=
  let bytes := hex.toUTF8.data.toList
  if bytes.length ≠ 16 ∧ bytes.length ≠ 32 then
    .error (.new "hex traceId span has wrong length (expected 16 or 32)")
  else do
    let high ←
      if bytes.length = 32 then
        match parseHex (bytes.take 16) with
        | some high => .ok high
        | none => .error (.new "failed to parse hex traceId")
      else .ok 0
    match parseHex (bytes.drop (bytes.length - 16)) with
    | none => .error (.new "failed to parse hex traceId")
    | some low =>
      if high = 0 ∧ low = 0 then .error (.new "traceId is zero")
      else return uint64ToByteTraceID high low

def hexIDToOCID (hex : String) : Except (GoError τ) (List UInt8) :=
  let bytes := hex.toUTF8.data.toList
  if bytes.length ≠ 16 then .error (.new "hex Id has wrong length (expected 16)")
  else match parseHex bytes with
    | none => .error (.new "failed to parse hex Id")
    | some idValue =>
      if idValue = 0 then .error (.new "ID is zero") else .ok (uint64ToByteSpanID idValue)

/-- An error wrapped as `"<msg>: <err>"`. -/
def wrapped {α : Type} (msg : String) (r : Except (GoError τ) α) : Except (GoError τ) α :=
  r.mapError (.wrap (msg ++ ": "))

/-- The identifiers in `zipkinV1ToOCSpan`: of the trace, the span and its parent. -/
def spanIDs (zSpan : ZSpan) : Except (GoError τ) (List UInt8 × List UInt8 × List UInt8) := do
  let traceID ← wrapped "zipkinV1 span traceId" (hexTraceIDToOCTraceID zSpan.traceID)
  let spanID ← wrapped "zipkinV1 span id" (hexIDToOCID zSpan.id)
  let parentID ←
    if zSpan.parentID ≠ "" then wrapped "zipkinV1 span parentId" (hexIDToOCID zSpan.parentID)
    else .ok []
  return (traceID, spanID, parentID)

/-! ## Status -/

/-- `status`. -/
structure CodeAndMessage where
  code : Option Int32 := none
  message : String := ""
  deriving DecidableEq, Repr

structure StatusMapper where
  fromStatus : CodeAndMessage := {}
  fromCensus : CodeAndMessage := {}
  fromHTTP : CodeAndMessage := {}
  fromErrorTag : CodeAndMessage := {}
  fromErrorTagUnknown : CodeAndMessage := {}
  deriving DecidableEq, Repr

def toInt32 (i : Int64) : Option Int32 :=
  if i ≤ 2147483647 ∧ -2147483648 ≤ i then some i.toInt32 else none

/-- `attrib.GetStringValue().GetValue()`. -/
def stringValue : AttributeValue F → String
  | .string (some s) => s.value
  | _ => ""

def attribToStatusCode (lib : Library F τ) (attr : AttributeValue F) : Option Int32 :=
  match attr with
  | .int n => toInt32 n
  | .string _ => (lib.atoi (stringValue attr)).bind toInt32
  | _ => none

/-- `canonicalCodesMap`. -/
def canonicalCodes : List String :=
  ["OK", "CANCELLED", "UNKNOWN", "INVALID_ARGUMENT", "DEADLINE_EXCEEDED", "NOT_FOUND",
    "ALREADY_EXISTS", "PERMISSION_DENIED", "RESOURCE_EXHAUSTED", "FAILED_PRECONDITION", "ABORTED",
    "OUT_OF_RANGE", "UNIMPLEMENTED", "INTERNAL", "UNAVAILABLE", "DATA_LOSS", "UNAUTHENTICATED"]

def extractStatusFromError (attrib : AttributeValue F) : Option Int32 × Bool :=
  match attrib with
  | .string _ =>
    let canonicalCodeStr := stringValue attrib
    if canonicalCodeStr = "" then (none, true)
    else match canonicalCodes.idxOf? canonicalCodeStr with
      | some code => (some (.ofNat code), true)
      | none => (some 2, false)
  | _ => (some 2, false)

/-- `statusMapper.fromAttribute`: the mapper, and whether the attribute is dropped. -/
def StatusMapper.fromAttribute (lib : Library F τ) (m : StatusMapper) (key : String)
    (attrib : AttributeValue F) : StatusMapper × Bool :=
  if key = "census.status_code" then
    match attribToStatusCode lib attrib with
    | some code => ({ m with fromCensus := { m.fromCensus with code := some code } }, true)
    | none => (m, true)
  else if key = "census.status_description" ∨ key = "opencensus.status_description" then
    ({ m with fromCensus := { m.fromCensus with message := stringValue attrib } }, true)
  else if key = tagStatusCode then
    match attribToStatusCode lib attrib with
    | some code => ({ m with fromStatus := { m.fromStatus with code := some code } }, true)
    | none => (m, true)
  else if key = tagStatusMsg then
    ({ m with fromStatus := { m.fromStatus with message := stringValue attrib } }, true)
  else if key = tagHTTPStatusCode then
    match attribToStatusCode lib attrib with
    | some httpCode =>
      ({ m with fromHTTP := { m.fromHTTP with code := some (ocStatusCodeFromHTTP httpCode) } },
        false)
    | none => (m, false)
  else if key = tagHTTPStatusMsg then
    ({ m with fromHTTP := { m.fromHTTP with message := stringValue attrib } }, false)
  else if key = tagError then
    match extractStatusFromError attrib with
    | (code, true) => ({ m with fromErrorTag := { m.fromErrorTag with code } }, true)
    | (code, false) =>
      ({ m with fromErrorTagUnknown := { m.fromErrorTagUnknown with code } }, false)
  else (m, false)

/-- `statusMapper.ocStatus`. -/
def StatusMapper.ocStatus (m : StatusMapper) : Option OpenCensus.Status :=
  let s :=
    if m.fromCensus.code.isSome then m.fromCensus
    else if m.fromStatus.code.isSome then m.fromStatus
    else if m.fromErrorTag.code.isSome then
      if m.fromCensus.message ≠ "" then { m.fromErrorTag with message := m.fromCensus.message }
      else if m.fromStatus.message ≠ "" then
        { m.fromErrorTag with message := m.fromStatus.message }
      else m.fromErrorTag
    else if m.fromHTTP.code.isSome then m.fromHTTP
    else m.fromErrorTagUnknown
  s.code.map fun code => ⟨code, s.message⟩

/-! ## Binary annotations -/

def parseAnnotationValue (lib : Library F τ) (value : String) : AttributeValue F :=
  match determineValueType value with
  | .int => .int (lib.parseInt value)
  | .double => .double (lib.parseFloat value)
  | .bool => .bool (value = "true")
  | _ => .string (some ⟨value⟩)

/-- The variables of the loop in `zipkinV1BinAnnotationsToOCAttributes`. -/
structure Attributes (F : Type) where
  sMapper : StatusMapper := {}
  localComponent : String := ""
  fallbackServiceName : String := ""
  attributeMap : GoMap String (AttributeValue F) := ∅

/-- The body of the loop, which reads the annotation without looking whether it is there. -/
def Attributes.add (lib : Library F τ) (st : Attributes F)
    (annot : Option BinaryAnnotation) : Go (Attributes F) := do
  let annot ← deref annot
  let fallbackServiceName :=
    match annot.endpoint with
    | some endpoint =>
      if endpoint.serviceName ≠ "" then endpoint.serviceName else st.fallbackServiceName
    | none => st.fallbackServiceName
  let pbAttrib := parseAnnotationValue lib annot.value
  let isLocal := annot.key = "lc"
  let key := if isLocal then "component" else annot.key
  let localComponent := if isLocal then annot.value else st.localComponent
  match st.sMapper.fromAttribute lib key pbAttrib with
  | (sMapper, true) =>
    return { st with sMapper, localComponent, fallbackServiceName }
  | (sMapper, false) =>
    return ⟨sMapper, localComponent, fallbackServiceName, st.attributeMap.insert key pbAttrib⟩

/-- What is returned after the loop. -/
def Attributes.result (st : Attributes F) :
    Option (SpanAttributes F) × Option OpenCensus.Status × String :=
  let status := st.sMapper.ocStatus
  if st.attributeMap.entries.length = 0 then (none, status, "")
  else
    let fallbackServiceName :=
      if st.fallbackServiceName = "" then st.localComponent else st.fallbackServiceName
    (some ⟨some st.attributeMap, 0⟩, status, fallbackServiceName)

def zipkinV1BinAnnotationsToOCAttributes (lib : Library F τ)
    (annots : List (Option BinaryAnnotation)) :
    Go (Option (SpanAttributes F) × Option OpenCensus.Status × String) := do
  if annots.length = 0 then return (none, none, "")
  else return (← annots.foldlM (Attributes.add lib) {}).result

/-! ## Annotations -/

def unknownServiceName : String := "unknown-service"

def epochMicrosecondsToTimestamp (msecs : Int64) : Option Timestamp :=
  if msecs ≤ 0 then none else some ⟨msecs / 1000000, (msecs % 1000000).toInt32 * 1000⟩

/-- `annotationParseResult`. -/
structure ParseResult (F : Type) where
  endpoint : Option Endpoint := none
  timeEvents : Option (TimeEvents F) := none
  kind : SpanKind := .unspecified
  extendedKind : OpenTracingSpanKind := .unspecified
  earlyAnnotationTime : Option Timestamp := none
  lateAnnotationTime : Option Timestamp := none

/-- The variables of the loop in `parseZipkinV1Annotations`. -/
structure Parsing (F : Type) where
  earlyAnnotationTimestamp : Int64 := .maxValue
  lateAnnotationTimestamp : Int64 := .minValue
  res : ParseResult F := {}
  timeEvents : List (TimeEvent F) := []
  spanKindIsSet : Bool := false

/-- The kinds that the value of an annotation stands for, if any. -/
def kindOfValue (value : String) : Option (SpanKind × OpenTracingSpanKind) :=
  if value = "cs" ∨ value = "cr" then some (.client, .client)
  else if value = "ms" then some (.unspecified, .producer)
  else if value = "mr" then some (.unspecified, .consumer)
  else if value = "ss" ∨ value = "sr" then some (.server, .server)
  else none

def endpointName : Option Endpoint → String
  | some endpoint => if endpoint.serviceName ≠ "" then endpoint.serviceName else unknownServiceName
  | none => unknownServiceName

/-- The body of the loop, for an annotation that is there and has a value. -/
def Parsing.read (st : Parsing F) (a : Annotation) : Parsing F :=
  let kinds := kindOfValue a.value
  let endpoint :=
    if st.res.endpoint = none ∧ endpointName a.endpoint ≠ unknownServiceName ∧ kinds.isSome then
      a.endpoint
    else st.res.endpoint
  let res := { st.res with endpoint }
  let (res, spanKindIsSet) :=
    match kinds, st.spanKindIsSet with
    | some (kind, extendedKind), false => ({ res with kind, extendedKind }, true)
    | _, isSet => (res, isSet)
  let ts := epochMicrosecondsToTimestamp a.timestamp
  let (earlyAnnotationTimestamp, res) :=
    if a.timestamp < st.earlyAnnotationTimestamp then
      (a.timestamp, { res with earlyAnnotationTime := ts })
    else (st.earlyAnnotationTimestamp, res)
  let (lateAnnotationTimestamp, res) :=
    if st.lateAnnotationTimestamp < a.timestamp then
      (a.timestamp, { res with lateAnnotationTime := ts })
    else (st.lateAnnotationTimestamp, res)
  let timeEvents :=
    if kinds.isSome then st.timeEvents
    else st.timeEvents ++ [⟨ts, .annotationEvent ⟨some ⟨a.value⟩, none⟩⟩]
  { earlyAnnotationTimestamp, lateAnnotationTimestamp, res, timeEvents, spanKindIsSet }

/-- The body of the loop in `parseZipkinV1Annotations`. -/
def Parsing.add (st : Parsing F) : Option Annotation → Parsing F
  | none => st
  | some a => if a.value = "" then st else st.read a

def parseZipkinV1Annotations (annotations : List (Option Annotation)) : ParseResult F :=
  let st := annotations.foldl Parsing.add ({} : Parsing F)
  let res :=
    if st.timeEvents.length > 0 then
      { st.res with timeEvents := some { timeEvent := st.timeEvents } }
    else st.res
  match res.endpoint with
  | some _ => res
  | none => { res with endpoint := some { serviceName := unknownServiceName } }

/-! ## Spans -/

def setAttribute (attributes : Option (SpanAttributes F)) (k : String) (v : AttributeValue F) :
    SpanAttributes F :=
  let attributes := attributes.getD ⟨none, 0⟩
  { attributes with attributeMap := some ((attributes.attributeMap.getD ∅).insert k v) }

def setSpanKind (ocSpan : Span F) (kind : SpanKind) (extendedKind : OpenTracingSpanKind) : Span F :=
  if kind = .unspecified ∧ extendedKind ≠ .unspecified then
    { ocSpan with
      attributes := some (setAttribute ocSpan.attributes tagSpanKind
        (.string (some ⟨extendedKind.asString⟩))) }
  else ocSpan

def setTimestampsIfUnset (lib : Library F τ) (span : Span F) : Span F :=
  if span.startTime = none then
    { span with
      startTime := some lib.now
      endTime := some lib.now
      attributes := some (setAttribute span.attributes "otel.zipkin.absentField.startTime"
        (.bool true)) }
  else span

/-- The end of `zipkinV1ToOCSpan`, once nothing can fail any more. -/
def buildSpan (lib : Library F τ) (zSpan : ZSpan) (ids : List UInt8 × List UInt8 × List UInt8)
    (parsedAnnotations : ParseResult F) (endpoint : Endpoint)
    (bin : Option (SpanAttributes F) × Option OpenCensus.Status × String) :
    Span F × ParseResult F :=
  let (traceId, spanId, parentSpanId) := ids
  let (attributes, status, localComponent) := bin
  let endpoint :=
    if endpoint.serviceName = unknownServiceName ∧ localComponent ≠ "" then
      { endpoint with serviceName := localComponent }
    else endpoint
  let parsedAnnotations := { parsedAnnotations with endpoint := some endpoint }
  let (startTime, endTime) :=
    if zSpan.timestamp = 0 then
      (parsedAnnotations.earlyAnnotationTime, parsedAnnotations.lateAnnotationTime)
    else (epochMicrosecondsToTimestamp zSpan.timestamp,
      epochMicrosecondsToTimestamp (zSpan.timestamp + zSpan.duration))
  let ocSpan : Span F := {
    traceId
    spanId
    tracestate := none
    parentSpanId
    name := if zSpan.name ≠ "" then some ⟨zSpan.name⟩ else none
    kind := parsedAnnotations.kind
    startTime
    endTime
    attributes
    timeEvents := parsedAnnotations.timeEvents
    links := none
    status
    sameProcessAsParentSpan := none }
  let ocSpan := setSpanKind ocSpan parsedAnnotations.kind parsedAnnotations.extendedKind
  (setTimestampsIfUnset lib ocSpan, parsedAnnotations)

def zipkinV1ToOCSpan (lib : Library F τ) (zSpan : Option ZSpan) :
    Fallible τ (Span F × ParseResult F) := do
  let zSpan ← ExceptT.lift (deref zSpan)
  let ids ← ExceptT.mk (pure (spanIDs zSpan))
  let parsedAnnotations := parseZipkinV1Annotations zSpan.annotations
  let bin ← ExceptT.lift (zipkinV1BinAnnotationsToOCAttributes lib zSpan.binaryAnnotations)
  let endpoint ← ExceptT.lift (deref parsedAnnotations.endpoint)
  return buildSpan lib zSpan ids parsedAnnotations endpoint bin

/-! ## Batches -/

/-- `endpoint.string`. -/
def Endpoint.string (ep : Endpoint) : String :=
  "-".intercalate [ep.serviceName, ep.ipv4, ep.ipv6, toString ep.port.toInt]

/-- `endpoint.createAttributeMap`. -/
def Endpoint.createAttributeMap (ep : Endpoint) : Option (GoMap String String) :=
  if ep.ipv4 = "" ∧ ep.ipv6 = "" ∧ ep.port = 0 then none
  else
    let attributeMap : GoMap String String := ∅
    let attributeMap := if ep.ipv4 ≠ "" then attributeMap.insert "ipv4" ep.ipv4 else attributeMap
    let attributeMap := if ep.ipv6 ≠ "" then attributeMap.insert "ipv6" ep.ipv6 else attributeMap
    some (if ep.port ≠ 0 then attributeMap.insert "port" (toString ep.port.toInt) else attributeMap)

/-- `getOrCreateNodeRequest`; a new request is put into the map with its first span. -/
def getOrCreateNodeRequest (m : GoMap String (ServiceSpans F)) (endpoint : Endpoint) :
    ServiceSpans F :=
  match m.lookup endpoint.string with
  | some req => req
  | none => { name := endpoint.serviceName, attributes := endpoint.createAttributeMap, spans := [] }

/-- The body of the loop in `zipkinToOCProtoBatch`. -/
def addToBatch (svcToTD : GoMap String (ServiceSpans F)) (curr : Span F × ParseResult F) :
    Go (GoMap String (ServiceSpans F)) := do
  let endpoint ← deref curr.2.endpoint
  let req := getOrCreateNodeRequest svcToTD endpoint
  return svcToTD.insert endpoint.string { req with spans := req.spans ++ [curr.1] }

def zipkinToOCProtoBatch (lib : Library F τ) (parsed : List (Span F × ParseResult F)) :
    Go (List (ServiceSpans F)) := do
  let svcToTD ← parsed.foldlM addToBatch ∅
  return (lib.order.order svcToTD.pairs).map Prod.snd

def v1JSONBatchToOCProto (lib : Library F τ) (blob : List UInt8) :
    Fallible τ (List (ServiceSpans F)) := do
  let zSpans ← ExceptT.mk (pure (wrapped "zipkinv1" (lib.unmarshal blob)))
  let parsed ← zSpans.mapM (zipkinV1ToOCSpan lib)
  ExceptT.lift (zipkinToOCProtoBatch lib parsed)

/-! ## Which bodies crash it -/

variable (lib : Library F τ)

theorem returns_add_iff (st : Attributes F) (b : Option BinaryAnnotation) :
    Returns (st.add lib b) ↔ b ≠ none := by
  cases b with
  | none => exact iff_of_false (not_returns_error _) (not_not.2 rfl)
  | some b =>
    refine iff_of_true ?_ (Option.some_ne_none b)
    simp only [Attributes.add, deref_some, ok_bind]
    split
    all_goals exact returns_ok _

theorem returns_binAnnotations_iff (l : List (Option BinaryAnnotation)) :
    Returns (zipkinV1BinAnnotationsToOCAttributes lib l) ↔ none ∉ l := by
  have hloop : Returns (l.foldlM (Attributes.add lib) {}) ↔ none ∉ l := by
    rw [returns_foldlM (returns_add_iff lib)]
    exact ⟨fun h hnone => h none hnone rfl, fun h a ha hnone => h (hnone ▸ ha)⟩
  unfold zipkinV1BinAnnotationsToOCAttributes
  split
  case isTrue hempty =>
    rw [List.length_eq_zero_iff.1 hempty]
    exact iff_of_true (returns_ok _) List.not_mem_nil
  case isFalse =>
    exact returns_bind_pure.trans hloop

theorem endpoint_parseZipkinV1Annotations (annotations : List (Option Annotation)) :
    ∃ endpoint,
      (parseZipkinV1Annotations annotations : ParseResult F).endpoint = some endpoint := by
  unfold parseZipkinV1Annotations
  dsimp only
  split
  case h_1 endpoint h => exact ⟨endpoint, h⟩
  case h_2 => exact ⟨_, rfl⟩

def HasEndpoint (r : Span F × ParseResult F) : Prop := r.2.endpoint ≠ none

theorem run_zipkinV1ToOCSpan (z : ZSpan) : (zipkinV1ToOCSpan lib (some z)).run =
      match spanIDs z with
      | .error err => .ok (.error err)
      | .ok ids => do
        let bin ← zipkinV1BinAnnotationsToOCAttributes lib z.binaryAnnotations
        let endpoint ← deref (parseZipkinV1Annotations (F := F) z.annotations).endpoint
        return .ok (buildSpan lib z ids (parseZipkinV1Annotations z.annotations) endpoint bin) := by
  show (ExceptT.mk (pure (spanIDs z) : Go _) >>= _).run = _
  cases spanIDs (τ := τ) z with
  | error err => rfl
  | ok ids =>
    show (ExceptT.lift (zipkinV1BinAnnotationsToOCAttributes lib z.binaryAnnotations) >>= _).run = _
    cases zipkinV1BinAnnotationsToOCAttributes lib z.binaryAnnotations with
    | error crash => rfl
    | ok bin =>
      cases (parseZipkinV1Annotations (F := F) z.annotations).endpoint with
      | none | some => rfl

/-- A span that is there is refused or translated, unless its identifiers are accepted and one of
its binary annotations is nil. -/
theorem zipkinV1ToOCSpan_cases (z : ZSpan) :
    (∃ err, spanIDs z = .error err ∧ (zipkinV1ToOCSpan lib (some z)).run = .ok (.error err)) ∨
      Returns (spanIDs (τ := τ) z) ∧ (none ∈ z.binaryAnnotations ∧
          ¬Returns (zipkinV1ToOCSpan lib (some z)).run ∨
        none ∉ z.binaryAnnotations ∧ ∃ r, (zipkinV1ToOCSpan lib (some z)).run = .ok (.ok r) ∧
          HasEndpoint r) := by
  rw [run_zipkinV1ToOCSpan]
  cases spanIDs (τ := τ) z with
  | error err => exact .inl ⟨err, rfl, rfl⟩
  | ok ids =>
    refine .inr ⟨returns_ok ids, ?_⟩
    obtain ⟨endpoint, hendpoint⟩ := endpoint_parseZipkinV1Annotations (F := F) z.annotations
    have hread := returns_binAnnotations_iff lib z.binaryAnnotations
    rw [hendpoint]
    cases hbin : zipkinV1BinAnnotationsToOCAttributes lib z.binaryAnnotations with
    | error crash =>
      rw [hbin] at hread
      exact .inl ⟨not_not.1 fun h => not_returns_error crash (hread.2 h), not_returns_error crash⟩
    | ok bin =>
      rw [hbin] at hread
      exact .inr ⟨hread.1 (returns_ok bin), _, rfl, Option.some_ne_none _⟩

/-- Nothing nil is read: the spans up to the first whose identifiers are refused are there, and so
are the binary annotations of those before it. -/
def Safe (τ : Type) : List (Option ZSpan) → Prop
  | [] => True
  | none :: _ => False
  | some z :: zSpans => Returns (spanIDs (τ := τ) z) → none ∉ z.binaryAnnotations ∧ Safe τ zSpans

theorem mapM_not_returns {zSpans : List (Option ZSpan)}
    (h : ¬Safe τ zSpans) : ¬Returns (zSpans.mapM (zipkinV1ToOCSpan lib)).run := by
  induction zSpans with
  | nil => exact absurd trivial h
  | cons zSpan zSpans ih =>
    rw [List.mapM_cons]
    cases zSpan with
    | none => exact fun hret => not_returns_error _ (returns_of_run_bind hret)
    | some z =>
      rcases zipkinV1ToOCSpan_cases lib z with ⟨err, hids, -⟩ | ⟨hids, hcrash | ⟨hbin, r, hrun, -⟩⟩
      · exact absurd (fun hret => absurd (hids ▸ hret) (not_returns_error err)) h
      · exact fun hret => hcrash.2 (returns_of_run_bind hret)
      · have hrest : ¬Safe τ zSpans := fun hsafe => h fun _ => ⟨hbin, hsafe⟩
        rw [run_bind_ok hrun]
        exact fun hret => ih hrest (returns_of_run_bind hret)

theorem mapM_ends {zSpans : List (Option ZSpan)} (h : Safe τ zSpans) :
    Ends (zSpans.mapM (zipkinV1ToOCSpan lib)) fun rs => ∀ r ∈ rs, HasEndpoint r := by
  induction zSpans with
  | nil => exact .done [] rfl (by simp)
  | cons zSpan zSpans ih =>
    rw [List.mapM_cons]
    cases zSpan with
    | none => exact h.elim
    | some z =>
      rcases zipkinV1ToOCSpan_cases lib z with ⟨err, -, hrun⟩ | ⟨hids, hcrash | ⟨-, r, hrun, hr⟩⟩
      · exact .refused err (run_bind_refused hrun _)
      · exact absurd hcrash.1 (h hids).1
      · cases ih (h hids).2 with
        | refused err hrest =>
          exact .refused err ((run_bind_ok hrun _).trans (run_bind_refused hrest _))
        | done rs hrest hrs =>
          exact .done (r :: rs) ((run_bind_ok hrun _).trans (run_bind_ok hrest _))
            (List.forall_mem_cons.2 ⟨hr, hrs⟩)

theorem returns_zipkinToOCProtoBatch {parsed : List (Span F × ParseResult F)}
    (h : ∀ r ∈ parsed, HasEndpoint r) : Returns (zipkinToOCProtoBatch lib parsed) := by
  have hbody : ∀ (m : GoMap String (ServiceSpans F)) (r : Span F × ParseResult F),
      Returns (addToBatch m r) ↔ HasEndpoint r := by
    intro m r
    unfold addToBatch HasEndpoint
    cases r.2.endpoint with
    | none => exact iff_of_false (not_returns_error _) (not_not.2 rfl)
    | some endpoint => exact iff_of_true (returns_ok _) (Option.some_ne_none _)
  exact returns_bind_pure.2 ((returns_foldlM hbody).2 h)

/-- The translation of a body returns exactly if the body does not decode, or nothing nil is
read. -/
theorem v1_returns_iff (lib : Library F τ) (blob : List UInt8) :
    Returns (v1JSONBatchToOCProto lib blob).run ↔
      ∀ zSpans, lib.unmarshal blob = .ok zSpans → Safe τ zSpans := by
  unfold v1JSONBatchToOCProto
  cases hbody : lib.unmarshal blob with
  | error err => exact iff_of_true ⟨.error (.wrap "zipkinv1: " err), rfl⟩ (by simp)
  | ok zSpans =>
    have hdecoded : (ExceptT.mk (pure (wrapped "zipkinv1" (.ok zSpans)) :
        Go (Except (GoError τ) _))).run = .ok (.ok zSpans) := rfl
    rw [run_bind_ok hdecoded]
    constructor
    · rintro hret _ ⟨⟩
      by_contra hunsafe
      exact mapM_not_returns lib hunsafe (returns_of_run_bind hret)
    · intro hsafe
      cases mapM_ends lib (hsafe zSpans rfl) with
      | refused err h => exact ⟨_, run_bind_refused h _⟩
      | done rs h hrs =>
        obtain ⟨tds, htds⟩ := returns_zipkinToOCProtoBatch lib hrs
        rw [run_bind_ok h, htds]
        exact ⟨.ok tds, rfl⟩

/-- The library that decodes this body to these spans. -/
def decoding (body : String) (zSpans : List (Option ZSpan)) : Library Int Unit where
  unmarshal blob := if blob = body.toUTF8.data.toList then .ok zSpans else .error (.new "")
  parseInt _ := 0
  parseFloat _ := 0
  atoi _ := none
  now := ⟨0, 0⟩
  order := .stored

def spanWith (binaryAnnotations : List (Option BinaryAnnotation)) : ZSpan where
  traceID := "0000000000000001"
  name := "span"
  parentID := ""
  id := "0000000000000002"
  timestamp := 1
  duration := 1
  annotations := [none]
  binaryAnnotations := binaryAnnotations

/-- A span whose annotation is null, and so is its binary annotation. -/
def nullAnnotations : String :=
  "[\x7b\"traceId\":\"0000000000000001\",\"name\":\"span\",\"id\":\"0000000000000002\"," ++
    "\"timestamp\":1,\"duration\":1,\"annotations\":[null],\"binaryAnnotations\":[null]\x7d]"

/-- A body whose only span is null, and one whose only binary annotation is. -/
theorem null_crashes :
    (v1JSONBatchToOCProto (decoding "[null]" [none]) "[null]".toUTF8.data.toList).run =
        .error .nilDereference ∧
      (v1JSONBatchToOCProto (decoding nullAnnotations [some (spanWith [none])])
        nullAnnotations.toUTF8.data.toList).run = .error .nilDereference := by
  constructor
  all_goals
    simp only [v1JSONBatchToOCProto, decoding, if_true]
    rfl

end Collector.Zipkin.V1
