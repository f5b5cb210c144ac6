import Collector.Zipkin.ToInternal

/-!
# From the internal traces to Zipkin v2

`translator/trace/zipkin/traces_to_zipkinv2.go`. The spans that are returned along with an error
are left out.
-/

namespace Collector.Zipkin

open Pdata (AnyValue KeyValue AttributeMap SpanEvent SpanLink SpanKind)
open Translator

/-- What the translation takes from the standard library. -/
structure Printer (F τ : Type) where
  /-- `%q`. -/
  quote : String → String
  /-- `json.Marshal` of a map of scalars. -/
  marshal : GoMap String (AnyValue F) → Except (GoError τ) String
  /-- `hex.EncodeToString`. -/
  hexEncode : List UInt8 → String
  /-- `net.ParseIP`. -/
  parseIP : String → Option (List UInt8)
  /-- The value that `strconv.ParseUint(s, 10, 16)` returns, with or without an error. -/
  parsePort : String → UInt16

variable {F τ : Type}

/-! ## Resources and libraries -/

/-- `extractZipkinServiceName`, with the tags that are left. -/
def extractZipkinServiceName (zTags : GoMap String String) : String × GoMap String String :=
  match zTags.lookup "service.name" with
  | some sn => (sn, zTags.erase "service.name")
  | none =>
    match zTags.lookup "faas.name" with
    | some fn => (fn, (zTags.erase "faas.name").insert tagServiceNameSource "faas.name")
    | none =>
      match zTags.lookup "k8s.deployment.name" with
      | some fn =>
        (fn, (zTags.erase "k8s.deployment.name").insert tagServiceNameSource "k8s.deployment.name")
      | none =>
        match zTags.lookup "process.executable.name" with
        | some fn =>
          (fn, (zTags.erase "process.executable.name").insert tagServiceNameSource
            "process.executable.name")
        | none => (resourceNoServiceName, zTags)

def resourceToZipkinEndpointServiceNameAndAttributeMap [GoFloat F] (lib : Printer F τ) :
    Pdata.ResourceAttributes F → String × GoMap String String
  | none => (resourceNotSet, ∅)
  | some [] => (resourceNoAttrs, ∅)
  | some attrs =>
    extractZipkinServiceName (attrs.foldl (fun zTags kv =>
      match kv with
      | .nil => zTags
      | .mk k v => zTags.insert k (attributeValueToString lib.quote v false)) ∅)

def extractInstrumentationLibraryTags (il : Option Pdata.InstrumentationLibrary)
    (zTags : GoMap String String) : GoMap String String :=
  match il with
  | none => zTags
  | some il =>
    let zTags := if il.name ≠ "" then zTags.insert tagInstrumentationName il.name else zTags
    if il.version ≠ "" then zTags.insert tagInstrumentationVersion il.version else zTags

/-! ## Parts of a span -/

/-- The text that `attributeMapToStringMap` gives an attribute, if any. -/
def tagText [GoFloat F] : AnyValue F → Option String
  | .string s => some s
  | .int n => some (toString n.toInt)
  | .double x => some (GoFloat.formatFloat x)
  | .bool b => some (if b then "true" else "false")
  | .nil | .null => some ""
  | .kvlistNil | .kvlist _ | .arrayNil | .array _ => none

def attributeMapToStringMap [GoFloat F] (attrMap : AttributeMap F) : GoMap String String :=
  attrMap.foldl (fun rawMap kv =>
    match kv with
    | .nil => rawMap
    | .mk k v => match tagText v with
      | some text => rawMap.insert k text
      | none => rawMap) ∅

/-- `attributeMapToMap`; the values are those of the attributes. -/
def attributeMapToMap (attrMap : AttributeMap F) : GoMap String (AnyValue F) :=
  attrMap.foldl (fun rawMap kv =>
    match kv with
    | .nil => rawMap
    | .mk k v => match v with
      | .string _ | .int _ | .double _ | .bool _ => rawMap.insert k v
      | .nil | .null => rawMap.insert k .null
      | .kvlistNil | .kvlist _ | .arrayNil | .array _ => rawMap) ∅

/-- `aggregateSpanTags`: the tags of the span over those of its resource. -/
def aggregateSpanTags [GoFloat F] (span : Pdata.Span F) (zTags : GoMap String String) :
    GoMap String String :=
  (attributeMapToStringMap span.attributes).pairs.foldl (fun tags tag => tags.insert tag.1 tag.2)
    zTags

def spanKindToZipkinKind : SpanKind → Kind
  | .client => .client
  | .server => .server
  | .producer => .producer
  | .consumer => .consumer
  | _ => .undetermined

/-- `Status_StatusCode.String`. -/
def statusCodeName (code : Int32) : String :=
  if 0 ≤ code ∧ code < 17 then statusCodeNames.getD code.toInt.toNat "" else toString code.toInt

def isIPv6Address (ipStr : String) : Bool := ipStr.toList.contains ':'

/-- `zipkinEndpointFromTags`: the endpoint, and `redundantKeys` with the keys it was made from. -/
def zipkinEndpointFromTags (lib : Printer F τ) (zTags : GoMap String String)
    (localServiceName : String) (remoteEndpoint : Bool) (redundantKeys : List String) :
    Option Endpoint × List String :=
  let (serviceName, redundantKeys) :=
    match zTags.lookup "peer.service", remoteEndpoint with
    | some peerSvc, true => (peerSvc, "peer.service" :: redundantKeys)
    | _, _ => (localServiceName, redundantKeys)
  let ipKey := if remoteEndpoint then "net.peer.ip" else "net.host.ip"
  let portKey := if remoteEndpoint then "net.peer.port" else "net.host.port"
  let (ip, ipv6Selected, redundantKeys) :=
    match zTags.lookup ipKey with
    | some ipStr => (lib.parseIP ipStr, isIPv6Address ipStr, ipKey :: redundantKeys)
    | none => (none, false, redundantKeys)
  let (port, redundantKeys) :=
    match zTags.lookup portKey with
    | some portStr => (lib.parsePort portStr, portKey :: redundantKeys)
    | none => (0, redundantKeys)
  if serviceName = "" ∧ ip = none then (none, redundantKeys)
  else if ipv6Selected then (some { serviceName, port, ipv6 := ip }, redundantKeys)
  else (some { serviceName, port, ipv4 := ip }, redundantKeys)

def removeRedundentTags (redundantKeys : List String) (zTags : GoMap String String) :
    GoMap String String :=
  redundantKeys.foldl (fun zTags k => zTags.erase k) zTags

/-- The body of the loop in `spanEventsToZipkinAnnotations`; a nil event leaves the annotation that
the slice was made with. -/
def annotationOfEvent (lib : Printer F τ) :
    Option (SpanEvent F) → Except (GoError τ) Annotation
  | none => .ok { timestamp := Time.zero, value := "" }
  | some event =>
    let timestamp := unixNanoToTime event.timestamp
    if event.attributes.length = 0 ∧ event.droppedAttributesCount = 0 then
      .ok { timestamp, value := event.name }
    else do
      let jsonStr ← lib.marshal (attributeMapToMap event.attributes)
      let value := "|".intercalate
        [event.name, jsonStr, toString event.droppedAttributesCount.toNat]
      return { timestamp, value }

def spanEventsToZipkinAnnotations (lib : Printer F τ) (events : List (Option (SpanEvent F))) :
    Except (GoError τ) (List Annotation) :=
  events.mapM (annotationOfEvent lib)

/-- The body of the loop in `spanLinksToZipkinTags`. -/
def addLinkTag (lib : Printer F τ) (zTags : GoMap String String)
    (link : Option (SpanLink F) × Nat) : Except (GoError τ) (GoMap String String) :=
  match link.1 with
  | none => .ok zTags
  | some l => do
    let jsonStr ← lib.marshal (attributeMapToMap l.attributes)
    return zTags.insert (linkKey link.2) ("|".intercalate
      [lib.hexEncode l.traceId, lib.hexEncode l.spanId, l.traceState, jsonStr,
        toString l.droppedAttributesCount.toNat])

def spanLinksToZipkinTags (lib : Printer F τ) (links : List (Option (SpanLink F)))
    (zTags : GoMap String String) : Except (GoError τ) (GoMap String String) :=
  links.zipIdx.foldlM (addLinkTag lib) zTags

/-- The tags for the status in `spanToZipkinSpan`. -/
def addStatusTags (status : Option Pdata.SpanStatus) (tags : GoMap String String) :
    GoMap String String :=
  match status with
  | none => tags
  | some status =>
    let tags := tags.insert tagStatusCode (statusCodeName status.code)
    if status.message ≠ "" then tags.insert tagStatusMsg status.message else tags

/-- The error of the span in `spanToZipkinSpan`. -/
def statusErr : Option Pdata.SpanStatus → Option String
  | none => none
  | some status => if status.message ≠ "" ∧ 0 < status.code then some status.message else none

/-- The parent in `spanToZipkinSpan`. -/
def parentToZipkin (parentSpanID : List UInt8) : Except (GoError τ) (Option UInt64) :=
  if parentSpanID.length > 0 then do return some (← bytesToUInt64SpanID parentSpanID)
  else .ok none

/-! ## Spans -/

/-- `spanToZipkinSpan`, of a span that is there. -/
def spanToZipkinSpan [GoFloat F] (lib : Printer F τ) (span : Pdata.Span F)
    (localServiceName : String) (zTags : GoMap String String) :
    Except (GoError τ) SpanModel := do
  let tags := aggregateSpanTags span zTags
  let (high, low) ← bytesToUInt64TraceID span.traceId
  let id ← bytesToUInt64SpanID span.spanId
  let tags := if span.traceState ≠ "" then tags.insert tagW3CTraceState span.traceState else tags
  let parentId ← parentToZipkin span.parentSpanId
  let tags := if span.kind = .internal then tags.insert tagSpanKind "internal" else tags
  let (localEndpoint, redundantKeys) := zipkinEndpointFromTags lib tags localServiceName false []
  let (remoteEndpoint, redundantKeys) := zipkinEndpointFromTags lib tags "" true redundantKeys
  let tags := addStatusTags span.status (removeRedundentTags redundantKeys tags)
  let annotations ← spanEventsToZipkinAnnotations lib span.events
  let tags ← spanLinksToZipkinTags lib span.links tags
  return {
    traceId := ⟨high, low⟩
    id
    parentId
    sampled := some true
    err := statusErr span.status
    name := span.name
    kind := spanKindToZipkinKind span.kind
    timestamp := unixNanoToTime span.startTime
    duration := if span.endTime ≠ 0 then (span.endTime - span.startTime).toInt64 else 0
    localEndpoint
    remoteEndpoint
    annotations
    tags }

/-- The body of the loop over the spans; a nil span is read at once. -/
def elementToZipkinSpan [GoFloat F] (lib : Printer F τ) (localServiceName : String)
    (zTags : GoMap String String) (span : Option (Pdata.Span F)) : Fallible τ SpanModel :=
  ExceptT.mk (deref span >>= fun span =>
    pure (spanToZipkinSpan lib span localServiceName zTags))

/-- The body of the loop over the libraries. The tags of one library are left for the next. -/
def addLibrary [GoFloat F] (lib : Printer F τ) (localServiceName : String)
    (st : GoMap String String × List SpanModel)
    (ils : Option (LibrarySpans (Option (Pdata.Span F)))) :
    Fallible τ (GoMap String String × List SpanModel) :=
  match ils with
  | none => pure st
  | some ils => do
    let zTags := extractInstrumentationLibraryTags ils.library st.1
    let zSpans ← ils.spans.mapM (elementToZipkinSpan lib localServiceName zTags)
    return (zTags, st.2 ++ zSpans)

/-- The spans of the internal traces, with whatever may be nil. -/
abbrev InternalSpans (F : Type) := ResourceSpans F (Option (LibrarySpans (Option (Pdata.Span F))))

def resourceSpansToZipkinSpans [GoFloat F] (lib : Printer F τ) (rs : InternalSpans F) :
    Fallible τ (List SpanModel) :=
  if rs.resource.isNone ∧ rs.libraries.length = 0 then pure []
  else do
    let (localServiceName, zTags) :=
      resourceToZipkinEndpointServiceNameAndAttributeMap lib rs.resource
    let (_, zSpans) ← rs.libraries.foldlM (addLibrary lib localServiceName) (zTags, [])
    return zSpans

def addResource [GoFloat F] (lib : Printer F τ) (zSpans : List SpanModel)
    (rs : Option (InternalSpans F)) : Fallible τ (List SpanModel) :=
  match rs with
  | none => pure zSpans
  | some rs => return zSpans ++ (← resourceSpansToZipkinSpans lib rs)

def internalTracesToZipkinSpans [GoFloat F] (lib : Printer F τ)
    (td : List (Option (InternalSpans F))) : Go (Except (GoError τ) (List SpanModel)) :=
  (td.foldlM (addResource lib) [] : Fallible τ (List SpanModel)).run

end Collector.Zipkin
