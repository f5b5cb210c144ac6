import Mathlib.Data.List.ReduceOption
import Collector.OpenCensus.Traces
import Collector.Pdata.Traces

/-!
# From the internal traces to OpenCensus

`translator/internaldata/traces_to_oc.go` and `resource_to_oc.go`. `Get` of an attribute map
returns an invalid value where the key is missing, and reading it dereferences nil.
-/

namespace Collector.OpenCensus

open Pdata (AnyValue KeyValue AttributeMap SpanEvent SpanLink SpanStatus LibraryItems
  ResourceItems SpanTraces)

/-- What the translation takes from the standard library and from the tables that are generated
for OpenCensus. -/
structure Tables where
  /-- `%q`. -/
  quote : String → String
  /-- `strconv.Atoi`. -/
  atoi : String → Option Int
  /-- `time.Parse` with the layout `RFC3339Nano`. -/
  parseTime : String → Option Timestamp
  /-- `LibraryInfo_Language_value`. -/
  languageValue : String → Option Int32
  /-- `Span_TimeEvent_MessageEvent_Type_value`. -/
  messageEventTypeValue : String → Option Int32

variable {F : Type}

/-! ## Resources -/

mutual
def attributeValueToString [GoFloat F] (t : Tables) : AnyValue F → Bool → String
  | .nil, jsonLike | .null, jsonLike => if jsonLike then "null" else ""
  | .string s, jsonLike => if jsonLike then t.quote s else s
  | .bool b, _ => if b then "true" else "false"
  | .double x, _ => GoFloat.formatFloat x
  | .int n, _ => toString n.toInt
  | .kvlistNil, _ => "\x7b\x7d"
  | .kvlist kvs, _ => "\x7b" ++ ",".intercalate (entriesToStrings t kvs) ++ "\x7d"
  | .arrayNil, _ => "[]"
  | .array vs, _ => "[" ++ ",".intercalate (elementsToStrings t vs) ++ "]"

def entriesToStrings [GoFloat F] (t : Tables) : List (KeyValue F) → List String
  | [] => []
  | .nil :: kvs => entriesToStrings t kvs
  | .mk k v :: kvs =>
    (t.quote k ++ ":" ++ attributeValueToString t v true) :: entriesToStrings t kvs

def elementsToStrings [GoFloat F] (t : Tables) : List (AnyValue F) → List String
  | [] => []
  | v :: vs => attributeValueToString t v true :: elementsToStrings t vs
end

def labelPresenceToResourceType : List (String × String) :=
  [("container.name", "container"), ("k8s.pod.name", "k8s"), ("host.name", "host"),
    ("cloud.provider", "cloud")]

def inferResourceType (labels : GoMap String String) : Option String :=
  (labelPresenceToResourceType.find? fun mapping => (labels.lookup mapping.1).isSome).map Prod.snd

/-- What the loop of `internalResourceToOC` has filled so far. -/
structure Filled where
  node : Node := {}
  type : String := ""
  labels : GoMap String String := ∅

def Filled.identify (st : Filled) (f : ProcessIdentifier → ProcessIdentifier) : Filled :=
  { st with node := { st.node with identifier := some (f (st.node.identifier.getD {})) } }

def Filled.describe (st : Filled) (f : LibraryInfo → LibraryInfo) : Filled :=
  { st with node := { st.node with libraryInfo := some (f (st.node.libraryInfo.getD {})) } }

/-- The body of the loop, for an attribute and its text. -/
def Filled.add (t : Tables) (st : Filled) (k val : String) : Filled :=
  match k with
  | "opencensus.resourcetype" => { st with type := val }
  | "service.name" => { st with node := { st.node with serviceInfo := some { name := val } } }
  | "opencensus.starttime" =>
    match t.parseTime val with
    | none => st
    | some ts => st.identify fun id => { id with startTimestamp := some ts }
  | "host.hostname" => st.identify fun id => { id with hostName := val }
  | "opencensus.pid" => st.identify fun id => { id with pid := .ofInt ((t.atoi val).getD 0) }
  | "telemetry.sdk.version" => st.describe fun info => { info with coreLibraryVersion := val }
  | "opencensus.exporterversion" => st.describe fun info => { info with exporterVersion := val }
  | "telemetry.sdk.language" =>
    match t.languageValue val with
    | none => st
    | some code => st.describe fun info => { info with language := code }
  | _ => { st with labels := st.labels.insert k val }

def internalResourceToOC [GoFloat F] (t : Tables) :
    Pdata.ResourceAttributes F → Option Node × Option Resource
  | none => (none, none)
  | some [] => (some {}, some {})
  | some attrs =>
    let st := attrs.foldl (fun st kv =>
      match kv with
      | .nil => st
      | .mk k v => st.add t k (attributeValueToString t v false)) ({} : Filled)
    let type := if st.type = "" then (inferResourceType st.labels).getD "" else st.type
    (some st.node, some { type, labels := some st.labels })

/-! ## Parts of a span -/

/-- `internal.UnixNanoToTimestamp`. -/
def unixNanoToTimestamp (u : UInt64) : Option Timestamp :=
  if u = 0 then none
  else
    let nanos := u.toInt64.toInt
    some ⟨.ofInt (nanos / 1000000000), .ofInt (nanos % 1000000000)⟩

def stringToTruncatableString (str : String) : Option TruncatableString :=
  if str = "" then none else some ⟨str⟩

def attributeValueToOC (attr : AnyValue F) : AttributeValue F :=
  match attr with
  | .string s => .string (stringToTruncatableString s)
  | .bool b => .bool b
  | .double x => .double x
  | .int n => .int n
  | _ => .string (stringToTruncatableString
      ("<Unknown OpenTelemetry attribute value type " ++ quoted attr.type.asString ++ ">"))

/-- `attributesMapToOCAttributeMap`: nil where there are no attributes. -/
def attributesMapToOCAttributeMap (attributes : AttributeMap F) :
    Option (GoMap String (AttributeValue F)) :=
  if attributes.length = 0 then none
  else some (attributes.foldl (fun m kv =>
    match kv with
    | .nil => m
    | .mk k v => m.insert k (attributeValueToOC v)) ∅)

def attributesMapToOCSpanAttributes (attributes : AttributeMap F) (droppedCount : UInt32) :
    Option (SpanAttributes F) :=
  if attributes.length = 0 ∧ droppedCount = 0 then none
  else some ⟨attributesMapToOCAttributeMap attributes, droppedCount.toInt32⟩

/-- `tracetranslator.TagSpanKind`. -/
def tagSpanKind : String := "span.kind"

def spanKindToOCAttribute : Pdata.SpanKind → Option (AttributeValue F)
  | .consumer => some (.string (stringToTruncatableString "consumer"))
  | .producer => some (.string (stringToTruncatableString "producer"))
  | .internal => some (.string (stringToTruncatableString "internal"))
  | _ => none

def spanKindToOC : Pdata.SpanKind → SpanKind
  | .server => .server
  | .client => .client
  | _ => .unspecified

def attributesMapToOCSameProcessAsParentSpan (attr : AttributeMap F) : Option Bool :=
  match attr.get "opencensus.same_process_as_parent_span" with
  | some (.bool b) => some b
  | _ => none

/-- `strings.SplitN(pair, "=", 2)`. -/
def splitPair (pair : List Char) : List String :=
  match pair.span (· ≠ '=') with
  | (key, []) => [.ofList key]
  | (key, _ :: val) => [.ofList key, .ofList val]

def traceStateToOC (traceState : String) : Option Tracestate :=
  if traceState = "" then none
  else some ⟨(traceState.toList.splitOn ',').filterMap fun pair =>
    match splitPair pair with
    | [] => none
    | key :: rest => some ⟨key, rest.headD ""⟩⟩

def statusToOC (status : Option SpanStatus) : Option Status :=
  status.map fun s => ⟨s.code, s.message⟩

/-! ## Events and links -/

def ocMessageEventAttrs : List String :=
  ["opencensus.timeevent.messageevent.type", "opencensus.timeevent.messageevent.id",
    "opencensus.timeevent.messageevent.usize", "opencensus.timeevent.messageevent.csize"]

/-- The message event of `eventToOC`, from values that are read without asking whether they were
found. -/
def messageEventToOC (t : Tables) (attrs : AttributeMap F) : Go MessageEvent := do
  let type ← deref (attrs.get "opencensus.timeevent.messageevent.type")
  let id ← deref (attrs.get "opencensus.timeevent.messageevent.id")
  let usize ← deref (attrs.get "opencensus.timeevent.messageevent.usize")
  let csize ← deref (attrs.get "opencensus.timeevent.messageevent.csize")
  return {
    type := (t.messageEventTypeValue type.stringVal).getD 0
    id := id.intVal.toUInt64
    uncompressedSize := usize.intVal.toUInt64
    compressedSize := csize.intVal.toUInt64 }

def eventToOC (t : Tables) (event : SpanEvent F) : Go (TimeEvent F) :=
  if event.attributes.length = ocMessageEventAttrs.length ∧
      ocMessageEventAttrs.any (fun attr => (event.attributes.get attr).isSome) = true then do
    let m ← messageEventToOC t event.attributes
    return { time := unixNanoToTimestamp event.timestamp, value := .messageEvent m }
  else .ok {
    time := unixNanoToTimestamp event.timestamp
    value := .annotationEvent {
      description := stringToTruncatableString event.name
      attributes :=
        attributesMapToOCSpanAttributes event.attributes event.droppedAttributesCount } }

def eventsToOC (t : Tables) (events : List (Option (SpanEvent F))) (droppedCount : UInt32) :
    Go (Option (TimeEvents F)) :=
  if events.length = 0 then
    if droppedCount = 0 then .ok none
    else .ok (some { timeEvent := [], droppedMessageEventsCount := droppedCount.toInt32 })
  else do
    let ocEvents ← events.mapM fun event => do eventToOC t (← deref event)
    return some { timeEvent := ocEvents, droppedAnnotationsCount := droppedCount.toInt32 }

/-- The body of the loop in `linksToOC`. -/
def linkToOC (link : SpanLink F) : Link F where
  traceId := link.traceId
  spanId := link.spanId
  tracestate := traceStateToOC link.traceState
  attributes := attributesMapToOCSpanAttributes link.attributes link.droppedAttributesCount

def linksToOC (links : List (Option (SpanLink F))) (droppedCount : UInt32) :
    Go (Option (Links F)) :=
  if links.length = 0 then
    if droppedCount = 0 then .ok none
    else .ok (some { link := [], droppedLinksCount := droppedCount.toInt32 })
  else do
    let ocLinks ← links.mapM fun link => do return linkToOC (← deref link)
    return some { link := ocLinks, droppedLinksCount := droppedCount.toInt32 }

/-! ## Spans -/

/-- The attributes of `spanToOC`, with the one for the kind. -/
def spanAttributesToOC (span : Pdata.Span F) : Go (Option (SpanAttributes F)) :=
  let attributes := attributesMapToOCSpanAttributes span.attributes span.droppedAttributesCount
  match spanKindToOCAttribute span.kind with
  | none => .ok attributes
  | some kindAttr => do
    let attributes := attributes.getD ⟨some ∅, 0⟩
    let attributeMap ← mapWrite attributes.attributeMap tagSpanKind kindAttr
    return some { attributes with attributeMap := some attributeMap }

def spanToOC (t : Tables) (span : Pdata.Span F) : Go (Span F) := do
  let attributes ← spanAttributesToOC span
  let timeEvents ← eventsToOC t span.events span.droppedEventsCount
  let links ← linksToOC span.links span.droppedLinksCount
  return {
    traceId := span.traceId
    spanId := span.spanId
    tracestate := traceStateToOC span.traceState
    parentSpanId := span.parentSpanId
    name := stringToTruncatableString span.name
    kind := spanKindToOC span.kind
    startTime := unixNanoToTimestamp span.startTime
    endTime := unixNanoToTimestamp span.endTime
    attributes, timeEvents, links
    status := statusToOC span.status
    sameProcessAsParentSpan := attributesMapToOCSameProcessAsParentSpan span.attributes }

/-- The inner loop of `ResourceSpansToOC`, which passes over what is nil. -/
def librarySpansToOC (t : Tables) (ils : Option (LibraryItems (Option (Pdata.Span F)))) :
    Go (List (Span F)) :=
  match ils with
  | none => .ok []
  | some ils => ils.items.reduceOption.mapM (spanToOC t)

def resourceSpansToOC [GoFloat F] (t : Tables)
    (rs : ResourceItems (Pdata.ResourceAttributes F) (Option (Pdata.Span F))) : Go (TraceData F) :=
  let translated := internalResourceToOC t rs.resource
  let ocTraceData : TraceData F :=
    { node := translated.1, resource := translated.2, sourceFormat := "otlp_trace" }
  match rs.libraries with
  | [] => .ok ocTraceData
  | first :: _ => do
    -- the capacity of the result is the number of spans of the first library
    let _ ← deref first
    let ocSpans ← rs.libraries.mapM (librarySpansToOC t)
    return { ocTraceData with spans := ocSpans.flatten }

def traceDataToOC [GoFloat F] (t : Tables) (td : SpanTraces F) : Go (List (TraceData F)) :=
  td.reduceOption.mapM (resourceSpansToOC t)

end Collector.OpenCensus
