import Mathlib.Data.String.Basic
import Collector.Translator.Common
import Collector.Zipkin.Spans

/-!
# From Zipkin v2 to the internal traces

`translator/trace/zipkin/zipkinv2_to_traces.go`. The traces that are returned along with an error
are left out.
-/

namespace Collector.Zipkin

open Pdata
  (AnyValue AttributeMap AttributeValueType SpanEvent SpanLink SpanStatus SpanKind)
open Translator

/-! ## What comes from elsewhere -/

/-- A value that `json.Unmarshal` puts into an `interface{}`. -/
inductive Json (F : Type) where
  | string (s : String)
  | number (x : F)
  | bool (b : Bool)
  /-- Null, an array or an object. -/
  | other

/-- What the translation takes from the standard library. -/
structure Library (F τ : Type) where
  /-- `hex.DecodeString`. -/
  hexDecode : String → Except (GoError τ) (List UInt8)
  /-- `json.Unmarshal` into a map: its entries in the order in which a `range` visits them. -/
  unmarshal : String → Except (GoError τ) (List (String × Json F))
  /-- `strconv.ParseUint(s, 10, 32)`. -/
  parseUint32 : String → Except (GoError τ) UInt32
  /-- The value that `strconv.ParseInt(s, 10, 64)` returns, with or without an error. -/
  parseInt : String → Int64
  /-- The value that `strconv.ParseFloat(s, 64)` returns. -/
  parseFloat : String → F
  /-- `math.Mod(x, 1.0) == 0.0`. -/
  isWhole : F → Bool
  /-- `int64(x)`. -/
  int64 : F → Int64
  /-- `net.IP.String`. -/
  ipString : List UInt8 → String
  /-- The order in which a `range` visits tags. -/
  tagOrder : MapOrder (String × String)
  /-- The order in which a `range` visits the keys of the resource. -/
  keyOrder : MapOrder String

variable {F τ : Type}

/-! ## Names -/

def extractLocalServiceName : Option SpanModel → String
  | none => resourceNotSet
  | some zspan =>
    match zspan.localEndpoint with
    | none => resourceNotSet
    | some endpoint => endpoint.serviceName

def extractInstrumentationLibrary : Option SpanModel → String
  | none => ""
  | some zspan => (zspan.tags.lookup tagInstrumentationName).getD ""

/-- `byOTLPTypes.Less`. -/
def byOTLPTypes (a b : Option SpanModel) : Bool :=
  if extractLocalServiceName a ≠ extractLocalServiceName b then
    extractLocalServiceName a ≤ extractLocalServiceName b
  else extractInstrumentationLibrary a ≤ extractInstrumentationLibrary b

/-- `conventions.GetResourceSemanticConventionAttributeNames`. -/
def resourceSemanticConventionAttributeNames : List String :=
  ["service.name", "service.namespace", "service.instance.id", "service.version",
    "telemetry.sdk.name", "telemetry.sdk.language", "telemetry.sdk.version", "container.name",
    "container.image.name", "container.image.tag", "faas.name", "faas.id", "faas.version",
    "faas.instance", "k8s.cluster.name", "k8s.namespace.name", "k8s.pod.name",
    "k8s.deployment.name", "host.hostname", "host.id", "host.name", "host.type",
    "host.image.name", "host.image.id", "host.image.version", "process.pid",
    "process.executable.name", "process.executable.path", "process.command",
    "process.command_line", "process.owner", "cloud.provider", "cloud.account.id", "cloud.region",
    "cloud.zone"]

def nonSpanAttributes : List String :=
  resourceSemanticConventionAttributeNames ++
    [tagServiceNameSource, tagInstrumentationName, tagInstrumentationVersion,
      "opencensus.starttime", "opencensus.exporterversion", "opencensus.pid",
      "opencensus.resourcetype"]

/-! ## Resources and libraries -/

/-- The body of the loop in `populateResourceFromZipkinSpan`, over attributes and tags. -/
def moveToResource (st : AttributeMap F × GoMap String String) (key : String) :
    AttributeMap F × GoMap String String :=
  if key = tagInstrumentationName ∨ key = tagInstrumentationVersion then st
  else match st.2.lookup key with
    | some value => (st.1.upsertString key value, st.2.erase key)
    | none => st

/-- `populateResourceFromZipkinSpan`: the resource, and the tags that are left. -/
def populateResourceFromZipkinSpan (lib : Library F τ) (tags : GoMap String String)
    (localServiceName : String) : Pdata.ResourceAttributes F × GoMap String String :=
  if localServiceName = resourceNotSet then (none, tags)
  else if localServiceName = resourceNoAttrs then (some [], tags)
  else if tags.entries.length = 0 then
    (some (AttributeMap.insertString [] "service.name" localServiceName), tags)
  else
    let snSource := (tags.lookup tagServiceNameSource).getD ""
    let attrs : AttributeMap F :=
      if snSource = "" then AttributeMap.insertString [] "service.name" localServiceName
      else AttributeMap.insertString [] snSource localServiceName
    let tags := tags.erase tagServiceNameSource
    let (attrs, tags) := (lib.keyOrder.order nonSpanAttributes).foldl moveToResource (attrs, tags)
    (some attrs, tags)

/-- `populateILFromZipkinSpan`: the library, and the tags that are left. -/
def populateILFromZipkinSpan (tags : GoMap String String) (instrLibName : String) :
    Option Pdata.InstrumentationLibrary × GoMap String String :=
  if instrLibName = "" then (none, tags)
  else
    let (name, tags) :=
      match tags.lookup tagInstrumentationName with
      | some value => (value, tags.erase tagInstrumentationName)
      | none => ("", tags)
    let (version, tags) :=
      match tags.lookup tagInstrumentationVersion with
      | some value => (value, tags.erase tagInstrumentationVersion)
      | none => ("", tags)
    (some { name, version }, tags)

/-! ## Parts of a span -/

/-- `zipkinKindToSpanKind`, with the tags that are left. -/
def zipkinKindToSpanKind (kind : Kind) (tags : GoMap String String) :
    SpanKind × GoMap String String :=
  match kind with
  | .client => (.client, tags)
  | .server => (.server, tags)
  | .producer => (.producer, tags)
  | .consumer => (.consumer, tags)
  | _ =>
    match tags.lookup tagSpanKind with
    | some value =>
      (if value = "internal" then .internal else .unspecified, tags.erase tagSpanKind)
    | none => (.unspecified, tags)

/-- `Status_StatusCode_name`. -/
def statusCodeNames : List String :=
  ["STATUS_CODE_OK", "STATUS_CODE_CANCELLED", "STATUS_CODE_UNKNOWN_ERROR",
    "STATUS_CODE_INVALID_ARGUMENT", "STATUS_CODE_DEADLINE_EXCEEDED", "STATUS_CODE_NOT_FOUND",
    "STATUS_CODE_ALREADY_EXISTS", "STATUS_CODE_PERMISSION_DENIED",
    "STATUS_CODE_RESOURCE_EXHAUSTED", "STATUS_CODE_FAILED_PRECONDITION", "STATUS_CODE_ABORTED",
    "STATUS_CODE_OUT_OF_RANGE", "STATUS_CODE_UNIMPLEMENTED", "STATUS_CODE_INTERNAL_ERROR",
    "STATUS_CODE_UNAVAILABLE", "STATUS_CODE_DATA_LOSS", "STATUS_CODE_UNAUTHENTICATED"]

/-- `Status_StatusCode_value`; a missing name reads as 0. -/
def statusCodeValue (name : String) : Int32 := .ofNat ((statusCodeNames.idxOf? name).getD 0)

/-- `populateSpanStatus`, with the tags that are left. -/
def populateSpanStatus (tags : GoMap String String) : Option SpanStatus × GoMap String String :=
  match tags.lookup tagStatusCode with
  | none => (none, tags)
  | some value =>
    let code := statusCodeValue value
    let tags := tags.erase tagStatusCode
    match tags.lookup tagStatusMsg with
    | some message => (some ⟨code, message⟩, tags.erase tagStatusMsg)
    | none => (some ⟨code, ""⟩, tags)

/-- The trace state in `zSpanToInternal`, with the tags that are left. -/
def traceStateFromTags (tags : GoMap String String) : String × GoMap String String :=
  match tags.lookup tagW3CTraceState with
  | some value => (value, tags.erase tagW3CTraceState)
  | none => ("", tags)

/-- `strings.Split(s, "|")`. -/
def splitBar (s : String) : List String := (s.toList.splitOn '|').map String.ofList

def jsonMapToAttributeMap (lib : Library F τ) (attrs : List (String × Json F)) : AttributeMap F :=
  attrs.foldl (fun dest x =>
    match x.2 with
    | .string s => dest.insertString x.1 s
    | .number d =>
      if lib.isWhole d then dest.insertInt x.1 (lib.int64 d) else dest.insertDouble x.1 d
    | .bool b => dest.insertBool x.1 b
    | .other => dest) []

/-- The attributes and the number of dropped ones at the end of `parts`, behind the first `n`. The
text of the attributes may have bars in it. -/
def decodeAttributes (lib : Library F τ) (n : Nat) (parts : List String) :
    Except (GoError τ) (AttributeMap F × UInt32) := do
  let attrs ← lib.unmarshal ("|".intercalate (parts.drop n).dropLast)
  let dropped ← lib.parseUint32 (parts.getLastD "")
  return (jsonMapToAttributeMap lib attrs, dropped)

/-- A link in `zTagsToSpanLinks`, from five parts or more. -/
def decodeLink (lib : Library F τ) (parts : List String) : Except (GoError τ) (SpanLink F) := do
  let traceId ← lib.hexDecode (parts.getD 0 "")
  let spanId ← lib.hexDecode (parts.getD 1 "")
  let (attributes, droppedAttributesCount) ← decodeAttributes lib 3 parts
  return { traceId, spanId, traceState := parts.getD 2 "", attributes, droppedAttributesCount }

/-- `fmt.Sprintf("otlp.link.%d", i)`. -/
def linkKey (i : Nat) : String := "otlp.link." ++ toString i

/-- The loop of `zTagsToSpanLinks`, from `i` on for `n` rounds at most, with the tags that are
left. -/
def linksFromTags (lib : Library F τ) :
    Nat → Nat → GoMap String String →
      Except (GoError τ) (List (Option (SpanLink F)) × GoMap String String)
  | 0, _, tags => .ok ([], tags)
  | n + 1, i, tags =>
    match tags.lookup (linkKey i) with
    | none => .ok ([], tags)
    | some val => do
      let tags := tags.erase (linkKey i)
      let parts := splitBar val
      if parts.length < 5 then linksFromTags lib n (i + 1) tags
      else do
        let link ← decodeLink lib parts
        let (links, tags) ← linksFromTags lib n (i + 1) tags
        return (some link :: links, tags)

def zTagsToSpanLinks (lib : Library F τ) (tags : GoMap String String) :
    Except (GoError τ) (List (Option (SpanLink F)) × GoMap String String) :=
  linksFromTags lib 128 0 tags

/-- The body of the loop in `populateSpanEvents`. -/
def annotationToEvent (lib : Library F τ) (anno : Annotation) :
    Except (GoError τ) (Option (SpanEvent F)) := do
  let timestamp := (Time.unixNano anno.timestamp).toUInt64
  let parts := splitBar anno.value
  let name := parts.getD 0 ""
  if parts.length < 3 then return some ⟨timestamp, name, [], 0⟩
  else
    let (attributes, droppedAttributesCount) ← decodeAttributes lib 1 parts
    return some { timestamp, name, attributes, droppedAttributesCount }

def populateSpanEvents (lib : Library F τ) (zspan : SpanModel) :
    Except (GoError τ) (List (Option (SpanEvent F))) :=
  zspan.annotations.mapM (annotationToEvent lib)

/-! ## Attributes -/

/-- `\d+`. -/
def isDigits (l : List Char) : Bool := !l.isEmpty && l.all fun c => '0' ≤ c && c ≤ '9'

/-- `-?`. -/
def dropSign : List Char → List Char
  | '-' :: l => l
  | l => l

/-- `^-?\d+\.\d+$`. -/
def isDecimal (l : List Char) : Bool :=
  match (dropSign l).span (· ≠ '.') with
  | (whole, _ :: fraction) => isDigits whole && isDigits fraction
  | _ => false

def determineValueType (value : String) : AttributeValueType :=
  if value = "" then .null
  else if isDigits (dropSign value.toList) then .int
  else if isDecimal value.toList then .double
  else if value = "true" ∨ value = "false" then .bool
  else .string

/-- The body of the loop in `tagsToAttributeMap`. -/
def upsertTag (lib : Library F τ) (dest : AttributeMap F) (tag : String × String) :
    AttributeMap F :=
  if tag.1 ∈ nonSpanAttributes then dest
  else match determineValueType tag.2 with
    | .int => dest.upsertInt tag.1 (lib.parseInt tag.2)
    | .double => dest.upsertDouble tag.1 (lib.parseFloat tag.2)
    | .bool => dest.upsertBool tag.1 (tag.2 = "true")
    | _ => dest.upsertString tag.1 tag.2

def tagsToAttributeMap (lib : Library F τ) (tags : GoMap String String) : AttributeMap F :=
  (lib.tagOrder.order tags.pairs).foldl (upsertTag lib) []

def insertIP (lib : Library F τ) (key : String) (dest : AttributeMap F) :
    Option (List UInt8) → AttributeMap F
  | none => dest
  | some ip => dest.insertString key (lib.ipString ip)

def upsertPort (key : String) (dest : AttributeMap F) (port : UInt16) : AttributeMap F :=
  if 0 < port then dest.upsertInt key port.toUInt64.toInt64 else dest

def zTagsToInternalAttrs (lib : Library F τ) (zspan : SpanModel) (tags : GoMap String String) :
    AttributeMap F :=
  let dest := tagsToAttributeMap lib tags
  let dest :=
    match zspan.localEndpoint with
    | none => dest
    | some endpoint =>
      let dest := insertIP lib "net.host.ip" dest endpoint.ipv4
      let dest := insertIP lib "net.host.ip" dest endpoint.ipv6
      upsertPort "net.host.port" dest endpoint.port
  match zspan.remoteEndpoint with
  | none => dest
  | some endpoint =>
    let dest :=
      if endpoint.serviceName ≠ "" then dest.insertString "peer.service" endpoint.serviceName
      else dest
    let dest := insertIP lib "net.peer.ip" dest endpoint.ipv4
    let dest := insertIP lib "net.peer.ip" dest endpoint.ipv6
    upsertPort "net.peer.port" dest endpoint.port

/-! ## Spans -/

def zSpanToInternal (lib : Library F τ) (zspan : SpanModel) (tags : GoMap String String) :
    Except (GoError τ) (Pdata.Span F) := do
  let (traceState, tags) := traceStateFromTags tags
  let startNano := Time.unixNano zspan.timestamp
  let (kind, tags) := zipkinKindToSpanKind zspan.kind tags
  let (status, tags) := populateSpanStatus tags
  let (links, tags) ← zTagsToSpanLinks lib tags
  let attributes := zTagsToInternalAttrs lib zspan tags
  let events ← populateSpanEvents lib zspan
  return {
    traceId := uint64ToByteTraceID zspan.traceId.high zspan.traceId.low
    spanId := uint64ToByteSpanID zspan.id
    traceState
    parentSpanId :=
      match zspan.parentId with
      | none => []
      | some parentId => if parentId ≠ zspan.id then uint64ToByteSpanID parentId else []
    name := zspan.name
    kind
    startTime := startNano.toUInt64
    endTime := if 0 < zspan.duration then (startNano + zspan.duration).toUInt64 else 0
    attributes
    droppedAttributesCount := 0
    events
    droppedEventsCount := 0
    links
    droppedLinksCount := 0
    status }

/-! ## The grouping pass -/

/-- The spans of a library that the pass fills. -/
abbrev Filled (F : Type) := LibrarySpans (Pdata.Span F)

/-- The variables of the loop in `V2SpansToInternalTraces`. What the pass is filling is kept apart
from what is complete. -/
structure Progress (F : Type) where
  rss : List (ResourceSpans F (Filled F)) := []
  /-- The resource and the complete libraries; none is the zero value, which is not valid for
  use. -/
  curRscSpans : Option (ResourceSpans F (Filled F)) := none
  curILSpans : Option (Filled F) := none
  prevServiceName : String := ""
  prevInstrLibName : String := ""
  ilsCount : Nat := 0

namespace Progress

def traceData (st : Progress F) : List (ResourceSpans F (Filled F)) :=
  st.rss ++ (st.curRscSpans.map fun rs =>
    { rs with libraries := rs.libraries ++ st.curILSpans.toList }).toList

def openResource (st : Progress F) (name : String) (resource : Pdata.ResourceAttributes F) :
    Progress F where
  rss := st.traceData
  curRscSpans := some { resource, libraries := [] }
  curILSpans := none
  prevServiceName := name
  prevInstrLibName := ""
  ilsCount := 0

def openLibrary (st : Progress F) (name : String) (library : Option Pdata.InstrumentationLibrary) :
    Go (Progress F) := do
  let rs ← deref st.curRscSpans
  return { st with
    curRscSpans := some { rs with libraries := rs.libraries ++ st.curILSpans.toList }
    curILSpans := some { library, spans := [] }
    prevInstrLibName := name
    ilsCount := st.ilsCount + 1 }

def addSpan (st : Progress F) (span : Pdata.Span F) : Go (Progress F) := do
  let ils ← deref st.curILSpans
  return { st with curILSpans := some { ils with spans := ils.spans ++ [span] } }

end Progress

/-- The first half of the body of the loop: the resource. -/
def enterResource (lib : Library F τ) (st : Progress F) (zspan : SpanModel) :
    Progress F × GoMap String String :=
  let localServiceName := extractLocalServiceName (some zspan)
  if localServiceName ≠ st.prevServiceName then
    let (resource, tags) := populateResourceFromZipkinSpan lib zspan.tags localServiceName
    (st.openResource localServiceName resource, tags)
  else (st, zspan.tags)

/-- The second half: the library. -/
def enterLibrary (st : Progress F) (zspan : SpanModel) (tags : GoMap String String) :
    Go (Progress F × GoMap String String) :=
  let instrLibName := extractInstrumentationLibrary (some zspan)
  if instrLibName ≠ st.prevInstrLibName ∨ st.ilsCount = 0 then do
    let (library, tags) := populateILFromZipkinSpan tags instrLibName
    let st ← st.openLibrary instrLibName library
    return (st, tags)
  else .ok (st, tags)

/-- The loop of `V2SpansToInternalTraces`. -/
def translateSpans (lib : Library F τ) :
    List (Option SpanModel) → Progress F → Go (Except (GoError τ) (Progress F))
  | [], st => .ok (.ok st)
  | none :: zspans, st => translateSpans lib zspans st
  | some zspan :: zspans, st => do
    let (st, tags) := enterResource lib st zspan
    let (st, tags) ← enterLibrary st zspan tags
    match zSpanToInternal lib zspan tags with
    | .error err => .ok (.error err)
    | .ok span => translateSpans lib zspans (← st.addSpan span)

def v2SpansToInternalTraces (lib : Library F τ) (sort : InterfaceSort (Option SpanModel))
    (zipkinSpans : List (Option SpanModel)) :
    Go (Except (GoError τ) (List (ResourceSpans F (Filled F)))) := do
  match ← translateSpans lib (sort.sort byOTLPTypes zipkinSpans) {} with
  | .error err => return .error err
  | .ok st => return .ok st.traceData

end Collector.Zipkin
