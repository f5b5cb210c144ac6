import Collector.OpenCensus.FromInternal
import Collector.OpenCensus.ToInternal

/-!
# From OpenCensus to the internal traces

`ocSpanToInternal` of `translator/internaldata/oc_to_traces.go` and what it calls, into a span that
was just made. The messages have no nil elements and no empty `oneof`, so the branches for those
do not arise. A `range` over the attributes visits them in any order; every map has its own.
-/

namespace Collector.OpenCensus

open Pdata (AttributeMap SpanEvent SpanLink SpanStatus)

variable {F : Type}

/-- `TruncatableString.GetValue`. -/
def TruncatableString.getValue (s : Option TruncatableString) : String := s.elim "" value

def hasBytesValue (s : List UInt8) : Bool := s.any (· != 0)

def ocStatusToInternal (ocStatus : Option Status) : Option SpanStatus :=
  ocStatus.map fun s => ⟨s.code, s.message⟩

def ocTraceStateToInternal : Option Tracestate → String
  | none => ""
  | some ts => ",".intercalate (ts.entries.map fun entry => entry.key ++ "=" ++ entry.value)

/-! ## Attributes -/

def ocAttrsToDroppedAttributes : Option (SpanAttributes F) → UInt32
  | none => 0
  | some attrs => attrs.droppedAttributesCount.toUInt32

/-- The body of the loop in `initAttributeMapFromOC`. -/
def upsertFromOC (dest : AttributeMap F) (key : String) : AttributeValue F → AttributeMap F
  | .string s => dest.upsertString key (TruncatableString.getValue s)
  | .int n => dest.upsertInt key n
  | .bool b => dest.upsertBool key b
  | .double x => dest.upsertDouble key x

/-- What a `range` over the map of the attributes visits. -/
def SpanAttributes.pairs (ocAttrs : Option (SpanAttributes F)) : List (String × AttributeValue F) :=
  match ocAttrs with
  | none => []
  | some attrs => attrs.attributeMap.elim [] GoMap.pairs

def initAttributeMapFromOC (ord : MapOrder (String × AttributeValue F))
    (ocAttrs : Option (SpanAttributes F)) : AttributeMap F :=
  (ord.order (SpanAttributes.pairs ocAttrs)).foldl (fun dest x => upsertFromOC dest x.1 x.2) []

/-- The kinds of `OpenTracingSpanKind` that OpenCensus has no value for. -/
def openTracingSpanKind : String → Option Pdata.SpanKind
  | "consumer" => some .consumer
  | "producer" => some .producer
  | "internal" => some .internal
  | _ => none

/-- `ocSpanKindToInternal`, with the attributes that it leaves: the one that stood for the kind is
deleted. -/
def ocSpanKindToInternal (ocKind : SpanKind) (ocAttrs : Option (SpanAttributes F)) :
    Pdata.SpanKind × Option (SpanAttributes F) :=
  match ocKind with
  | .server => (.server, ocAttrs)
  | .client => (.client, ocAttrs)
  | .unspecified =>
    match ocAttrs with
    | none => (.unspecified, none)
    | some attrs =>
      match attrs.attributeMap.bind (·.lookup tagSpanKind) with
      | some (.string s) =>
        match openTracingSpanKind (TruncatableString.getValue s) with
        | none => (.unspecified, some attrs)
        | some kind =>
          (kind, some { attrs with attributeMap := attrs.attributeMap.map (·.erase tagSpanKind) })
      | _ => (.unspecified, some attrs)

/-- `ocSameProcessAsParentSpanToInternal`, on the attributes of the span. -/
def ocSameProcessAsParentSpanToInternal (spaps : Option Bool) (dest : AttributeMap F) :
    AttributeMap F :=
  match spaps with
  | none => dest
  | some b => dest.upsertBool "opencensus.same_process_as_parent_span" b

/-! ## Events and links -/

/-- `ocMessageEventToInternalAttrs`; `typeName` is the `String` of the type of a message event. -/
def ocMessageEventToInternalAttrs (typeName : Int32 → String) (msgEvent : MessageEvent)
    (dest : AttributeMap F) : AttributeMap F :=
  let dest := dest.upsertString "opencensus.timeevent.messageevent.type" (typeName msgEvent.type)
  let dest := dest.upsertInt "opencensus.timeevent.messageevent.id" msgEvent.id.toInt64
  let dest := dest.upsertInt "opencensus.timeevent.messageevent.usize"
    msgEvent.uncompressedSize.toInt64
  dest.upsertInt "opencensus.timeevent.messageevent.csize" msgEvent.compressedSize.toInt64

/-- The body of the loop in `ocEventsToInternal`. -/
def ocEventToInternal (typeName : Int32 → String) (ord : MapOrder (String × AttributeValue F))
    (ocEvent : TimeEvent F) : SpanEvent F :=
  match ocEvent.value with
  | .annotationEvent annotation => {
      timestamp := timestampToUnixNano ocEvent.time
      name := TruncatableString.getValue annotation.description
      attributes := initAttributeMapFromOC ord annotation.attributes
      droppedAttributesCount := ocAttrsToDroppedAttributes annotation.attributes }
  | .messageEvent msgEvent => {
      timestamp := timestampToUnixNano ocEvent.time
      name := ""
      attributes := ocMessageEventToInternalAttrs typeName msgEvent []
      droppedAttributesCount := 0 }

/-- `ocEventsToInternal`: the events and how many were dropped. -/
def ocEventsToInternal (typeName : Int32 → String)
    (ords : Nat → MapOrder (String × AttributeValue F)) (ocEvents : Option (TimeEvents F)) :
    List (Option (SpanEvent F)) × UInt32 :=
  match ocEvents with
  | none => ([], 0)
  | some ocEvents =>
    (ocEvents.timeEvent.mapIdx fun i ocEvent => some (ocEventToInternal typeName (ords i) ocEvent),
      (ocEvents.droppedMessageEventsCount + ocEvents.droppedAnnotationsCount).toUInt32)

/-- The body of the loop in `ocLinksToInternal`. -/
def ocLinkToInternal (ord : MapOrder (String × AttributeValue F)) (ocLink : Link F) :
    SpanLink F where
  traceId := ocLink.traceId
  spanId := ocLink.spanId
  traceState := ocTraceStateToInternal ocLink.tracestate
  attributes := initAttributeMapFromOC ord ocLink.attributes
  droppedAttributesCount := ocAttrsToDroppedAttributes ocLink.attributes

/-- `ocLinksToInternal`: the links and how many were dropped. -/
def ocLinksToInternal (ords : Nat → MapOrder (String × AttributeValue F))
    (ocLinks : Option (Links F)) : List (Option (SpanLink F)) × UInt32 :=
  match ocLinks with
  | none => ([], 0)
  | some ocLinks =>
    (ocLinks.link.mapIdx fun i ocLink => some (ocLinkToInternal (ords i) ocLink),
      ocLinks.droppedLinksCount.toUInt32)

/-! ## Spans -/

/-- The orders in which the maps of a span are visited. -/
structure SpanOrders (F : Type) where
  span : MapOrder (String × AttributeValue F)
  events : Nat → MapOrder (String × AttributeValue F)
  links : Nat → MapOrder (String × AttributeValue F)

def ocSpanToInternal (typeName : Int32 → String) (ords : SpanOrders F) (src : Span F) :
    Pdata.Span F :=
  -- the kind comes first, since it may take an attribute away
  let (kind, attributes) := ocSpanKindToInternal src.kind src.attributes
  let events := ocEventsToInternal typeName ords.events src.timeEvents
  let links := ocLinksToInternal ords.links src.links
  { traceId := src.traceId
    spanId := src.spanId
    traceState := ocTraceStateToInternal src.tracestate
    parentSpanId := if hasBytesValue src.parentSpanId then src.parentSpanId else []
    name := TruncatableString.getValue src.name
    kind
    startTime := timestampToUnixNano src.startTime
    endTime := timestampToUnixNano src.endTime
    attributes := ocSameProcessAsParentSpanToInternal src.sameProcessAsParentSpan
      (initAttributeMapFromOC ords.span attributes)
    droppedAttributesCount := ocAttrsToDroppedAttributes attributes
    events := events.1
    droppedEventsCount := events.2
    links := links.1
    droppedLinksCount := links.2
    status := ocStatusToInternal src.status }

end Collector.OpenCensus
