import Collector.OpenCensus.Metrics

/-!
# OpenCensus traces

The messages of `opencensus-proto/gen-go/trace/v1`, `agent/common/v1` and `resource/v1`, as far as
the translation from the internal format fills them, and `consumerdata.TraceData`. A map field
may be nil: reading from a nil map finds nothing, and writing to it crashes.
-/

namespace Collector.OpenCensus

structure TruncatableString where
  value : String
  deriving DecidableEq, Repr

/-- `AttributeValue`, by its `oneof`. -/
inductive AttributeValue (F : Type) where
  | string (s : Option TruncatableString)
  | int (n : Int64)
  | bool (b : Bool)
  | double (x : F)

/-- `Span_Attributes`. -/
structure SpanAttributes (F : Type) where
  attributeMap : Option (GoMap String (AttributeValue F))
  droppedAttributesCount : Int32

/-- `Span_TimeEvent_Annotation`. -/
structure Annotation (F : Type) where
  description : Option TruncatableString
  attributes : Option (SpanAttributes F)

/-- `Span_TimeEvent_MessageEvent`. -/
structure MessageEvent where
  type : Int32
  id : UInt64
  uncompressedSize : UInt64
  compressedSize : UInt64
  deriving DecidableEq, Repr

inductive TimeEventValue (F : Type) where
  | annotationEvent (a : Annotation F)
  | messageEvent (m : MessageEvent)

structure TimeEvent (F : Type) where
  time : Option Timestamp
  value : TimeEventValue F

structure TimeEvents (F : Type) where
  timeEvent : List (TimeEvent F)
  droppedAnnotationsCount : Int32 := 0
  droppedMessageEventsCount : Int32 := 0

structure TracestateEntry where
  key : String
  value : String
  deriving DecidableEq, Repr

structure Tracestate where
  entries : List TracestateEntry
  deriving DecidableEq, Repr

structure Link (F : Type) where
  traceId : List UInt8
  spanId : List UInt8
  tracestate : Option Tracestate
  attributes : Option (SpanAttributes F)

structure Links (F : Type) where
  link : List (Link F)
  droppedLinksCount : Int32

structure Status where
  code : Int32
  message : String
  deriving DecidableEq, Repr

/-- `Span_SpanKind`. -/
inductive SpanKind where
  | unspecified | server | client
  deriving DecidableEq, Repr

structure Span (F : Type) where
  traceId : List UInt8
  spanId : List UInt8
  tracestate : Option Tracestate
  parentSpanId : List UInt8
  name : Option TruncatableString
  kind : SpanKind
  startTime : Option Timestamp
  endTime : Option Timestamp
  attributes : Option (SpanAttributes F)
  timeEvents : Option (TimeEvents F)
  links : Option (Links F)
  status : Option Status
  sameProcessAsParentSpan : Option Bool

structure ProcessIdentifier where
  hostName : String := ""
  pid : UInt32 := 0
  startTimestamp : Option Timestamp := none
  deriving DecidableEq, Repr

structure LibraryInfo where
  language : Int32 := 0
  exporterVersion : String := ""
  coreLibraryVersion : String := ""
  deriving DecidableEq, Repr

structure ServiceInfo where
  name : String := ""
  deriving DecidableEq, Repr

structure Node where
  identifier : Option ProcessIdentifier := none
  libraryInfo : Option LibraryInfo := none
  serviceInfo : Option ServiceInfo := none
  deriving DecidableEq, Repr

structure Resource where
  type : String := ""
  labels : Option (GoMap String String) := none

/-- `consumerdata.TraceData`. -/
structure TraceData (F : Type) where
  node : Option Node
  resource : Option Resource
  spans : List (Span F) := []
  sourceFormat : String

end Collector.OpenCensus
