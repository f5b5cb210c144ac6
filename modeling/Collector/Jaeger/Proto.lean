import Mathlib.Data.List.ReduceOption
import Collector.Pdata.Traces
import Collector.Translator.Common

/-!
# Spans and Jaeger proto

`spanToJaegerProto` of `translator/trace/jaeger/traces_to_jaegerproto.go`, `jSpanToInternal` of
`jaegerproto_to_traces.go`, and what they call. The messages are those of
`github.com/jaegertracing/jaeger/model`, as far as the translations read or fill them; the value
of a tag is given by its `VType`, the only field that is read for it.
-/

namespace Collector.Jaeger

open Pdata (AnyValue KeyValue AttributeMap SpanEvent SpanLink SpanStatus SpanKind)
open Translator

/-! ## Messages -/

structure TraceID where
  low : UInt64
  high : UInt64
  deriving DecidableEq, Repr

inductive TagValue (F : Type) where
  | string (s : String)
  | bool (b : Bool)
  | int64 (n : Int64)
  | float64 (x : F)
  | binary (bytes : List UInt8)
  | unrecognized (vType : Int32)

/-- `model.KeyValue`. -/
structure Tag (F : Type) where
  key : String
  value : TagValue F

inductive SpanRefType where
  | childOf
  | followsFrom
  | unrecognized (n : Int32)
  deriving DecidableEq, Repr

structure SpanRef where
  traceId : TraceID
  spanId : UInt64
  refType : SpanRefType
  deriving DecidableEq, Repr

structure Log (F : Type) where
  timestamp : Int
  fields : List (Tag F)

/-- `model.Span`. -/
structure Span (F : Type) where
  traceId : TraceID
  spanId : UInt64
  operationName : String
  references : List SpanRef
  startTime : Int
  duration : Int64
  tags : List (Tag F)
  logs : List (Log F)

/-- What the translation takes from elsewhere. -/
structure Library where
  /-- `base64.StdEncoding.EncodeToString`. -/
  base64 : List UInt8 → String
  /-- `strconv.Atoi`. -/
  atoi : String → Option Int64
  /-- `%q` of a `ValueType`. -/
  quotedType : Int32 → String
  /-- `Span.ParentSpanID`, of the trace and the references of the span. -/
  parentSpanID : TraceID → List SpanRef → UInt64

/-- `ParentSpanID` is told by the first reference to a parent in the same trace, and 0 without
one. -/
structure Library.FindsParent (lib : Library) : Prop where
  found : ∀ {own refs ref}, refs.find? (fun ref => ref.traceId = own ∧ ref.refType = .childOf) =
    some ref → lib.parentSpanID own refs = ref.spanId
  absent : ∀ {own refs}, refs.find? (fun ref => ref.traceId = own ∧ ref.refType = .childOf) =
    none → lib.parentSpanID own refs = 0

variable {F τ : Type}

/-! ## To Jaeger -/

/-- `attributeToJaegerProtoTag`: a tag of no type is a string. -/
def attributeToJaegerProtoTag (key : String) (attr : AnyValue F) : Tag F where
  key := key
  value := match attr with
    | .string s => .string s
    | .int n => .int64 n
    | .bool b => .bool b
    | .double x => .float64 x
    | _ => .string ""

def appendTagsFromAttributes (dest : List (Tag F)) (attrs : AttributeMap F) : List (Tag F) :=
  attrs.foldl (fun dest kv =>
    match kv with
    | .nil => dest
    | .mk k v => dest ++ [attributeToJaegerProtoTag k v]) dest

def traceIDToJaegerProto (traceID : List UInt8) : Except (GoError τ) TraceID := do
  let (high, low) ← bytesToUInt64TraceID traceID
  if low = 0 ∧ high = 0 then .error (.new "OC span has an all zeros trace ID")
  else return { low, high }

def spanIDToJaegerProto (spanID : List UInt8) : Except (GoError τ) UInt64 := do
  let uSpanID ← bytesToUInt64SpanID spanID
  if uSpanID = 0 then .error (.new "OC span has an all zeros span ID")
  else return uSpanID

/-- The body of the loop in `makeJaegerProtoReferences`, which skips a link whose identifiers are
not valid. -/
def linkToReference (link : SpanLink F) : Option SpanRef :=
  match traceIDToJaegerProto (τ := Unit) link.traceId with
  | .error _ => none
  | .ok traceId =>
    match spanIDToJaegerProto (τ := Unit) link.spanId with
    | .error _ => none
    | .ok spanId => some { traceId, spanId, refType := .followsFrom }

def makeJaegerProtoReferences (links : List (Option (SpanLink F))) (parentSpanID : List UInt8)
    (traceId : TraceID) : Except (GoError τ) (List SpanRef) := do
  let parent ←
    if parentSpanID.length ≠ 0 then
      match spanIDToJaegerProto (τ := τ) parentSpanID with
      | .error err => .error (.new ("OC incorrect parent span ID: " ++ err.error))
      | .ok spanId => .ok [{ traceId, spanId, refType := .childOf }]
    else .ok []
  return parent ++ links.reduceOption.filterMap linkToReference

/-- The body of the loop in `spanEventsToJaegerProtoLogs`. -/
def eventToLog (event : SpanEvent F) : Log F where
  timestamp := unixNanoToTime event.timestamp
  fields := appendTagsFromAttributes
    (if event.name ≠ "" then [⟨tagMessage, .string event.name⟩] else []) event.attributes

def spanEventsToJaegerProtoLogs (events : List (Option (SpanEvent F))) : List (Log F) :=
  events.reduceOption.map eventToLog

def getTagFromSpanKind : SpanKind → Option (Tag F)
  | .client => some ⟨tagSpanKind, .string "client"⟩
  | .server => some ⟨tagSpanKind, .string "server"⟩
  | .producer => some ⟨tagSpanKind, .string "producer"⟩
  | .consumer => some ⟨tagSpanKind, .string "consumer"⟩
  | .internal => some ⟨tagSpanKind, .string "internal"⟩
  | _ => none

def getTagFromStatusCode (statusCode : Int32) : Option (Tag F) :=
  some ⟨tagStatusCode, .int64 statusCode.toInt64⟩

def getErrorTagFromStatusCode (statusCode : Int32) : Option (Tag F) :=
  if statusCode = 0 then none else some ⟨tagError, .bool true⟩

def getTagFromStatusMsg (statusMsg : String) : Option (Tag F) :=
  if statusMsg = "" then none else some ⟨tagStatusMsg, .string statusMsg⟩

def getTagsFromTraceState (traceState : String) : List (Tag F) :=
  if traceState = "" then [] else [⟨tagW3CTraceState, .string traceState⟩]

/-- The tags for the status in `getJaegerProtoSpanTags`. -/
def statusTags : Option SpanStatus → List (Tag F)
  | none => []
  | some status =>
    (getTagFromStatusCode status.code).toList ++ (getErrorTagFromStatusCode status.code).toList ++
      (getTagFromStatusMsg status.message).toList

def getJaegerProtoSpanTags (span : Pdata.Span F) : List (Tag F) :=
  appendTagsFromAttributes [] span.attributes ++ (getTagFromSpanKind span.kind).toList ++
    statusTags span.status ++ getTagsFromTraceState span.traceState

/-- `spanToJaegerProto`, of a span that is not nil. -/
def spanToJaegerProto (span : Pdata.Span F) : Except (GoError τ) (Span F) := do
  let traceId ← traceIDToJaegerProto span.traceId
  let spanId ← spanIDToJaegerProto span.spanId
  let references ←
    match makeJaegerProtoReferences (τ := τ) span.links span.parentSpanId traceId with
    | .error err => .error (.wrap "error converting span links to Jaeger references: " err)
    | .ok refs => .ok refs
  let startTime := unixNanoToTime span.startTime
  return {
    traceId, spanId
    operationName := span.name
    references, startTime
    duration := Time.sub (unixNanoToTime span.endTime) startTime
    tags := getJaegerProtoSpanTags span
    logs := spanEventsToJaegerProtoLogs span.events }

/-! ## From Jaeger -/

/-- The body of the loop in `jTagsToInternalAttributes`. -/
def upsertTag (lib : Library) (dest : AttributeMap F) (tag : Tag F) : AttributeMap F :=
  match tag.value with
  | .string s => dest.upsertString tag.key s
  | .bool b => dest.upsertBool tag.key b
  | .int64 n => dest.upsertInt tag.key n
  | .float64 x => dest.upsertDouble tag.key x
  | .binary bytes => dest.upsertString tag.key (lib.base64 bytes)
  | .unrecognized vType =>
    dest.upsertString tag.key ("<Unknown Jaeger TagType " ++ lib.quotedType vType ++ ">")

def jTagsToInternalAttributes (lib : Library) (tags : List (Tag F)) (dest : AttributeMap F) :
    AttributeMap F :=
  tags.foldl (upsertTag lib) dest

/-- `getStatusCodeFromAttr`; the error is not looked at. -/
def getStatusCodeFromAttr (lib : Library) (attrVal : AnyValue F) : Option Int32 := do
  let codeVal ←
    match attrVal with
    | .int n => some n
    | .string s => lib.atoi s
    | _ => none
  if codeVal.toInt > 2147483647 ∨ codeVal.toInt < -2147483648 then none
  else return codeVal.toInt32

def getStatusCodeFromHTTPStatusAttr (lib : Library) (attrVal : AnyValue F) : Option Int32 :=
  (getStatusCodeFromAttr lib attrVal).map ocStatusCodeFromHTTP

/-- The first part of `setInternalSpanStatus`, for the tag `error`: the attributes, the code and
whether there is a status. -/
def statusFromError (attrs : AttributeMap F) : AttributeMap F × Int32 × Bool :=
  match attrs.get tagError with
  | some errorVal =>
    if errorVal.boolVal then ((attrs.delete tagError).1, 2, true) else (attrs, 0, false)
  | none => (attrs, 0, false)

/-- The message in `setInternalSpanStatus`, where there was a status code. -/
def messageFromAttrs (attrs : AttributeMap F) (statusCode : Int32) :
    AttributeMap F × Option SpanStatus :=
  match attrs.get tagStatusMsg with
  | some msgAttr => ((attrs.delete tagStatusMsg).1, some ⟨statusCode, msgAttr.stringVal⟩)
  | none => (attrs, some ⟨statusCode, ""⟩)

/-- The rest of it, with the code and whether there is a status so far. -/
def statusFromCode (lib : Library) (attrs : AttributeMap F) (statusCode : Int32)
    (statusExists : Bool) : AttributeMap F × Option SpanStatus :=
  match attrs.get tagStatusCode with
  | some codeAttr =>
    match getStatusCodeFromAttr lib codeAttr with
    | some code => messageFromAttrs (attrs.delete tagStatusCode).1 code
    | none => messageFromAttrs attrs statusCode
  | none =>
    match attrs.get tagHTTPStatusCode with
    | some httpCodeAttr =>
      match getStatusCodeFromHTTPStatusAttr lib httpCodeAttr with
      | some code =>
        -- an "error" tag is not overridden by a code that says all is well
        let statusCode := if code ≠ 0 then code else statusCode
        match attrs.get tagHTTPStatusMsg with
        | some msgAttr => (attrs, some ⟨statusCode, msgAttr.stringVal⟩)
        | none => (attrs, some ⟨statusCode, ""⟩)
      | none => (attrs, some ⟨statusCode, ""⟩)
    | none => (attrs, if statusExists then some ⟨statusCode, ""⟩ else none)

/-- `setInternalSpanStatus`: the attributes that it leaves, and the status. -/
def setInternalSpanStatus (lib : Library) (attrs : AttributeMap F) :
    AttributeMap F × Option SpanStatus :=
  let (attrs, statusCode, statusExists) := statusFromError attrs
  statusFromCode lib attrs statusCode statusExists

def jSpanKindToInternal : String → SpanKind
  | "client" => .client
  | "server" => .server
  | "producer" => .producer
  | "consumer" => .consumer
  | "internal" => .internal
  | _ => .unspecified

/-- The kind in `jSpanToInternal`, with the attributes that are left. -/
def kindFromAttrs (attrs : AttributeMap F) : AttributeMap F × SpanKind :=
  match attrs.get tagSpanKind with
  | some spanKindAttr => ((attrs.delete tagSpanKind).1, jSpanKindToInternal spanKindAttr.stringVal)
  | none => (attrs, .unspecified)

/-- `getTraceStateFromAttrs`, with the attributes that are left. -/
def getTraceStateFromAttrs (attrs : AttributeMap F) : AttributeMap F × String :=
  match attrs.get tagW3CTraceState with
  | some attr => ((attrs.delete tagW3CTraceState).1, attr.stringVal)
  | none => (attrs, "")

/-- The body of the loop in `jLogsToSpanEvents`. -/
def logToEvent (lib : Library) (log : Log F) : SpanEvent F :=
  let attrs := jTagsToInternalAttributes lib log.fields []
  let timestamp := (Time.unixNano log.timestamp).toUInt64
  match attrs.get tagMessage with
  | some name => ⟨timestamp, name.stringVal, (attrs.delete tagMessage).1, 0⟩
  | none => ⟨timestamp, "", attrs, 0⟩

def jLogsToSpanEvents (lib : Library) (logs : List (Log F)) : List (Option (SpanEvent F)) :=
  logs.map fun log => some (logToEvent lib log)

/-- A link with these identifiers, in a slice that was just made. -/
def newLink (high low spanId : UInt64) : SpanLink F where
  traceId := uint64ToByteTraceID high low
  spanId := uint64ToByteSpanID spanId
  traceState := ""
  attributes := []
  droppedAttributesCount := 0

/-- What `jReferencesToSpanLinks` and its thrift variant share, into a slice that was just made: the
links that are kept go to the front of a slice with one link for each reference, which is cut in
the end. -/
def compactLinks {α : Type} (skip : α → Bool) (link : α → SpanLink F) (refs : List α) :
    List (Option (SpanLink F)) :=
  if refs.length = 0 ∨ refs.length = 1 ∧ refs.all skip then []
  else
    let (dest, i) := refs.foldl
      (fun (dest, i) ref => if skip ref then (dest, i) else (dest.set i (some (link ref)), i + 1))
      (List.replicate refs.length (some ⟨[], [], "", [], 0⟩), 0)
    if i < refs.length then dest.take i else dest

def jReferencesToSpanLinks (refs : List SpanRef) (excludeParentID : UInt64) :
    List (Option (SpanLink F)) :=
  compactLinks (fun ref => ref.spanId = excludeParentID ∧ ref.refType = .childOf)
    (fun ref => newLink ref.traceId.high ref.traceId.low ref.spanId) refs

/-- `jSpanToInternal`, into a span that was just made. -/
def jSpanToInternal (lib : Library) (span : Span F) : Pdata.Span F :=
  let parentSpanID := lib.parentSpanID span.traceId span.references
  let attrs := jTagsToInternalAttributes lib span.tags []
  let (attrs, status) := setInternalSpanStatus lib attrs
  let (attrs, kind) := kindFromAttrs attrs
  let (attrs, traceState) := getTraceStateFromAttrs attrs
  { traceId := uint64ToByteTraceID span.traceId.high span.traceId.low
    spanId := uint64ToByteSpanID span.spanId
    traceState
    parentSpanId := if parentSpanID ≠ 0 then uint64ToByteSpanID parentSpanID else []
    name := span.operationName
    kind
    startTime := (Time.unixNano span.startTime).toUInt64
    endTime := (Time.unixNano (Time.add span.startTime span.duration)).toUInt64
    attributes := attrs
    droppedAttributesCount := 0
    events := jLogsToSpanEvents lib span.logs
    droppedEventsCount := 0
    links := jReferencesToSpanLinks span.references parentSpanID
    droppedLinksCount := 0
    status }

/-! ## The links of the references -/

open List in
theorem compactLinks_eq {α : Type} (skip : α → Bool) (link : α → SpanLink F) (refs : List α) :
    compactLinks skip link refs = (refs.filter (!skip ·)).map fun ref => some (link ref) := by
  -- what is written so far is followed by links as they were made
  have hloop (empty : Option (SpanLink F)) (refs : List α) : ∀ done n, refs.length ≤ n →
      refs.foldl (fun (r : List (Option (SpanLink F)) × Nat) ref =>
        if skip ref then (r.1, r.2) else (r.1.set r.2 (some (link ref)), r.2 + 1))
        (done ++ replicate n empty, done.length) =
      (done ++ (refs.filter (!skip ·)).map (fun ref => some (link ref)) ++
          replicate (n - (refs.filter (!skip ·)).length) empty,
        (done ++ (refs.filter (!skip ·)).map fun ref => some (link ref)).length) := by
    induction refs with
    | nil => simp
    | cons ref refs ih =>
      intro done n hn
      obtain ⟨n, rfl⟩ : ∃ n', n = n' + 1 := ⟨n - 1, by simp at hn; omega⟩
      rw [length_cons, Nat.add_le_add_iff_right] at hn
      cases h : skip ref with
      | true => simpa [h] using ih done (n + 1) (Nat.le_succ_of_le hn)
      | false => simpa [h, replicate_succ] using ih (done ++ [some (link ref)]) n hn
  have hrun := hloop (some ⟨[], [], "", [], 0⟩) refs [] refs.length (Nat.le_refl _)
  have hle := length_filter_le (!skip ·) refs
  simp only [compactLinks, nil_append, length_nil] at hrun ⊢
  rw [hrun, length_map]
  split
  · rename_i h
    have hall : refs.all skip = true := by
      rcases h with h | h
      · rw [eq_nil_of_length_eq_zero h]
        rfl
      · exact h.2
    rw [filter_eq_nil_iff.2 fun ref href => by simp [all_eq_true.1 hall ref href], map_nil]
  · split
    · simp
    · rw [Nat.sub_eq_zero_of_le (by omega), replicate_zero, append_nil]

theorem jReferencesToSpanLinks_eq (refs : List SpanRef) (excludeParentID : UInt64) :
    (jReferencesToSpanLinks refs excludeParentID : List (Option (SpanLink F))) =
      (refs.filter fun ref => ¬(ref.spanId = excludeParentID ∧ ref.refType = .childOf)).map
        fun ref => some (newLink ref.traceId.high ref.traceId.low ref.spanId) := by
  simp [jReferencesToSpanLinks, compactLinks_eq]

end Collector.Jaeger
