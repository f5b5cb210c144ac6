import Collector.Pdata.Attributes
import Mathlib.Algebra.GroupWithZero.Nat

/-!
# Traces and logs

`pdata.Traces` and `pdata.Logs` have one shape: items under a library under a resource, with
pointers that may be nil at the two upper levels. `R` is the resource, `L` the instrumentation
library (`Scoped`) and `X` the span or log record, each behind its own pointer. The spans
themselves are the messages of `opentelemetry-proto-gen/trace/v1`.
-/

namespace Collector.Pdata

/-- `InstrumentationLibrarySpans`, `InstrumentationLibraryLogs`. -/
structure LibraryItems (X : Type) where
  items : List X
  deriving DecidableEq, Repr

/-- `ResourceSpans`, `ResourceLogs`. -/
structure ResourceItems (R X : Type) where
  resource : R
  libraries : List (Option (LibraryItems X))
  deriving DecidableEq, Repr

abbrev Traces (R X : Type) := List (Option (ResourceItems R X))

abbrev Logs (R X : Type) := List (Option (ResourceItems R X))

/-- The items that do not hang under a nil parent. -/
def itemCount {R X : Type} (data : List (Option (ResourceItems R X))) : Nat :=
  (data.map fun
    | none => 0
    | some rs => (rs.libraries.map fun
      | none => 0
      | some ils => ils.items.length).sum).sum

/-- The items that `itemCount` counts. -/
def itemsOf {R X : Type} (data : List (Option (ResourceItems R X))) : List X :=
  data.flatMap fun
    | none => []
    | some rs => rs.libraries.flatMap fun
      | none => []
      | some ils => ils.items

theorem length_itemsOf {R X : Type} (data : List (Option (ResourceItems R X))) :
    (itemsOf data).length = itemCount data := by
  rw [itemsOf, itemCount, List.length_flatMap]
  congr 1
  refine List.map_congr_left fun rs _ => ?_
  cases rs with
  | none => rfl
  | some rs =>
    show List.length (List.flatMap _ _) = _
    rw [List.length_flatMap]
    congr 1
    refine List.map_congr_left fun ils _ => ?_
    cases ils <;> rfl

def spanCount {R X : Type} (td : Traces R X) : Nat := itemCount td

def logRecordCount {R X : Type} (ld : Logs R X) : Nat := itemCount ld

/-! ## With their libraries

For the processors that move spans from one trace to another. -/

namespace Scoped

variable {R L X : Type}

/-- `InstrumentationLibrarySpans`. -/
structure LibrarySpans (L X : Type) where
  library : L
  spans : List X
  deriving DecidableEq, Repr

structure ResourceSpans (R L X : Type) where
  resource : R
  libraries : List (Option (LibrarySpans L X))
  deriving DecidableEq, Repr

abbrev Traces (R L X : Type) := List (Option (ResourceSpans R L X))

/-- `Traces.SpanCount`. -/
def spanCount (td : Traces R L X) : Nat :=
  (td.map fun
    | none => 0
    | some rs => (rs.libraries.map fun
      | none => 0
      | some ils => ils.spans.length).sum).sum

def librarySpans (ilss : List (Option (LibrarySpans L X))) : List (L × X) :=
  ilss.flatMap fun
    | none => []
    | some ils => ils.spans.map fun span => (ils.library, span)

def resourceSpans (rs : ResourceSpans R L X) : List (R × L × X) :=
  (librarySpans rs.libraries).map fun span => (rs.resource, span)

def spansOf (td : Traces R L X) : List (R × L × X) :=
  td.flatMap fun
    | none => []
    | some rs => resourceSpans rs

theorem librarySpans_cons (ils : LibrarySpans L X) (ilss : List (Option (LibrarySpans L X))) :
    librarySpans (some ils :: ilss) =
      (ils.spans.map fun span => (ils.library, span)) ++ librarySpans ilss := rfl

theorem spansOf_cons (rs : ResourceSpans R L X) (td : Traces R L X) :
    spansOf (some rs :: td) = resourceSpans rs ++ spansOf td := rfl

theorem spansOf_append (td td' : Traces R L X) : spansOf (td ++ td') = spansOf td ++ spansOf td' :=
  List.flatMap_append

theorem length_librarySpans (ilss : List (Option (LibrarySpans L X))) :
    (librarySpans ilss).length = (ilss.map fun
      | none => 0
      | some ils => ils.spans.length).sum := by
  induction ilss with
  | nil => rfl
  | cons ils ilss ih =>
    cases ils with
    | none => exact ih.trans (Nat.zero_add _).symm
    | some ils =>
      rw [librarySpans_cons, List.length_append, List.length_map, ih]
      rfl

theorem length_spansOf (td : Traces R L X) : (spansOf td).length = spanCount td := by
  induction td with
  | nil => rfl
  | cons rs td ih =>
    cases rs with
    | none => exact ih.trans (Nat.zero_add _).symm
    | some rs =>
      rw [spansOf_cons, List.length_append, resourceSpans, List.length_map, length_librarySpans, ih]
      rfl

theorem spanCount_append (td td' : Traces R L X) :
    spanCount (td ++ td') = spanCount td + spanCount td' := by
  simp only [← length_spansOf, spansOf_append, List.length_append]

theorem spansOf_eq_nil {td : Traces R L X} (h : spanCount td = 0) : spansOf td = [] :=
  List.length_eq_zero_iff.1 ((length_spansOf td).trans h)

end Scoped

/-! ## Spans

The elements of a repeated field may be nil, and so may the status and the resource. -/

inductive SpanKind where
  | unspecified
  | internal
  | server
  | client
  | producer
  | consumer
  | unrecognized (n : Int32)
  deriving DecidableEq, Repr

structure SpanEvent (F : Type) where
  timestamp : UInt64
  name : String
  attributes : AttributeMap F
  droppedAttributesCount : UInt32

structure SpanLink (F : Type) where
  traceId : List UInt8
  spanId : List UInt8
  traceState : String
  attributes : AttributeMap F
  droppedAttributesCount : UInt32

structure SpanStatus where
  code : Int32
  message : String
  deriving DecidableEq, Repr

structure Span (F : Type) where
  traceId : List UInt8
  spanId : List UInt8
  traceState : String
  parentSpanId : List UInt8
  name : String
  kind : SpanKind
  startTime : UInt64
  endTime : UInt64
  attributes : AttributeMap F
  droppedAttributesCount : UInt32
  events : List (Option (SpanEvent F))
  droppedEventsCount : UInt32
  links : List (Option (SpanLink F))
  droppedLinksCount : UInt32
  status : Option SpanStatus

structure Resource (F : Type) where
  attributes : AttributeMap F
  droppedAttributesCount : UInt32

structure InstrumentationLibrary where
  name : String
  version : String
  deriving DecidableEq, Repr

/-- What the conversions to other formats read of a `pdata.Resource`. -/
abbrev ResourceAttributes (F : Type) := Option (AttributeMap F)

/-- `pdata.Traces` as the conversions read it. -/
abbrev SpanTraces (F : Type) := Traces (ResourceAttributes F) (Option (Span F))

/-- No span, event or link, and nothing above a span, is nil. -/
structure NoNilElements {F : Type} (td : SpanTraces F) : Prop where
  resources : none ∉ td
  libraries : ∀ rs, some rs ∈ td → none ∉ rs.libraries
  spans : none ∉ itemsOf td
  events : ∀ span, some span ∈ itemsOf td → none ∉ span.events
  links : ∀ span, some span ∈ itemsOf td → none ∉ span.links

end Collector.Pdata
