import Mathlib.Data.List.Sort
import Collector.Go.Errors
import Collector.Go.Runtime
import Collector.Pdata.Traces

/-!
# Zipkin spans

The model of `github.com/openzipkin/zipkin-go/model`, without the fields that no translation reads
or sets, and the traces that it is translated to and from, with their libraries. A
tag map that is nil is an empty one: nothing is written to it.
-/

namespace Collector.Zipkin

structure TraceID where
  high : UInt64
  low : UInt64
  deriving DecidableEq, Repr

inductive Kind where
  | undetermined
  | client
  | server
  | producer
  | consumer
  | other (name : String)
  deriving DecidableEq, Repr

structure Endpoint where
  serviceName : String
  ipv4 : Option (List UInt8) := none
  ipv6 : Option (List UInt8) := none
  port : UInt16 := 0
  deriving DecidableEq, Repr

structure Annotation where
  timestamp : Int
  value : String
  deriving DecidableEq, Repr

structure SpanModel where
  traceId : TraceID
  id : UInt64
  parentId : Option UInt64
  sampled : Option Bool
  err : Option String
  name : String
  kind : Kind
  timestamp : Int
  duration : Int64
  localEndpoint : Option Endpoint
  remoteEndpoint : Option Endpoint
  annotations : List Annotation
  tags : GoMap String String

/-! ## Traces with libraries -/

/-- `InstrumentationLibrarySpans`. -/
structure LibrarySpans (X : Type) where
  library : Option Pdata.InstrumentationLibrary
  spans : List X

/-- `ResourceSpans`; `L` are the spans of a library. -/
structure ResourceSpans (F L : Type) where
  resource : Pdata.ResourceAttributes F
  libraries : List L

/-! ## Sorting -/

/-- `sort.Sort`, by a comparison that may also hold between elements that sort alike. -/
structure InterfaceSort (α : Type) where
  sort : (α → α → Bool) → List α → List α
  perm : ∀ less l, (sort less l).Perm l
  sorted : ∀ less, (∀ a b, less a b ∨ less b a) → (∀ a b c, less a b → less b c → less a c) →
    ∀ l, (sort less l).Pairwise fun a b => less a b

/-- The sort that keeps the order of elements that sort alike. -/
def InterfaceSort.stable {α : Type} : InterfaceSort α where
  sort less l := l.insertionSort fun a b => less a b
  perm _ l := List.perm_insertionSort _ l
  sorted less total trans l := by
    have htotal : Std.Total fun a b => less a b = true := ⟨total⟩
    have htrans : IsTrans α fun a b => less a b = true := ⟨trans⟩
    exact List.pairwise_insertionSort _ l

end Collector.Zipkin
