import Collector.Pdata.CopyTrees
import Collector.Pdata.Traces

/-!
# Copies of spans and resources

The generated `CopyTo` functions of `consumer/pdata`, into messages that have just been made. A nil
pointer is copied as nil, and a nil entry among some attributes ends the process. `Resource.CopyTo`
copies the attributes and nothing else, so that the number of dropped attributes is lost.

Copies are compared by the values that they stand for: `values` of a message has the values of its
attributes (`normEntries`) in the place of their pointers.
-/

namespace Collector.Pdata

open Lib Scoped List

variable {F : Type}

/-! ## `CopyTo` -/

/-- `Resource.CopyTo`. -/
def Resource.copyTo (ms : Resource F) : Go (Resource F) := do
  let attributes ← AttributeMap.copyTo ms.attributes []
  return ⟨attributes, 0⟩

/-- `InstrumentationLibrary.CopyTo`. -/
def InstrumentationLibrary.copyTo (ms : InstrumentationLibrary) : InstrumentationLibrary :=
  ⟨ms.name, ms.version⟩

/-- `SpanEvent.CopyTo`. -/
def SpanEvent.copyTo (ms : SpanEvent F) : Go (SpanEvent F) := do
  let attributes ← AttributeMap.copyTo ms.attributes []
  return { ms with attributes }

/-- `SpanLink.CopyTo`. -/
def SpanLink.copyTo (ms : SpanLink F) : Go (SpanLink F) := do
  let attributes ← AttributeMap.copyTo ms.attributes []
  return { ms with attributes }

/-- `Span.CopyTo`. -/
def Span.copyTo (ms : Span F) : Go (Span F) := do
  let attributes ← AttributeMap.copyTo ms.attributes []
  let events ← ms.events.mapM (Option.mapM SpanEvent.copyTo)
  let links ← ms.links.mapM (Option.mapM SpanLink.copyTo)
  return { ms with attributes, events, links }

/-- `InstrumentationLibrarySpans`, with pointers to its messages. -/
abbrev LibraryMessage (F : Type) := LibrarySpans (Option InstrumentationLibrary) (Option (Span F))

/-- `ResourceSpans`, with pointers to its messages. -/
abbrev ResourceMessage (F : Type) :=
  ResourceSpans (Option (Resource F)) (Option InstrumentationLibrary) (Option (Span F))

/-- `InstrumentationLibrarySpans.CopyTo`. -/
def LibraryMessage.copyTo (ms : LibraryMessage F) : Go (LibraryMessage F) := do
  let spans ← ms.spans.mapM (Option.mapM Span.copyTo)
  return ⟨ms.library.map InstrumentationLibrary.copyTo, spans⟩

/-- `ResourceSpans.CopyTo`. -/
def ResourceMessage.copyTo (ms : ResourceMessage F) : Go (ResourceMessage F) := do
  let resource ← ms.resource.mapM Resource.copyTo
  let libraries ← ms.libraries.mapM (Option.mapM LibraryMessage.copyTo)
  return ⟨resource, libraries⟩

/-! ## What is copied -/

def Resource.values (ms : Resource F) : Resource F :=
  { ms with attributes := normEntries ms.attributes }

/-- What `CopyTo` makes of a resource. -/
def Resource.copied (ms : Resource F) : Resource F := ⟨normEntries ms.attributes, 0⟩

def SpanEvent.values (ms : SpanEvent F) : SpanEvent F :=
  { ms with attributes := normEntries ms.attributes }

def SpanLink.values (ms : SpanLink F) : SpanLink F :=
  { ms with attributes := normEntries ms.attributes }

def Span.values (ms : Span F) : Span F :=
  { ms with
    attributes := normEntries ms.attributes
    events := ms.events.map (Option.map SpanEvent.values)
    links := ms.links.map (Option.map SpanLink.values) }

def LibraryMessage.values (ms : LibraryMessage F) : LibraryMessage F :=
  { ms with spans := ms.spans.map (Option.map Span.values) }

def ResourceMessage.values (ms : ResourceMessage F) : ResourceMessage F :=
  ⟨ms.resource.map Resource.values, ms.libraries.map (Option.map LibraryMessage.values)⟩

/-- What `CopyTo` makes of resource spans. -/
def ResourceMessage.copied (ms : ResourceMessage F) : ResourceMessage F :=
  ⟨ms.resource.map Resource.copied, ms.libraries.map (Option.map LibraryMessage.values)⟩

/-- No attribute map of the span has a nil entry. -/
structure Span.Present (ms : Span F) : Prop where
  attributes : MapPresent ms.attributes
  events : ∀ event, some event ∈ ms.events → MapPresent event.attributes
  links : ∀ link, some link ∈ ms.links → MapPresent link.attributes

def Resource.Present (ms : Resource F) : Prop := MapPresent ms.attributes

def LibraryMessage.Present (ms : LibraryMessage F) : Prop :=
  ∀ span, some span ∈ ms.spans → span.Present

structure ResourceMessage.Present (ms : ResourceMessage F) : Prop where
  resource : ∀ r, ms.resource = some r → r.Present
  libraries : ∀ ils, some ils ∈ ms.libraries → LibraryMessage.Present ils

theorem AttributeMap.computes_copyTo :
    Computes (fun am : AttributeMap F => AttributeMap.copyTo am []) MapPresent normEntries where
  iff am r := by
    cases am with
    | nil => simp [AttributeMap.copyTo, copyEntries, MapPresent, normEntries]
    | cons kv am => exact initFromAttributeMap_iff

theorem Resource.computes_copyTo :
    Computes (Resource.copyTo (F := F)) Resource.Present Resource.copied where
  iff ms r := by
    simp [Resource.copyTo, Resource.copied, Resource.Present, bind_eq_ok,
      AttributeMap.computes_copyTo.iff, and_assoc, pure, Except.pure]

theorem SpanEvent.computes_copyTo :
    Computes (SpanEvent.copyTo (F := F)) (fun ms => MapPresent ms.attributes) SpanEvent.values where
  iff ms r := by
    simp [SpanEvent.copyTo, SpanEvent.values, bind_eq_ok, AttributeMap.computes_copyTo.iff,
      and_assoc, pure, Except.pure]

theorem SpanLink.computes_copyTo :
    Computes (SpanLink.copyTo (F := F)) (fun ms => MapPresent ms.attributes) SpanLink.values where
  iff ms r := by
    simp [SpanLink.copyTo, SpanLink.values, bind_eq_ok, AttributeMap.computes_copyTo.iff,
      and_assoc, pure, Except.pure]

theorem Span.computes_copyTo : Computes (Span.copyTo (F := F)) Span.Present Span.values where
  iff ms r := by
    simp only [Span.copyTo, bind_eq_ok, AttributeMap.computes_copyTo.iff,
      SpanEvent.computes_copyTo.pointers.iff, SpanLink.computes_copyTo.pointers.iff, and_assoc,
      exists_and_left, exists_eq_left', pure, Except.pure, Except.ok.injEq]
    constructor
    · rintro ⟨ha, he, hl, hr⟩
      exact ⟨⟨ha, he, hl⟩, hr⟩
    · rintro ⟨h, hr⟩
      exact ⟨h.1, h.2, h.3, hr⟩

theorem LibraryMessage.computes_copyTo :
    Computes (LibraryMessage.copyTo (F := F)) LibraryMessage.Present LibraryMessage.values where
  iff ms r := by
    have hlibrary : ms.library.map InstrumentationLibrary.copyTo = ms.library := Option.map_id' ..
    simp only [LibraryMessage.copyTo, bind_eq_ok, Span.computes_copyTo.pointers.iff, and_assoc,
      exists_and_left, exists_eq_left', pure, Except.pure, Except.ok.injEq, hlibrary]
    rfl

/-- **A copy of resource spans** has the values of the original but for the number of dropped
attributes of the resource. -/
theorem ResourceMessage.computes_copyTo :
    Computes (ResourceMessage.copyTo (F := F)) ResourceMessage.Present ResourceMessage.copied where
  iff ms r := by
    simp only [ResourceMessage.copyTo, bind_eq_ok, Resource.computes_copyTo.option.iff,
      LibraryMessage.computes_copyTo.pointers.iff, and_assoc, exists_and_left, exists_eq_left',
      pure, Except.pure, Except.ok.injEq]
    constructor
    · rintro ⟨hr, hl, h⟩
      exact ⟨⟨hr, hl⟩, h⟩
    · rintro ⟨h, hms⟩
      exact ⟨h.1, h.2, hms⟩

/-! ## Copies of copies -/

theorem AttributeMap.copyTo_normEntries (am : AttributeMap F) :
    AttributeMap.copyTo (normEntries am) [] = .ok (normEntries am) := by
  have hinit := initFromAttributeMap_ok (wholeEntries_norm am)
  rw [normEntries_normEntries] at hinit
  exact (computes_copyTo.iff _ _).2 (initFromAttributeMap_iff.1 hinit)

theorem Resource.copyTo_copied (ms : Resource F) : ms.copied.copyTo = .ok ms.copied := by
  rw [Resource.copyTo, Resource.copied, AttributeMap.copyTo_normEntries]
  rfl

theorem Resource.values_copied (ms : Resource F) : ms.copied.values = ms.copied := by
  rw [Resource.values, Resource.copied, normEntries_normEntries]

theorem SpanEvent.copyTo_values (ms : SpanEvent F) : ms.values.copyTo = .ok ms.values := by
  rw [SpanEvent.copyTo, SpanEvent.values, AttributeMap.copyTo_normEntries]
  rfl

theorem SpanLink.copyTo_values (ms : SpanLink F) : ms.values.copyTo = .ok ms.values := by
  rw [SpanLink.copyTo, SpanLink.values, AttributeMap.copyTo_normEntries]
  rfl

theorem Span.copyTo_values (ms : Span F) : ms.values.copyTo = .ok ms.values := by
  rw [Span.copyTo, Span.values, AttributeMap.copyTo_normEntries,
    mapM_fixed SpanEvent.copyTo_values, mapM_fixed SpanLink.copyTo_values]
  rfl

theorem LibraryMessage.copyTo_values (ms : LibraryMessage F) :
    ms.values.copyTo = .ok ms.values := by
  have hlibrary : ms.library.map InstrumentationLibrary.copyTo = ms.library := Option.map_id' ..
  rw [LibraryMessage.copyTo, LibraryMessage.values, mapM_fixed Span.copyTo_values, hlibrary]
  rfl

theorem ResourceMessage.copyTo_copied (ms : ResourceMessage F) :
    ms.copied.copyTo = .ok ms.copied := by
  rw [ResourceMessage.copyTo, ResourceMessage.copied, option_mapM_fixed Resource.copyTo_copied,
    mapM_fixed LibraryMessage.copyTo_values]
  rfl

/-! ## What is lost -/

/-- A resource that has dropped no attributes. -/
def Undropped (r : Option (Resource F)) : Prop := ∀ ms, r = some ms → ms.droppedAttributesCount = 0

theorem map_copied_iff {r : Option (Resource F)} :
    r.map Resource.copied = r.map Resource.values ↔ Undropped r := by
  cases r with
  | none => simp [Undropped]
  | some ms => simp [Undropped, Resource.copied, Resource.values, eq_comm]

end Collector.Pdata
