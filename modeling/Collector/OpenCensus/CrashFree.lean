import Collector.OpenCensus.FromInternal

/-!
# When the translation of traces crashes

Two kinds of spans take the process down: one whose kind becomes an attribute, with no
attributes of its own but some that were dropped (`Unwritable`: the attribute map is nil), and one
with an event of four attributes of which only some belong to a message event (`Mixed`: the others
are read although they were not found). All other traces without nil elements are translated.
-/

namespace Collector.OpenCensus

open Lib Pdata List

variable {F : Type}

/-- The kind is translated to an attribute, and the map that it goes to is nil. -/
structure Unwritable (span : Pdata.Span F) : Prop where
  kind : span.kind = .consumer ∨ span.kind = .producer ∨ span.kind = .internal
  empty : span.attributes.length = 0
  dropped : span.droppedAttributesCount ≠ 0

/-- As many attributes as a message event has, but only some of them its own. -/
structure Mixed (event : SpanEvent F) : Prop where
  length_eq : event.attributes.length = ocMessageEventAttrs.length
  found : ∃ attr ∈ ocMessageEventAttrs, event.attributes.get attr ≠ none
  missing : ∃ attr ∈ ocMessageEventAttrs, event.attributes.get attr = none

/-! ## Events and links -/

theorem returns_deref_bind {α β : Type} {p : Option α} {f : α → Go β} :
    Returns (deref p >>= f) ↔ ∃ a, p = some a ∧ Returns (f a) := by
  rw [returns_bind]
  cases p <;> simp [deref]

variable (t : Tables)

theorem returns_messageEventToOC (attrs : AttributeMap F) :
    Returns (messageEventToOC t attrs) ↔ ∀ attr ∈ ocMessageEventAttrs, attrs.get attr ≠ none := by
  unfold messageEventToOC ocMessageEventAttrs
  simp only [returns_deref_bind, forall_mem_cons, Option.ne_none_iff_exists']
  constructor
  · rintro ⟨type, htype, id, hid, usize, husize, csize, hcsize, -⟩
    exact ⟨⟨type, htype⟩, ⟨id, hid⟩, ⟨usize, husize⟩, ⟨csize, hcsize⟩, nofun⟩
  · rintro ⟨⟨type, htype⟩, ⟨id, hid⟩, ⟨usize, husize⟩, ⟨csize, hcsize⟩, -⟩
    exact ⟨type, htype, id, hid, usize, husize, csize, hcsize, returns_ok _⟩

theorem returns_eventToOC (event : SpanEvent F) :
    Returns (eventToOC t event) ↔ ¬ Mixed event := by
  unfold eventToOC
  split
  case isTrue h =>
    obtain ⟨hlen, hany⟩ := h
    obtain ⟨attr, hattr, hsome⟩ := any_eq_true.1 hany
    have hfound : ∃ attr ∈ ocMessageEventAttrs, event.attributes.get attr ≠ none :=
      ⟨attr, hattr, Option.isSome_iff_ne_none.1 hsome⟩
    rw [returns_bind_pure, returns_messageEventToOC]
    constructor
    · rintro hall ⟨-, -, attr', hattr', hnone⟩
      exact hall attr' hattr' hnone
    · intro hmixed attr' hattr' hnone
      exact hmixed ⟨hlen, hfound, attr', hattr', hnone⟩
  case isFalse h =>
    refine iff_of_true (returns_ok _) fun hmixed => h ⟨hmixed.length_eq, ?_⟩
    obtain ⟨attr, hattr, hne⟩ := hmixed.found
    exact any_eq_true.2 ⟨attr, hattr, Option.isSome_iff_ne_none.2 hne⟩

theorem returns_mapM_deref {α β : Type} {l : List (Option α)} (hl : none ∉ l) {f : α → Go β} :
    Returns (l.mapM fun p => do f (← deref p)) ↔ ∀ a, some a ∈ l → Returns (f a) := by
  rw [returns_mapM]
  constructor
  · intro h a ha
    exact h (some a) ha
  · intro h p hp
    cases p with
    | none => exact absurd hp hl
    | some a => exact h a hp

theorem returns_eventsToOC {events : List (Option (SpanEvent F))}
    (hevents : none ∉ events) (droppedCount : UInt32) :
    Returns (eventsToOC t events droppedCount) ↔ ∀ event, some event ∈ events → ¬ Mixed event := by
  unfold eventsToOC
  split
  case isTrue h =>
    obtain rfl := length_eq_zero_iff.1 h
    refine iff_of_true ?_ nofun
    split <;> exact returns_ok _
  case isFalse h =>
    rw [returns_bind_pure, returns_mapM_deref hevents]
    exact forall₂_congr fun event _ => returns_eventToOC t event

theorem returns_linksToOC {links : List (Option (SpanLink F))} (hlinks : none ∉ links)
    (droppedCount : UInt32) : Returns (linksToOC links droppedCount) := by
  unfold linksToOC
  split
  · split <;> exact returns_ok _
  · rw [returns_bind_pure]
    exact (returns_mapM_deref hlinks).2 fun link _ => returns_ok (linkToOC link)

/-! ## Spans -/

theorem returns_mapWrite {K V : Type} [DecidableEq K] {m : Option (GoMap K V)} {k : K} {v : V} :
    Returns (mapWrite m k v) ↔ m ≠ none := by
  cases m with
  | none => exact iff_of_false (not_returns_error _) (fun h => h rfl)
  | some m => exact iff_of_true (returns_ok _) nofun

/-- Where a kind becomes an attribute, the map it is written to must be there. -/
theorem attributeMap_eq_none_iff (attributes : AttributeMap F) (droppedCount : UInt32) :
    ((attributesMapToOCSpanAttributes attributes droppedCount).getD ⟨some ∅, 0⟩).attributeMap =
      none ↔ attributes.length = 0 ∧ droppedCount ≠ 0 := by
  unfold attributesMapToOCSpanAttributes attributesMapToOCAttributeMap
  by_cases hlen : attributes.length = 0 <;> by_cases hdropped : droppedCount = 0 <;>
    simp [hlen, hdropped]

theorem returns_spanAttributesToOC (span : Pdata.Span F) :
    Returns (spanAttributesToOC span) ↔ ¬ Unwritable span := by
  have hwrite : ∀ kindAttr : AttributeValue F, spanKindToOCAttribute span.kind = some kindAttr →
      (Returns (spanAttributesToOC span) ↔
        ¬ (span.attributes.length = 0 ∧ span.droppedAttributesCount ≠ 0)) := by
    intro kindAttr hkind
    rw [← attributeMap_eq_none_iff, ← Ne, ← returns_mapWrite (k := tagSpanKind) (v := kindAttr)]
    simp only [spanAttributesToOC, hkind]
    exact returns_bind_pure
  have hreturn : spanKindToOCAttribute (F := F) span.kind = none →
      Returns (spanAttributesToOC span) := by
    intro hkind
    simp only [spanAttributesToOC, hkind]
    exact returns_ok _
  cases hkind : span.kind with
  | consumer | producer | internal =>
    rw [hwrite _ (by rw [hkind]; rfl)]
    exact not_congr ⟨fun ⟨h₁, h₂⟩ => ⟨by simp [hkind], h₁, h₂⟩, fun h => ⟨h.empty, h.dropped⟩⟩
  | unspecified | server | client | unrecognized n =>
    refine iff_of_true (hreturn (by rw [hkind]; rfl)) fun h => ?_
    have hno := h.kind
    simp [hkind] at hno

theorem returns_spanToOC {span : Pdata.Span F} (hevents : none ∉ span.events)
    (hlinks : none ∉ span.links) :
    Returns (spanToOC t span) ↔
      ¬ Unwritable span ∧ ∀ event, some event ∈ span.events → ¬ Mixed event := by
  rw [← returns_spanAttributesToOC, ← returns_eventsToOC t hevents span.droppedEventsCount]
  obtain ⟨ocLinks, hok⟩ := returns_linksToOC hlinks span.droppedLinksCount
  unfold spanToOC
  rw [hok]
  simp only [returns_bind]
  constructor
  · rintro ⟨attributes, hattributes, timeEvents, htimeEvents, -⟩
    exact ⟨⟨attributes, hattributes⟩, ⟨timeEvents, htimeEvents⟩⟩
  · rintro ⟨⟨attributes, hattributes⟩, ⟨timeEvents, htimeEvents⟩⟩
    exact ⟨attributes, hattributes, timeEvents, htimeEvents, ocLinks, rfl, returns_ok _⟩

theorem returns_librarySpansToOC (ils : LibraryItems (Option (Pdata.Span F))) :
    Returns (librarySpansToOC t (some ils)) ↔
      ∀ span, some span ∈ ils.items → Returns (spanToOC t span) := by
  unfold librarySpansToOC
  rw [returns_mapM]
  exact forall_congr' fun span => by rw [reduceOption_mem_iff]

theorem returns_resourceSpansToOC [GoFloat F]
    {rs : ResourceItems (Pdata.ResourceAttributes F) (Option (Pdata.Span F))}
    (hrs : none ∉ rs.libraries) : Returns (resourceSpansToOC t rs) ↔
      ∀ ils, some ils ∈ rs.libraries → Returns (librarySpansToOC t (some ils)) := by
  unfold resourceSpansToOC
  cases hlibs : rs.libraries with
  | nil => exact iff_of_true (returns_ok _) nofun
  | cons first libs =>
    rw [hlibs] at hrs
    cases first with
    | none => exact absurd mem_cons_self hrs
    | some ils₀ =>
      show Returns (List.mapM (librarySpansToOC t) (some ils₀ :: libs) >>= _) ↔ _
      rw [returns_bind_pure, returns_mapM]
      constructor
      · intro h ils hils
        exact h (some ils) hils
      · intro h lib hlib
        cases lib with
        | none => exact absurd hlib hrs
        | some ils => exact h ils hlib

theorem some_mem_itemsOf {R X : Type} {td : List (Option (ResourceItems R X))} {x : X} :
    x ∈ itemsOf td ↔ ∃ rs, some rs ∈ td ∧ ∃ ils, some ils ∈ rs.libraries ∧ x ∈ ils.items := by
  simp only [itemsOf, mem_flatMap]
  constructor
  · rintro ⟨_ | rs, hrs, hx⟩
    · cases hx
    · obtain ⟨_ | ils, hils, hx⟩ := mem_flatMap.1 hx
      · cases hx
      · exact ⟨rs, hrs, ils, hils, hx⟩
  · rintro ⟨rs, hrs, ils, hils, hx⟩
    exact ⟨some rs, hrs, mem_flatMap.2 ⟨some ils, hils, hx⟩⟩

/-- **When traces are translated**: `TraceDataToOC` returns, for traces without nil elements,
exactly when no span is unwritable and no event is mixed. -/
theorem returns_traceDataToOC_iff [GoFloat F] (t : Tables) {td : SpanTraces F}
    (h : NoNilElements td) :
    Returns (traceDataToOC t td) ↔ ∀ span, some span ∈ itemsOf td →
      ¬ Unwritable span ∧ ∀ event, some event ∈ span.events → ¬ Mixed event := by
  have hspan : ∀ span, some span ∈ itemsOf td → (Returns (spanToOC t span) ↔
      ¬ Unwritable span ∧ ∀ event, some event ∈ span.events → ¬ Mixed event) :=
    fun span hmem => returns_spanToOC t (h.events span hmem) (h.links span hmem)
  calc Returns (traceDataToOC t td)
      ↔ ∀ rs, some rs ∈ td → Returns (resourceSpansToOC t rs) := by
        unfold traceDataToOC
        rw [returns_mapM]
        exact forall_congr' fun rs => by rw [reduceOption_mem_iff]
    _ ↔ ∀ span, some span ∈ itemsOf td → Returns (spanToOC t span) := by
        constructor
        · intro hall span hmem
          obtain ⟨rs, hrs, ils, hils, hitem⟩ := some_mem_itemsOf.1 hmem
          have hlib := (returns_resourceSpansToOC t (h.libraries rs hrs)).1 (hall rs hrs) ils hils
          exact (returns_librarySpansToOC t ils).1 hlib span hitem
        · intro hall rs hrs
          refine (returns_resourceSpansToOC t (h.libraries rs hrs)).2 fun ils hils => ?_
          refine (returns_librarySpansToOC t ils).2 fun span hitem => ?_
          exact hall span (some_mem_itemsOf.2 ⟨rs, hrs, ils, hils, hitem⟩)
    _ ↔ _ := forall₂_congr hspan

/-! ## Spans that crash -/

def noTables : Tables where
  quote := quoted
  atoi _ := none
  parseTime _ := none
  languageValue _ := none
  messageEventTypeValue _ := none

def exampleSpan (kind : Pdata.SpanKind) (attributes : AttributeMap Int) (dropped : UInt32)
    (events : List (Option (SpanEvent Int))) : Pdata.Span Int where
  traceId := [1]
  spanId := [2]
  traceState := ""
  parentSpanId := []
  name := "span"
  kind := kind
  startTime := 1
  endTime := 2
  attributes := attributes
  droppedAttributesCount := dropped
  events := events
  droppedEventsCount := 0
  links := []
  droppedLinksCount := 0
  status := none

def exampleTraces (span : Pdata.Span Int) : SpanTraces Int :=
  [some ⟨none, [some ⟨[some span]⟩]⟩]

theorem noNilElements_exampleTraces (span : Pdata.Span Int) (hevents : none ∉ span.events)
    (hlinks : none ∉ span.links) : NoNilElements (exampleTraces span) where
  resources := by simp [exampleTraces]
  libraries := by simp [exampleTraces]
  spans := by simp [exampleTraces, itemsOf]
  events := by
    intro span' hmem
    have heq : span' = span := by simpa [exampleTraces, itemsOf] using hmem
    rw [heq]
    exact hevents
  links := by
    intro span' hmem
    have heq : span' = span := by simpa [exampleTraces, itemsOf] using hmem
    rw [heq]
    exact hlinks

def mixedEvent : SpanEvent Int where
  timestamp := 1
  name := "event"
  attributes := [.mk "opencensus.timeevent.messageevent.type" (.string "SENT"),
    .mk "opencensus.timeevent.messageevent.id" (.int 1),
    .mk "opencensus.timeevent.messageevent.usize" (.int 1), .mk "other" (.int 1)]
  droppedAttributesCount := 0

attribute [local instance] GoFloat.whole

theorem returns_server_span :
    Returns (traceDataToOC noTables (exampleTraces (exampleSpan .server [] 1 []))) := by
  have hnil := noNilElements_exampleTraces (exampleSpan .server [] 1 []) (by simp [exampleSpan])
    (by simp [exampleSpan])
  refine (returns_traceDataToOC_iff noTables hnil).2 fun span hmem => ?_
  obtain rfl : span = exampleSpan .server [] 1 [] := by
    simpa [exampleTraces, itemsOf] using hmem
  refine ⟨fun h => ?_, by simp [exampleSpan]⟩
  rcases h.kind with hkind | hkind | hkind <;> cases hkind

/-- A consumer span whose attributes were all dropped, and a span with a mixed event. -/
theorem translation_crashes :
    (NoNilElements (exampleTraces (exampleSpan .consumer [] 1 [])) ∧
      traceDataToOC noTables (exampleTraces (exampleSpan .consumer [] 1 [])) =
        .error .nilMapWrite) ∧
    (NoNilElements (exampleTraces (exampleSpan .server [] 0 [some mixedEvent])) ∧
      traceDataToOC noTables (exampleTraces (exampleSpan .server [] 0 [some mixedEvent])) =
        .error .nilDereference) :=
  ⟨⟨noNilElements_exampleTraces _ (by simp [exampleSpan]) (by simp [exampleSpan]), rfl⟩,
    noNilElements_exampleTraces _ (by simp [exampleSpan]) (by simp [exampleSpan]), rfl⟩

end Collector.OpenCensus
