import Mathlib.Data.List.TakeWhile
import Collector.OpenCensus.CrashFree
import Collector.OpenCensus.MetricsTrip
import Collector.OpenCensus.ToTraces
import Collector.Pdata.FiniteMap

/-!
# Spans through OpenCensus and back

The attributes of a span become a map, which is read in any order, so they come back as a
permutation. A kind that OpenCensus does not have travels as one more entry of that map: the way
there writes it, and the way back reads and erases it before the map is read
(`spanAttributesToOC_trip`).
-/

namespace Collector.OpenCensus

open Lib
open Pdata (AnyValue KeyValue AttributeMap SpanEvent SpanLink SpanStatus)
open Pdata.AttributeMap (Scalar ScalarMap scalarMap_of_forall)
open List

variable {F : Type}

/-! ## Texts -/

theorem getValue_stringToTruncatableString (s : String) :
    TruncatableString.getValue (stringToTruncatableString s) = s := by
  unfold stringToTruncatableString
  split
  case isTrue h => exact h.symm
  case isFalse => rfl

/-- A trace state that is a list of `key=value`: every piece between commas has a `=`. -/
def PairsOnly (traceState : String) : Prop :=
  traceState = "" ∨ ∀ pair ∈ traceState.toList.splitOn ',', '=' ∈ pair

instance (traceState : String) : Decidable (PairsOnly traceState) :=
  inferInstanceAs (Decidable (_ ∨ _))

/-- The entry that `traceStateToOC` makes of a piece. -/
def entryOf (pair : List Char) : TracestateEntry :=
  ⟨.ofList (pair.takeWhile (· ≠ '=')), .ofList (pair.dropWhile (· ≠ '=')).tail⟩

theorem splitPair_eq {pair : List Char} (h : '=' ∈ pair) :
    splitPair pair = [(entryOf pair).key, (entryOf pair).value] := by
  unfold splitPair entryOf
  rw [span_eq_takeWhile_dropWhile]
  cases hrest : pair.dropWhile (· ≠ '=') with
  | nil =>
    rw [dropWhile_eq_nil_iff] at hrest
    simpa using hrest _ h
  | cons c rest => rfl

theorem toList_entryOf {pair : List Char} (h : '=' ∈ pair) :
    ((entryOf pair).key ++ "=" ++ (entryOf pair).value).toList = pair := by
  have hsplit := takeWhile_append_dropWhile (p := (· ≠ '=')) (l := pair)
  cases hrest : pair.dropWhile (· ≠ '=') with
  | nil =>
    rw [dropWhile_eq_nil_iff] at hrest
    simpa using hrest _ h
  | cons c rest =>
    have hc : c = '=' := by
      have := head?_dropWhile_not (· ≠ '=') pair
      rw [hrest] at this
      simpa using this
    rw [hrest, hc] at hsplit
    simp only [entryOf, hrest, tail_cons, String.toList_append, String.toList_ofList]
    rw [append_assoc]
    exact hsplit

theorem traceStateToOC_eq {traceState : String} (hne : traceState ≠ "")
    (h : ∀ pair ∈ traceState.toList.splitOn ',', '=' ∈ pair) :
    traceStateToOC traceState = some ⟨(traceState.toList.splitOn ',').map entryOf⟩ := by
  unfold traceStateToOC
  rw [if_neg hne, ← filterMap_eq_map]
  refine congrArg (some ∘ Tracestate.mk) (filterMap_congr fun pair hpair => ?_)
  rw [splitPair_eq (h pair hpair)]
  rfl

theorem traceState_trip {traceState : String} (h : PairsOnly traceState) :
    ocTraceStateToInternal (traceStateToOC traceState) = traceState := by
  by_cases hempty : traceState = ""
  · subst hempty
    rfl
  · have hpairs := h.resolve_left hempty
    rw [traceStateToOC_eq hempty hpairs]
    refine String.toList_injective ?_
    simp only [ocTraceStateToInternal]
    rw [String.toList_intercalate, map_map, map_map]
    have hback : (traceState.toList.splitOn ',').map (String.toList ∘
        (fun entry : TracestateEntry => entry.key ++ "=" ++ entry.value) ∘ entryOf) =
        traceState.toList.splitOn ',' :=
      (map_congr_left fun pair hpair => toList_entryOf (hpairs pair hpair)).trans
        (map_id' _)
    rw [Function.comp_assoc, hback]
    exact intercalate_splitOn ','

/-! ## Attributes -/

/-- The value that `initAttributeMapFromOC` sets. -/
def AttributeValue.toInternal : AttributeValue F → AnyValue F
  | .string s => .string (TruncatableString.getValue s)
  | .int n => .int n
  | .bool b => .bool b
  | .double x => .double x

theorem upsertFromOC_eq (dest : AttributeMap F) (key : String) (v : AttributeValue F) :
    upsertFromOC dest key v = dest.upsertTo key v.toInternal := by
  cases v <;> rfl

theorem toInternal_attributeValueToOC {v : AnyValue F} (h : Scalar v) :
    (attributeValueToOC v).toInternal = v := by
  cases v with
  | string s => exact congrArg AnyValue.string (getValue_stringToTruncatableString s)
  | bool | int | double => rfl
  | nil | null | kvlistNil | kvlist | arrayNil | array => exact h.elim

/-- What the map of the attributes holds on the way. -/
def ocEntries (am : AttributeMap F) : List (String × AttributeValue F) :=
  am.entries.map fun p => (p.1, attributeValueToOC p.2)

/-- `attributes` hold the entries of `am`. -/
def Holds (am : AttributeMap F) (attributes : Option (SpanAttributes F)) : Prop :=
  (SpanAttributes.pairs attributes).Perm (ocEntries am)

/-- The map that `attributesMapToOCAttributeMap` fills. -/
def ocTable (am : AttributeMap F) : GoMap String (AttributeValue F) :=
  enter Prod.fst (fun p => attributeValueToOC p.2) ∅ am.entries

variable {am : AttributeMap F} {m : GoMap String (AttributeValue F)}

theorem attributesMapToOCAttributeMap_eq (h : am ≠ []) :
    attributesMapToOCAttributeMap am = some (ocTable am) := by
  unfold attributesMapToOCAttributeMap
  rw [if_neg (mt length_eq_zero_iff.1 h)]
  exact congrArg some (am.foldl_entries
    (fun (m : GoMap String (AttributeValue F)) k v => m.insert k (attributeValueToOC v)) ∅)

theorem pairs_ocTable (h : am.IsMap) : (ocTable am).pairs.Perm (ocEntries am) := by
  have hnodup : (am.entries.map Prod.fst).Nodup := by
    rw [am.map_fst_entries]
    exact h.nodup
  have hentries := entries_enter_perm (fun p => attributeValueToOC p.2) hnodup
    (m := ∅) fun p _ => AList.notMem_empty p.1
  have hpairs := hentries.map fun e => (e.1, e.2)
  rw [map_append, map_map] at hpairs
  exact hpairs

theorem holds_attributes (h : am.IsMap) (dropped : UInt32) :
    Holds am (attributesMapToOCSpanAttributes am dropped) := by
  unfold attributesMapToOCSpanAttributes
  by_cases hempty : am = []
  · subst hempty
    split
    · exact .refl _
    · exact .refl _
  · rw [if_neg fun hboth => hempty (length_eq_zero_iff.1 hboth.1),
      attributesMapToOCAttributeMap_eq hempty]
    exact pairs_ocTable h

theorem dropped_attributes (am : AttributeMap F) (dropped : UInt32) :
    ocAttrsToDroppedAttributes (attributesMapToOCSpanAttributes am dropped) = dropped := by
  unfold attributesMapToOCSpanAttributes
  split
  case isTrue h => exact h.2.symm
  case isFalse => exact UInt32.toUInt32_toInt32 dropped

theorem initAttributeMapFromOC_perm (h : ScalarMap am) {attributes : Option (SpanAttributes F)}
    (ho : Holds am attributes) (ord : MapOrder (String × AttributeValue F)) :
    (initAttributeMapFromOC ord attributes).Perm am := by
  have hvisited : (ord.order (SpanAttributes.pairs attributes)).Perm (ocEntries am) :=
    (ord.perm _).trans ho
  have hkeys : ((ocEntries am).map Prod.fst).Nodup := by
    rw [ocEntries, map_map]
    exact am.map_fst_entries ▸ h.nodup
  have hback : (ocEntries am).map (fun x => KeyValue.mk x.1 x.2.toInternal) = am := by
    rw [ocEntries, map_map]
    refine Eq.trans (map_congr_left fun p hp => ?_) h.map_entries
    exact congrArg (KeyValue.mk p.1) (toInternal_attributeValueToOC
      (h.scalar p.1 p.2 (AttributeMap.mem_entries.1 hp)))
  unfold initAttributeMapFromOC
  simp only [upsertFromOC_eq]
  rw [← foldl_map (f := fun x : String × AttributeValue F => (x.1, x.2.toInternal))
    (g := fun (am : AttributeMap F) p => am.upsertTo p.1 p.2), AttributeMap.foldl_upsertTo]
  · rw [nil_append, map_map]
    exact (hvisited.map _).trans (.of_eq hback)
  · rw [map_map]
    exact (hvisited.map _).nodup_iff.2 hkeys
  · intro p _ hmem
    cases hmem

theorem scalar_initAttributeMapFromOC (ord : MapOrder (String × AttributeValue F))
    (attributes : Option (SpanAttributes F)) :
    AttributeMap.AllValues Scalar (initAttributeMapFromOC ord attributes) := by
  have hfold : ∀ (l : List (String × AttributeValue F)) (dest : AttributeMap F),
      dest.AllValues Scalar →
        AttributeMap.AllValues Scalar (l.foldl (fun dest x => upsertFromOC dest x.1 x.2) dest) := by
    intro l
    induction l with
    | nil => exact fun _ h => h
    | cons x l ih =>
      intro dest h
      have hscalar : Scalar x.2.toInternal := by cases x.2 <;> trivial
      refine ih (upsertFromOC dest x.1 x.2) ?_
      rw [upsertFromOC_eq]
      exact h.upsertTo x.1 hscalar
  refine hfold _ [] ?_
  intro k v hmem
  cases hmem

theorem sameProcess_trip {am' : AttributeMap F} (h : am.IsMap) (hp : am'.Perm am) :
    ocSameProcessAsParentSpanToInternal (attributesMapToOCSameProcessAsParentSpan am) am' =
      am' := by
  unfold attributesMapToOCSameProcessAsParentSpan
  split
  case h_1 b hget =>
    have hget' : am'.get "opencensus.same_process_as_parent_span" = some (.bool b) :=
      (h.perm hp).get_of_mem (hp.mem_iff.2 (AttributeMap.mem_of_get hget))
    simp only [ocSameProcessAsParentSpanToInternal, AttributeMap.upsertBool, AttributeMap.upsertTo,
      hget']
    exact AttributeMap.put_of_get hget'
  case h_2 => rfl

/-! ## The kind -/

theorem lookup_tagSpanKind (hkey : tagSpanKind ∉ am.keys) (ho : m.pairs.Perm (ocEntries am)) :
    m.lookup tagSpanKind = none := by
  cases hlookup : m.lookup tagSpanKind with
  | none => rfl
  | some v =>
    obtain ⟨p, hp, heq⟩ := mem_map.1 (ho.mem_iff.1 (GoMap.mem_pairs.2 hlookup))
    refine absurd ?_ hkey
    rw [← am.map_fst_entries]
    exact mem_map.2 ⟨p, hp, congrArg Prod.fst heq⟩

theorem erase_insert {k : String} (h : k ∉ m) (v : AttributeValue F) :
    (m.insert k v).erase k = m := by
  refine AList.ext ?_
  show ((m.insert k v).entries).kerase k = m.entries
  rw [AList.entries_insert_of_notMem h]
  exact kerase_cons_eq rfl

/-- Kinds that OpenCensus has no value for are read back from the attribute that stands for
them. -/
theorem ocSpanKindToInternal_insert {text : String} {kind : Pdata.SpanKind}
    (hkind : openTracingSpanKind text = some kind) (hm : m.lookup tagSpanKind = none)
    (dropped : Int32) :
    ocSpanKindToInternal .unspecified
        (some ⟨some (m.insert tagSpanKind (.string (stringToTruncatableString text))), dropped⟩) =
      (kind, some ⟨some m, dropped⟩) := by
  simp [ocSpanKindToInternal, getValue_stringToTruncatableString, hkind,
    erase_insert (AList.lookup_eq_none.1 hm)]

theorem ocSpanKindToInternal_unspecified (hkey : tagSpanKind ∉ am.keys)
    {attributes : Option (SpanAttributes F)} (ho : Holds am attributes) :
    ocSpanKindToInternal .unspecified attributes = (.unspecified, attributes) := by
  match attributes, ho with
  | none, _ => rfl
  | some ⟨none, _⟩, _ => rfl
  | some ⟨some m, dropped⟩, ho =>
    simp [ocSpanKindToInternal, lookup_tagSpanKind hkey ho]

/-- The way back finds the kind of the span and its attributes. -/
def Carries (span : Pdata.Span F) (attributes : Option (SpanAttributes F)) : Prop :=
  ∃ attributes', ocSpanKindToInternal (spanKindToOC span.kind) attributes =
      (span.kind, attributes') ∧
    Holds span.attributes attributes' ∧
    ocAttrsToDroppedAttributes attributes' = span.droppedAttributesCount

theorem exists_table (h : am.IsMap) {dropped : UInt32} (hdropped : am = [] → dropped = 0) :
    ∃ m : GoMap String (AttributeValue F),
      (attributesMapToOCSpanAttributes am dropped).getD ⟨some ∅, 0⟩ = ⟨some m, dropped.toInt32⟩ ∧
      m.pairs.Perm (ocEntries am) := by
  by_cases hempty : am = []
  · rw [hempty, hdropped hempty]
    exact ⟨∅, rfl, .refl _⟩
  · refine ⟨ocTable am, ?_, pairs_ocTable h⟩
    unfold attributesMapToOCSpanAttributes
    rw [if_neg fun hboth => hempty (length_eq_zero_iff.1 hboth.1),
      attributesMapToOCAttributeMap_eq hempty]
    rfl

section

variable {span : Pdata.Span F} (h : span.attributes.IsMap)
  (hkey : tagSpanKind ∉ span.attributes.keys)
  (hdropped : span.attributes = [] → span.droppedAttributesCount = 0)

include h hkey hdropped

theorem carries_written (text : String) (htext : openTracingSpanKind text = some span.kind)
    (hoc : spanKindToOC span.kind = .unspecified) (hattr : spanKindToOCAttribute span.kind =
      some (AttributeValue.string (F := F) (stringToTruncatableString text))) :
    ∃ attributes, spanAttributesToOC span = .ok attributes ∧ Carries span attributes := by
  obtain ⟨m, hm, hpairs⟩ := exists_table h hdropped
  refine ⟨some ⟨some (m.insert tagSpanKind (.string (stringToTruncatableString text))),
    span.droppedAttributesCount.toInt32⟩, ?_, some ⟨some m, _⟩, ?_, hpairs,
    UInt32.toUInt32_toInt32 _⟩
  · unfold spanAttributesToOC
    rw [hattr]
    simp only [hm]
    rfl
  · rw [hoc]
    exact ocSpanKindToInternal_insert htext (lookup_tagSpanKind hkey hpairs) _

theorem spanAttributesToOC_trip (hkind : ∀ n, span.kind ≠ .unrecognized n) :
    ∃ attributes, spanAttributesToOC span = .ok attributes ∧ Carries span attributes := by
  have ho := holds_attributes h span.droppedAttributesCount
  have hd := dropped_attributes span.attributes span.droppedAttributesCount
  have hplain : spanKindToOCAttribute (F := F) span.kind = none → spanAttributesToOC span =
      .ok (attributesMapToOCSpanAttributes span.attributes span.droppedAttributesCount) := by
    intro hattr
    unfold spanAttributesToOC
    rw [hattr]
  cases hk : span.kind with
  | unrecognized n => exact absurd hk (hkind n)
  | server | client => exact ⟨_, hplain (by rw [hk]; rfl), _, by rw [hk]; rfl, ho, hd⟩
  | unspecified =>
    refine ⟨_, hplain (by rw [hk]; rfl), _, ?_, ho, hd⟩
    rw [hk]
    exact ocSpanKindToInternal_unspecified hkey ho
  | consumer =>
    exact carries_written h hkey hdropped "consumer" (by rw [hk]; rfl) (by rw [hk]; rfl)
      (by rw [hk]; rfl)
  | producer =>
    exact carries_written h hkey hdropped "producer" (by rw [hk]; rfl) (by rw [hk]; rfl)
      (by rw [hk]; rfl)
  | internal =>
    exact carries_written h hkey hdropped "internal" (by rw [hk]; rfl) (by rw [hk]; rfl)
      (by rw [hk]; rfl)

end

/-! ## Events and links -/

structure SameEvent (e e' : SpanEvent F) : Prop where
  attributes : e'.attributes.Perm e.attributes
  rest : e' = { e with attributes := e'.attributes }

structure SameLink (l l' : SpanLink F) : Prop where
  attributes : l'.attributes.Perm l.attributes
  rest : l' = { l with attributes := l'.attributes }

def LikeMessageEvent (e : SpanEvent F) : Prop :=
  e.attributes.length = 4 ∧ ∃ key ∈ ocMessageEventAttrs, key ∈ e.attributes.keys

theorem eventToOC_eq (t : Tables) {e : SpanEvent F} (h : ¬LikeMessageEvent e) :
    eventToOC t e = .ok {
      time := unixNanoToTimestamp e.timestamp
      value := .annotationEvent {
        description := stringToTruncatableString e.name
        attributes :=
          attributesMapToOCSpanAttributes e.attributes e.droppedAttributesCount } } := by
  refine if_neg ?_
  rintro ⟨hlen, hany⟩
  obtain ⟨key, hkey, hget⟩ := any_eq_true.1 hany
  refine h ⟨hlen, key, hkey, AttributeMap.mem_keys_iff.2 ?_⟩
  exact Option.isSome_iff_ne_none.1 hget

theorem event_trip (t : Tables) (typeName : Int32 → String) {e : SpanEvent F}
    (h : ¬LikeMessageEvent e) (ha : ScalarMap e.attributes) :
    ∃ oc, eventToOC t e = .ok oc ∧ ∀ ord, SameEvent e (ocEventToInternal typeName ord oc) := by
  refine ⟨_, eventToOC_eq t h, fun ord => ⟨?_, ?_⟩⟩
  · exact initAttributeMapFromOC_perm ha (holds_attributes ha.toIsMap _) ord
  · simp only [ocEventToInternal, timestampToUnixNano_unixNanoToTimestamp,
      getValue_stringToTruncatableString, dropped_attributes]

theorem link_trip {l : SpanLink F} (h : PairsOnly l.traceState) (ha : ScalarMap l.attributes)
    (ord : MapOrder (String × AttributeValue F)) :
    SameLink l (ocLinkToInternal ord (linkToOC l)) where
  attributes := initAttributeMapFromOC_perm ha (holds_attributes ha.toIsMap _) ord
  rest := by simp only [ocLinkToInternal, linkToOC, traceState_trip h, dropped_attributes]

theorem mapM_deref_trip {α β O : Type} {f : α → Go β} {g : O → β → α} {same : α → α → Prop}
    {l : List (Option α)} (h : ∀ a, some a ∈ l → ∃ b, f a = .ok b ∧ ∀ ord, same a (g ord b))
    (hnil : none ∉ l) :
    ∃ bs, l.mapM (fun a => do f (← deref a)) = .ok bs ∧ ∀ ords : Nat → O,
      List.Forall₂ (Option.Rel same) l (bs.mapIdx fun i b => some (g (ords i) b)) := by
  induction l with
  | nil => exact ⟨[], rfl, fun _ => .nil⟩
  | cons a l ih =>
    obtain ⟨hne, hnil⟩ := not_or.1 (mt mem_cons.2 hnil)
    obtain ⟨bs, hbs, hsame⟩ := ih (fun a ha => h a (mem_cons_of_mem _ ha)) hnil
    obtain ⟨a, rfl⟩ := Option.ne_none_iff_exists'.1 (Ne.symm hne)
    obtain ⟨b, hb, hab⟩ := h a mem_cons_self
    refine ⟨b :: bs, ?_, fun ords => ?_⟩
    · rw [mapM_cons, hbs]
      simp only [deref, ok_bind, hb]
      rfl
    · rw [mapIdx_cons]
      exact .cons (.some (hab _)) (hsame fun i => ords (i + 1))

theorem events_trip (t : Tables) (typeName : Int32 → String) {events : List (Option (SpanEvent F))}
    (h : ∀ e, some e ∈ events → ¬LikeMessageEvent e ∧ ScalarMap e.attributes)
    (hnil : none ∉ events) (dropped : UInt32) :
    ∃ oc, eventsToOC t events dropped = .ok oc ∧ ∀ ords,
      List.Forall₂ (Option.Rel SameEvent) events (ocEventsToInternal typeName ords oc).1 ∧
      (ocEventsToInternal typeName ords oc).2 = dropped := by
  obtain ⟨ocEvents, hrun, hsame⟩ :=
    mapM_deref_trip (fun e he => event_trip t typeName (h e he).1 (h e he).2) hnil
  unfold eventsToOC
  split
  case isTrue hlen =>
    obtain rfl := length_eq_zero_iff.1 hlen
    split
    case isTrue hzero => exact ⟨none, rfl, fun _ => ⟨.nil, hzero.symm⟩⟩
    case isFalse =>
      refine ⟨_, rfl, fun ords => ⟨.nil, ?_⟩⟩
      simp [ocEventsToInternal]
  case isFalse =>
    refine ⟨some { timeEvent := ocEvents, droppedAnnotationsCount := dropped.toInt32 },
      by rw [hrun]; rfl, fun ords => ⟨hsame ords, ?_⟩⟩
    simp [ocEventsToInternal]

theorem links_trip {links : List (Option (SpanLink F))}
    (h : ∀ l, some l ∈ links → PairsOnly l.traceState ∧ ScalarMap l.attributes)
    (hnil : none ∉ links) (dropped : UInt32) :
    ∃ oc, linksToOC links dropped = .ok oc ∧ ∀ ords,
      List.Forall₂ (Option.Rel SameLink) links (ocLinksToInternal ords oc).1 ∧
      (ocLinksToInternal ords oc).2 = dropped := by
  obtain ⟨ocLinks, hrun, hsame⟩ := mapM_deref_trip (f := fun l => pure (linkToOC l))
    (fun l hl => ⟨_, rfl, link_trip (h l hl).1 (h l hl).2⟩) hnil
  unfold linksToOC
  split
  case isTrue hlen =>
    obtain rfl := length_eq_zero_iff.1 hlen
    split
    case isTrue hzero => exact ⟨none, rfl, fun _ => ⟨.nil, hzero.symm⟩⟩
    case isFalse => exact ⟨_, rfl, fun ords => ⟨.nil, UInt32.toUInt32_toInt32 _⟩⟩
  case isFalse =>
    exact ⟨some { link := ocLinks, droppedLinksCount := dropped.toInt32 }, by rw [hrun]; rfl,
      fun ords => ⟨hsame ords, UInt32.toUInt32_toInt32 _⟩⟩

/-! ## Spans -/

/-- A span that OpenCensus has room for, its parts apart. -/
structure SpanWhole (span : Pdata.Span F) : Prop where
  attributes : ScalarMap span.attributes
  noKindKey : tagSpanKind ∉ span.attributes.keys
  dropped : span.attributes = [] → span.droppedAttributesCount = 0
  parent : span.parentSpanId = [] ∨ hasBytesValue span.parentSpanId = true
  traceState : PairsOnly span.traceState
  events : ∀ e, some e ∈ span.events → ¬LikeMessageEvent e
  links : ∀ l, some l ∈ span.links → PairsOnly l.traceState

/-- Events and links that OpenCensus has room for. -/
structure PartsWhole (span : Pdata.Span F) : Prop where
  noNilEvents : none ∉ span.events
  noNilLinks : none ∉ span.links
  events : ∀ e, some e ∈ span.events → ScalarMap e.attributes
  links : ∀ l, some l ∈ span.links → ScalarMap l.attributes

/-- The same span, up to the order of attributes. -/
structure SameSpan (span span' : Pdata.Span F) : Prop where
  attributes : span'.attributes.Perm span.attributes
  events : List.Forall₂ (Option.Rel SameEvent) span.events span'.events
  links : List.Forall₂ (Option.Rel SameLink) span.links span'.links
  rest : span' = { span with
    attributes := span'.attributes, events := span'.events, links := span'.links }

theorem status_trip (status : Option SpanStatus) :
    ocStatusToInternal (statusToOC status) = status := by
  cases status <;> rfl

theorem parent_trip {parent : List UInt8} (h : parent = [] ∨ hasBytesValue parent = true) :
    (if hasBytesValue parent then parent else []) = parent := by
  rcases h with rfl | h
  · rfl
  · rw [if_pos h]

/-- **A span comes back from OpenCensus as it was.** -/
theorem spans_survive (t : Tables) (typeName : Int32 → String) {span : Pdata.Span F}
    (h : SpanWhole span) (hkind : ∀ n, span.kind ≠ .unrecognized n) (hparts : PartsWhole span) :
    ∃ oc, spanToOC t span = .ok oc ∧
      ∀ ords, SameSpan span (ocSpanToInternal typeName ords oc) := by
  obtain ⟨attributes, hattributes, attributes', hback, ho, hd⟩ :=
    spanAttributesToOC_trip h.attributes.toIsMap h.noKindKey h.dropped hkind
  obtain ⟨events, hev, hevsame⟩ := events_trip t typeName
    (fun e he => ⟨h.events e he, hparts.events e he⟩) hparts.noNilEvents span.droppedEventsCount
  obtain ⟨links, hlk, hlksame⟩ := links_trip
    (fun l hl => ⟨h.links l hl, hparts.links l hl⟩) hparts.noNilLinks span.droppedLinksCount
  refine ⟨_, by rw [spanToOC, hattributes, hev, hlk]; rfl, fun ords => ?_⟩
  have hperm := initAttributeMapFromOC_perm h.attributes ho ords.span
  constructor
  case attributes =>
    simp only [ocSpanToInternal, hback]
    rw [sameProcess_trip h.attributes.toIsMap hperm]
    exact hperm
  case events => exact (hevsame ords.events).1
  case links => exact (hlksame ords.links).1
  case rest =>
    simp only [ocSpanToInternal, hback, hd, traceState_trip h.traceState, parent_trip h.parent,
      getValue_stringToTruncatableString, timestampToUnixNano_unixNanoToTimestamp,
      (hevsame ords.events).2, (hlksame ords.links).2, status_trip]

def travellingSpan : Pdata.Span Int :=
  { exampleSpan .consumer [.mk "b" (.bool true), .mk "a" (.string "x")] 3
      [some ⟨5, "event", [.mk "n" (.int 1)], 2⟩] with
    traceState := "k=v,l=w=w"
    parentSpanId := [0, 7]
    links := [some ⟨[3], [4], "k=", [.mk "d" (.double 2)], 1⟩]
    droppedLinksCount := 6
    status := some ⟨2, "failed"⟩ }

theorem spanWhole_travellingSpan : SpanWhole travellingSpan where
  attributes := scalarMap_of_forall (by simp [travellingSpan, exampleSpan, Scalar]) (by decide)
  noKindKey := by decide
  dropped h := by cases h
  parent := .inr rfl
  traceState := by decide
  events e he := by
    obtain rfl : e = _ := Option.some.inj (mem_singleton.1 he)
    rintro ⟨hlen, -⟩
    cases hlen
  links l hl := by
    obtain rfl : l = _ := Option.some.inj (mem_singleton.1 hl)
    decide

theorem partsWhole_travellingSpan : PartsWhole travellingSpan where
  noNilEvents := by simp [travellingSpan, exampleSpan]
  noNilLinks := by simp [travellingSpan]
  events e he := by
    obtain rfl : e = _ := Option.some.inj (mem_singleton.1 he)
    exact scalarMap_of_forall (by simp [Scalar]) (by decide)
  links l hl := by
    obtain rfl : l = _ := Option.some.inj (mem_singleton.1 hl)
    exact scalarMap_of_forall (by simp [Scalar]) (by decide)

theorem travellingSpan_survives :
    SpanWhole travellingSpan ∧ PartsWhole travellingSpan ∧
      ∃ oc, spanToOC noTables travellingSpan = .ok oc ∧
        ∀ ords, SameSpan travellingSpan (ocSpanToInternal (fun _ => "") ords oc) :=
  ⟨spanWhole_travellingSpan, partsWhole_travellingSpan, spans_survive noTables (fun _ => "")
    spanWhole_travellingSpan (by intro n h; cases h) partsWhole_travellingSpan⟩

theorem spanWhole_exampleSpan (kind : Pdata.SpanKind) (events : List (Option (SpanEvent Int)))
    (h : ∀ e, some e ∈ events → ¬LikeMessageEvent e) :
    SpanWhole (exampleSpan kind [] 0 events) where
  attributes := scalarMap_of_forall (by simp [exampleSpan]) .nil
  noKindKey := by simp [exampleSpan, AttributeMap.keys]
  dropped _ := rfl
  parent := .inl rfl
  traceState := .inl rfl
  events := h
  links l hl := by cases hl

def listEvent : SpanEvent Int := ⟨5, "event", [.mk "list" (.array [.int 1])], 0⟩

theorem not_likeMessageEvent_listEvent : ¬LikeMessageEvent listEvent := by
  rintro ⟨hlen, -⟩
  cases hlen

/-- A kind without a name comes back as none given, a list in an attribute as a text that says so,
and an event that is nil crashes. -/
theorem unknown_kind_lost :
    (SpanWhole (exampleSpan (.unrecognized 6) [] 0 []) ∧
      ∃ oc, spanToOC noTables (exampleSpan (.unrecognized 6) [] 0 []) = .ok oc ∧
        ∀ typeName ords, (ocSpanToInternal typeName ords oc).kind = .unspecified) ∧
    (SpanWhole (exampleSpan .server [] 0 [some listEvent]) ∧
      ∃ oc, spanToOC noTables (exampleSpan .server [] 0 [some listEvent]) = .ok oc ∧
        ∀ typeName ords, ¬SameSpan (exampleSpan .server [] 0 [some listEvent])
          (ocSpanToInternal typeName ords oc)) ∧
    SpanWhole (exampleSpan .server [] 0 [none]) ∧
      spanToOC noTables (exampleSpan .server [] 0 [none]) = .error .nilDereference := by
  refine ⟨⟨spanWhole_exampleSpan _ _ (by simp), _, rfl, fun _ _ => rfl⟩,
    ⟨spanWhole_exampleSpan _ _ ?_, _, rfl, fun typeName ords h => ?_⟩,
    spanWhole_exampleSpan _ _ (by simp), rfl⟩
  · intro e he
    obtain rfl := Option.some.inj (mem_singleton.1 he)
    exact not_likeMessageEvent_listEvent
  · obtain ⟨hevent, -⟩ := forall₂_cons.1 h.events
    cases hevent with
    | some hsame =>
      have hperm := hsame.attributes
      exact scalar_initAttributeMapFromOC _ _ "list" (.array [.int 1])
        (hperm.mem_iff.2 mem_cons_self)

end Collector.OpenCensus
