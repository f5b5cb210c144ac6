import Collector.Jaeger.Proto
import Collector.Lib.Guarded
import Collector.Pdata.FiniteMap

/-!
# Spans through Jaeger and back

Kind, status and trace state travel as tags behind those of the attributes. Reading them back
deletes them again, and a `Delete` moves the last entry into the gap. As long as the attributes
have other keys, all of this happens behind them (`setInternalSpanStatus_append` and its
kin), so that they stay where they were.
-/

namespace Collector.Jaeger

open Pdata (AnyValue KeyValue AttributeMap SpanEvent SpanLink SpanStatus SpanKind)
open Pdata.AttributeMap (get_append_of_notMem delete_append_of_notMem)
open Pdata.AttributeMap (Scalar ScalarMap scalarMap_of_forall)
open Lib Translator List

variable {F τ : Type}

/-! ## Identifiers -/

def ValidTraceID (traceID : List UInt8) : Prop := traceID.length = 16 ∧ ∃ b ∈ traceID, b ≠ 0

def ValidSpanID (spanID : List UInt8) : Prop := spanID.length = 8 ∧ ∃ b ∈ spanID, b ≠ 0

theorem traceIDToJaegerProto_ok {traceID : List UInt8} (h : ValidTraceID traceID) :
    ∃ id, traceIDToJaegerProto (τ := τ) traceID = .ok id ∧
      uint64ToByteTraceID id.high id.low = traceID := by
  obtain ⟨high, low, hok, hback, hzero⟩ := traceID_trip (τ := τ) h.1
  refine ⟨{ low, high }, ?_, hback⟩
  have hne : ¬(low = 0 ∧ high = 0) := by
    intro hboth
    obtain ⟨b, hb, hb0⟩ := h.2
    exact hb0 (hzero.1 hboth b hb)
  simp only [traceIDToJaegerProto, hok]
  exact if_neg hne

theorem spanIDToJaegerProto_ok {spanID : List UInt8} (h : ValidSpanID spanID) :
    ∃ id, spanIDToJaegerProto (τ := τ) spanID = .ok id ∧ id ≠ 0 ∧
      uint64ToByteSpanID id = spanID := by
  obtain ⟨id, hok, hback, hzero⟩ := spanID_trip (τ := τ) h.1
  have hne : id ≠ 0 := by
    intro hid
    obtain ⟨b, hb, hb0⟩ := h.2
    exact hb0 (hzero.1 hid b hb)
  refine ⟨id, ?_, hne, hback⟩
  simp only [spanIDToJaegerProto, hok]
  exact if_neg hne

/-! ## Tags -/

/-- The value that `jTagsToInternalAttributes` sets. -/
def TagValue.toInternal (lib : Library) : TagValue F → AnyValue F
  | .string s => .string s
  | .bool b => .bool b
  | .int64 n => .int n
  | .float64 x => .double x
  | .binary bytes => .string (lib.base64 bytes)
  | .unrecognized vType => .string ("<Unknown Jaeger TagType " ++ lib.quotedType vType ++ ">")

def Tag.entry (lib : Library) (tag : Tag F) : KeyValue F := .mk tag.key (tag.value.toInternal lib)

variable (lib : Library)

theorem keys_map_entry (tags : List (Tag F)) :
    AttributeMap.keys (tags.map (Tag.entry lib)) = tags.map Tag.key := by
  induction tags with
  | nil => rfl
  | cons tag tags ih => exact congrArg (tag.key :: ·) ih

theorem upsertTag_eq (dest : AttributeMap F) (tag : Tag F) :
    upsertTag lib dest tag = dest.upsertTo tag.key (tag.value.toInternal lib) := by
  unfold upsertTag
  cases tag.value <;> rfl

theorem jTagsToInternalAttributes_eq {tags : List (Tag F)} (h : (tags.map Tag.key).Nodup) :
    jTagsToInternalAttributes lib tags [] = tags.map (Tag.entry lib) := by
  have hupsert : upsertTag lib = fun (dest : AttributeMap F) (tag : Tag F) =>
      dest.upsertTo tag.key (tag.value.toInternal lib) := by
    funext dest tag
    exact upsertTag_eq lib dest tag
  have hnew : ∀ p ∈ tags.map fun tag => (tag.key, tag.value.toInternal lib),
      p.1 ∉ AttributeMap.keys (F := F) [] := by
    intro p _ hmem
    cases hmem
  have hfold := AttributeMap.foldl_upsertTo (by rwa [map_map]) hnew
  rw [foldl_map, map_map] at hfold
  rw [jTagsToInternalAttributes, hupsert]
  exact hfold

theorem appendTagsFromAttributes_eq (dest : List (Tag F)) (attrs : AttributeMap F) :
    appendTagsFromAttributes dest attrs =
      dest ++ attrs.entries.map fun p => attributeToJaegerProtoTag p.1 p.2 := by
  have hfold : ∀ (l : List (String × AnyValue F)) (dest : List (Tag F)),
      l.foldl (fun dest p => dest ++ [attributeToJaegerProtoTag p.1 p.2]) dest =
        dest ++ l.map fun p => attributeToJaegerProtoTag p.1 p.2 := by
    intro l
    induction l with
    | nil => exact fun dest => (append_nil dest).symm
    | cons p l ih =>
      intro dest
      rw [foldl_cons, ih, append_assoc]
      rfl
  rw [← hfold]
  exact attrs.foldl_entries (fun dest k v => dest ++ [attributeToJaegerProtoTag k v]) dest

theorem entry_attributeToJaegerProtoTag (key : String) {v : AnyValue F}
    (h : Scalar v) : (attributeToJaegerProtoTag key v).entry lib = .mk key v := by
  cases v with
  | string | bool | int | double => rfl
  | nil | null | kvlistNil | kvlist | arrayNil | array => exact h.elim

theorem jTagsToInternalAttributes_append {attrs : AttributeMap F}
    (h : ScalarMap attrs) (before after : List (Tag F))
    (hn : (before.map Tag.key ++ attrs.keys ++ after.map Tag.key).Nodup) :
    jTagsToInternalAttributes lib (appendTagsFromAttributes before attrs ++ after) [] =
      before.map (Tag.entry lib) ++ attrs ++ after.map (Tag.entry lib) := by
  have hback : (attrs.entries.map fun p => attributeToJaegerProtoTag p.1 p.2).map (Tag.entry lib) =
      attrs := by
    rw [map_map]
    refine Eq.trans (map_congr_left fun p hp => ?_) h.map_entries
    exact entry_attributeToJaegerProtoTag lib p.1 (h.scalar p.1 p.2 (AttributeMap.mem_entries.1 hp))
  rw [appendTagsFromAttributes_eq, jTagsToInternalAttributes_eq]
  · rw [map_append, map_append, hback]
  · rw [map_append, map_append, map_map]
    rw [← attrs.map_fst_entries] at hn
    exact hn

/-! ## Behind the attributes -/

section Behind

variable {attrs : AttributeMap F}

theorem statusFromError_append (h : tagError ∉ attrs.keys) (rest : AttributeMap F) :
    statusFromError (attrs ++ rest) =
      (attrs ++ (statusFromError rest).1, (statusFromError rest).2) := by
  unfold statusFromError
  rw [get_append_of_notMem h, delete_append_of_notMem h]
  cases rest.get tagError with
  | none => rfl
  | some v => cases hb : v.boolVal <;> simp [hb]

theorem messageFromAttrs_append (h : tagStatusMsg ∉ attrs.keys) (rest : AttributeMap F)
    (code : Int32) : messageFromAttrs (attrs ++ rest) code =
      (attrs ++ (messageFromAttrs rest code).1, (messageFromAttrs rest code).2) := by
  unfold messageFromAttrs
  rw [get_append_of_notMem h, delete_append_of_notMem h]
  cases rest.get tagStatusMsg <;> rfl

theorem statusFromCode_append (lib : Library)
    (h : ∀ key ∈ [tagStatusCode, tagStatusMsg, tagHTTPStatusCode, tagHTTPStatusMsg],
      key ∉ attrs.keys) (rest : AttributeMap F) (code : Int32) (ex : Bool) :
    statusFromCode lib (attrs ++ rest) code ex =
      (attrs ++ (statusFromCode lib rest code ex).1, (statusFromCode lib rest code ex).2) := by
  simp only [mem_cons, not_mem_nil, or_false, forall_eq_or_imp, forall_eq] at h
  obtain ⟨hcode, hmsg, hhttp, hhttpmsg⟩ := h
  unfold statusFromCode
  rw [get_append_of_notMem hcode, get_append_of_notMem hhttp,
    get_append_of_notMem hhttpmsg, delete_append_of_notMem hcode]
  cases rest.get tagStatusCode with
  | some codeAttr =>
    cases hc : getStatusCodeFromAttr lib codeAttr with
    | some c =>
      simp only [hc]
      exact messageFromAttrs_append hmsg _ c
    | none =>
      simp only [hc]
      exact messageFromAttrs_append hmsg rest code
  | none =>
    cases rest.get tagHTTPStatusCode with
    | none => rfl
    | some httpAttr =>
      cases hc : getStatusCodeFromHTTPStatusAttr lib httpAttr with
      | none => simp only [hc]
      | some c =>
        simp only [hc]
        cases rest.get tagHTTPStatusMsg <;> rfl

theorem setInternalSpanStatus_append (lib : Library)
    (h : ∀ key ∈ [tagError, tagStatusCode, tagStatusMsg, tagHTTPStatusCode, tagHTTPStatusMsg],
      key ∉ attrs.keys) (rest : AttributeMap F) :
    setInternalSpanStatus lib (attrs ++ rest) =
      (attrs ++ (setInternalSpanStatus lib rest).1, (setInternalSpanStatus lib rest).2) := by
  obtain ⟨herror, hstatus⟩ := forall_mem_cons.1 h
  simp only [setInternalSpanStatus, statusFromError_append herror,
    statusFromCode_append lib hstatus]

theorem kindFromAttrs_append (h : tagSpanKind ∉ attrs.keys) (rest : AttributeMap F) :
    kindFromAttrs (attrs ++ rest) = (attrs ++ (kindFromAttrs rest).1, (kindFromAttrs rest).2) := by
  unfold kindFromAttrs
  rw [get_append_of_notMem h, delete_append_of_notMem h]
  cases rest.get tagSpanKind <;> rfl

theorem getTraceStateFromAttrs_append (h : tagW3CTraceState ∉ attrs.keys) (rest : AttributeMap F) :
    getTraceStateFromAttrs (attrs ++ rest) =
      (attrs ++ (getTraceStateFromAttrs rest).1, (getTraceStateFromAttrs rest).2) := by
  unfold getTraceStateFromAttrs
  rw [get_append_of_notMem h, delete_append_of_notMem h]
  cases rest.get tagW3CTraceState <;> rfl

end Behind

/-! ## What the tags stood for -/

def kindEntries (lib : Library) (kind : SpanKind) : AttributeMap F :=
  (getTagFromSpanKind kind).toList.map (Tag.entry lib)

def statusEntries (lib : Library) (status : Option SpanStatus) : AttributeMap F :=
  (statusTags status).map (Tag.entry lib)

def traceStateEntries (lib : Library) (traceState : String) : AttributeMap F :=
  (getTagsFromTraceState traceState).map (Tag.entry lib)

theorem getStatusCodeFromAttr_toInt64 (code : Int32) :
    getStatusCodeFromAttr lib (AnyValue.int (F := F) code.toInt64) = some code := by
  have hlo := code.le_toInt
  have hhi := code.toInt_lt
  have hint : code.toInt64.toInt = code.toInt := Int32.toInt_toInt64 code
  simp only [getStatusCodeFromAttr, Option.bind_eq_bind, Option.bind_some]
  rw [if_neg (by omega)]
  simp

theorem status_trip (status : Option SpanStatus) (traceState : String) : setInternalSpanStatus lib
        (statusEntries (F := F) lib status ++ traceStateEntries lib traceState) =
      (traceStateEntries lib traceState, status) := by
  cases status with
  | none =>
    by_cases hts : traceState = ""
    · subst hts
      rfl
    · rw [traceStateEntries, getTagsFromTraceState, if_neg hts]
      rfl
  | some status =>
    obtain ⟨code, message⟩ := status
    have hcode := getStatusCodeFromAttr_toInt64 (F := F) lib code
    have hok : getStatusCodeFromAttr lib (AnyValue.int (F := F) 0) = some 0 :=
      getStatusCodeFromAttr_toInt64 lib 0
    -- there are at most four entries, under fixed keys
    by_cases hzero : code = 0 <;> by_cases hmessage : message = "" <;>
        by_cases hts : traceState = "" <;>
      simp [statusEntries, statusTags, getTagFromStatusCode, getErrorTagFromStatusCode,
        getTagFromStatusMsg, traceStateEntries, getTagsFromTraceState, hzero, hmessage, hts,
        Tag.entry, TagValue.toInternal, setInternalSpanStatus, statusFromError, statusFromCode,
        messageFromAttrs, AttributeMap.get, AttributeMap.delete, KeyValue.hasKey, AnyValue.boolVal,
        AnyValue.stringVal, tagError, tagStatusCode, tagStatusMsg, tagW3CTraceState, hcode, hok,
        findIdx?_cons]

theorem kind_trip {kind : SpanKind} (h : ∀ n, kind ≠ .unrecognized n) (lib : Library)
    (traceState : String) :
    kindFromAttrs (kindEntries (F := F) lib kind ++ traceStateEntries lib traceState) =
      (traceStateEntries lib traceState, kind) := by
  by_cases hts : traceState = ""
  · subst hts
    cases kind with
    | unrecognized n => exact absurd rfl (h n)
    | _ => rfl
  · rw [traceStateEntries, getTagsFromTraceState, if_neg hts]
    cases kind with
    | unrecognized n => exact absurd rfl (h n)
    | _ => rfl

theorem traceState_trip (lib : Library) (traceState : String) :
    getTraceStateFromAttrs (traceStateEntries (F := F) lib traceState) = ([], traceState) := by
  by_cases hts : traceState = ""
  · subst hts
    rfl
  · rw [traceStateEntries, getTagsFromTraceState, if_neg hts]
    rfl

/-! ## References -/

def linkIds (l : SpanLink F) : SpanLink F := { l with
  traceState := "", attributes := [], droppedAttributesCount := 0 }

theorem linkToReference_ok {l : SpanLink F} (htrace : ValidTraceID l.traceId)
    (hspan : ValidSpanID l.spanId) :
    ∃ ref, linkToReference l = some ref ∧ ref.refType = .followsFrom ∧
      uint64ToByteTraceID ref.traceId.high ref.traceId.low = l.traceId ∧
      uint64ToByteSpanID ref.spanId = l.spanId := by
  obtain ⟨traceId, htraceId, htraceBack⟩ := traceIDToJaegerProto_ok (τ := Unit) htrace
  obtain ⟨spanId, hspanId, -, hspanBack⟩ := spanIDToJaegerProto_ok (τ := Unit) hspan
  refine ⟨⟨traceId, spanId, .followsFrom⟩, ?_, rfl, htraceBack, hspanBack⟩
  simp only [linkToReference, htraceId, hspanId]

theorem refType_of_mem_links {links : List (SpanLink F)} {ref : SpanRef}
    (h : ref ∈ links.filterMap linkToReference) : ref.refType = .followsFrom := by
  obtain ⟨l, -, hl⟩ := mem_filterMap.1 h
  unfold linkToReference at hl
  split at hl
  · cases hl
  · split at hl
    · cases hl
    · cases hl
      rfl

theorem links_trip {links : List (SpanLink F)}
    (h : ∀ l ∈ links, ValidTraceID l.traceId ∧ ValidSpanID l.spanId) (parent : UInt64) :
    jReferencesToSpanLinks (links.filterMap linkToReference) parent =
      links.map fun l => some (linkIds l) := by
  induction links with
  | nil => rfl
  | cons l links ih =>
    obtain ⟨hl, hlinks⟩ := forall_mem_cons.1 h
    obtain ⟨ref, href, htype, htrace, hspan⟩ := linkToReference_ok hl.1 hl.2
    rw [filterMap_cons_some href, map_cons, ← ih hlinks]
    simp only [jReferencesToSpanLinks_eq, newLink]
    rw [filter_cons_of_pos (by simp [htype]), map_cons, htrace, hspan]
    rfl

theorem references_trip (hlib : lib.FindsParent) {span : Pdata.Span F}
    (hparent : span.parentSpanId = [] ∨ ValidSpanID span.parentSpanId)
    (hlinks : ∀ l, some l ∈ span.links → ValidTraceID l.traceId ∧ ValidSpanID l.spanId)
    (traceId : TraceID) :
    ∃ refs, makeJaegerProtoReferences (τ := τ) span.links span.parentSpanId traceId = .ok refs ∧
      ∀ j : Span F, j.traceId = traceId → j.references = refs →
        (if lib.parentSpanID j.traceId j.references ≠ 0 then
          uint64ToByteSpanID (lib.parentSpanID j.traceId j.references) else []) =
          span.parentSpanId ∧
        jReferencesToSpanLinks j.references (lib.parentSpanID j.traceId j.references) =
          span.links.reduceOption.map fun l => some (linkIds l) := by
  have hall : ∀ l ∈ span.links.reduceOption, ValidTraceID l.traceId ∧ ValidSpanID l.spanId :=
    fun l hl => hlinks l (reduceOption_mem_iff.1 hl)
  rcases hparent with hnone | hvalid
  · refine ⟨span.links.reduceOption.filterMap linkToReference, ?_, fun j _ hrefs => ?_⟩
    · rw [makeJaegerProtoReferences, hnone]
      rfl
    · have hfind : lib.parentSpanID j.traceId j.references = 0 := by
        refine hlib.absent ?_
        rw [hrefs, find?_eq_none]
        intro ref href
        simp [refType_of_mem_links href]
      rw [hfind, hrefs, hnone]
      exact ⟨rfl, links_trip hall 0⟩
  · obtain ⟨id, hid, hne, hback⟩ := spanIDToJaegerProto_ok (τ := τ) hvalid
    refine ⟨⟨traceId, id, .childOf⟩ :: span.links.reduceOption.filterMap linkToReference, ?_,
      fun j htraceId hrefs => ?_⟩
    · have hlen : span.parentSpanId.length ≠ 0 := by rw [hvalid.1]; decide
      rw [makeJaegerProtoReferences, if_pos hlen, hid]
      rfl
    · have hfirst : j.references.find? (fun ref => ref.traceId = j.traceId ∧
          ref.refType = .childOf) = some ⟨traceId, id, .childOf⟩ := by
        rw [hrefs, find?_cons_of_pos (by simp [htraceId])]
      have hfind : lib.parentSpanID j.traceId j.references = id := hlib.found hfirst
      rw [hfind, hrefs, if_pos hne]
      refine ⟨hback, ?_⟩
      rw [← links_trip hall id]
      simp only [jReferencesToSpanLinks_eq]
      rw [filter_cons_of_neg (by simp)]

/-! ## Events -/

/-- The same event, up to the order of its attributes and how many were dropped. -/
structure SameEvent (e e' : SpanEvent F) : Prop where
  name : e'.name = e.name
  timestamp : e'.timestamp = e.timestamp
  attributes : e'.attributes.Perm e.attributes

theorem event_trip {e : SpanEvent F} (htime : e.timestamp ≠ 0)
    (hattrs : ScalarMap e.attributes) (hmessage : tagMessage ∉ e.attributes.keys) :
    SameEvent e (logToEvent lib (eventToLog e)) := by
  have htimestamp := unixNano_unixNanoToTime htime
  by_cases hname : e.name = ""
  · have hfields : jTagsToInternalAttributes lib (eventToLog e).fields [] = e.attributes := by
      have htags := jTagsToInternalAttributes_append lib hattrs [] [] (by simpa using hattrs.nodup)
      simpa [eventToLog, hname] using htags
    simp only [logToEvent, hfields, AttributeMap.get_eq_none_of_notMem hmessage]
    exact ⟨hname.symm, htimestamp, .refl _⟩
  · have hfields : jTagsToInternalAttributes lib (eventToLog e).fields [] =
        .mk tagMessage (.string e.name) :: e.attributes := by
      have htags := jTagsToInternalAttributes_append lib hattrs [⟨tagMessage, .string e.name⟩] []
        (by simpa using ⟨hmessage, hattrs.nodup⟩)
      simpa [eventToLog, hname, Tag.entry, TagValue.toInternal] using htags
    have hget : AttributeMap.get (.mk tagMessage (.string e.name) :: e.attributes) tagMessage =
        some (.string e.name) := if_pos rfl
    simp only [logToEvent, hfields, hget]
    refine ⟨rfl, htimestamp, (AttributeMap.delete_perm _ tagMessage).trans (.of_eq ?_)⟩
    exact eraseP_cons_of_pos (beq_self_eq_true tagMessage)

/-! ## Spans -/

/-- The keys of the tags that stand for something else. -/
def reservedKeys : List String :=
  [tagSpanKind, tagStatusCode, tagStatusMsg, tagError, tagHTTPStatusCode, tagHTTPStatusMsg,
    tagW3CTraceState]

def TimeWhole (u : UInt64) : Prop := 0 < u.toNat ∧ u.toNat < 2 ^ 63

instance : DecidablePred TimeWhole := fun _ => inferInstanceAs (Decidable (_ ∧ _))

theorem TimeWhole.ne_zero {u : UInt64} (h : TimeWhole u) : u ≠ 0 := by
  rintro rfl
  exact absurd h.1 (by decide)

/-- A span that Jaeger has room for, the attributes of its events apart. -/
structure SpanWhole (span : Pdata.Span F) : Prop where
  traceId : ValidTraceID span.traceId
  spanId : ValidSpanID span.spanId
  parent : span.parentSpanId = [] ∨ ValidSpanID span.parentSpanId
  links : ∀ l, some l ∈ span.links → ValidTraceID l.traceId ∧ ValidSpanID l.spanId
  startTime : TimeWhole span.startTime
  endTime : TimeWhole span.endTime
  kind : ∀ n, span.kind ≠ .unrecognized n
  attributes : ScalarMap span.attributes
  keys : ∀ key ∈ reservedKeys, key ∉ span.attributes.keys
  events : ∀ e, some e ∈ span.events → TimeWhole e.timestamp ∧ tagMessage ∉ e.attributes.keys

/-- The same span as far as Jaeger has it, without events and links that are nil. -/
structure SameSpan (span span' : Pdata.Span F) : Prop where
  traceId : span'.traceId = span.traceId
  spanId : span'.spanId = span.spanId
  parentSpanId : span'.parentSpanId = span.parentSpanId
  name : span'.name = span.name
  kind : span'.kind = span.kind
  startTime : span'.startTime = span.startTime
  endTime : span'.endTime = span.endTime
  traceState : span'.traceState = span.traceState
  attributes : span'.attributes = span.attributes
  status : span'.status = span.status
  events : ∃ events, span'.events = events.map some ∧
    List.Forall₂ SameEvent span.events.reduceOption events
  links : span'.links = span.links.reduceOption.map fun l => some (linkIds l)

theorem keys_kindTag (kind : SpanKind) :
    ((getTagFromSpanKind (F := F) kind).toList.map Tag.key).Sublist [tagSpanKind] := by
  cases kind <;> first | exact .refl _ | exact nil_sublist _

theorem keys_statusTags (status : Option SpanStatus) :
    ((statusTags (F := F) status).map Tag.key).Sublist [tagStatusCode, tagError, tagStatusMsg] := by
  cases status with
  | none => exact nil_sublist _
  | some status =>
    have herror : ((getErrorTagFromStatusCode (F := F) status.code).toList.map Tag.key).Sublist
        [tagError] := by
      unfold getErrorTagFromStatusCode
      split
      · exact nil_sublist _
      · exact .refl _
    have hmessage : ((getTagFromStatusMsg (F := F) status.message).toList.map Tag.key).Sublist
        [tagStatusMsg] := by
      unfold getTagFromStatusMsg
      split
      · exact nil_sublist _
      · exact .refl _
    rw [statusTags, map_append, map_append, append_assoc]
    exact (herror.append hmessage).cons_cons tagStatusCode

theorem keys_traceStateTags (traceState : String) :
    ((getTagsFromTraceState (F := F) traceState).map Tag.key).Sublist [tagW3CTraceState] := by
  unfold getTagsFromTraceState
  split
  · exact nil_sublist _
  · exact .refl _

def reservedTags (span : Pdata.Span F) : List (Tag F) :=
  (getTagFromSpanKind span.kind).toList ++ (statusTags span.status ++
    getTagsFromTraceState span.traceState)

theorem keys_reservedTags (span : Pdata.Span F) :
    ((reservedTags span).map Tag.key).Sublist
      [tagSpanKind, tagStatusCode, tagError, tagStatusMsg, tagW3CTraceState] := by
  rw [reservedTags, map_append, map_append]
  exact (keys_kindTag _).append ((keys_statusTags _).append (keys_traceStateTags _))

theorem tags_trip {span : Pdata.Span F} (h : SpanWhole span) :
    jTagsToInternalAttributes lib (getJaegerProtoSpanTags span) [] =
      span.attributes ++ (reservedTags span).map (Tag.entry lib) := by
  have hkeys := keys_reservedTags span
  have hsplit : getJaegerProtoSpanTags span =
      appendTagsFromAttributes [] span.attributes ++ reservedTags span := by
    simp only [getJaegerProtoSpanTags, reservedTags, append_assoc]
  rw [hsplit, jTagsToInternalAttributes_append lib h.attributes [] (reservedTags span)]
  · rfl
  · refine nodup_append.2 ⟨h.attributes.nodup, hkeys.nodup (by decide), ?_⟩
    rintro key hkey _ hreserved rfl
    have hmem : key ∈ reservedKeys := by
      have := hkeys.subset hreserved
      simp only [reservedKeys, mem_cons, not_mem_nil, or_false] at this ⊢
      tauto
    exact h.keys key hmem hkey

/-- The tag of the kind stands before those of the status, like another attribute. -/
theorem setInternalSpanStatus_trip {span : Pdata.Span F} (h : SpanWhole span) :
    setInternalSpanStatus lib (span.attributes ++ (reservedTags span).map (Tag.entry lib)) =
      (span.attributes ++ (kindEntries lib span.kind ++ traceStateEntries lib span.traceState),
        span.status) := by
  have hbefore : ∀ key ∈ [tagError, tagStatusCode, tagStatusMsg, tagHTTPStatusCode,
      tagHTTPStatusMsg],
      key ∉ AttributeMap.keys (span.attributes ++ kindEntries lib span.kind) := by
    intro key hkey hmem
    rw [AttributeMap.keys_append, mem_append] at hmem
    rcases hmem with hmem | hmem
    · refine h.keys key ?_ hmem
      simp only [reservedKeys, mem_cons, not_mem_nil, or_false] at hkey ⊢
      tauto
    · rw [kindEntries, keys_map_entry] at hmem
      obtain rfl : key = tagSpanKind := mem_singleton.1 ((keys_kindTag span.kind).subset hmem)
      exact absurd hkey (by decide)
  calc
    _ = setInternalSpanStatus lib ((span.attributes ++ kindEntries lib span.kind) ++
          (statusEntries lib span.status ++ traceStateEntries lib span.traceState)) := by
      rw [reservedTags, map_append, map_append, append_assoc]
      rfl
    _ = _ := by
      rw [setInternalSpanStatus_append lib hbefore, status_trip, append_assoc]

theorem events_trip {events : List (Option (SpanEvent F))}
    (h : ∀ e, some e ∈ events → e.timestamp ≠ 0 ∧ tagMessage ∉ e.attributes.keys)
    (hattrs : ∀ e, some e ∈ events → ScalarMap e.attributes) :
    ∃ back, jLogsToSpanEvents lib (spanEventsToJaegerProtoLogs events) = back.map some ∧
      List.Forall₂ SameEvent events.reduceOption back := by
  refine ⟨events.reduceOption.map fun e => logToEvent lib (eventToLog e), ?_, ?_⟩
  · simp only [jLogsToSpanEvents, spanEventsToJaegerProtoLogs, map_map]
    rfl
  · rw [forall₂_map_right_iff, forall₂_same]
    intro e he
    have hmem := reduceOption_mem_iff.1 he
    exact event_trip lib (h e hmem).1 (hattrs e hmem) (h e hmem).2

/-- The span that `spanToJaegerProto` makes, once identifiers and references are known. -/
def jaegerSpan (span : Pdata.Span F) (traceId : TraceID) (spanId : UInt64)
    (references : List SpanRef) : Span F where
  traceId := traceId
  spanId := spanId
  operationName := span.name
  references := references
  startTime := unixNanoToTime span.startTime
  duration := Time.sub (unixNanoToTime span.endTime) (unixNanoToTime span.startTime)
  tags := getJaegerProtoSpanTags span
  logs := spanEventsToJaegerProtoLogs span.events

/-- **A span comes back from Jaeger as it was.** -/
theorem spans_survive_jaeger {lib : Library} (hlib : lib.FindsParent) {span : Pdata.Span F}
    (h : SpanWhole span) (hevents : ∀ e, some e ∈ span.events → ScalarMap e.attributes) :
    ∃ j, spanToJaegerProto (τ := τ) span = .ok j ∧ SameSpan span (jSpanToInternal lib j) := by
  obtain ⟨traceId, htraceId, htraceBack⟩ := traceIDToJaegerProto_ok (τ := τ) h.traceId
  obtain ⟨spanId, hspanId, -, hspanBack⟩ := spanIDToJaegerProto_ok (τ := τ) h.spanId
  obtain ⟨refs, hrefs, hlinks⟩ := references_trip (τ := τ) lib hlib h.parent h.links traceId
  refine ⟨jaegerSpan span traceId spanId refs, ?_, ?_⟩
  · rw [spanToJaegerProto, htraceId, hspanId]
    simp only [ok_bind, hrefs]
    rfl
  · obtain ⟨hparentBack, hlinksBack⟩ := hlinks (jaegerSpan span traceId spanId refs) rfl rfl
    have hattrs : jTagsToInternalAttributes lib (jaegerSpan span traceId spanId refs).tags [] = _ :=
      tags_trip lib h
    have hkind := (kindFromAttrs_append (h.keys tagSpanKind (by decide)) _).trans
      (by rw [kind_trip h.kind lib span.traceState])
    have htraceState :=
      (getTraceStateFromAttrs_append (h.keys tagW3CTraceState (by decide)) _).trans
      (by rw [traceState_trip lib span.traceState, append_nil])
    have hstart := unixNanoToTime_range h.startTime.ne_zero h.startTime.2
    have hend := unixNanoToTime_range h.endTime.ne_zero h.endTime.2
    have hadd := Time.add_sub hend.1 hend.2 hstart.1 hstart.2
    constructor
    case traceId => exact htraceBack
    case spanId => exact hspanBack
    case parentSpanId => exact hparentBack
    case name => rfl
    case startTime => exact unixNano_unixNanoToTime h.startTime.ne_zero
    case endTime =>
      exact (congrArg (fun t => (Time.unixNano t).toUInt64) hadd).trans
        (unixNano_unixNanoToTime h.endTime.ne_zero)
    case events =>
      exact events_trip lib (fun e he => ⟨(h.events e he).1.ne_zero, (h.events e he).2⟩) hevents
    case links => exact hlinksBack
    all_goals
      simp only [jSpanToInternal, hattrs, setInternalSpanStatus_trip lib h, hkind, htraceState]

/-- A consumer's span with a parent, a link, a status and an event with the given attributes. -/
def exampleSpan (eventAttributes : AttributeMap Int) : Pdata.Span Int where
  traceId := [0, 0, 0, 0, 0, 0, 0, 1, 0, 0, 0, 0, 0, 0, 0, 2]
  spanId := [0, 0, 0, 0, 0, 0, 0, 3]
  traceState := "k=v"
  parentSpanId := [4, 0, 0, 0, 0, 0, 0, 0]
  name := "span"
  kind := .consumer
  startTime := 5
  endTime := 4
  attributes := [.mk "b" (.bool false), .mk "a" (.string "x")]
  droppedAttributesCount := 0
  events := [none, some ⟨6, "event", eventAttributes, 0⟩]
  droppedEventsCount := 0
  links :=
    [some ⟨[0, 0, 0, 0, 0, 0, 0, 1, 0, 0, 0, 0, 0, 0, 0, 2], [0, 0, 0, 0, 0, 0, 0, 7], "", [], 0⟩]
  droppedLinksCount := 0
  status := some ⟨2, "failed"⟩

theorem spanWhole_exampleSpan {eventAttributes : AttributeMap Int}
    (h : tagMessage ∉ eventAttributes.keys) : SpanWhole (exampleSpan eventAttributes) where
  traceId := ⟨rfl, 1, by simp [exampleSpan], by decide⟩
  spanId := ⟨rfl, 3, by simp [exampleSpan], by decide⟩
  parent := .inr ⟨rfl, 4, by simp [exampleSpan], by decide⟩
  links l hl := by
    obtain rfl := Option.some.inj (mem_singleton.1 hl)
    exact ⟨⟨rfl, 1, by simp, by decide⟩, rfl, 7, by simp, by decide⟩
  startTime := (by decide : TimeWhole 5)
  endTime := (by decide : TimeWhole 4)
  kind n h := by cases h
  attributes := scalarMap_of_forall (by simp [exampleSpan, Scalar])
    (by simp [exampleSpan, AttributeMap.keys])
  keys := by
    simp [exampleSpan, AttributeMap.keys, reservedKeys, tagSpanKind, tagStatusCode, tagStatusMsg,
      tagError, tagHTTPStatusCode, tagHTTPStatusMsg, tagW3CTraceState]
  events e he := by
    have he : e = ⟨6, "event", eventAttributes, 0⟩ := by simpa [exampleSpan] using he
    subst he
    exact ⟨(by decide : TimeWhole 6), h⟩

def noLibrary : Library where
  base64 _ := ""
  atoi _ := none
  quotedType _ := ""
  parentSpanID own refs := ((refs.find? fun ref => ref.traceId = own ∧ ref.refType = .childOf).map
    SpanRef.spanId).getD 0

theorem noLibrary_findsParent : noLibrary.FindsParent where
  found h := by simp only [noLibrary, h, Option.map_some, Option.getD_some]
  absent h := by simp only [noLibrary, h, Option.map_none, Option.getD_none]

theorem exampleSpan_survives_jaeger :
    SpanWhole (exampleSpan [.mk "n" (.int 1), .mk "m" (.double 2)]) ∧
      ∃ j, spanToJaegerProto (τ := Unit) (exampleSpan [.mk "n" (.int 1), .mk "m" (.double 2)]) =
          .ok j ∧
        SameSpan (exampleSpan [.mk "n" (.int 1), .mk "m" (.double 2)])
          (jSpanToInternal noLibrary j) := by
  have hwhole : SpanWhole (exampleSpan [.mk "n" (.int 1), .mk "m" (.double 2)]) :=
    spanWhole_exampleSpan (by decide)
  refine ⟨hwhole, spans_survive_jaeger noLibrary_findsParent hwhole fun e he => ?_⟩
  have he : e = ⟨6, "event", [.mk "n" (.int 1), .mk "m" (.double 2)], 0⟩ := by
    simpa [exampleSpan] using he
  subst he
  exact scalarMap_of_forall (by simp [Scalar]) (by decide)

/-- A list in an attribute of an event comes back as an empty string. -/
theorem event_list_lost :
    SpanWhole (exampleSpan [.mk "list" (.array [.int 1])]) ∧
      ∃ j, spanToJaegerProto (τ := Unit) (exampleSpan [.mk "list" (.array [.int 1])]) = .ok j ∧
        (jSpanToInternal noLibrary j).events =
          [some ⟨6, "event", [.mk "list" (.string "")], 0⟩] ∧
        ¬SameSpan (exampleSpan [.mk "list" (.array [.int 1])]) (jSpanToInternal noLibrary j) := by
  refine ⟨spanWhole_exampleSpan (by decide), _, rfl, rfl, fun h => ?_⟩
  obtain ⟨events, hevents, hsame⟩ := h.events
  have hback : events = [⟨6, "event", [.mk "list" (.string "")], 0⟩] :=
    map_injective_iff.2 (fun _ _ => Option.some.inj) hevents.symm
  subst hback
  obtain ⟨hevent, -⟩ := forall₂_cons.1 hsame
  cases singleton_perm_singleton.1 hevent.attributes

end Collector.Jaeger
