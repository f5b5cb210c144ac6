import Collector.Jaeger.Trip
import Collector.Zipkin.Trip

/-!
# Times that are not set

A time of 0 stands for one that is not set, and `UnixNanoToTime` makes `time.Time{}` of it. On the
way back this is read with `UnixNano`, which wraps around and never gives 0. Only the end of
a Zipkin span, which travels as a duration, is treated otherwise.
-/

namespace Collector.Translator

open Lib
open Pdata (Span SpanEvent)
open List

variable {F τ : Type} {span back : Span F}

def nanoBack (u : UInt64) : UInt64 := (Time.unixNano (unixNanoToTime u)).toUInt64

theorem nanoBack_ne_zero (u : UInt64) : nanoBack u ≠ 0 := by
  by_cases h : u = 0
  · subst h
    decide
  · rw [nanoBack, unixNano_unixNanoToTime h]
    exact h

theorem map_nanoBack {l : List UInt64} (h : 0 ∉ l) : l.map nanoBack = l :=
  (map_congr_left fun _ hu => unixNano_unixNanoToTime fun h0 => h (h0 ▸ hu)).trans
    (map_id l)

def eventTimes (events : List (Option (SpanEvent F))) : List UInt64 :=
  events.reduceOption.map (·.timestamp)

def timesOf (span : Span F) : List UInt64 :=
  span.startTime :: span.endTime :: eventTimes span.events

/-- Where a time is not set, it is not set after the trip, and the others are the same. -/
def UnsetKept (span back : Span F) : Prop := 0 ∈ timesOf span → timesOf back = timesOf span

/-- The start and the events never come back as 0. -/
theorem UnsetKept.set (h : UnsetKept span back) {l : List UInt64}
    (hstart : back.startTime = nanoBack span.startTime)
    (hevents : eventTimes back.events = l.map nanoBack) :
    0 ∉ span.startTime :: eventTimes span.events := by
  intro hmem
  have htimes : 0 ∈ timesOf span := by
    rcases mem_cons.1 hmem with h0 | h0
    · exact h0 ▸ mem_cons_self
    · exact mem_cons_of_mem _ (mem_cons_of_mem _ h0)
  obtain ⟨hstart', hrest⟩ := List.cons.inj (h htimes)
  rw [← hstart', ← (List.cons.inj hrest).2, hstart, hevents] at hmem
  obtain ⟨u, -, hu⟩ := mem_map.1 ((map_cons (f := nanoBack)).symm ▸ hmem)
  exact nanoBack_ne_zero u hu

theorem endTime_of_set (h : 0 ∉ span.startTime :: eventTimes span.events)
    (hmem : 0 ∈ timesOf span) : span.endTime = 0 := by
  have hperm : (timesOf span).Perm (span.endTime :: span.startTime :: eventTimes span.events) :=
    .swap _ _ _
  rcases mem_cons.1 (hperm.mem_iff.1 hmem) with h0 | h0
  · exact h0.symm
  · exact absurd h0 h

/-! ## Jaeger -/

theorem eventTimes_logs (lib : Jaeger.Library) (events : List (Option (SpanEvent F))) :
    eventTimes (Jaeger.jLogsToSpanEvents lib (Jaeger.spanEventsToJaegerProtoLogs events)) =
      (eventTimes events).map nanoBack := by
  have hsome : ∀ logs : List (Jaeger.Log F), (Jaeger.jLogsToSpanEvents lib logs).reduceOption =
      logs.map (Jaeger.logToEvent lib) := by
    simp [Jaeger.jLogsToSpanEvents, List.reduceOption, filterMap_map]
  unfold eventTimes Jaeger.spanEventsToJaegerProtoLogs
  rw [hsome, map_map, map_map, map_map]
  refine map_congr_left fun event _ => ?_
  show (Jaeger.logToEvent lib (Jaeger.eventToLog event)).timestamp = nanoBack event.timestamp
  unfold Jaeger.logToEvent
  dsimp only
  split <;> rfl

/-- An end that is not set is far out of the range of a duration. -/
theorem endBack_zero {u : UInt64} (h : u ≠ 0) :
    (Time.unixNano (Time.add (unixNanoToTime u)
      (Time.sub (unixNanoToTime 0) (unixNanoToTime u)))).toUInt64 = u + 0x8000000000000000 := by
  have hle := Int64.le_toInt u.toInt64
  have hmin : Int64.minValue.toInt = -2 ^ 63 := by decide
  have hzero : unixNanoToTime 0 = -62135596800000000000 := by decide
  have hu : unixNanoToTime u = u.toInt64.toInt := if_neg h
  have hsub : Time.sub (unixNanoToTime 0) (unixNanoToTime u) = .minValue := by
    rw [Time.sub, if_pos]
    omega
  rw [hsub, Time.add, hu, Time.unixNano, Int64.ofInt_add, Int64.ofInt_toInt, Int64.ofInt_toInt,
    Int64.toUInt64_add, UInt64.toUInt64_toInt64]
  exact congrArg (u + ·) (by decide)

theorem jaeger_times {j : Jaeger.Span F} (h : Jaeger.spanToJaegerProto (τ := τ) span = .ok j) :
    j.startTime = unixNanoToTime span.startTime ∧
      j.duration = Time.sub (unixNanoToTime span.endTime) (unixNanoToTime span.startTime) ∧
      j.logs = Jaeger.spanEventsToJaegerProtoLogs span.events := by
  obtain ⟨traceId, -, h⟩ := bind_eq_ok.1 h
  obtain ⟨spanId, -, h⟩ := bind_eq_ok.1 h
  cases hrefs : Jaeger.makeJaegerProtoReferences (τ := τ) span.links span.parentSpanId traceId with
  | error err =>
    rw [hrefs] at h
    cases h
  | ok refs =>
    rw [hrefs] at h
    cases h
    exact ⟨rfl, rfl, rfl⟩

theorem jaeger_kept_iff (lib : Jaeger.Library) {j : Jaeger.Span F}
    (h : Jaeger.spanToJaegerProto (τ := τ) span = .ok j) :
    UnsetKept span (Jaeger.jSpanToInternal lib j) ↔
      0 ∉ span.startTime :: eventTimes span.events ∧
        (span.endTime = 0 → span.startTime = 0x8000000000000000) := by
  obtain ⟨hstart, hduration, hlogs⟩ := jaeger_times h
  have hstart' : (Jaeger.jSpanToInternal lib j).startTime = nanoBack span.startTime := by
    rw [nanoBack, ← hstart]
    rfl
  have hevents : eventTimes (Jaeger.jSpanToInternal lib j).events =
      (eventTimes span.events).map nanoBack := by
    rw [← eventTimes_logs lib, ← hlogs]
    rfl
  have hend : span.startTime ≠ 0 → span.endTime = 0 →
      (Jaeger.jSpanToInternal lib j).endTime = span.startTime + 0x8000000000000000 := by
    intro hne h0
    rw [← endBack_zero hne, ← h0, ← hduration, ← hstart]
    rfl
  constructor
  · intro hkept
    have hset := hkept.set hstart' hevents
    refine ⟨hset, fun h0 => ?_⟩
    have htimes := hkept (h0 ▸ mem_cons_of_mem _ mem_cons_self)
    have hback := (List.cons.inj (List.cons.inj htimes).2).1
    grind
  · rintro ⟨hset, hlate⟩ hmem
    have hne : span.startTime ≠ 0 := fun hs => hset (hs ▸ mem_cons_self)
    have h0 := endTime_of_set hset hmem
    have hall := map_nanoBack hset
    rw [map_cons, ← hstart', ← hevents] at hall
    obtain ⟨hs, he⟩ := List.cons.inj hall
    have hback : (Jaeger.jSpanToInternal lib j).endTime = span.endTime := by
      rw [hend hne h0, hlate h0, h0]
      decide
    rw [timesOf, timesOf, hs, he, hback]

/-! ## Zipkin -/

section Zipkin

variable {printer : Zipkin.Printer F τ} {lib : Zipkin.Library F τ}

theorem annotation_time {event event' : Option (SpanEvent F)} {a : Zipkin.Annotation}
    (h : Zipkin.annotationOfEvent printer event = .ok a)
    (h' : Zipkin.annotationToEvent lib a = .ok event') :
    ∃ e, event' = some e ∧ e.timestamp = nanoBack (event.elim 0 (·.timestamp)) := by
  have hsent : a.timestamp = unixNanoToTime (event.elim 0 (·.timestamp)) := by
    cases event with
    | none =>
      cases h
      rfl
    | some event =>
      simp only [Zipkin.annotationOfEvent] at h
      split at h
      · cases h
        rfl
      · obtain ⟨jsonStr, -, h⟩ := bind_eq_ok.1 h
        cases h
        rfl
  rw [nanoBack, ← hsent]
  simp only [Zipkin.annotationToEvent] at h'
  split at h'
  · cases h'
    exact ⟨_, rfl, rfl⟩
  · obtain ⟨attributes, -, h'⟩ := bind_eq_ok.1 h'
    cases h'
    exact ⟨_, rfl, rfl⟩

/-- A nil event comes back as an event at the time that is not set. -/
theorem eventTimes_annotations {events events' : List (Option (SpanEvent F))}
    {annotations : List Zipkin.Annotation}
    (h : Zipkin.spanEventsToZipkinAnnotations printer events = .ok annotations)
    (h' : annotations.mapM (Zipkin.annotationToEvent lib) = .ok events') :
    eventTimes events' = (events.map fun e => e.elim 0 (·.timestamp)).map nanoBack := by
  have hall := forall₂_comp (fun _ _ _ => annotation_time) (forall₂_of_mapM h) (forall₂_of_mapM h')
  clear h h'
  induction hall with
  | nil => rfl
  | cons hab _ ih =>
    obtain ⟨e, rfl, he⟩ := hab
    rw [map_cons, map_cons, ← ih, ← he]
    exact congrArg (List.map _) (reduceOption_cons_of_some e _)

theorem zipkin_kept_iff [GoFloat F] {service : String} {zTags tags : GoMap String String}
    {z : Zipkin.SpanModel} (h : Zipkin.spanToZipkinSpan printer span service zTags = .ok z)
    (hback : Zipkin.zSpanToInternal lib z tags = .ok back) :
    UnsetKept span back ↔ 0 ∉ span.startTime :: eventTimes span.events ∧
      (span.endTime = 0 → none ∉ span.events) := by
  have hsent := Zipkin.sentAs_of_ok h
  obtain ⟨links, -, hback⟩ := bind_eq_ok.1 hback
  obtain ⟨events, hevents, hback⟩ := bind_eq_ok.1 hback
  have htimes := eventTimes_annotations hsent.annotations hevents
  have hstart : back.startTime = nanoBack span.startTime := by
    cases hback
    rw [nanoBack, ← hsent.timestamp]
  have hend : span.endTime = 0 → back.endTime = 0 := by
    intro h0
    have hduration := hsent.duration
    rw [if_neg (not_not.2 h0)] at hduration
    cases hback
    exact if_neg (by rw [hduration]; decide)
  have hevents' : eventTimes back.events =
      (span.events.map fun e => e.elim 0 (·.timestamp)).map nanoBack := by
    cases hback
    exact htimes
  constructor
  · intro hkept
    refine ⟨hkept.set hstart hevents', fun h0 => ?_⟩
    have hall := hkept (h0 ▸ mem_cons_of_mem _ mem_cons_self)
    have hlen := congrArg List.length (List.cons.inj (List.cons.inj hall).2).2
    rw [hevents', eventTimes, length_map, length_map, length_map] at hlen
    intro hnil
    have hlt := reduceOption_length_lt_iff.2 hnil
    omega
  · rintro ⟨hset, hnil⟩ hmem
    have h0 := endTime_of_set hset hmem
    have hall := map_nanoBack hset
    rw [map_cons, ← hstart] at hall
    obtain ⟨hs, he⟩ := List.cons.inj hall
    have hsome : span.events.map (fun e => e.elim 0 (·.timestamp)) = eventTimes span.events := by
      conv_lhs => rw [← map_some_reduceOption (hnil h0), map_map]
      rfl
    rw [timesOf, timesOf, hs, hend h0, h0, hevents', hsome, he]

end Zipkin

/-- **Which times survive.** Times that are not set are kept by the trip through Jaeger exactly if
start and events are set and an end that is not set belongs to one start, and by the trip through
Zipkin exactly if start and events are set (and, next to an end that is not, no event is nil). -/
theorem unset_kept_iff [GoFloat F] (span : Span F) :
    (∀ (lib : Jaeger.Library) (j : Jaeger.Span F),
      Jaeger.spanToJaegerProto (τ := τ) span = .ok j →
      (UnsetKept span (Jaeger.jSpanToInternal lib j) ↔
        0 ∉ span.startTime :: eventTimes span.events ∧
          (span.endTime = 0 → span.startTime = 0x8000000000000000))) ∧
    ∀ (printer : Zipkin.Printer F τ) (lib : Zipkin.Library F τ) (service : String)
      (zTags tags : GoMap String String) (z : Zipkin.SpanModel) (back : Span F),
      Zipkin.spanToZipkinSpan printer span service zTags = .ok z →
      Zipkin.zSpanToInternal lib z tags = .ok back →
      (UnsetKept span back ↔ 0 ∉ span.startTime :: eventTimes span.events ∧
        (span.endTime = 0 → none ∉ span.events)) :=
  ⟨fun lib _ h => jaeger_kept_iff lib h, fun _ _ _ _ _ _ _ h hback => zipkin_kept_iff h hback⟩

section Example

open Zipkin (spanUntil noPrinter)

attribute [local instance] GoFloat.whole

theorem unset_kept_spanUntil :
    ∃ z back, Zipkin.spanToZipkinSpan noPrinter (spanUntil 0) "a" ∅ = .ok z ∧
      Zipkin.zSpanToInternal Zipkin.noLibrary z ∅ = .ok back ∧
      0 ∈ timesOf (spanUntil 0) ∧ UnsetKept (spanUntil 0) back := by
  refine ⟨_, _, rfl, rfl, by decide, ?_⟩
  exact ((unset_kept_iff (τ := Unit) (spanUntil 0)).2 noPrinter Zipkin.noLibrary "a" ∅ ∅ _ _ rfl
    rfl).2 ⟨by decide, fun _ => not_mem_nil⟩

/-- Without an end a span comes back from Jaeger with one, and without a start it comes back from
either with one. -/
theorem unset_lost :
    (∃ j, Jaeger.spanToJaegerProto (τ := Unit) (spanUntil 0) = .ok j ∧
      (Jaeger.jSpanToInternal Jaeger.noLibrary j).endTime = 9223372036854775813 ∧
      ¬ UnsetKept (spanUntil 0) (Jaeger.jSpanToInternal Jaeger.noLibrary j)) ∧
    ∃ z back, Zipkin.spanToZipkinSpan noPrinter { spanUntil 9 with startTime := 0 } "a" ∅ = .ok z ∧
      Zipkin.zSpanToInternal Zipkin.noLibrary z ∅ = .ok back ∧
      back.startTime = 11651379494838206464 ∧
      ¬ UnsetKept { spanUntil 9 with startTime := 0 } back := by
  constructor
  · refine ⟨_, rfl, by decide, ?_⟩
    rw [jaeger_kept_iff (τ := Unit) Jaeger.noLibrary rfl]
    decide
  · refine ⟨_, _, rfl, rfl, by decide, ?_⟩
    have hkept := zipkin_kept_iff (F := Int) (τ := Unit)
      (rfl : Zipkin.spanToZipkinSpan noPrinter { spanUntil 9 with startTime := 0 } "a" ∅ = _)
      (rfl : Zipkin.zSpanToInternal Zipkin.noLibrary _ ∅ = _)
    exact fun h => (hkept.1 h).1 mem_cons_self

end Example

end Collector.Translator
