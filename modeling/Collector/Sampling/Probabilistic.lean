import Collector.Lib.Guarded
import Collector.Pdata.Copying

/-!
# The probabilistic sampler

`probabilisticsampler.go`. The processor builds new traces: for each resource a copy of it, and
under it one library entry that takes the spans of all of its libraries.

The library is never copied, so the spans of a named library lose it, and a nil span gets through
`parseSpanSamplingPriority` and is dereferenced for its trace id. These, a nil entry among the
attributes of a resource and a resource that has dropped attributes are the only ways in which the
output is not the input with some spans removed (`pure_filter_iff`).
-/

namespace Collector.ProbabilisticSampler

open Lib Pdata Pdata.Scoped List

/-! ## The hash -/

/-- `(k << r) | (k >> (32 - r))`. -/
def rotate (k r : UInt32) : UInt32 := (k <<< r) ||| (k >>> (32 - r))

/-- The multiplications and the rotation that every word goes through. -/
def scramble (k : UInt32) : UInt32 := rotate (k * 0xcc9e2d51) 15 * 0x1b873593

/-- The loop over whole words: the hash after it, and the bytes that are left. -/
def hashWords : UInt32 → List UInt8 → UInt32 × List UInt8
  | hash, b₀ :: b₁ :: b₂ :: b₃ :: key =>
    let k := b₀.toUInt32 ||| (b₁.toUInt32 <<< 8) ||| (b₂.toUInt32 <<< 16) ||| (b₃.toUInt32 <<< 24)
    hashWords (rotate (hash ^^^ scramble k) 13 * 5 + 0xe6546b64) key
  | hash, key => (hash, key)

/-- The `switch` over the remaining bytes, with its fallthroughs. -/
def hashRemaining (hash : UInt32) : List UInt8 → UInt32
  | [b₀, b₁, b₂] =>
    hash ^^^ scramble ((b₂.toUInt32 <<< 16) + (b₁.toUInt32 <<< 8) + b₀.toUInt32)
  | [b₀, b₁] => hash ^^^ scramble ((b₁.toUInt32 <<< 8) + b₀.toUInt32)
  | [b₀] => hash ^^^ scramble b₀.toUInt32
  | _ => hash

/-- The last mixing of `hash`. -/
def finish (hash : UInt32) : UInt32 :=
  let hash := (hash ^^^ (hash >>> 16)) * 0x85ebca6b
  let hash := (hash ^^^ (hash >>> 13)) * 0xc2b2ae35
  hash ^^^ (hash >>> 16)

/-- `hash`, murmur3. -/
def hash (key : List UInt8) (seed : UInt32) : UInt32 :=
  let (h, remaining) := hashWords seed key
  finish (hashRemaining h remaining ^^^ UInt32.ofNat key.length)

/-! ## The priority -/

/-- The tests on a `float64`, and `strconv.ParseFloat`, that a priority needs. -/
class PriorityFloat (F : Type) where
  /-- `x == 0.0`. -/
  isZero : F → Bool
  /-- `x > 0.0`. -/
  isPositive : F → Bool
  /-- `strconv.ParseFloat(s, 64)`, where it gives no error. -/
  parseFloat : String → Option F

/-- The whole numbers among the floats. -/
@[reducible] def PriorityFloat.whole : PriorityFloat Int :=
  ⟨fun n => n == 0, fun n => 0 < n, String.toInt?⟩

inductive SamplingPriority where
  | deferDecision
  | mustSampleSpan
  | doNotSampleSpan
  deriving DecidableEq, Repr

/-- The decision for a number, from its comparisons with zero. -/
def decision (isZero isPositive : Bool) : SamplingPriority :=
  if isZero then .doNotSampleSpan else if isPositive then .mustSampleSpan else .deferDecision

section

variable {F L : Type} [PriorityFloat F]

def floatDecision (x : F) : SamplingPriority :=
  decision (PriorityFloat.isZero x) (PriorityFloat.isPositive x)

def parseSpanSamplingPriority : Option (Span F) → SamplingPriority
  | none => .deferDecision
  | some span =>
    if span.attributes.length ≤ 0 then .deferDecision
    else match span.attributes.get "sampling.priority" with
      | none => .deferDecision
      | some (.int value) => decision (value == 0) (0 < value)
      | some (.double value) => floatDecision value
      | some (.string text) =>
        match PriorityFloat.parseFloat (F := F) text with
        | some value => floatDecision value
        | none => .deferDecision
      | some _ => .deferDecision

/-! ## The processor -/

/-- `tracesamplerprocessor`, without its next consumer. -/
structure Sampler where
  scaledSamplingRate : UInt32
  hashSeed : UInt32
  deriving DecidableEq, Repr

def bitMaskHashBuckets : UInt32 := 0x4000 - 1

def Sampler.inBuckets (tsp : Sampler) (traceId : List UInt8) : Bool :=
  hash traceId tsp.hashSeed &&& bitMaskHashBuckets < tsp.scaledSamplingRate

/-- The body of the loop over the spans of a library. -/
def sampleSpan (tsp : Sampler) (spns : List (Option (Span F))) (span : Option (Span F)) :
    Go (List (Option (Span F))) := do
  let sp := parseSpanSamplingPriority span
  if sp = .doNotSampleSpan then
    return spns
  let sampled ←
    if sp = .mustSampleSpan then pure true
    else do
      let s ← deref span
      pure (tsp.inBuckets s.traceId)
  return if sampled then spns ++ [span] else spns

/-- Traces whose libraries are pointers. -/
abbrev SampledTraces (F L : Type) :=
  Scoped.Traces (Option (Resource F)) (Option L) (Option (Span F))

/-- `processTraces`. `Resize(1)` leaves the library of the only entry nil. -/
def processTraces (tsp : Sampler) (sampledTraceData : SampledTraces F L)
    (rs : ResourceSpans (Option (Resource F)) (Option L) (Option (Span F))) :
    Go (SampledTraces F L) := do
  let resource ← rs.resource.mapM Resource.copyTo
  let spns ← rs.libraries.foldlM
    (skipNil fun spns ils => ils.spans.foldlM (sampleSpan tsp) spns) []
  return sampledTraceData ++ [some ⟨resource, [some ⟨none, spns⟩]⟩]

/-- `ConsumeTraces`: what the next consumer gets. -/
def consumeTraces (tsp : Sampler) (td : SampledTraces F L) : Go (SampledTraces F L) :=
  td.foldlM (skipNil (processTraces tsp)) []

/-! ## What a pure filter does -/

def Sampler.survives (tsp : Sampler) : Option (Span F) → Bool
  | none => false
  | some span => match parseSpanSamplingPriority (some span) with
    | .doNotSampleSpan => false
    | .mustSampleSpan => true
    | .deferDecision => tsp.inBuckets span.traceId

/-- **The output is the input with some spans removed**: each surviving span with its resource (by
its values), its library and in its place among the others. -/
def PureFilter (tsp : Sampler) (td : SampledTraces F L) : Prop :=
  ∃ out, consumeTraces tsp td = .ok out ∧
    spansOf out = ((spansOf td).filter fun x => tsp.survives x.2.2).map
      fun x => (x.1.map Resource.values, x.2.1, x.2.2)

/-! ## The loops -/

variable (tsp : Sampler)

theorem sampleSpan_guarded :
    Guarded (sampleSpan (F := F) tsp) (fun span => span ≠ none)
      (fun spns span => spns ++ [span].filter tsp.survives) where
  run spns span hspan := by
    obtain ⟨span, rfl⟩ := Option.ne_none_iff_exists'.1 hspan
    unfold sampleSpan Sampler.survives
    cases hsp : parseSpanSamplingPriority (some span) with
    | deferDecision => cases hb : tsp.inBuckets span.traceId <;> simp [hsp, hb, pure, Except.pure]
    | mustSampleSpan | doNotSampleSpan => simp [hsp, pure, Except.pure]
  fail spns span hspan := by
    obtain rfl := not_not.1 hspan
    exact ⟨.nilDereference, rfl⟩

theorem foldl_append_filter {α : Type} (p : α → Bool) (l acc : List α) :
    l.foldl (fun acc a => acc ++ [a].filter p) acc = acc ++ l.filter p := by
  induction l generalizing acc with
  | nil => exact (append_nil acc).symm
  | cons a l ih =>
    rw [foldl_cons, ih, append_assoc, ← filter_append]
    rfl

theorem map_snd_librarySpans {X : Type} (ilss : List (Option (LibrarySpans L X))) :
    (librarySpans ilss).map Prod.snd = ilss.reduceOption.flatMap (·.spans) := by
  induction ilss with
  | nil => rfl
  | cons ils ilss ih =>
    cases ils with
    | none =>
      exact ih
    | some ils =>
      rw [reduceOption_cons_of_some, librarySpans_cons, map_append, map_map, ih,
        flatMap_cons]
      congr 1
      exact map_id _

/-- What the source can copy and read under a resource. -/
structure Readable (rs : ResourceSpans (Option (Resource F)) (Option L) (Option (Span F))) :
    Prop where
  resource : ∀ r, rs.resource = some r → r.Present
  spans : ∀ x ∈ librarySpans rs.libraries, x.2 ≠ none

/-- The entry that `processTraces` appends. -/
def sampledResource (tsp : Sampler)
    (rs : ResourceSpans (Option (Resource F)) (Option L) (Option (Span F))) :
    ResourceSpans (Option (Resource F)) (Option L) (Option (Span F)) :=
  ⟨rs.resource.map Resource.copied,
    [some ⟨none, ((librarySpans rs.libraries).map Prod.snd).filter tsp.survives⟩]⟩

theorem processTraces_guarded :
    Guarded (processTraces (F := F) (L := L) tsp) Readable
      (fun td rs => td ++ [some (sampledResource tsp rs)]) where
  run td rs hrs := by
    have hspans : ∀ span ∈ (librarySpans rs.libraries).map Prod.snd, span ≠ none := by
      intro span hspan
      obtain ⟨x, hx, rfl⟩ := mem_map.1 hspan
      exact hrs.spans x hx
    unfold processTraces
    rw [Resource.computes_copyTo.option.run hrs.resource, ok_bind, foldlM_skipNil_eq,
      ← foldlM_flatMap, ← map_snd_librarySpans,
      (sampleSpan_guarded tsp).foldlM.run _ _ hspans, foldl_append_filter]
    rfl
  fail td rs hrs := by
    unfold processTraces
    cases hcopy : rs.resource.mapM Resource.copyTo with
    | error e => exact ⟨e, rfl⟩
    | ok r =>
      rw [ok_bind, foldlM_skipNil_eq, ← foldlM_flatMap, ← map_snd_librarySpans]
      have hspans : ¬ ∀ span ∈ (librarySpans rs.libraries).map Prod.snd, span ≠ none := by
        intro hspans
        exact hrs ⟨((Resource.computes_copyTo.option.iff _ _).1 hcopy).1,
          fun x hx => hspans x.2 (mem_map_of_mem hx)⟩
      obtain ⟨e, he⟩ := (sampleSpan_guarded tsp).foldlM.fail [] _ hspans
      exact ⟨e, by rw [he]; rfl⟩

/-- Everything that the source copies and reads. -/
structure AllReadable (td : SampledTraces F L) : Prop where
  resources : ∀ rs, some rs ∈ td → ∀ r, rs.resource = some r → r.Present
  spans : ∀ x ∈ spansOf td, x.2.2 ≠ none

theorem mem_spansOf {R X : Type} {td : Scoped.Traces R L X} {x : R × L × X} :
    x ∈ spansOf td ↔ ∃ rs, some rs ∈ td ∧ x.2 ∈ librarySpans rs.libraries ∧ x.1 = rs.resource := by
  unfold spansOf
  rw [mem_flatMap]
  constructor
  · rintro ⟨rs, hrs, hx⟩
    cases rs with
    | none => cases hx
    | some rs =>
      obtain ⟨y, hy, rfl⟩ := mem_map.1 hx
      exact ⟨rs, hrs, hy, rfl⟩
  · rintro ⟨rs, hrs, hx, hr⟩
    refine ⟨some rs, hrs, mem_map.2 ⟨x.2, hx, ?_⟩⟩
    rw [← hr]

omit [PriorityFloat F] in
theorem forall_readable_iff {td : SampledTraces F L} :
    (∀ rs ∈ td.reduceOption, Readable rs) ↔ AllReadable td := by
  simp only [reduceOption_mem_iff]
  constructor
  · intro h
    refine ⟨fun rs hrs => (h rs hrs).resource, fun x hx => ?_⟩
    obtain ⟨rs, hrs, hx, -⟩ := mem_spansOf.1 hx
    exact (h rs hrs).spans x.2 hx
  · intro h rs hrs
    refine ⟨h.resources rs hrs, fun x hx => ?_⟩
    exact h.spans (rs.resource, x) (mem_spansOf.2 ⟨rs, hrs, hx, rfl⟩)

def sampled (tsp : Sampler) (td : SampledTraces F L) : SampledTraces F L :=
  td.reduceOption.map fun rs => some (sampledResource tsp rs)

theorem consumeTraces_iff {tsp : Sampler} {td out : SampledTraces F L} :
    consumeTraces tsp td = .ok out ↔ AllReadable td ∧ sampled tsp td = out := by
  have hloop := (processTraces_guarded (F := F) (L := L) tsp).foldlM_skipNil
  by_cases h : AllReadable td
  · have hrun : consumeTraces tsp td = .ok (sampled tsp td) := by
      unfold consumeTraces sampled
      rw [hloop.run [] td (forall_readable_iff.2 h), foldl_append_eq_append, nil_append,
        ← flatMap_def, ← map_eq_flatMap]
    rw [hrun, Except.ok.injEq, and_iff_right h]
  · obtain ⟨e, he⟩ := hloop.fail [] td fun hall => h (forall_readable_iff.1 hall)
    unfold consumeTraces
    rw [he]
    exact iff_of_false (by simp) fun h' => h h'.1

/-! ## The spans of the output -/

theorem resourceSpans_sampledResource
    (rs : ResourceSpans (Option (Resource F)) (Option L) (Option (Span F))) :
    resourceSpans (sampledResource tsp rs) =
      ((resourceSpans rs).filter fun x => tsp.survives x.2.2).map
        fun x => (x.1.map Resource.copied, none, x.2.2) := by
  simp only [resourceSpans, sampledResource, librarySpans, flatMap_cons, flatMap_nil,
    append_nil, filter_map, map_map]
  rfl

/-- The surviving spans leave in order, with a copy of their resource, and without a library. -/
theorem spansOf_sampled (td : SampledTraces F L) :
    spansOf (sampled tsp td) = ((spansOf td).filter fun x => tsp.survives x.2.2).map
      fun x => (x.1.map Resource.copied, none, x.2.2) := by
  induction td with
  | nil => rfl
  | cons rs td ih =>
    cases rs with
    | none => exact ih
    | some rs =>
      rw [sampled, reduceOption_cons_of_some, map_cons, spansOf_cons, spansOf_cons,
        resourceSpans_sampledResource, filter_append, map_append, ← ih]
      rfl

/-! ## The decision -/

theorem priority_of_absent {span : Span F}
    (h : span.attributes.get "sampling.priority" = none) :
    parseSpanSamplingPriority (some span) = .deferDecision := by
  unfold parseSpanSamplingPriority
  simp [h]

/-- Without a priority, the trace id, the seed and the rate decide. -/
theorem survives_of_absent {span : Span F}
    (h : span.attributes.get "sampling.priority" = none) :
    tsp.survives (some span) = tsp.inBuckets span.traceId := by
  simp only [Sampler.survives, priority_of_absent h]

theorem inBuckets_mono {rate : UInt32} (hrate : tsp.scaledSamplingRate ≤ rate)
    {traceId : List UInt8} (h : tsp.inBuckets traceId = true) :
    Sampler.inBuckets ⟨rate, tsp.hashSeed⟩ traceId = true :=
  decide_eq_true (UInt32.lt_of_lt_of_le (of_decide_eq_true h) hrate)

theorem survives_mono {rate : UInt32} (hrate : tsp.scaledSamplingRate ≤ rate)
    {span : Option (Span F)} (h : tsp.survives span = true) :
    Sampler.survives ⟨rate, tsp.hashSeed⟩ span = true := by
  cases span with
  | none => exact h
  | some span =>
    cases hsp : parseSpanSamplingPriority (some span) with
    | deferDecision =>
      simp only [Sampler.survives, hsp] at h ⊢
      exact inBuckets_mono tsp hrate h
    | mustSampleSpan => simp only [Sampler.survives, hsp]
    | doNotSampleSpan => simp [Sampler.survives, hsp] at h

/-- **Sampling is a pure filter** exactly where the source reads no nil span and no nil entry, and
every surviving span was in a library entry without a library and under a resource without dropped
attributes. Wherever it returns, the surviving spans leave in order and with copies of their
resources; the decisions on them depend on what they should, and a higher rate keeps more. -/
theorem pure_filter_iff (tsp : Sampler) (td : SampledTraces F L) :
    (PureFilter tsp td ↔ AllReadable td ∧
      ∀ x ∈ spansOf td, tsp.survives x.2.2 = true → Undropped x.1 ∧ x.2.1 = none) ∧
    (∀ out, consumeTraces tsp td = .ok out →
      spansOf out = ((spansOf td).filter fun x => tsp.survives x.2.2).map
        fun x => (x.1.map Resource.copied, none, x.2.2)) ∧
    (∀ span : Span F, span.attributes.get "sampling.priority" = none →
      (tsp.survives (some span) = true ↔
        hash span.traceId tsp.hashSeed &&& bitMaskHashBuckets < tsp.scaledSamplingRate)) ∧
    ∀ rate, tsp.scaledSamplingRate ≤ rate → ∀ span : Option (Span F),
      tsp.survives span = true → Sampler.survives ⟨rate, tsp.hashSeed⟩ span = true := by
  refine ⟨?_, ?_, ?_, ?_⟩
  · unfold PureFilter
    simp only [consumeTraces_iff, and_assoc, exists_and_left, exists_eq_left', spansOf_sampled]
    refine and_congr_right fun _ => ?_
    rw [map_inj_left]
    simp only [mem_filter, Prod.mk.injEq, and_true, and_imp, map_copied_iff, eq_comm (a := none)]
  · intro out hout
    obtain ⟨-, rfl⟩ := consumeTraces_iff.1 hout
    exact spansOf_sampled tsp td
  · intro span hspan
    rw [survives_of_absent tsp hspan, Sampler.inBuckets, decide_eq_true_iff]
  · intro rate hrate span hspan
    exact survives_mono tsp hrate hspan

end

section

attribute [local instance] PriorityFloat.whole

def urgent : Span Int :=
  { traceId := List.replicate 16 1, spanId := List.replicate 8 2, traceState := "",
    parentSpanId := [], name := "GET", kind := .server, startTime := 0, endTime := 1,
    attributes := [.mk "sampling.priority" (.int 1)], droppedAttributesCount := 0, events := [],
    droppedEventsCount := 0, links := [], droppedLinksCount := 0, status := none }

def oneEntry (dropped : UInt32) (library : Option String) (spans : List (Option (Span Int))) :
    SampledTraces Int String :=
  [some ⟨some ⟨[.mk "host.name" (.string "a")], dropped⟩, [none, some ⟨library, spans⟩]⟩, none]

theorem unnamed_library_filtered :
    PureFilter ⟨0, 0⟩ (oneEntry 0 none [some urgent, some urgent]) := by
  refine (pure_filter_iff ⟨0, 0⟩ _).1.2 ⟨⟨?_, ?_⟩, ?_⟩
  · simp [oneEntry, Resource.Present, MapPresent, AnyValue.EntriesPresent]
  · simp [oneEntry, spansOf, resourceSpans, librarySpans]
  · simp [oneEntry, spansOf, resourceSpans, librarySpans, Undropped]

/-- A nil span ends the process, the library of a span that stays is lost, and so is the number of
attributes that its resource has dropped. -/
theorem nil_span_and_library_break :
    consumeTraces ⟨0, 0⟩ (oneEntry 0 none [none]) = .error .nilDereference ∧
    ¬ PureFilter ⟨0, 0⟩ (oneEntry 0 none [none]) ∧
    (∃ out, consumeTraces ⟨0, 0⟩ (oneEntry 0 (some "mysql") [some urgent]) = .ok out ∧
      (spansOf out).map Prod.snd = [(none, some urgent)]) ∧
    ¬ PureFilter ⟨0, 0⟩ (oneEntry 0 (some "mysql") [some urgent]) ∧
    ¬ PureFilter ⟨0, 0⟩ (oneEntry 1 none [some urgent]) := by
  have hsurvives : Sampler.survives ⟨0, 0⟩ (some urgent) = true := by decide +kernel
  refine ⟨rfl, ?_, ⟨_, rfl, rfl⟩, ?_, ?_⟩
  · rintro ⟨out, hout, -⟩
    cases hout
  all_goals
    rintro ⟨out, hout, hspans⟩
    cases hout
    simp [oneEntry, spansOf, resourceSpans, librarySpans, hsurvives, Resource.values] at hspans

end

end Collector.ProbabilisticSampler
