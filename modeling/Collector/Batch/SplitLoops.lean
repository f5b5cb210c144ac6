import Mathlib.Data.List.Induction
import Collector.Batch.Split
import Collector.Pdata.Copying

/-!
# The loops of `splitTrace`

`processor/batchprocessor/splittraces.go` as it is written: three loops count down over slices that
they shorten, the spans go to the places of a slice that was made long enough before, and
resources, libraries and spans are copied. The loops do what `Batch.splitTrace` says, with copies
in the new trace (`splitTrace_eq`). What the copies lack is the number of attributes that a resource
has dropped.
-/

namespace Collector.Batch.Loops

open Lib Pdata Pdata.Scoped List

variable {F : Type}

abbrev Messages (F : Type) :=
  Scoped.Traces (Option (Resource F)) (Option InstrumentationLibrary) (Option (Span F))

/-- `Resize` of a slice of pointers: what is missing is filled with new messages. -/
def resize {α : Type} (new : α) (n : Nat) (es : List (Option α)) : List (Option α) :=
  if n ≤ es.length then es.take n else es ++ List.replicate (n - es.length) (some new)

/-- A new span. -/
def emptySpan : Span F :=
  { traceId := [], spanId := [], traceState := "", parentSpanId := [], name := "",
    kind := .unspecified, startTime := 0, endTime := 0, attributes := [],
    droppedAttributesCount := 0, events := [], droppedEventsCount := 0, links := [],
    droppedLinksCount := 0, status := none }

/-- The loop over the spans of a library, with `k` one more than in the source: the spans that
stay, those of the new library, and `copiedSpans`. -/
def moveSpans (size : Nat) : Nat → Nat → Nat → List (Option (Span F)) → List (Option (Span F)) →
    Go (List (Option (Span F)) × List (Option (Span F)) × Nat)
  | 0, _, copiedSpans, spans, dest => .ok (spans, dest, copiedSpans)
  | k + 1, destIdx, copiedSpans, spans, dest =>
    if copiedSpans < size then do
      let span ← index spans k
      let copy ← span.mapM Span.copyTo
      let dest ← setIndex dest destIdx copy
      moveSpans size k (destIdx + 1) (copiedSpans + 1)
        (resize emptySpan (spans.length - 1) spans) dest
    else .ok (spans, dest, copiedSpans)

/-- What the loop over the libraries of a resource leaves. -/
structure Progress (F : Type) where
  libraries : List (Option (LibraryMessage F))
  dest : List (Option (LibraryMessage F))
  copiedSpans : Nat
  /-- `splitTrace` returns. -/
  done : Bool

/-- The loop over the libraries of a resource, with `j` one more than in the source. -/
def moveLibraries (size : Nat) : Nat → Nat → List (Option (LibraryMessage F)) →
    List (Option (LibraryMessage F)) → Go (Progress F)
  | 0, copiedSpans, ilss, dest => .ok ⟨ilss, dest, copiedSpans, false⟩
  | j + 1, copiedSpans, ilss, dest => do
    let instSpans ← deref (← index ilss j)
    let library := instSpans.library.map InstrumentationLibrary.copyTo
    let room :=
      if size - copiedSpans ≥ instSpans.spans.length then instSpans.spans.length
      else size - copiedSpans
    let (spans, moved, copiedSpans) ← moveSpans size instSpans.spans.length 0 copiedSpans
      instSpans.spans (resize emptySpan room [])
    let ilss := ilss.set j (some { instSpans with spans })
    let ilss := if spans.length = 0 then resize ⟨none, []⟩ (ilss.length - 1) ilss else ilss
    let dest := dest ++ [some ⟨library, moved⟩]
    if copiedSpans = size then return ⟨ilss, dest, copiedSpans, true⟩
    else moveLibraries size j copiedSpans ilss dest

/-- The loop over the resources, with `i` one more than in the source: the new ones, and those that
stay. -/
def moveResources (size : Nat) : Nat → Nat → Messages F → Messages F →
    Go (Messages F × Messages F)
  | 0, _, rss, dest => .ok (dest, rss)
  | i + 1, copiedSpans, rss, dest => do
    let rs ← deref (← index rss i)
    let resource ← rs.resource.mapM Resource.copyTo
    let progress ← moveLibraries size rs.libraries.length copiedSpans rs.libraries []
    let rss := rss.set i (some { rs with libraries := progress.libraries })
    let dest := dest ++ [some ⟨resource, progress.dest⟩]
    if progress.done then return (dest, rss)
    else
      let rss :=
        if progress.libraries.length = 0 then resize ⟨none, []⟩ (rss.length - 1) rss else rss
      moveResources size i progress.copiedSpans rss dest

/-- `splitTrace`: the new trace, and what is left of the one that was split. -/
def splitTrace (size : Nat) (toSplit : Messages F) : Go (Messages F × Option (Messages F)) :=
  if spanCount toSplit ≤ size then .ok (toSplit, none)
  else do
    let (result, kept) ← moveResources size toSplit.length 0 toSplit []
    return (result, some kept)

/-! ## The loops move what a split moves -/

theorem resize_dropLast {α : Type} (new : α) (es : List (Option α)) (e : Option α) :
    resize new ((es ++ [e]).length - 1) (es ++ [e]) = es := by
  simp [resize]

theorem length_resize {α : Type} (new : α) (n : Nat) (es : List (Option α)) :
    (resize new n es).length = n := by
  unfold resize
  split <;> simp <;> omega

theorem index_snoc {α : Type} (xs : List α) (x : α) : index (xs ++ [x]) xs.length = .ok x := by
  simp [index]

theorem setIndex_next {α : Type} (written rest : List α) (old new : α) :
    setIndex (written ++ old :: rest) written.length new = .ok (written ++ new :: rest) := by
  simp [setIndex]

theorem moveSpans_eq {size copiedSpans : Nat} {spans written rest : List (Option (Span F))}
    (hpresent : ∀ span, some span ∈ spans → span.Present)
    (hrest : rest.length = min (size - copiedSpans) spans.length) :
    moveSpans size spans.length written.length copiedSpans spans (written ++ rest) =
      .ok ((spans.reverse.drop (size - copiedSpans)).reverse,
        written ++ (spans.reverse.take (size - copiedSpans)).map (Option.map Span.values),
        copiedSpans + min (size - copiedSpans) spans.length) := by
  -- from the last span on, each goes to the first place that is not written yet
  induction spans using List.reverseRecOn generalizing written rest copiedSpans with
  | nil =>
    rw [length_nil, Nat.min_zero, length_eq_zero_iff] at hrest
    simp [moveSpans, hrest]
  | append_singleton spans span ih =>
    rw [length_append, length_singleton] at hrest ⊢
    rw [moveSpans]
    split
    case isTrue hlt =>
      obtain ⟨old, rest, rfl⟩ := exists_cons_of_length_pos (l := rest) (by omega)
      have hcopy : span.mapM Span.copyTo = .ok (span.map Span.values) :=
        Span.computes_copyTo.option.run fun s hs => hpresent s (by simp [hs])
      have hnext := @ih (copiedSpans + 1) (written ++ [span.map Span.values]) rest
        (fun s hs => hpresent s (mem_append_left _ hs)) (by rw [length_cons] at hrest; omega)
      have hleft : size - copiedSpans = size - (copiedSpans + 1) + 1 := by omega
      rw [index_snoc, ok_bind, hcopy, ok_bind, setIndex_next, ok_bind, resize_dropLast]
      rw [length_append, append_assoc, append_assoc, length_singleton] at hnext
      rw [hleft, reverse_append, reverse_singleton, singleton_append, drop_succ_cons,
        take_succ_cons, map_cons, Nat.add_min_add_right, ← Nat.add_assoc,
        Nat.add_right_comm copiedSpans]
      exact hnext
    case isFalse hge =>
      have hzero : size - copiedSpans = 0 := by omega
      rw [hzero, Nat.zero_min, length_eq_zero_iff] at hrest
      simp [hzero, hrest]

theorem moveLibraries_eq {size copiedSpans : Nat} {ilss dest : List (Option (LibraryMessage F))}
    (hnil : none ∉ ilss) (hpresent : ∀ ils, some ils ∈ ilss → LibraryMessage.Present ils)
    (hle : copiedSpans ≤ size) :
    moveLibraries size ilss.length copiedSpans ilss dest =
      (splitLibraries (size - copiedSpans) ilss.reverse).map fun split =>
        ⟨split.kept.reverse, dest ++ split.moved.map (Option.map LibraryMessage.values),
          size - split.left, split.done⟩ := by
  induction ilss using List.reverseRecOn generalizing copiedSpans dest with
  | nil => simp [moveLibraries, splitLibraries, Except.map, Nat.sub_sub_self hle]
  | append_singleton ilss ils ih =>
    obtain ⟨instSpans, rfl⟩ : ∃ instSpans, ils = some instSpans := by
      cases ils with
      | none => simp at hnil
      | some instSpans => exact ⟨instSpans, rfl⟩
    have hlibrary : instSpans.library.map InstrumentationLibrary.copyTo = instSpans.library :=
      Option.map_id' ..
    have hset : ∀ ils', (ilss ++ [some instSpans]).set ilss.length ils' = ilss ++ [ils'] := by
      simp
    have hmove : moveSpans size instSpans.spans.length 0 copiedSpans instSpans.spans
        (resize emptySpan (min (size - copiedSpans) instSpans.spans.length) []) =
        .ok ((instSpans.spans.reverse.drop (size - copiedSpans)).reverse,
          (instSpans.spans.reverse.take (size - copiedSpans)).map (Option.map Span.values),
          copiedSpans + min (size - copiedSpans) instSpans.spans.length) :=
      @moveSpans_eq _ _ _ _ [] _ (hpresent instSpans (by simp)) (length_resize _ _ _)
    have hroom : (if size - copiedSpans ≥ instSpans.spans.length then instSpans.spans.length
        else size - copiedSpans) = min (size - copiedSpans) instSpans.spans.length := by
      split <;> omega
    rw [length_append, length_singleton, moveLibraries, reverse_append, reverse_singleton,
      singleton_append, splitLibraries]
    simp only [index_snoc, ok_bind, deref_some, hlibrary, hroom, hmove, hset, resize_dropLast,
      length_take, length_reverse]
    by_cases hdone : size - copiedSpans - min (size - copiedSpans) instSpans.spans.length = 0
    · have hsize : copiedSpans + min (size - copiedSpans) instSpans.spans.length = size := by omega
      rw [if_pos hdone, hsize, if_pos rfl]
      simp only [pure, Except.pure, Except.map, map_cons, map_nil, Option.map_some, Nat.sub_zero]
      congr 2
      split <;> simp
    · have hshort : instSpans.spans.length < size - copiedSpans := by omega
      have hmore : copiedSpans + min (size - copiedSpans) instSpans.spans.length ≠ size := by omega
      have hnext := @ih (copiedSpans + min (size - copiedSpans) instSpans.spans.length)
        (dest ++ [some ⟨instSpans.library,
          (instSpans.spans.reverse.take (size - copiedSpans)).map (Option.map Span.values)⟩])
        (by simp_all) (fun ils hils => hpresent ils (mem_append_left _ hils)) (by omega)
      rw [if_neg hdone, if_neg hmore, if_pos (by simp; omega), hnext, Nat.sub_add_eq]
      cases splitLibraries (size - copiedSpans - min (size - copiedSpans) instSpans.spans.length)
        ilss.reverse with
      | error e => rfl
      | ok split => simp [Except.map, pure, Except.pure, LibraryMessage.values]

theorem moveResources_eq {size copiedSpans : Nat} {rss dest : Messages F} (hnil : NoNil rss)
    (hpresent : ∀ rs, some rs ∈ rss → ResourceMessage.Present rs) (hle : copiedSpans ≤ size) :
    moveResources size rss.length copiedSpans rss dest =
      (splitResources (size - copiedSpans) rss.reverse).map fun (part, kept) =>
        (dest ++ part.map (Option.map ResourceMessage.copied), kept.reverse) := by
  induction rss using List.reverseRecOn generalizing copiedSpans dest with
  | nil => simp [moveResources, splitResources, Except.map]
  | append_singleton rss rs ih =>
    obtain ⟨hrss, hrs⟩ := forall_mem_append.1 hnil
    obtain ⟨rs, rfl, hlibs⟩ := hrs rs mem_cons_self
    have hmem : ResourceMessage.Present rs := hpresent rs (by simp)
    have hset : ∀ rs', (rss ++ [some rs]).set rss.length rs' = rss ++ [rs'] := by simp
    rw [length_append, length_singleton, moveResources, reverse_append, reverse_singleton,
      singleton_append, splitResources]
    simp only [index_snoc, ok_bind, deref_some, hset, resize_dropLast,
      Resource.computes_copyTo.option.run hmem.resource,
      moveLibraries_eq hlibs hmem.libraries hle]
    cases hsplit : splitLibraries (size - copiedSpans) rs.libraries.reverse with
    | error e => rfl
    | ok split =>
      have hsound := splitLibraries_sound hsplit
      simp only [Except.map, ok_bind]
      cases hdone : split.done with
      | true => simp [pure, Except.pure, ResourceMessage.copied]
      | false =>
        have hleft := hsound.remaining
        have hnext := @ih (size - split.left)
          (dest ++ [some ⟨rs.resource.map Resource.copied,
            [] ++ split.moved.map (Option.map LibraryMessage.values)⟩])
          hrss (fun rs' hrs' => hpresent rs' (mem_append_left _ hrs')) (Nat.sub_le _ _)
        rw [Nat.sub_sub_self (by omega)] at hnext
        simp only [hsound.rest hdone, reverse_nil, length_nil, if_true, Bool.false_eq_true,
          if_false, hnext]
        cases splitResources split.left rss.reverse with
        | error e => rfl
        | ok parts => simp [Except.map, pure, Except.pure, ResourceMessage.copied]

/-- **The loops split a trace**, and copy what they move. -/
theorem splitTrace_eq {size : Nat} {td : Messages F} (hnil : NoNil td)
    (hpresent : ∀ rs, some rs ∈ td → ResourceMessage.Present rs) (hlarge : size < spanCount td) :
    splitTrace size td = (Batch.splitTrace size td).map fun (part, kept) =>
      (part.map (Option.map ResourceMessage.copied), kept) := by
  rw [splitTrace, Batch.splitTrace, if_neg (Nat.not_le.2 hlarge), if_neg (Nat.not_le.2 hlarge),
    moveResources_eq hnil hpresent (Nat.zero_le size), Nat.sub_zero]
  cases splitResources size td.reverse with
  | error e => rfl
  | ok parts => rfl

/-! ## What is lost -/

/-- No resource or library is nil, and no entry among some attributes. -/
structure Whole (td : Messages F) : Prop where
  noNil : NoNil td
  present : ∀ rs, some rs ∈ td → ResourceMessage.Present rs

/-- A span with its resource and library, by their values. -/
abbrev Triple (F : Type) := Option (Resource F) × Option InstrumentationLibrary × Option (Span F)

def Triple.values (x : Triple F) : Triple F :=
  (x.1.map Resource.values, x.2.1, x.2.2.map Span.values)

/-- What copies make of a span with its resource and library. -/
def Triple.copied (x : Triple F) : Triple F :=
  (x.1.map Resource.copied, x.2.1, x.2.2.map Span.values)

theorem librarySpans_values (ilss : List (Option (LibraryMessage F))) :
    librarySpans (ilss.map (Option.map LibraryMessage.values)) =
      (librarySpans ilss).map fun x => (x.1, x.2.map Span.values) := by
  induction ilss with
  | nil => rfl
  | cons ils ilss ih =>
    cases ils with
    | none => exact ih
    | some ils =>
      rw [map_cons, Option.map_some, librarySpans_cons, librarySpans_cons, map_append, ih]
      simp [LibraryMessage.values]

theorem spansOf_copied (td : Messages F) :
    spansOf (td.map (Option.map ResourceMessage.copied)) = (spansOf td).map Triple.copied := by
  induction td with
  | nil => rfl
  | cons rs td ih =>
    cases rs with
    | none => exact ih
    | some rs =>
      rw [map_cons, Option.map_some, spansOf_cons, spansOf_cons, map_append, ih, resourceSpans,
        resourceSpans, ResourceMessage.copied, librarySpans_values, map_map, map_map]
      rfl

theorem map_values_values (span : Option (Span F)) :
    (span.map Span.values).map Span.values = span.map Span.values := by
  rw [Option.map_map]
  refine congrArg (Option.map · span) (funext fun ms => ?_)
  exact ((Span.computes_copyTo.iff _ _).1 ms.copyTo_values).2

theorem values_comp_copied : Triple.values ∘ Triple.copied = Triple.copied (F := F) := by
  funext x
  have hresource : Resource.values ∘ Resource.copied = Resource.copied (F := F) :=
    funext Resource.values_copied
  rw [Function.comp_apply, Triple.values, Triple.copied, map_values_values, Option.map_map,
    hresource]

theorem copied_comp_copied : Triple.copied ∘ Triple.copied = Triple.copied (F := F) := by
  funext x
  have hresource : Resource.copied ∘ Resource.copied = Resource.copied (F := F) :=
    funext fun ms => ((Resource.computes_copyTo.iff _ _).1 ms.copyTo_copied).2
  rw [Function.comp_apply, Triple.copied, Triple.copied, map_values_values, Option.map_map,
    hresource]

/-- Copies hold the values exactly where no resource has dropped attributes. -/
theorem copied_perm_iff {xs : List (Triple F)} :
    (xs.map Triple.copied).Perm (xs.map Triple.values) ↔ ∀ x ∈ xs, Undropped x.1 := by
  constructor
  · intro hperm x hx
    obtain ⟨y, -, hy⟩ := mem_map.1 (hperm.mem_iff.2 (mem_map_of_mem hx))
    intro ms hms
    have hvalues : y.1.map Resource.copied = x.1.map Resource.values := congrArg Prod.fst hy
    rw [hms, Option.map_some, Option.map_eq_some_iff] at hvalues
    obtain ⟨ms', -, hms'⟩ := hvalues
    exact (congrArg Resource.droppedAttributesCount hms').symm
  · intro h
    refine .of_eq (map_congr_left fun x hx => ?_)
    rw [Triple.copied, Triple.values, map_copied_iff.2 (h x hx)]

/-- **A split is exact** but for the resources: a trace of so many spans is made, the others stay,
and the two have the spans of the trace with their libraries and the attributes of their resources.
They have their resources exactly when those of the spans that move have dropped no attributes. -/
theorem splitTrace_exact (size : Nat) (td : Messages F) (hwhole : Whole td)
    (hlarge : size < spanCount td) :
    ∃ part kept, splitTrace size td = .ok (part, some kept) ∧ spanCount part = size ∧
      spanCount kept = spanCount td - size ∧
      ((spansOf part ++ spansOf kept).map Triple.copied).Perm ((spansOf td).map Triple.copied) ∧
      (((spansOf part ++ spansOf kept).map Triple.values).Perm ((spansOf td).map Triple.values) ↔
        ∀ x ∈ (spansOf td).reverse.take size, Undropped x.1) := by
  obtain ⟨part, kept, hrun, hparts⟩ := splitTrace_parts hwhole.noNil hlarge
  have hspans := spansOf_copied part
  have hperm := hparts.perm
  refine ⟨part.map (Option.map ResourceMessage.copied), kept, ?_, ?_, ?_, ?_, ?_⟩
  · rw [splitTrace_eq hwhole.noNil hwhole.present hlarge, hrun]
    rfl
  · rw [← length_spansOf, hspans, length_map, length_spansOf, hparts.count]
  · have hlength := hperm.length_eq
    rw [length_append, length_spansOf, length_spansOf, length_spansOf, hparts.count] at hlength
    omega
  · rw [hspans, map_append, map_map, copied_comp_copied, ← map_append]
    exact hperm.map Triple.copied
  · rw [hspans, map_append, map_map, values_comp_copied, ← (hperm.map Triple.values).congr_right,
      map_append, perm_append_right_iff, copied_perm_iff, hparts.moved]

/-- Three spans of two libraries, under a resource that has dropped some attributes. -/
def threeSpans (dropped : UInt32) : Messages Unit :=
  [some ⟨some ⟨[.mk "k" (.bool true)], dropped⟩,
    [some ⟨none, [some emptySpan]⟩,
      some ⟨some ⟨"mysql", "1.0"⟩, [some emptySpan, some emptySpan]⟩]⟩]

theorem whole_threeSpans (dropped : UInt32) : Whole (threeSpans dropped) where
  noNil := by simp [threeSpans, NoNil]
  present := by
    have hspan : (emptySpan : Span Unit).Present :=
      ⟨trivial, by simp [emptySpan], by simp [emptySpan]⟩
    rintro rs hrs
    obtain rfl : rs = _ := Option.some.inj (mem_singleton.1 hrs)
    refine ⟨?_, ?_⟩
    · simp [Resource.Present, MapPresent, AnyValue.EntriesPresent]
    · simp [LibraryMessage.Present, hspan]

/-- Two of the spans move, from the last one on. -/
theorem splitTrace_exact_two : ∃ part kept,
    splitTrace 2 (threeSpans 0) = .ok (part, some kept) ∧ spanCount part = 2 ∧
      spanCount kept = 1 ∧
      ((spansOf part ++ spansOf kept).map Triple.values).Perm
        ((spansOf (threeSpans 0)).map Triple.values) := by
  obtain ⟨part, kept, hrun, hpart, hkept, -, hiff⟩ :=
    splitTrace_exact 2 (threeSpans 0) (whole_threeSpans 0) (by decide)
  refine ⟨part, kept, hrun, hpart, hkept, hiff.2 ?_⟩
  simp [threeSpans, spansOf, resourceSpans, librarySpans, Undropped]

/-- A resource that has dropped an attribute has not in the new trace. -/
theorem dropped_count_lost : ∃ part kept,
    splitTrace 2 (threeSpans 1) = .ok (part, some kept) ∧
      ¬ ((spansOf part ++ spansOf kept).map Triple.values).Perm
        ((spansOf (threeSpans 1)).map Triple.values) := by
  refine ⟨_, _, rfl, fun hperm => ?_⟩
  exact absurd (hperm.map fun x => x.1.map Resource.droppedAttributesCount) (by decide)

end Collector.Batch.Loops
