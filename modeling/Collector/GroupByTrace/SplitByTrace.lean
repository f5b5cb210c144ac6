import Collector.Lib.Collate
import Collector.Lib.Guarded
import Collector.Pdata.Copying

/-!
# Splitting resource spans by trace

`splitByTrace` of `processor/groupbytraceprocessor/processor.go`. Each library makes batches of its
own, one for each trace id, in the order of their first spans. A span without a trace id is left
out. `traceID` is the accessor of the span, which panics for a nil span; its result is nil when the
span has no id.
-/

namespace Collector.GroupByTrace

open Lib
open Pdata (Resource InstrumentationLibrary Undropped)
open Pdata.Scoped List

variable {R L X K : Type} [DecidableEq K]

structure SingleTraceBatch (R L X K : Type) where
  traceID : K
  rs : ResourceSpans R L X
  deriving DecidableEq

/-- A span joins the batch of its id, or opens it. -/
def addSpan (traceID : K) (span : X) : List (K × List X) → List (K × List X)
  | [] => [(traceID, [span])]
  | (id, spans) :: batches =>
    if id = traceID then (id, spans ++ [span]) :: batches
    else (id, spans) :: addSpan traceID span batches

def spansByTrace (traceID : X → Go (Option K)) (spans : List X) : Go (List (K × List X)) :=
  spans.foldlM (fun batches span => do
    match ← traceID span with
    | none => return batches
    | some id => return addSpan id span batches) []

def libraryBatches (traceID : X → Go (Option K)) (rs : ResourceSpans R L X)
    (ils : Option (LibrarySpans L X)) : Go (List (SingleTraceBatch R L X K)) := do
  let ils ← deref ils
  let batches ← spansByTrace traceID ils.spans
  return batches.map fun (id, spans) => ⟨id, { rs with libraries := [some { ils with spans }] }⟩

def splitByTrace (traceID : X → Go (Option K)) (rs : ResourceSpans R L X) :
    Go (List (SingleTraceBatch R L X K)) := do
  let result ← rs.libraries.mapM (libraryBatches traceID rs)
  return result.flatten

/-! ## Every span is in the batch of its trace -/

def SingleTraceBatch.spans (batch : SingleTraceBatch R L X K) : List (R × L × X) :=
  resourceSpans batch.rs

def HasID (traceID : X → Go (Option K)) (id : K) (span : R × L × X) : Prop :=
  traceID span.2.2 = .ok (some id)

theorem addSpan_perm (id : K) (span : X) (batches : List (K × List X)) :
    ((addSpan id span batches).flatMap Prod.snd).Perm (batches.flatMap Prod.snd ++ [span]) := by
  induction batches with
  | nil => exact .refl _
  | cons batch batches ih =>
    unfold addSpan
    split
    case isTrue =>
      simp only [flatMap_cons, append_assoc]
      exact perm_append_comm.append_left _
    case isFalse =>
      simp only [flatMap_cons, append_assoc]
      exact ih.append_left _

variable {batches : List (K × List X)} {traceID : X → Go (Option K)}

theorem mem_addSpan {id : K} {span : X} {batch : K × List X} (h : batch ∈ addSpan id span batches) :
    batch ∈ batches ∨ batch = (id, [span]) ∨
      ∃ spans, (id, spans) ∈ batches ∧ batch = (id, spans ++ [span]) := by
  induction batches with
  | nil => exact .inr (.inl (mem_singleton.1 h))
  | cons first batches ih =>
    obtain ⟨id', spans⟩ := first
    unfold addSpan at h
    split at h
    case isTrue heq =>
      subst heq
      rcases mem_cons.1 h with rfl | h
      · exact .inr (.inr ⟨spans, mem_cons_self, rfl⟩)
      · exact .inl (mem_cons_of_mem _ h)
    case isFalse =>
      rcases mem_cons.1 h with rfl | h
      · exact .inl mem_cons_self
      · rcases ih h with h | h | ⟨spans', hmem, h⟩
        · exact .inl (mem_cons_of_mem _ h)
        · exact .inr (.inl h)
        · exact .inr (.inr ⟨spans', mem_cons_of_mem _ hmem, h⟩)

/-- What is known of the batches of some spans that all have ids. -/
structure Batched (traceID : X → Go (Option K)) (spans : List X) (batches : List (K × List X)) :
    Prop where
  perm : (batches.flatMap Prod.snd).Perm spans
  hasID : ∀ batch ∈ batches, ∀ span ∈ batch.2, traceID span = .ok (some batch.1)
  nonempty : ∀ batch ∈ batches, batch.2 ≠ []

theorem Batched.addSpan {spans : List X} (h : Batched traceID spans batches) {id : K} {span : X}
    (hspan : traceID span = .ok (some id)) :
    Batched traceID (spans ++ [span]) (addSpan id span batches) := by
  refine ⟨(addSpan_perm id span batches).trans (h.perm.append_right _), ?_, ?_⟩
  · intro batch hbatch span' hspan'
    rcases mem_addSpan hbatch with hmem | rfl | ⟨spans', hmem, rfl⟩
    · exact h.hasID batch hmem span' hspan'
    · rw [mem_singleton.1 hspan']
      exact hspan
    · rcases mem_append.1 hspan' with hold | hnew
      · exact h.hasID _ hmem span' hold
      · rw [mem_singleton.1 hnew]
        exact hspan
  · intro batch hbatch
    rcases mem_addSpan hbatch with hmem | rfl | ⟨spans', -, rfl⟩
    · exact h.nonempty batch hmem
    · exact cons_ne_nil _ _
    · exact append_ne_nil_of_right_ne_nil _ (cons_ne_nil _ _)

theorem spansByTrace_batched {spans : List X} (h : spansByTrace traceID spans = .ok batches)
    (hids : ∀ span ∈ spans, ∃ id, traceID span = .ok (some id)) :
    Batched traceID spans batches := by
  -- the loop extends the batches of the spans before it
  suffices hloop : ∀ (done rest : List X) (before after : List (K × List X)),
      Batched traceID done before → (∀ span ∈ rest, ∃ id, traceID span = .ok (some id)) →
      rest.foldlM (fun batches span => do
        match ← traceID span with
        | none => return batches
        | some id => return addSpan id span batches) before = .ok after →
      Batched traceID (done ++ rest) after from
    hloop [] spans [] batches ⟨.refl _, nofun, nofun⟩ hids h
  intro done rest
  induction rest generalizing done with
  | nil =>
    intro before after hbefore _ hrun
    cases hrun
    rw [append_nil]
    exact hbefore
  | cons span rest ih =>
    intro before after hbefore hids hrun
    obtain ⟨⟨id, hid⟩, hids⟩ := forall_mem_cons.1 hids
    rw [foldlM_cons, hid] at hrun
    have hnext := ih (done ++ [span]) _ after (hbefore.addSpan hid) hids hrun
    rw [append_assoc] at hnext
    exact hnext

theorem libraryBatches_spans {rs : ResourceSpans R L X} {ils : Option (LibrarySpans L X)}
    {batches : List (SingleTraceBatch R L X K)} (h : libraryBatches traceID rs ils = .ok batches)
    (hids : ∀ span ∈ librarySpans [ils], ∃ id, traceID span.2 = .ok (some id)) :
    (batches.flatMap SingleTraceBatch.spans).Perm
        ((librarySpans [ils]).map fun span => (rs.resource, span)) ∧
      ∀ batch ∈ batches, (∀ span ∈ batch.spans, HasID traceID batch.traceID span) ∧
        batch.spans ≠ [] := by
  cases ils with
  | none => cases h
  | some ils =>
    simp only [libraryBatches, deref_some, ok_bind] at h
    obtain ⟨groups, hgroups, h⟩ := bind_eq_ok.1 h
    cases h
    have hone : librarySpans [some ils] = ils.spans.map fun span => (ils.library, span) :=
      append_nil _
    rw [hone] at hids ⊢
    have hbatched := spansByTrace_batched hgroups fun span hspan =>
      hids _ (mem_map_of_mem hspan)
    have hspans : ∀ group : K × List X,
        SingleTraceBatch.spans (K := K) ⟨group.1, { rs with libraries :=
          [some { ils with spans := group.2 }] }⟩ =
          group.2.map fun span => (rs.resource, ils.library, span) := fun group => by
      simp [SingleTraceBatch.spans, resourceSpans, librarySpans]
    refine ⟨?_, fun batch hbatch => ?_⟩
    · have hmap := hbatched.perm.map fun span => (rs.resource, ils.library, span)
      rw [map_flatMap] at hmap
      rw [flatMap_map, map_map]
      simp only [hspans]
      exact hmap
    · obtain ⟨group, hgroup, rfl⟩ := mem_map.1 hbatch
      rw [hspans]
      refine ⟨fun span hspan => ?_, fun hnil => ?_⟩
      · obtain ⟨x, hx, rfl⟩ := mem_map.1 hspan
        exact hbatched.hasID group hgroup x hx
      · exact hbatched.nonempty group hgroup (map_eq_nil_iff.1 hnil)

/-- **Resource spans with ids in all their spans are split into batches of one trace each.** -/
theorem splitByTrace_spans {rs : ResourceSpans R L X} {batches : List (SingleTraceBatch R L X K)}
    (h : splitByTrace traceID rs = .ok batches)
    (hids : ∀ span ∈ resourceSpans rs, ∃ id, HasID traceID id span) :
    (batches.flatMap SingleTraceBatch.spans).Perm (resourceSpans rs) ∧
      ∀ batch ∈ batches, (∀ span ∈ batch.spans, HasID traceID batch.traceID span) ∧
        batch.spans ≠ [] := by
  obtain ⟨groups, hgroups, hflat⟩ := bind_eq_ok.1 h
  cases hflat
  have hids' : ∀ span ∈ librarySpans rs.libraries, ∃ id, traceID span.2 = .ok (some id) :=
    fun span hspan => hids _ (mem_map_of_mem hspan)
  clear h hids
  unfold resourceSpans
  generalize rs.libraries = ilss at hgroups hids'
  induction ilss generalizing groups with
  | nil =>
    cases hgroups
    exact ⟨.refl _, nofun⟩
  | cons ils ilss ih =>
    rw [mapM_cons] at hgroups
    obtain ⟨batches, hbatches, hgroups⟩ := bind_eq_ok.1 hgroups
    obtain ⟨rest, hrest, hgroups⟩ := bind_eq_ok.1 hgroups
    cases hgroups
    have hcons : librarySpans (ils :: ilss) = librarySpans [ils] ++ librarySpans ilss := by
      simp [librarySpans]
    rw [hcons] at hids' ⊢
    obtain ⟨hperm, hall⟩ := libraryBatches_spans hbatches fun span hspan =>
      hids' span (mem_append_left _ hspan)
    obtain ⟨hperm', hall'⟩ := ih rest hrest fun span hspan =>
      hids' span (mem_append_right _ hspan)
    refine ⟨?_, fun batch hbatch => ?_⟩
    · rw [flatten_cons, flatMap_append, map_append]
      exact hperm.append hperm'
    · exact (mem_append.1 hbatch).elim (hall batch) (hall' batch)

/-! ## The batches as a partition -/

/-- The spans of each trace, the traces in the order of their first spans. -/
def spansById (ids : X → Option K) (spans : List X) : List (K × List X) :=
  (firstSeen (spans.filterMap ids)).map fun id => (id, spans.filter fun span => ids span = some id)

theorem addSpan_map {keys : List K} (hkeys : keys.Nodup) {f : K → List X} {id : K} (span : X)
    (hf : id ∉ keys → f id = []) :
    addSpan id span (keys.map fun k => (k, f k)) =
      (if id ∈ keys then keys else keys ++ [id]).map fun k =>
        (k, if k = id then f k ++ [span] else f k) := by
  induction keys with
  | nil => simp [addSpan, hf]
  | cons k keys ih =>
    obtain ⟨hk, hkeys⟩ := nodup_cons.1 hkeys
    rw [map_cons, addSpan]
    by_cases hid : k = id
    · subst hid
      rw [if_pos rfl, if_pos mem_cons_self, map_cons, if_pos rfl]
      refine congrArg _ (map_congr_left fun k' hk' => ?_)
      rw [if_neg (ne_of_mem_of_not_mem hk' hk)]
    · have hmem : id ∈ k :: keys ↔ id ∈ keys := by simp [Ne.symm hid]
      rw [if_neg hid, ih hkeys fun h => hf (hmem.not.2 h)]
      simp only [hmem]
      split <;> simp [hid]

theorem spansByTrace_eq {ids : X → Option K} {spans : List X}
    (hids : ∀ span ∈ spans, traceID span = .ok (ids span)) :
    spansByTrace traceID spans = .ok (spansById ids spans) := by
  induction spans using List.reverseRecOn with
  | nil => rfl
  | append_singleton spans span ih =>
    obtain ⟨hspans, hspan⟩ := forall_mem_append.1 hids
    rw [spansByTrace, foldlM_append]
    change (spansByTrace traceID spans >>= _) = _
    rw [ih hspans, ok_bind, foldlM_cons, hspan span mem_cons_self]
    unfold spansById
    rw [filterMap_append]
    cases hid : ids span with
    | none =>
      simp [hid]
      rfl
    | some id =>
      have hnew : id ∉ firstSeen (spans.filterMap ids) →
          (spans.filter fun span => ids span = some id) = [] := by
        intro h
        rw [mem_firstSeen, mem_filterMap] at h
        exact filter_eq_nil_iff.2 fun x hx heq => h ⟨x, hx, of_decide_eq_true heq⟩
      show Except.ok (addSpan id span _) = _
      rw [addSpan_map (nodup_firstSeen _) span hnew, filterMap_cons_some hid, filterMap_nil,
        firstSeen_snoc]
      refine congrArg _ (map_congr_left fun k _ => ?_)
      by_cases hk : k = id
      · simp [hk, filter_append, hid]
      · simp [hk, filter_append, hid, Ne.symm hk]

/-! ## With the copies -/

section Copying

variable {F : Type}

/-- `ResourceSpans` with pointers to the messages that are copied. -/
abbrev Message (F X : Type) := ResourceSpans (Option (Resource F)) (Option InstrumentationLibrary) X

abbrev MessageBatch (F X K : Type) :=
  SingleTraceBatch (Option (Resource F)) (Option InstrumentationLibrary) X K

/-- `libraryBatches` with the calls of `CopyTo`, which the source makes at the first span of each
batch and which follow the loop over the spans here. -/
def copiedBatches (traceID : X → Go (Option K)) (rs : Message F X)
    (ils : Option (LibrarySpans (Option InstrumentationLibrary) X)) :
    Go (List (MessageBatch F X K)) := do
  let ils ← deref ils
  let batches ← spansByTrace traceID ils.spans
  batches.mapM fun (id, spans) => do
    let resource ← rs.resource.mapM Resource.copyTo
    let library := ils.library.map InstrumentationLibrary.copyTo
    return ⟨id, ⟨resource, [some ⟨library, spans⟩]⟩⟩

/-- `splitByTrace` with the calls of `CopyTo`. -/
def splitByTraceCopying (traceID : X → Go (Option K)) (rs : Message F X) :
    Go (List (MessageBatch F X K)) := do
  let result ← rs.libraries.mapM (copiedBatches traceID rs)
  return result.flatten

/-- The batches of the spans with ids: library by library, and in it trace by trace. -/
def partition (ids : X → Option K) (resource : R) (libs : List (LibrarySpans L X)) :
    List (SingleTraceBatch R L X K) :=
  libs.flatMap fun ils => (spansById ids ils.spans).map fun (id, spans) =>
    ⟨id, ⟨resource, [some { ils with spans }]⟩⟩

def SingleTraceBatch.withResource (batch : SingleTraceBatch R L X K) (resource : R) :
    SingleTraceBatch R L X K := { batch with rs := { batch.rs with resource } }

/-- A batch with the values of its resource. -/
def MessageBatch.values (batch : MessageBatch F X K) : MessageBatch F X K :=
  batch.withResource (batch.rs.resource.map Resource.values)

theorem spansById_eq_nil {ids : X → Option K} {spans : List X} :
    spansById ids spans = [] ↔ ∀ span ∈ spans, ids span = none := by
  rw [spansById, map_eq_nil_iff, eq_nil_iff_forall_not_mem]
  simp only [mem_firstSeen, ← eq_nil_iff_forall_not_mem, filterMap_eq_nil_iff]

theorem partition_eq_nil {ids : X → Option K} {resource : R} {libs : List (LibrarySpans L X)} :
    partition ids resource libs = [] ↔ ∀ ils ∈ libs, ∀ span ∈ ils.spans, ids span = none := by
  simp only [partition, flatMap_eq_nil_iff, map_eq_nil_iff, spansById_eq_nil]

omit [DecidableEq K] in
theorem values_withResource_iff {batch : MessageBatch F X K} {resource : Option (Resource F)}
    (hbatch : batch.rs.resource = resource) :
    MessageBatch.values (batch.withResource (resource.map Resource.copied)) =
        MessageBatch.values batch ↔
      resource.map Resource.copied = resource.map Resource.values := by
  have hcopied : (resource.map Resource.copied).map Resource.values =
      resource.map Resource.copied := by
    rw [Option.map_map]
    exact congrArg (Option.map · resource) (funext Resource.values_copied)
  unfold MessageBatch.values SingleTraceBatch.withResource
  rw [hbatch, hcopied]
  simp

variable {ids : X → Option K} {resource : Option (Resource F)}
  {libs : List (LibrarySpans (Option InstrumentationLibrary) X)}

theorem splitByTraceCopying_eq
    (hids : ∀ ils ∈ libs, ∀ span ∈ ils.spans, traceID span = .ok (ids span)) :
    splitByTraceCopying traceID ⟨resource, libs.map some⟩ =
      (partition ids resource libs).mapM fun batch => do
        let copied ← resource.mapM Resource.copyTo
        return batch.withResource copied := by
  unfold splitByTraceCopying
  dsimp only
  generalize hrs : (⟨resource, libs.map some⟩ : Message F X) = rs
  have hresource : resource = rs.resource := congrArg ResourceSpans.resource hrs
  clear hrs
  subst hresource
  induction libs with
  | nil => rfl
  | cons ils libs ih =>
    obtain ⟨hspans, hids⟩ := forall_mem_cons.1 hids
    have hcopy : ils.library.map InstrumentationLibrary.copyTo = ils.library := Option.map_id' ..
    rw [partition, flatMap_cons, mapM_append, ← partition, ← ih hids, map_cons, mapM_cons,
      copiedBatches, deref_some, ok_bind, spansByTrace_eq hspans, ok_bind, hcopy]
    simp only [bind_assoc, pure_bind, flatten_cons, mapM_map, Function.comp_def]
    rfl

/-- **The batches are a partition of the spans with ids** into what each library has of each trace,
in its order and in the order of the first spans, exactly where there is nothing to copy or the
resource is copied as it is. -/
theorem splitByTrace_partition
    (hids : ∀ ils ∈ libs, ∀ span ∈ ils.spans, traceID span = .ok (ids span)) :
    (∃ batches, splitByTraceCopying traceID ⟨resource, libs.map some⟩ = .ok batches ∧
      batches.map MessageBatch.values = (partition ids resource libs).map MessageBatch.values) ↔
    (∀ ils ∈ libs, ∀ span ∈ ils.spans, ids span = none) ∨
      (∀ r, resource = some r → r.Present) ∧ Undropped resource := by
  rw [splitByTraceCopying_eq hids, ← partition_eq_nil (R := Option (Resource F))]
  have hmem : ∀ batch ∈ partition ids resource libs, batch.rs.resource = resource := by
    intro batch hbatch
    obtain ⟨ils, -, hbatch⟩ := mem_flatMap.1 hbatch
    obtain ⟨group, -, rfl⟩ := mem_map.1 hbatch
    rfl
  cases hcopy : resource.mapM Resource.copyTo with
  | error e =>
    have hnot : ¬ ((∀ r, resource = some r → r.Present) ∧ Undropped resource) := by
      intro h
      rw [Resource.computes_copyTo.option.run h.1] at hcopy
      cases hcopy
    rw [or_iff_left hnot]
    cases hbatches : partition ids resource libs with
    | nil => simp [pure, Except.pure]
    | cons batch batches =>
      refine iff_of_false ?_ (cons_ne_nil _ _)
      rintro ⟨_, hrun, -⟩
      cases hrun
  | ok copied =>
    obtain ⟨hpresent, rfl⟩ := (Resource.computes_copyTo.option.iff _ _).1 hcopy
    have hrun : ((partition ids resource libs).mapM fun batch =>
        (do return batch.withResource (← .ok (resource.map Resource.copied)) : Go _)) =
          .ok ((partition ids resource libs).map fun batch =>
            batch.withResource (resource.map Resource.copied)) := mapM_ok fun batch _ => rfl
    rw [hrun, and_iff_right hpresent, ← Pdata.map_copied_iff]
    simp only [Except.ok.injEq, exists_eq_left', map_map, map_inj_left, Function.comp_def]
    rw [forall₂_congr fun batch hbatch => values_withResource_iff (hmem batch hbatch)]
    cases partition ids resource libs with
    | nil => simp
    | cons batch batches => simpa using fun h _ _ => h

/-- Two traces that alternate, and a span without an id. -/
def alternating : List (LibrarySpans (Option InstrumentationLibrary) Nat) :=
  [⟨some ⟨"mysql", "1.0"⟩, [1, 2, 0, 3, 4]⟩, ⟨none, [5]⟩]

def parity (x : Nat) : Option Nat := if x = 0 then none else some (x % 2)

def undropped : Option (Resource Unit) := some ⟨[.mk "k" (.bool true)], 0⟩

theorem splitByTrace_partition_two :
    (partition parity undropped alternating).map
        (fun batch => (batch.traceID, batch.spans.map fun x => x.2.2)) =
      [(1, [1, 3]), (0, [2, 4]), (1, [5])] ∧
    ∃ batches, splitByTraceCopying (fun x => .ok (parity x))
        ⟨undropped, alternating.map some⟩ = .ok batches ∧
      batches.map MessageBatch.values =
        (partition parity undropped alternating).map MessageBatch.values := by
  refine ⟨by decide, (splitByTrace_partition fun _ _ _ _ => rfl).2 (.inr ⟨?_, ?_⟩)⟩
  · simp [undropped, Resource.Present, Pdata.MapPresent, Pdata.AnyValue.EntriesPresent]
  · simp [undropped, Undropped]

/-- A nil attribute of the resource: the copy brings the call down. A resource that has dropped an
attribute is not copied as it is. -/
theorem nil_attribute_not_split :
    splitByTraceCopying (fun x : Nat => .ok (some x))
      (⟨some ⟨[.nil], 0⟩, [some ⟨none, [1]⟩]⟩ : Message Unit Nat) = .error .nilDereference ∧
    splitByTraceCopying (fun x : Nat => .ok (some x))
      (⟨some ⟨[], 1⟩, [some ⟨none, [1]⟩]⟩ : Message Unit Nat) =
      .ok [⟨1, ⟨some ⟨[], 0⟩, [some ⟨none, [1]⟩]⟩⟩] :=
  ⟨rfl, rfl⟩

end Copying

end Collector.GroupByTrace
