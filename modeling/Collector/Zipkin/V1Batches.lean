import Collector.Lib.Collate
import Collector.Zipkin.V1

/-!
# Batches of Zipkin v1 spans

`zipkinToOCProtoBatch` collects the spans under the text of their endpoint, in which the fields are
joined by dashes that the fields may contain themselves. The batches are those of the endpoints
exactly where no two endpoints of the list have one text (`partitioned_iff`).
-/

namespace Collector.Zipkin.V1

open Lib
open OpenCensus (Span)
open List

variable {F τ : Type} {parsed : List (Span F × ParseResult F)}

def endpoints (parsed : List (Span F × ParseResult F)) : List Endpoint :=
  parsed.filterMap fun r => r.2.endpoint

/-- The batch of an endpoint: its node and, in their order, all spans that have it. -/
def batchOf (parsed : List (Span F × ParseResult F)) (e : Endpoint) : ServiceSpans F where
  name := e.serviceName
  attributes := e.createAttributeMap
  spans := (parsed.filter fun r => r.2.endpoint = some e).map Prod.fst

/-- There is one batch for each endpoint, and it is the batch of this endpoint. -/
def Partitioned (lib : Library F τ) (parsed : List (Span F × ParseResult F)) : Prop :=
  ∃ eps : List Endpoint, eps.Nodup ∧ (∀ e, e ∈ eps ↔ e ∈ endpoints parsed) ∧
    zipkinToOCProtoBatch lib parsed = .ok (eps.map (batchOf parsed))

def Separate (parsed : List (Span F × ParseResult F)) : Prop :=
  ∀ e ∈ endpoints parsed, ∀ e' ∈ endpoints parsed, e.string = e'.string → e = e'

instance (parsed : List (Span F × ParseResult F)) : Decidable (Separate parsed) :=
  inferInstanceAs (Decidable (∀ _ ∈ _, ∀ _ ∈ _, _ → _))

/-! ## The table of batches -/

def endpointOf (r : Span F × ParseResult F) : Endpoint := r.2.endpoint.getD ⟨"", "", "", 0⟩

variable {r : Span F × ParseResult F}

theorem HasEndpoint.eq (h : HasEndpoint r) :
    r.2.endpoint = some (endpointOf r) := by
  obtain ⟨e, he⟩ := Option.ne_none_iff_exists'.1 h
  simp [endpointOf, he]

def nodeKey (r : Span F × ParseResult F) : String := (endpointOf r).string

/-- What is sent for the spans under one text: the node is that of the first. -/
def nodeRequest (b : Pile (Span F × ParseResult F)) : ServiceSpans F where
  name := (endpointOf b.1).serviceName
  attributes := (endpointOf b.1).createAttributeMap
  spans := b.items.map Prod.fst

theorem addToBatch_collate (h : HasEndpoint r)
    (m : AList fun _ : String => Pile (Span F × ParseResult F)) :
    addToBatch (mapValues nodeRequest m) r = .ok (mapValues nodeRequest (collate nodeKey m r)) := by
  have look := lookup_mapValues nodeRequest m (nodeKey r)
  unfold addToBatch
  rw [h.eq, deref_some, ok_bind]
  show Except.ok ((mapValues nodeRequest m).insert (nodeKey r) _) = _
  refine congrArg Except.ok ?_
  unfold getOrCreateNodeRequest collate
  cases hm : m.lookup (nodeKey r) with
  | none =>
    rw [hm, Option.map_none] at look
    rw [show (endpointOf r).string = nodeKey r from rfl, look, mapValues_insert]
    rfl
  | some b =>
    rw [hm, Option.map_some] at look
    rw [show (endpointOf r).string = nodeKey r from rfl, look, mapValues_insert]
    simp [nodeRequest, Pile.items]

theorem foldlM_addToBatch (h : ∀ r ∈ parsed, HasEndpoint r) :
    parsed.foldlM addToBatch ∅ = .ok (mapValues nodeRequest (collateAll nodeKey parsed)) := by
  have hrun : ∀ m, parsed.foldlM addToBatch (mapValues nodeRequest m) =
      .ok (mapValues nodeRequest (parsed.foldl (collate nodeKey) m)) := by
    induction parsed with
    | nil => exact fun m => rfl
    | cons r parsed ih =>
      obtain ⟨hr, hrest⟩ := forall_mem_cons.1 h
      intro m
      rw [foldlM_cons, addToBatch_collate hr, ok_bind, ih hrest, foldl_cons]
  exact hrun ∅

/-- The batches with their texts, in the order in which they are sent. -/
def sent (lib : Library F τ) (parsed : List (Span F × ParseResult F)) :
    List (String × ServiceSpans F) :=
  lib.order.order (GoMap.pairs (mapValues nodeRequest (collateAll nodeKey parsed)))

theorem mem_sent {lib : Library F τ} {p : String × ServiceSpans F} :
    p ∈ sent lib parsed ↔
      ∃ b, Pile.ofList (parsed.filter fun r => nodeKey r = p.1) = some b ∧ nodeRequest b = p.2 := by
  rw [sent, MapOrder.mem_order_pairs, lookup_mapValues, lookup_collateAll, Option.map_eq_some_iff]

theorem nodup_keys_sent (lib : Library F τ) (parsed : List (Span F × ParseResult F)) :
    ((sent lib parsed).map Prod.fst).Nodup :=
  pairwise_map.2 (MapOrder.pairwise_order_pairs lib.order _)

section

variable (lib : Library F τ) (h : ∀ r ∈ parsed, HasEndpoint r)
include h

theorem zipkinToOCProtoBatch_eq :
    zipkinToOCProtoBatch lib parsed = .ok ((sent lib parsed).map Prod.snd) := by
  unfold zipkinToOCProtoBatch
  rw [foldlM_addToBatch h]
  rfl

theorem endpointOf_mem (hr : r ∈ parsed) :
    endpointOf r ∈ endpoints parsed := mem_filterMap.2 ⟨r, hr, (h r hr).eq⟩

theorem batchOf_of_mem_sent {p : String × ServiceSpans F} (hp : p ∈ sent lib parsed) :
    ∃ e ∈ endpoints parsed, e.string = p.1 ∧ (Separate parsed → p.2 = batchOf parsed e) := by
  obtain ⟨b, hb, hreq⟩ := mem_sent.1 hp
  have hitems := Pile.ofList_eq_some hb
  have hfirst : b.1 ∈ parsed.filter fun r => nodeKey r = p.1 := hitems ▸ mem_cons_self
  obtain ⟨hmem, hkey⟩ := mem_filter.1 hfirst
  have he := endpointOf_mem h hmem
  refine ⟨endpointOf b.1, he, of_decide_eq_true hkey, fun hsep => ?_⟩
  have hspans : (parsed.filter fun r => nodeKey r = p.1) =
      parsed.filter fun r => r.2.endpoint = some (endpointOf b.1) := by
    refine filter_congr fun r hr => decide_eq_decide.2 ?_
    rw [(h r hr).eq, Option.some_inj, ← of_decide_eq_true hkey]
    exact ⟨hsep _ (endpointOf_mem h hr) _ he, congrArg Endpoint.string⟩
  rw [← hreq, nodeRequest, hitems, hspans]
  rfl

theorem string_mem_sent {e : Endpoint} (he : e ∈ endpoints parsed) :
    ∃ p ∈ sent lib parsed, p.1 = e.string := by
  obtain ⟨r, hr, hre⟩ := mem_filterMap.1 he
  have hkey : nodeKey r = e.string := by
    rw [nodeKey, Option.some.inj ((h r hr).eq.symm.trans hre)]
  have hmem : r ∈ parsed.filter fun r => nodeKey r = e.string :=
    mem_filter.2 ⟨hr, decide_eq_true hkey⟩
  obtain ⟨a, l, hl⟩ := exists_cons_of_ne_nil (ne_nil_of_mem hmem)
  exact ⟨(e.string, nodeRequest (a, l)), mem_sent.2 ⟨(a, l), by rw [hl]; rfl, rfl⟩, rfl⟩

/-- There are as many endpoints as texts, so each text is that of one endpoint. -/
theorem separate_of_partitioned (hpart : Partitioned lib parsed) : Separate parsed := by
  obtain ⟨eps, hnodup, hmem, hrun⟩ := hpart
  intro e he e' he' heq
  rw [zipkinToOCProtoBatch_eq lib h, Except.ok.injEq] at hrun
  have hlen : (eps.map Endpoint.string).length ≤ ((sent lib parsed).map Prod.fst).length := by
    have := congrArg List.length hrun
    simp only [length_map] at this ⊢
    omega
  have hsub : (sent lib parsed).map Prod.fst ⊆ eps.map Endpoint.string := by
    intro key hkey
    obtain ⟨p, hp, rfl⟩ := mem_map.1 hkey
    obtain ⟨e, he, hstring, -⟩ := batchOf_of_mem_sent lib h hp
    exact mem_map.2 ⟨e, (hmem e).2 he, hstring⟩
  have hperm := (subperm_of_subset (nodup_keys_sent lib parsed) hsub).perm_of_length_le hlen
  exact inj_on_of_nodup_map (hperm.nodup_iff.1 (nodup_keys_sent lib parsed))
    ((hmem e).2 he) ((hmem e').2 he') heq

theorem partitioned_of_separate (hsep : Separate parsed) : Partitioned lib parsed := by
  have : Nonempty Endpoint := ⟨⟨"", "", "", 0⟩⟩
  choose! f hof hstring hbatch using fun p (hp : p ∈ sent lib parsed) =>
    batchOf_of_mem_sent lib h hp
  refine ⟨(sent lib parsed).map f, ?_, fun e => ⟨fun he => ?_, fun he => ?_⟩, ?_⟩
  · refine List.Nodup.of_map Endpoint.string ?_
    have hkeys : (sent lib parsed).map (Endpoint.string ∘ f) = (sent lib parsed).map Prod.fst :=
      map_congr_left hstring
    rw [map_map, hkeys]
    exact nodup_keys_sent lib parsed
  · obtain ⟨p, hp, rfl⟩ := mem_map.1 he
    exact hof p hp
  · obtain ⟨p, hp, hkey⟩ := string_mem_sent lib h he
    exact mem_map.2 ⟨p, hp, hsep _ (hof p hp) e he ((hstring p hp).trans hkey)⟩
  · rw [zipkinToOCProtoBatch_eq lib h, map_map]
    exact congrArg Except.ok (map_congr_left fun p hp => hbatch p hp hsep)

end

/-- **The batches are a partition by endpoint exactly if no two endpoints have one text.** -/
theorem partitioned_iff (lib : Library F τ) (parsed : List (Span F × ParseResult F))
    (h : ∀ r ∈ parsed, HasEndpoint r) : Partitioned lib parsed ↔ Separate parsed :=
  ⟨separate_of_partitioned lib h, partitioned_of_separate lib h⟩

def spanFrom (name : String) (endpoint : Endpoint) : Span Int × ParseResult Int :=
  ({  traceId := [], spanId := [], tracestate := none, parentSpanId := []
      name := some ⟨name⟩, kind := .unspecified, startTime := none, endTime := none
      attributes := none, timeEvents := none, links := none, status := none
      sameProcessAsParentSpan := none },
    { endpoint := some endpoint })

theorem twoHosts_partitioned :
    Partitioned (decoding "[]" []) [spanFrom "first" ⟨"shop", "10.0.0.1", "", 80⟩,
      spanFrom "second" ⟨"shop", "10.0.0.2", "", 80⟩,
      spanFrom "third" ⟨"shop", "10.0.0.1", "", 80⟩] :=
  (partitioned_iff _ _ (by simp [HasEndpoint, spanFrom])).2 (by decide)

/-- The service `a-b` at `c` and the service `a` at `b-c`. -/
theorem dashes_mixed :
    zipkinToOCProtoBatch (decoding "[]" []) [spanFrom "first" ⟨"a-b", "c", "", 0⟩,
        spanFrom "second" ⟨"a", "b-c", "", 0⟩] =
      .ok [batchOf [spanFrom "first" ⟨"a-b", "c", "", 0⟩, spanFrom "second" ⟨"a-b", "c", "", 0⟩]
        ⟨"a-b", "c", "", 0⟩] ∧
    ¬Partitioned (decoding "[]" []) [spanFrom "first" ⟨"a-b", "c", "", 0⟩,
        spanFrom "second" ⟨"a", "b-c", "", 0⟩] := by
  constructor
  · rfl
  · intro h
    have := separate_of_partitioned _ (by simp [HasEndpoint, spanFrom]) h
    revert this
    decide

end Collector.Zipkin.V1
