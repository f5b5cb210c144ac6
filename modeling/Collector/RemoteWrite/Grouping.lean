import Collector.Lib.Collate
import Collector.RemoteWrite.Signature

/-!
# Samples and their time series

`addSample` does not look into samples, so the same run can be made with every
sample marked by its place in the batch (`tracked`); without the marks it is
the `tsMap` of the conversion. On marked samples one can say where a sample
landed. A conversion groups its samples when two of them share a series exactly
if they have one type and one label set, every series carries the label set of
its samples, and each sample is there once (`Groups`).

The run collates samples by signature, and a signature keeps only words between
dashes: grouping is right exactly when no two samples of one type read alike
with different label sets, or apart with equal ones (`Separable`).
-/

namespace Collector.RemoteWrite

open Otlp Lib List

section Track

variable {σ ρ : Type} (ords : Nat → MapOrder Label)

/-- The labels of the `i`-th emission, as its `createLabelSet` returns them. -/
def made (e : Emission σ × Nat) : List Label := (ords e.2).order e.1.labels

/-- The `addSample` of an emission, with `f` for its sample. -/
def addEmission (f : Emission σ × Nat → ρ) (m : TsMap ρ) (e : Emission σ × Nat) : TsMap ρ :=
  addSample m (some (f e)) (some (made ords e)) e.1.ty

def tracked (es : List (Emission σ)) : TsMap (Nat × σ) :=
  es.zipIdx.foldl (addEmission ords fun e => (e.2, e.1.sample)) ∅

def TimeSeries.untracked (ts : TimeSeries (Nat × σ)) : TimeSeries σ :=
  ⟨ts.labels, ts.samples.map Prod.snd⟩

def signature (e : Emission σ × Nat) : String := timeSeriesSignature e.1.ty (made ords e)

def series (f : Emission σ × Nat → ρ) (b : Pile (Emission σ × Nat)) : TimeSeries ρ :=
  ⟨sortByLabelName (made ords b.1), b.items.map f⟩

theorem addEmission_new {f : Emission σ × Nat → ρ} {m : TsMap ρ} {e : Emission σ × Nat}
    (h : m.lookup (signature ords e) = none) :
    addEmission ords f m e =
      m.insert (signature ords e) ⟨sortByLabelName (made ords e), [f e]⟩ := by
  simp only [signature] at h
  simp only [addEmission, addSample, signature, h]

theorem addEmission_old {f : Emission σ × Nat → ρ} {m : TsMap ρ} {e : Emission σ × Nat}
    {ts : TimeSeries ρ} (h : m.lookup (signature ords e) = some ts) :
    addEmission ords f m e =
      m.insert (signature ords e) { ts with samples := ts.samples ++ [f e] } := by
  simp only [signature] at h
  simp only [addEmission, addSample, signature, h]

theorem addEmission_collate (f : Emission σ × Nat → ρ)
    (m : AList fun _ : String => Pile (Emission σ × Nat)) (e : Emission σ × Nat) :
    addEmission ords f (mapValues (series ords f) m) e =
      mapValues (series ords f) (collate (signature ords) m e) := by
  have look := lookup_mapValues (series ords f) m (signature ords e)
  cases h : m.lookup (signature ords e) with
  | none =>
    rw [h, Option.map_none] at look
    rw [addEmission_new ords look, collate, h, mapValues_insert]
    rfl
  | some b =>
    rw [h, Option.map_some] at look
    rw [addEmission_old ords look, collate, h, mapValues_insert]
    simp [series, Pile.items]

theorem foldl_addEmission (f : Emission σ × Nat → ρ) (l : List (Emission σ × Nat)) :
    l.foldl (addEmission ords f) ∅ =
      mapValues (series ords f) (collateAll (signature ords) l) := by
  have h : ∀ m, l.foldl (addEmission ords f) (mapValues (series ords f) m) =
      mapValues (series ords f) (l.foldl (collate (signature ords)) m) := by
    induction l with
    | nil => intro m; rfl
    | cons e l ih => intro m; rw [foldl_cons, addEmission_collate, ih, foldl_cons]
  exact h ∅

theorem untracked_tracked (es : List (Emission σ)) :
    mapValues TimeSeries.untracked (tracked ords es) =
      es.zipIdx.foldl (addEmission ords fun e => e.1.sample) ∅ := by
  rw [tracked, foldl_addEmission, foldl_addEmission, mapValues_mapValues]
  congr 1
  funext b
  simp [series, TimeSeries.untracked, Function.comp_def]

end Track

theorem recordAll_eq {F : Type} (ords : Nat → MapOrder Label) (es : List (Emission (Sample F)))
    (st : ConvState F) :
    recordAll ords st es =
      ⟨(es.zipIdx st.calls).foldl (addEmission ords fun e => e.1.sample) st.tsMap,
        st.calls + es.length⟩ := by
  induction es generalizing st with
  | nil => rfl
  | cons e es ih =>
    rw [recordAll_cons, ih, zipIdx_cons, foldl_cons, length_cons,
      Nat.add_comm es.length]
    simp only [record, Nat.add_assoc]
    rfl

/-! ## Groups -/

section Groups

variable {σ : Type} (ords : Nat → MapOrder Label)

def SameLabelSet (l₁ l₂ : List Label) : Prop := ∀ lb, lb ∈ l₁ ↔ lb ∈ l₂

/-- Sample `i` sits in the series of key `k`. -/
def LandsIn (m : TsMap (Nat × σ)) (i : Nat) (k : String) : Prop :=
  ∃ ts, m.lookup k = some ts ∧ i ∈ ts.samples.map Prod.fst

/-- The series are the samples grouped by type and label set. -/
structure Groups (es : List (Emission σ)) (m : TsMap (Nat × σ)) : Prop where
  together : ∀ i j (hi : i < es.length) (hj : j < es.length),
    (∃ k, LandsIn m i k ∧ LandsIn m j k) ↔
      es[i].ty = es[j].ty ∧ SameLabelSet es[i].labels es[j].labels
  own : ∀ i (hi : i < es.length) k ts, m.lookup k = some ts → i ∈ ts.samples.map Prod.fst →
    SameLabelSet ts.labels es[i].labels
  once : (m.values.flatMap TimeSeries.samples).Perm (es.zipIdx.map fun e => (e.2, e.1.sample))

/-- Two emissions of one type read alike, between dashes, exactly when they have one label set,
however their labels are listed by name. -/
def Separable (e₁ e₂ : Emission σ) : Prop :=
  e₁.ty = e₂.ty → ∀ a₁ a₂, Listing e₁.labels a₁ → Listing e₂.labels a₂ →
    (words a₁ = words a₂ ↔ SameLabelSet e₁.labels e₂.labels)

theorem listing_made (e : Emission σ × Nat) :
    Listing e.1.labels (sortByLabelName (made ords e)) :=
  listing_sortByLabelName ((ords e.2).perm e.1.labels)

theorem signature_eq_iff {e₁ e₂ : Emission σ × Nat} (h₁ : emits e₁.1.ty = true)
    (h₂ : emits e₂.1.ty = true) :
    signature ords e₁ = signature ords e₂ ↔ e₁.1.ty = e₂.1.ty ∧
      words (sortByLabelName (made ords e₁)) = words (sortByLabelName (made ords e₂)) :=
  joinLabels_inj h₁ h₂

theorem lookup_tracked (es : List (Emission σ)) (k : String) :
    (tracked ords es).lookup k =
      (Pile.ofList (es.zipIdx.filter fun e => signature ords e = k)).map
        (series ords fun e => (e.2, e.1.sample)) := by
  rw [tracked, foldl_addEmission, lookup_mapValues, lookup_collateAll]

variable {es : List (Emission σ)} {i : Nat}

theorem lookup_tracked_eq_some {k : String} {ts : TimeSeries (Nat × σ)}
    (h : (tracked ords es).lookup k = some ts) :
    (∀ i, i ∈ ts.samples.map Prod.fst ↔ ∃ hi : i < es.length, signature ords (es[i], i) = k) ∧
      ∃ j, ∃ hj : j < es.length, signature ords (es[j], j) = k ∧
        ts.labels = sortByLabelName (made ords (es[j], j)) := by
  rw [lookup_tracked] at h
  obtain ⟨b, hb, rfl⟩ := Option.map_eq_some_iff.1 h
  have hitems := Pile.ofList_eq_some hb
  have hmem : ∀ e : Emission σ × Nat, e ∈ b.items ↔ es[e.2]? = some e.1 ∧ signature ords e = k := by
    intro e
    rw [hitems, mem_filter, mem_zipIdx_iff_getElem?, decide_eq_true_iff]
  constructor
  · intro i
    simp only [series, map_map, mem_map, Function.comp_apply]
    constructor
    · rintro ⟨e, he, rfl⟩
      obtain ⟨hget, hk⟩ := (hmem e).1 he
      obtain ⟨hi, hval⟩ := List.getElem?_eq_some_iff.1 hget
      exact ⟨hi, by rw [hval]; exact hk⟩
    · rintro ⟨hi, hk⟩
      exact ⟨(es[i], i), (hmem _).2 ⟨getElem?_eq_getElem hi, hk⟩, rfl⟩
  · obtain ⟨hget, hk⟩ := (hmem b.1).1 mem_cons_self
    obtain ⟨hj, hval⟩ := List.getElem?_eq_some_iff.1 hget
    have he : (es[b.1.2], b.1.2) = b.1 := by rw [hval]
    exact ⟨b.1.2, hj, by rw [he]; exact hk, by rw [he]; rfl⟩

theorem landsIn_iff {k : String} :
    LandsIn (tracked ords es) i k ↔ ∃ hi : i < es.length, signature ords (es[i], i) = k := by
  constructor
  · rintro ⟨ts, hts, hi⟩
    exact ((lookup_tracked_eq_some ords hts).1 i).1 hi
  · rintro ⟨hi, hk⟩
    have hmem : (es[i], i) ∈ es.zipIdx.filter fun e => signature ords e = k := by
      rw [mem_filter, mem_zipIdx_iff_getElem?, decide_eq_true_iff]
      exact ⟨getElem?_eq_getElem hi, hk⟩
    cases hb : Pile.ofList (es.zipIdx.filter fun e => signature ords e = k) with
    | none =>
      cases hl : es.zipIdx.filter fun e => signature ords e = k with
      | nil => rw [hl] at hmem; cases hmem
      | cons a l => rw [hl] at hb; cases hb
    | some b =>
      have hts := lookup_tracked ords es k
      rw [hb] at hts
      exact ⟨_, hts, ((lookup_tracked_eq_some ords hts).1 i).2 ⟨hi, hk⟩⟩

theorem together_iff {j : Nat} (hi : i < es.length) (hj : j < es.length) :
    (∃ k, LandsIn (tracked ords es) i k ∧ LandsIn (tracked ords es) j k) ↔
      signature ords (es[i], i) = signature ords (es[j], j) := by
  simp only [landsIn_iff]
  constructor
  · rintro ⟨k, ⟨_, hik⟩, ⟨_, hjk⟩⟩
    rw [hik, hjk]
  · intro h
    exact ⟨_, ⟨hi, h⟩, ⟨hj, rfl⟩⟩

theorem tracked_once (es : List (Emission σ)) :
    ((tracked ords es).values.flatMap TimeSeries.samples).Perm
      (es.zipIdx.map fun e => (e.2, e.1.sample)) := by
  have h := (contents_collateAll (signature ords) es.zipIdx).map fun e => (e.2, e.1.sample)
  rw [tracked, foldl_addEmission]
  simpa [contents, GoMap.values, mapValues, mapEntry, map_flatMap, flatMap_map, series]
    using h

variable (hty : ∀ e ∈ es, emits e.ty = true)

include hty

theorem same_iff_of_separable (hsep : es.Pairwise Separable)
    {j : Nat} (hi : i < es.length) (hj : j < es.length) :
    signature ords (es[i], i) = signature ords (es[j], j) ↔
      es[i].ty = es[j].ty ∧ SameLabelSet es[i].labels es[j].labels := by
  have hp := pairwise_iff_getElem.1 hsep
  have hli := listing_made ords (es[i], i)
  have hlj := listing_made ords (es[j], j)
  rw [signature_eq_iff ords (hty _ (getElem_mem hi)) (hty _ (getElem_mem hj))]
  refine and_congr_right fun ht => ?_
  rcases Nat.lt_trichotomy i j with hlt | rfl | hlt
  · exact hp i j hi hj hlt ht _ _ hli hlj
  · exact iff_of_true rfl fun _ => Iff.rfl
  · have h := hp j i hj hi hlt ht.symm _ _ hlj hli
    exact ⟨fun hw lb => (h.1 hw.symm lb).symm, fun hs => (h.2 fun lb => (hs lb).symm).symm⟩

theorem groups_of_separable (hsep : es.Pairwise Separable) : Groups es (tracked ords es) where
  together i j hi hj :=
    (together_iff ords hi hj).trans (same_iff_of_separable ords hty hsep hi hj)
  own i hi k ts hts hmem := by
    obtain ⟨hlands, j, hj, hjk, hlabels⟩ := lookup_tracked_eq_some ords hts
    obtain ⟨_, hik⟩ := (hlands i).1 hmem
    have hsame := ((same_iff_of_separable ords hty hsep hj hi).1 (hjk.trans hik.symm)).2
    intro lb
    rw [hlabels, (listing_made ords (es[j], j)).mem_iff, hsame lb]
  once := tracked_once ords es

/-- Two map iterations that list the labels of two emissions at will. -/
def listAs (i j : Nat) (o₁ o₂ : MapOrder Label) (n : Nat) : MapOrder Label :=
  if n = i then o₁ else if n = j then o₂ else .stored

theorem separable_of_groups (h : ∀ ords, Groups es (tracked ords es)) : es.Pairwise Separable := by
  rw [pairwise_iff_getElem]
  intro i j hi hj hlt ht a₁ a₂ h₁ h₂
  let ords := listAs i j (.arrange es[i].labels a₁ h₁.1) (.arrange es[j].labels a₂ h₂.1)
  have hmi : made ords (es[i], i) = a₁ := by simp [made, ords, listAs]
  have hmj : made ords (es[j], j) = a₂ := by
    have hne : j ≠ i := by omega
    simp [made, ords, listAs, hne]
  have hg := ((together_iff ords hi hj).symm.trans ((h ords).together i j hi hj))
  rw [signature_eq_iff ords (hty _ (getElem_mem hi)) (hty _ (getElem_mem hj)), hmi, hmj,
    h₁.sortByLabelName_eq, h₂.sortByLabelName_eq] at hg
  exact (and_congr_right_iff.1 hg) ht

end Groups

/-! ## Plain labels -/

/-- No label has a dash, and no two have one name. -/
structure Plain (labels : List Label) : Prop where
  names : (labels.map Label.name).Nodup
  noDash : ∀ lb ∈ labels, '-' ∉ lb.name.toList ∧ '-' ∉ lb.value.toList

theorem flatMap_texts_inj : ∀ {a₁ a₂ : List Label},
    a₁.flatMap (fun lb => [lb.name.toList, lb.value.toList]) =
      a₂.flatMap (fun lb => [lb.name.toList, lb.value.toList]) → a₁ = a₂
  | [], [], _ => rfl
  | ⟨n, v⟩ :: a₁, ⟨n', v'⟩ :: a₂, h => by
    simp only [flatMap_cons, cons_append, nil_append, cons.injEq, String.toList_inj] at h
    rw [h.1, h.2.1, flatMap_texts_inj h.2.2]

theorem Plain.words_eq {l a : List Label} (h : Plain l) (ha : Listing l a) :
    words a = a.flatMap fun lb => [lb.name.toList, lb.value.toList] :=
  flatMap_congr fun lb hlb => by
    obtain ⟨hn, hv⟩ := h.noDash lb (ha.mem_iff.1 hlb)
    rw [splitOn_eq_singleton hn, splitOn_eq_singleton hv, singleton_append]

theorem Plain.listing_unique {l₁ l₂ a₁ a₂ : List Label} (hp₁ : Plain l₁) (hp₂ : Plain l₂)
    (h₁ : Listing l₁ a₁) (h₂ : Listing l₂ a₂) (hs : SameLabelSet l₁ l₂) : a₁ = a₂ := by
  have hperm : a₁.Perm a₂ := by
    have hl : l₁.Perm l₂ :=
      (perm_ext_iff_of_nodup hp₁.names.of_map hp₂.names.of_map).2 hs
    exact h₁.1.trans (hl.trans h₂.1.symm)
  refine hperm.eq_of_pairwise (fun x y hx hy hxy hyx => ?_) h₁.2 h₂.2
  have hname : x.name = y.name := le_antisymm hxy hyx
  exact inj_on_of_nodup_map hp₁.names (h₁.mem_iff.1 hx)
    ((hs y).2 (h₂.mem_iff.1 hy)) hname

theorem Plain.separable {σ : Type} {e₁ e₂ : Emission σ} (h₁ : Plain e₁.labels)
    (h₂ : Plain e₂.labels) : Separable e₁ e₂ := by
  intro _ a₁ a₂ ha₁ ha₂
  constructor
  · intro hw lb
    rw [h₁.words_eq ha₁, h₂.words_eq ha₂] at hw
    rw [← ha₁.mem_iff, ← ha₂.mem_iff, flatMap_texts_inj hw]
  · intro hs
    rw [h₁.listing_unique h₂ ha₁ ha₂ hs]

/-! ## Grouping a batch -/

section Batch

variable {F R : Type} [Unicode] [GoFloat F] (ns : String)

variable {e : Emission (Sample F)} {md : MetricData F R}

theorem pointEmissions_ty {m : Metric F} {ty : MetricType} (h : e ∈ pointEmissions ns m ty) :
    e.ty = getType m.metricDescriptor := by
  cases ty with
  | int64 | monotonicInt64 | double | monotonicDouble =>
    obtain ⟨pt, -, rfl⟩ := mem_map.1 h
    rfl
  | histogram =>
    obtain ⟨pt, -, he⟩ := mem_flatMap.1 h
    simp only [histogramEmissions, mem_append, mem_cons, mem_map, not_mem_nil,
      or_false] at he
    rcases he with ((rfl | rfl) | ⟨bk, -, rfl⟩) | rfl <;> rfl
  | summary =>
    obtain ⟨pt, -, he⟩ := mem_flatMap.1 h
    simp only [summaryEmissions, mem_append, mem_cons, mem_map, not_mem_nil,
      or_false] at he
    rcases he with (rfl | rfl) | ⟨qt, -, rfl⟩ <;> rfl
  | invalidType | unrecognized => cases h

theorem emissions_emits (h : e ∈ emissions ns md) : emits e.ty = true := by
  obtain ⟨m, -, he⟩ := mem_flatMap.1 h
  unfold metricEmissions at he
  split at he
  next hv => rw [pointEmissions_ty ns he]; exact emits_of_validateMetrics hv
  next => cases he

theorem sample_mem_tsMap (τ : Type) (ords : Nat → MapOrder Label) (h : Convertible md)
    (he : e ∈ emissions ns md) :
    ∃ st, convert (τ := τ) ords ns md = .ok st ∧
      ∃ k ts, st.conv.tsMap.lookup k = some ts ∧ e.sample ∈ ts.samples := by
  obtain ⟨i, hi, rfl⟩ := getElem_of_mem he
  have hmem : (i, (emissions ns md)[i].sample) ∈
      (emissions ns md).zipIdx.map fun e => (e.2, e.1.sample) :=
    mem_map.2 ⟨((emissions ns md)[i], i),
      mk_mem_zipIdx_iff_getElem?.2 (getElem?_eq_getElem hi), rfl⟩
  rw [← (tracked_once ords (emissions ns md)).mem_iff] at hmem
  obtain ⟨ts, hts, hsample⟩ := mem_flatMap.1 hmem
  obtain ⟨k, hk⟩ := GoMap.mem_values.1 hts
  refine ⟨_, convert_ok ords ns h, k, ts.untracked, ?_, mem_map.2 ⟨_, hsample, rfl⟩⟩
  simp only [pushed, recordAll_eq, PushState.init]
  rw [← untracked_tracked, lookup_mapValues, hk]
  rfl

/-- The conversion returns a `tsMap` that groups the samples of the batch. -/
def Grouped (τ : Type) (ords : Nat → MapOrder Label) (md : MetricData F R) : Prop :=
  ∃ st, convert (τ := τ) ords ns md = .ok st ∧
    st.conv.tsMap = mapValues TimeSeries.untracked (tracked ords (emissions ns md)) ∧
    Groups (emissions ns md) (tracked ords (emissions ns md))

theorem grouped_of_separable (τ : Type) (hc : Convertible md)
    (hsep : (emissions ns md).Pairwise Separable) (ords : Nat → MapOrder Label) :
    Grouped ns τ ords md := by
  refine ⟨_, convert_ok ords ns hc, ?_,
    groups_of_separable ords (fun e he => emissions_emits ns he) hsep⟩
  rw [untracked_tracked]
  simp only [pushed, recordAll_eq]
  rfl

/-- **When samples are grouped by type and label set.** -/
theorem grouped_iff (τ : Type) (md : MetricData F R) :
    (∀ ords, Grouped ns τ ords md) ↔
      Convertible md ∧ (emissions ns md).Pairwise Separable := by
  constructor
  · intro h
    refine ⟨?_, separable_of_groups (fun e he => emissions_emits ns he) fun ords => ?_⟩
    · by_contra hn
      obtain ⟨st, hst, -⟩ := h fun _ => .stored
      obtain ⟨c, hc⟩ := convert_crash (τ := τ) (fun _ => .stored) ns hn
      rw [hc] at hst
      cases hst
    · obtain ⟨_, _, _, hg⟩ := h ords
      exact hg
  · rintro ⟨hc, hsep⟩ ords
    exact grouped_of_separable ns τ hc hsep ords

/-- **Samples with plain labels are grouped**, in whatever order the maps are visited. -/
theorem grouped_of_plain (τ : Type) (hc : Convertible md)
    (hp : ∀ e ∈ emissions ns md, Plain e.labels) (ords : Nat → MapOrder Label) :
    Grouped ns τ ords md := by
  refine grouped_of_separable ns τ hc (pairwise_iff_getElem.2 ?_) ords
  intro i j hi hj _
  exact (hp _ (getElem_mem hi)).separable (hp _ (getElem_mem hj))

end Batch

section Dashes

attribute [local instance] Unicode.latin1 GoFloat.whole

theorem plainLabels_grouped : Grouped "" Unit (fun _ => .stored)
    ([some ⟨(), [some ⟨[some ⟨some ⟨"m", "", "", .int64, .instantaneous⟩,
      some [some ⟨[some ⟨"a", "1"⟩], 0, 0, 1⟩, some ⟨[], 0, 0, 2⟩], none, none, none⟩]⟩]⟩] :
      MetricData Int Unit) := by
  refine grouped_of_plain "" Unit ?_ (fun e he => ⟨?_, ?_⟩) _
  · simp [Convertible, metricsOf, MetricOk, PointsOk, getType]
  all_goals
    revert e
    decide

/-- An int metric with two points, labelled `a="1-b-2"` and `a="1", b="2"`. -/
def dashedValues : MetricData Int Unit :=
  let points : List (Option Int64DataPoint) :=
    [some ⟨[some ⟨"a", "1-b-2"⟩], 0, 0, 10⟩, some ⟨[some ⟨"a", "1"⟩, some ⟨"b", "2"⟩], 0, 0, 20⟩]
  [some ⟨(), [some ⟨[some ⟨some ⟨"m", "", "", .int64, .instantaneous⟩, some points, none, none,
    none⟩]⟩]⟩]

/-- Both points end up in the series `INT64-__name__-m-a-1-b-2`. -/
theorem dashedValues_not_grouped : ¬ Grouped "" Unit (fun _ => .stored) dashedValues := by
  rintro ⟨st, -, -, hg⟩
  have hlands : ∀ i, i = 0 ∨ i = 1 →
      LandsIn (tracked (fun _ => .stored) (emissions "" dashedValues)) i
        "INT64-__name__-m-a-1-b-2" := by
    intro i hi
    refine ⟨⟨[⟨"__name__", "m"⟩, ⟨"a", "1-b-2"⟩], [(0, ⟨10, 0⟩), (1, ⟨20, 0⟩)]⟩, by decide, ?_⟩
    rcases hi with rfl | rfl <;> decide
  have hsame := ((hg.together 0 1 (by decide) (by decide)).1
    ⟨_, hlands 0 (.inl rfl), hlands 1 (.inr rfl)⟩).2 ⟨"b", "2"⟩
  exact absurd (hsame.2 (by decide)) (by decide)

end Dashes

end Collector.RemoteWrite
