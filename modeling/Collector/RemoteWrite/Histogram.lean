import Collector.RemoteWrite.Conversion
import Mathlib.Algebra.BigOperators.Group.List.Basic
import Mathlib.Algebra.Ring.Int.Defs

/-!
# Histograms

A well-formed histogram point of OTLP has one bucket more than it has bounds, and Prometheus wants
the counts up to each bound. `handleHistogramMetric` takes a bound for every bucket, so it crashes
on every well-formed point; and it writes the count of each bucket alone. `cumulative_iff` says for
which points its samples are those of the design.
-/

namespace Collector.RemoteWrite

open Otlp Lib List
open GoFloat (ofUint64)

section Points

variable {F : Type} [Unicode] [GoFloat F]

def countUpTo (bks : List (Bucket F)) (i : Nat) : UInt64 := totalCount (bks.take (i + 1))

def cumulativeEmission (ns : String) (desc : Option MetricDescriptor) (pt : HistogramDataPoint F)
    (bound : F × Nat) : Emission (Sample F) :=
  emission desc pt.labels
    [nameStr, getPromMetricName desc ns ++ bucketStr, leStr, GoFloat.formatFloat bound.1]
    (GoFloat.ofUint64 (countUpTo pt.buckets.reduceOption bound.2)) pt.timeUnixNano

/-- The samples of a point as section 2.2 of the design has them: sum and count, a cumulative count
for every bound, and the count of the point for `+Inf`. -/
def designedEmissions (ns : String) (desc : Option MetricDescriptor) (pt : HistogramDataPoint F) :
    List (Emission (Sample F)) :=
  [emission desc pt.labels [nameStr, getPromMetricName desc ns ++ sumStr] pt.sum pt.timeUnixNano,
    emission desc pt.labels [nameStr, getPromMetricName desc ns ++ countStr]
      (GoFloat.ofUint64 pt.count) pt.timeUnixNano] ++
  pt.explicitBounds.zipIdx.map (cumulativeEmission ns desc pt) ++
  [emission desc pt.labels [nameStr, getPromMetricName desc ns ++ bucketStr, leStr, pInfStr]
    (GoFloat.ofUint64 pt.count) pt.timeUnixNano]

/-- The conversion of the point completes, and emits the samples of the design. -/
def Cumulative (ords : Nat → MapOrder Label) (ns : String) (desc : Option MetricDescriptor)
    (pt : HistogramDataPoint F) : Prop :=
  (∀ st, addHistogramPoint ords ns desc st pt =
    .ok (recordAll ords st (histogramEmissions ns desc pt))) ∧
  histogramEmissions ns desc pt = designedEmissions ns desc pt

omit [Unicode] [GoFloat F] in
/-- The point is well formed: one bucket more than bounds, increasing bounds, and the counts of the
buckets add up to that of the point. -/
structure WellFormed [LT F] (pt : HistogramDataPoint F) : Prop where
  labels : none ∉ pt.labels
  present : none ∉ pt.buckets
  length : pt.buckets.length = pt.explicitBounds.length + 1
  increasing : pt.explicitBounds.Pairwise (· < ·)
  count : (pt.buckets.reduceOption.map (·.count.toNat)).sum = pt.count.toNat

section

variable {ords : Nat → MapOrder Label} {ns : String} {desc : Option MetricDescriptor}
  {pt : HistogramDataPoint F}

theorem completes_iff (ords : Nat → MapOrder Label) (ns : String)
    (desc : Option MetricDescriptor) (pt : HistogramDataPoint F) :
    (∀ st, addHistogramPoint ords ns desc st pt =
      .ok (recordAll ords st (histogramEmissions ns desc pt))) ↔ HistogramOk pt := by
  constructor
  · intro h
    by_contra hnot
    obtain ⟨c, hc⟩ := (addHistogramPoint_guarded ords ns desc).fail ⟨∅, 0⟩ pt hnot
    rw [h] at hc
    cases hc
  · exact fun h st => (addHistogramPoint_guarded ords ns desc).run st pt h

omit [Unicode] [GoFloat F] in
theorem length_reduceOption {l : List (Option (Bucket F))} (h : none ∉ l) :
    l.reduceOption.length = l.length := by
  rw [reduceOption_length_eq_iff]
  exact fun x hx => Option.isSome_iff_ne_none.2 fun hnone => h (hnone ▸ hx)

theorem bucketEmission_eq {bk : Bucket F} {bound : F} {i : Nat} :
    bucketEmission ns desc pt (bk, bound) = cumulativeEmission ns desc pt (bound, i) ↔
      (ofUint64 bk.count : F) =
        ofUint64 (countUpTo pt.buckets.reduceOption i) := by
  simp [bucketEmission, cumulativeEmission, emission]

/-- The samples of the buckets are those of the design when there is one for each bound and each
count is the cumulative one. -/
theorem bucketEmissions_eq (h : HistogramOk pt) :
    (pt.buckets.reduceOption.zip pt.explicitBounds).map (bucketEmission ns desc pt) =
        pt.explicitBounds.zipIdx.map (cumulativeEmission ns desc pt) ↔
      pt.buckets.length = pt.explicitBounds.length ∧
        ∀ (i : Nat) (hi : i < pt.buckets.reduceOption.length),
          (ofUint64 pt.buckets.reduceOption[i].count : F) =
            ofUint64 (countUpTo pt.buckets.reduceOption i) := by
  have hlength := length_reduceOption h.2.1
  have hle := h.2.2
  rw [ext_getElem_iff]
  simp only [length_map, length_zip, length_zipIdx, getElem_map,
    getElem_zip, getElem_zipIdx, bucketEmission_eq, Nat.zero_add]
  constructor
  · rintro ⟨hlengths, hcounts⟩
    exact ⟨by omega, fun i hi => hcounts i (by omega) (by omega)⟩
  · rintro ⟨hlengths, hcounts⟩
    exact ⟨by omega, fun i hi _ => hcounts i (by omega)⟩

theorem histogramEmissions_eq :
    histogramEmissions ns desc pt = designedEmissions ns desc pt ↔
      (pt.buckets.reduceOption.zip pt.explicitBounds).map (bucketEmission ns desc pt) =
          pt.explicitBounds.zipIdx.map (cumulativeEmission ns desc pt) ∧
        (ofUint64 (totalCount pt.buckets.reduceOption) : F) =
          ofUint64 pt.count := by
  unfold histogramEmissions designedEmissions
  rw [append_assoc, append_assoc, append_right_inj]
  constructor
  · intro heq
    obtain ⟨hbuckets, hlast⟩ := append_inj' heq rfl
    refine ⟨hbuckets, ?_⟩
    simpa [emission] using hlast
  · rintro ⟨hbuckets, hcount⟩
    rw [hbuckets, hcount]

theorem addBucket_crash (hl : none ∉ pt.labels) {bks : List (Option (Bucket F))} {bk : Bucket F}
    (hbks : none ∉ bks) (hlength : bks.length = pt.explicitBounds.length)
    (acc : ConvState F × UInt64) :
    (bks ++ [some bk]).zipIdx.foldlM (addBucket ords ns desc pt) acc = .error .indexOutOfRange := by
  have hrun := (addBucket_guarded ords ns desc hl).foldlM.run acc bks.zipIdx
    (zipIdx_guard.2 ⟨hbks, hlength.le⟩)
  have hlast : ∀ acc, addBucket ords ns desc pt acc (some bk, bks.length) =
      .error .indexOutOfRange := fun acc => by
    simp only [addBucket, deref_some, index_crash hlength.ge]
    rfl
  rw [zipIdx_append, foldlM_append, hrun]
  simp only [Nat.zero_add, zipIdx_singleton, foldlM_cons, hlast]
  rfl

/-- **A well-formed point crashes the conversion**: there is no bound for its last bucket. -/
theorem WellFormed.crashes [LT F] (h : WellFormed pt) (st : ConvState F) :
    addHistogramPoint ords ns desc st pt = .error .indexOutOfRange := by
  have hpresent := h.present
  have hlength := h.length
  obtain hnil | ⟨bks, last, hbuckets⟩ := eq_nil_or_concat' pt.buckets
  · rw [hnil] at hlength
    cases hlength
  rw [hbuckets] at hpresent hlength
  obtain ⟨hbks, hlast⟩ : none ∉ bks ∧ none ≠ last := by simpa using hpresent
  obtain ⟨bk, rfl⟩ := Option.ne_none_iff_exists'.1 hlast.symm
  refine ((emit_bind ords h.labels).trans (emit_bind ords h.labels)).trans ?_
  rw [hbuckets, addBucket_crash h.labels hbks (by simpa using hlength)]
  rfl

omit [Unicode] [GoFloat F] in
theorem toNat_foldl_count {bks : List (Bucket F)} {n : UInt64}
    (h : n.toNat + (bks.map (·.count.toNat)).sum < 2 ^ 64) :
    (bks.foldl (fun n bk => n + bk.count) n).toNat =
      n.toNat + (bks.map (·.count.toNat)).sum := by
  induction bks generalizing n with
  | nil => rfl
  | cons bk bks ih =>
    simp only [map_cons, sum_cons] at h ⊢
    have hadd : (n + bk.count).toNat = n.toNat + bk.count.toNat := by
      rw [UInt64.toNat_add]
      exact Nat.mod_eq_of_lt (by omega)
    rw [foldl_cons, ih (by rw [hadd]; omega), hadd]
    omega

omit [Unicode] [GoFloat F] in
theorem WellFormed.countUpTo_mono [LT F] (h : WellFormed pt) {i j : Nat} (hij : i ≤ j) :
    countUpTo pt.buckets.reduceOption i ≤ countUpTo pt.buckets.reduceOption j := by
  set counts := pt.buckets.reduceOption.map (·.count.toNat) with hcounts
  have htotal : counts.sum < 2 ^ 64 := h.count ▸ pt.count.toNat_lt
  have hsum : ∀ n, (counts.take n).sum ≤ counts.sum := fun n => by
    rw [← sum_take_add_sum_drop counts n]
    exact Nat.le_add_right _ _
  have htoNat : ∀ n, (countUpTo pt.buckets.reduceOption n).toNat = (counts.take (n + 1)).sum := by
    intro n
    have hmap := map_take (l := pt.buckets.reduceOption) (i := n + 1) (f := (·.count.toNat))
    have hlt : (0 : UInt64).toNat +
        ((pt.buckets.reduceOption.take (n + 1)).map (·.count.toNat)).sum < 2 ^ 64 := by
      rw [hmap, ← hcounts, UInt64.toNat_zero, Nat.zero_add]
      exact Nat.lt_of_le_of_lt (hsum (n + 1)) htotal
    rw [countUpTo, totalCount, toNat_foldl_count hlt, hmap, ← hcounts, UInt64.toNat_zero,
      Nat.zero_add]
  rw [UInt64.le_iff_toNat_le, htoNat, htoNat]
  have hsplit := sum_take_add_sum_drop (counts.take (j + 1)) (i + 1)
  rw [take_take, Nat.min_eq_left (by omega)] at hsplit
  omega

end

/-- **The samples of a histogram point are those of the design** exactly when nothing is nil, there
are as many buckets as bounds, every bucket has the count of all buckets up to it, and the count of
the point is that of all buckets. A well-formed point is never of this kind. -/
theorem cumulative_iff [LT F] (ords : Nat → MapOrder Label) (ns : String)
    (desc : Option MetricDescriptor) (pt : HistogramDataPoint F) :
    (Cumulative ords ns desc pt ↔
      none ∉ pt.labels ∧ none ∉ pt.buckets ∧ pt.buckets.length = pt.explicitBounds.length ∧
        (∀ (i : Nat) (hi : i < pt.buckets.reduceOption.length),
          (ofUint64 pt.buckets.reduceOption[i].count : F) =
            ofUint64 (countUpTo pt.buckets.reduceOption i)) ∧
        (ofUint64 (totalCount pt.buckets.reduceOption) : F) =
          ofUint64 pt.count) ∧
    (WellFormed pt →
      (∀ st, addHistogramPoint ords ns desc st pt = .error .indexOutOfRange) ∧
        ∀ i j, i ≤ j →
          countUpTo pt.buckets.reduceOption i ≤ countUpTo pt.buckets.reduceOption j) := by
  refine ⟨?_, fun h => ⟨h.crashes, fun i j => h.countUpTo_mono⟩⟩
  unfold Cumulative
  rw [completes_iff, histogramEmissions_eq]
  constructor
  · rintro ⟨hok, hbuckets, hcount⟩
    obtain ⟨hlength, hcounts⟩ := (bucketEmissions_eq hok).1 hbuckets
    exact ⟨hok.1, hok.2.1, hlength, hcounts, hcount⟩
  · rintro ⟨hlabels, hpresent, hlength, hcounts, hcount⟩
    have hok : HistogramOk pt := ⟨hlabels, hpresent, hlength.le⟩
    exact ⟨hok, (bucketEmissions_eq hok).2 ⟨hlength, hcounts⟩, hcount⟩

end Points

section Buckets

attribute [local instance] Unicode.latin1 GoFloat.whole

/-- A point with the bounds 1 and 2, and 3, 4 and 5 observations below, between and above them. -/
def threeBuckets : HistogramDataPoint Int where
  labels := []
  startTimeUnixNano := 0
  timeUnixNano := 0
  count := 12
  sum := 20
  buckets := [some ⟨3, none⟩, some ⟨4, none⟩, some ⟨5, none⟩]
  explicitBounds := [1, 2]

def threeBucketsMetric : Metric Int where
  metricDescriptor := some ⟨"m", "", "", .histogram, .cumulative⟩
  int64DataPoints := none
  doubleDataPoints := none
  histogramDataPoints := some [some threeBuckets]
  summaryDataPoints := none

/-- Moreover, without its last bucket the sample for the bound 2 would have the count 4, not 7. -/
theorem threeBuckets_crash :
    WellFormed threeBuckets ∧
      (handleHistogramMetric (fun _ => .stored) "" ⟨∅, 0⟩ threeBucketsMetric :
        Go (ConvState Int × Option (GoError Unit))) = .error .indexOutOfRange ∧
      ((histogramEmissions "" threeBucketsMetric.metricDescriptor
        { threeBuckets with buckets := threeBuckets.buckets.take 2 }).map (·.sample.value)) =
        [20, 12, 3, 4, 7] := by
  refine ⟨⟨by decide, by decide, rfl, by decide, by decide⟩, ?_, by decide +kernel⟩
  rfl

end Buckets

end Collector.RemoteWrite
