import Collector.Prometheus.Adjuster

/-!
# What the map of a job stands for

The pointers that the map keeps for a signature are only read until they are replaced:
a time series is written while it is adjusted, before a pointer to it is kept.
So the state stands for a `View`, with two time series for each signature and whether they are the
same object, and `AdjustMetrics` does on views what it does on the store (`scrapeAll_matches`).
-/

namespace Collector.Prometheus

open Lib OpenCensus List
open Function (update update_of_ne update_self)

variable {F N : Type}

/-! ## Views -/

/-- What is kept for a signature: the first time series since the last reset, the last one, as it
was adjusted, and whether the two are the same object. -/
structure Info (F N : Type) where
  initial : TimeSeries F N
  previous : TimeSeries F N
  same : Bool
  deriving DecidableEq, Repr

/-- A time series that was dropped is both. -/
def Info.restart (ts : TimeSeries F N) : Info F N := ⟨ts, ts, true⟩

abbrev View (F N : Type) := String → Option (Info F N)

/-- What a pair of pointers stands for. -/
def Store.info (store : Store F N) (tsi : TimeseriesInfo) : Option (Info F N) :=
  match tsi.initial, tsi.previous with
  | some i, some p => some ⟨store.cell i, store.cell p, i = p⟩
  | _, _ => none

def State.view (st : State F N) : View F N := fun sig =>
  (st.tsm.tsiMap.lookup sig).bind st.store.info

def State.Paired (st : State F N) : Prop :=
  ∀ sig tsi, st.tsm.tsiMap.lookup sig = some tsi → (tsi.initial = none ↔ tsi.previous = none)

def State.Stored (st : State F N) (r : Ref) : Prop :=
  ∃ sig tsi, st.tsm.tsiMap.lookup sig = some tsi ∧ (tsi.initial = some r ∨ tsi.previous = some r)

/-- The state stands for the view. -/
structure Agrees (st : State F N) (v : View F N) : Prop where
  view_eq : st.view = v
  paired : st.Paired

/-- The state stands for the view, and the map keeps no pointer to what is still to be
allocated. -/
structure Represents (st : State F N) (v : View F N) : Prop extends Agrees st v where
  below : ∀ r : Nat, st.Stored r → r < st.store.next

theorem represents_newState : Represents (newState : State F N) fun _ => none where
  view_eq := rfl
  paired := nofun
  below := by rintro r ⟨sig, tsi, hl, -⟩; cases hl

/-- How the state changes while the time series `refs` are adjusted. -/
structure After (refs : List Ref) (st st' : State F N) : Prop where
  cell : ∀ r, r ∉ refs → st'.store.cell r = st.store.cell r
  next : st'.store.next = st.store.next
  stored : ∀ r, st'.Stored r → st.Stored r ∨ r ∈ refs

theorem After.refl (st : State F N) : After [] st st := ⟨fun _ _ => rfl, rfl, fun _ => .inl⟩

variable {refs refs' : List Ref} {st st' : State F N} {store : Store F N} {r : Ref} {v : View F N}

theorem After.trans {st₁ st₂ : State F N} (h : After refs st st₁) (h' : After refs' st₁ st₂) :
    After (refs ++ refs') st st₂ where
  cell r hr := by
    rw [mem_append, not_or] at hr
    rw [h'.cell r hr.2, h.cell r hr.1]
  next := h'.next.trans h.next
  stored r hr := by
    rw [mem_append]
    rcases h'.stored r hr with hr | hr
    · exact (h.stored r hr).imp_right .inl
    · exact .inr (.inr hr)

theorem After.mono (h : After refs st st') (hsub : refs ⊆ refs') : After refs' st st' :=
  ⟨fun r hr => h.cell r fun hmem => hr (hsub hmem), h.next,
    fun r hr => (h.stored r hr).imp_right fun hmem => hsub hmem⟩

theorem After.read (h : After refs st st') {m : Metric Ref} (hm : List.Disjoint m.timeseries refs) :
    st'.store.read m = st.store.read m := by
  unfold Store.read
  congr 1
  exact map_congr_left fun r hr => h.cell r fun hmem => hm hr hmem

theorem After.unstored {others : List Ref} (h : After refs st st')
    (hothers : ∀ r ∈ others, ¬ st.Stored r) (hdisj : List.Disjoint others refs) :
    ∀ r ∈ others, ¬ st'.Stored r := by
  intro r hr hs
  rcases h.stored r hs with hs | hs
  · exact hothers r hr hs
  · exact hdisj hr hs

/-! ## New time series -/

abbrev refsOf (metrics : List (Metric Ref)) : List Ref := metrics.flatMap Metric.timeseries

/-- The time series `refs` are new, the others as before. -/
structure Allocated (store : Store F N) (refs : List Ref) (store' : Store F N) : Prop where
  le : store.next ≤ store'.next
  fresh : ∀ r : Nat, r ∈ refs → store.next ≤ r ∧ r < store'.next
  nodup : refs.Nodup
  cell : ∀ r : Nat, r < store.next → store'.cell r = store.cell r

theorem Allocated.refl (store : Store F N) : Allocated store [] store :=
  ⟨le_rfl, nofun, nodup_nil, fun _ _ => rfl⟩

theorem Allocated.trans {store₁ store₂ : Store F N} (h : Allocated store refs store₁)
    (h' : Allocated store₁ refs' store₂) : Allocated store (refs ++ refs') store₂ where
  le := Nat.le_trans h.le h'.le
  fresh r hr := by
    have hle := h.le
    have hle' := h'.le
    rcases mem_append.1 hr with hr | hr
    · have hbound := h.fresh r hr
      omega
    · have hbound := h'.fresh r hr
      omega
  nodup := by
    refine nodup_append.2 ⟨h.nodup, h'.nodup, fun r hr r' hr' => ?_⟩
    exact Nat.ne_of_lt (Nat.lt_of_lt_of_le (h.fresh r hr).2 (h'.fresh r' hr').1)
  cell r hr := by
    have hle := h.le
    rw [h'.cell r (by omega), h.cell r hr]

theorem allocated_one (store : Store F N) (ts : TimeSeries F N) :
    Allocated store [store.next] ⟨store.next + 1, update store.cell store.next ts⟩ where
  le := Nat.le_succ _
  fresh := by simp
  nodup := nodup_singleton _
  cell r hr := update_of_ne (Nat.ne_of_lt hr) _ _

theorem allocate_spec (store : Store F N) (tss : List (TimeSeries F N)) :
    Allocated store (store.allocate tss).2 (store.allocate tss).1 ∧
      (store.allocate tss).2.map (store.allocate tss).1.cell = tss := by
  induction tss generalizing store with
  | nil => exact ⟨.refl store, rfl⟩
  | cons ts tss ih =>
    obtain ⟨halloc, hmap⟩ := ih ⟨store.next + 1, update store.cell store.next ts⟩
    refine ⟨(allocated_one store ts).trans halloc, ?_⟩
    rw [Store.allocate, map_cons, hmap, halloc.cell store.next (Nat.lt_succ_self _)]
    show update store.cell store.next ts store.next :: tss = ts :: tss
    rw [update_self]

theorem allocateMetrics_spec (store : Store F N) (metrics : List (Metric (TimeSeries F N))) :
    Allocated store (refsOf (store.allocateMetrics metrics).2) (store.allocateMetrics metrics).1 ∧
      (store.allocateMetrics metrics).2.map (store.allocateMetrics metrics).1.read = metrics := by
  induction metrics generalizing store with
  | nil => exact ⟨.refl store, rfl⟩
  | cons m metrics ih =>
    obtain ⟨hone, hcells⟩ := allocate_spec store m.timeseries
    obtain ⟨halloc, hmap⟩ := ih (store.allocate m.timeseries).1
    refine ⟨hone.trans halloc, ?_⟩
    have hfirst : (store.allocate m.timeseries).2.map
        ((store.allocate m.timeseries).1.allocateMetrics metrics).1.cell = m.timeseries :=
      Eq.trans (map_congr_left fun r hr => halloc.cell r (hone.fresh r hr).2) hcells
    rw [Store.allocateMetrics, map_cons, hmap, Store.read, hfirst]

/-! ## One entry of the map -/

theorem lookup_put_get (tsm : TimeseriesMap) (sig key : String) (tsi : TimeseriesInfo) :
    ((tsm.get sig).1.put sig tsi).tsiMap.lookup key =
      if key = sig then some tsi else tsm.tsiMap.lookup key := by
  by_cases h : key = sig
  · subst h
    rw [if_pos rfl]
    exact AList.lookup_insert _
  · rw [if_neg h]
    exact (AList.lookup_insert_ne h).trans (AList.lookup_insert_ne h)

theorem after_put {sig : String} {tsi : TimeseriesInfo}
    (hcell : ∀ r', r' ≠ r → store.cell r' = st.store.cell r') (hnext : store.next = st.store.next)
    (htsi : ∀ r', tsi.initial = some r' ∨ tsi.previous = some r' → st.Stored r' ∨ r' = r) :
    After [r] st ⟨store, (st.tsm.get sig).1.put sig tsi⟩ where
  cell r' hr' := hcell r' (by simpa using hr')
  next := hnext
  stored r' := by
    rintro ⟨key, tsi', hlookup, hr'⟩
    rw [lookup_put_get] at hlookup
    by_cases h : key = sig
    · rw [if_pos h] at hlookup
      cases hlookup
      simpa using htsi r' hr'
    · rw [if_neg h] at hlookup
      exact .inl ⟨key, tsi', hlookup, hr'⟩

theorem agrees_put (h : Agrees st v) {sig : String} {tsi : TimeseriesInfo} {info : Info F N}
    (hr : ¬ st.Stored r) (hcell : ∀ r', r' ≠ r → store.cell r' = st.store.cell r')
    (hinfo : store.info tsi = some info) :
    Agrees ⟨store, (st.tsm.get sig).1.put sig tsi⟩ (update v sig (some info)) where
  view_eq := by
    funext key
    show (((st.tsm.get sig).1.put sig tsi).tsiMap.lookup key).bind store.info = _
    rw [lookup_put_get]
    by_cases hk : key = sig
    · subst hk
      rw [if_pos rfl, update_self]
      exact hinfo
    · rw [if_neg hk, update_of_ne hk, ← h.view_eq]
      -- the pointers under the other signatures are kept, so that none of them is `r`
      show _ = (st.tsm.tsiMap.lookup key).bind st.store.info
      cases hl : st.tsm.tsiMap.lookup key with
      | none => rfl
      | some tsi' =>
        have hne : ∀ r', tsi'.initial = some r' ∨ tsi'.previous = some r' → r' ≠ r := by
          rintro r' hr' rfl
          exact hr ⟨key, tsi', hl, hr'⟩
        show store.info tsi' = st.store.info tsi'
        unfold Store.info
        cases hi : tsi'.initial with
        | none => rfl
        | some i =>
          cases hp : tsi'.previous with
          | none => rfl
          | some p => simp only [hcell i (hne i (.inl hi)), hcell p (hne p (.inr hp))]
  paired key tsi' hl := by
    rw [lookup_put_get] at hl
    by_cases hk : key = sig
    · rw [if_pos hk] at hl
      cases hl
      unfold Store.info at hinfo
      split at hinfo
      · simp_all
      · cases hinfo
    · rw [if_neg hk] at hl
      exact h.paired key tsi' hl

/-! ## One time series -/

structure StepRel (r : Ref) (st : State F N) (x : State F N × Option Ref)
    (y : View F N × Option (TimeSeries F N)) : Prop where
  agrees : Agrees x.1 y.1
  after : After [r] st x.1
  emitted : y.2 = x.2.map x.1.store.cell
  own : ∀ r', x.2 = some r' → r' = r

theorem get_cases (h : Agrees st v) (sig : String) :
    ((st.tsm.get sig).2.initial = none ∧ v sig = none) ∨
    ∃ i p, (st.tsm.get sig).2.initial = some i ∧ (st.tsm.get sig).2.previous = some p ∧
      v sig = some ⟨st.store.cell i, st.store.cell p, i = p⟩ ∧ st.Stored i ∧ st.Stored p := by
  have hv : v sig = (st.tsm.tsiMap.lookup sig).bind st.store.info := by rw [← h.view_eq]; rfl
  cases hl : st.tsm.tsiMap.lookup sig with
  | none =>
    refine .inl ⟨?_, by rw [hv, hl]; rfl⟩
    simp [TimeseriesMap.get, hl]
  | some tsi =>
    rw [hl] at hv
    have hget : (st.tsm.get sig).2 = { tsi with mark := true } := by simp [TimeseriesMap.get, hl]
    rw [hget]
    cases hi : tsi.initial with
    | none =>
      refine .inl ⟨rfl, ?_⟩
      rw [hv]
      simp [Store.info, hi]
    | some i =>
      cases hp : tsi.previous with
      | none =>
        have hnone := (h.paired sig tsi hl).2 hp
        rw [hi] at hnone
        cases hnone
      | some p =>
        refine .inr ⟨i, p, rfl, rfl, ?_, ⟨sig, tsi, hl, .inl hi⟩, sig, tsi, hl, .inr hp⟩
        rw [hv]
        simp [Store.info, hi, hp]

theorem restart_rel (h : Agrees st v) (hr : ¬ st.Stored r) (sig : String) (mark : Bool) :
    StepRel r st
      (⟨st.store, (st.tsm.get sig).1.put sig ⟨mark, some r, some r⟩⟩, none)
      (update v sig (some (.restart (st.store.cell r))), none) where
  agrees := agrees_put h hr (fun _ _ => rfl) (by simp [Store.info, Info.restart])
  after := after_put (fun _ _ => rfl) rfl (by rintro r' (he | he) <;> cases he <;> exact .inr rfl)
  emitted := rfl
  own := nofun

theorem adjusted_rel (h : Agrees st v) {i : Ref} (hr : ¬ st.Stored r) (hi : st.Stored i)
    (sig : String) (mark : Bool) (ts' : TimeSeries F N) :
    StepRel r st
      (⟨{ st.store with cell := update st.store.cell r ts' },
        (st.tsm.get sig).1.put sig ⟨mark, some i, some r⟩⟩, some r)
      (update v sig (some ⟨st.store.cell i, ts', false⟩), some ts') := by
  have hcell : ∀ r', r' ≠ r → update st.store.cell r ts' r' = st.store.cell r' :=
    fun r' hne => update_of_ne hne _ _
  have hne : i ≠ r := by
    rintro rfl
    exact hr hi
  refine ⟨agrees_put h hr hcell ?_, after_put hcell rfl ?_, ?_, ?_⟩
  · simp [Store.info, hne]
  · rintro r' (he | he) <;> cases he
    · exact .inl hi
    · exact .inr rfl
  · simp
  · rintro r' he
    exact (Option.some.inj he).symm

variable [Zero F] [Add F] [Sub F] [LT F] [DecidableLT F]
  [Zero N] [Add N] [Sub N] [LT N] [DecidableLT N]

/-- One more time series under a signature: what is kept afterwards, and what is emitted. -/
def advance (type : MetricType) (info : Option (Info F N)) (ts : TimeSeries F N) :
    Go (Info F N × Option (TimeSeries F N)) :=
  match info with
  | none => .ok (.restart ts, none)
  | some info => do
    let adjusted ← adjustTimeseries type ts info.initial (some info.previous) info.same
    match adjusted with
    | none => return (.restart ts, none)
    | some ts' => return (⟨info.initial, ts', false⟩, some ts')

/-- The body of the loop of `adjustMetricTimeseries`, on views. -/
def View.adjust (descriptor : MetricDescriptor) (v : View F N) (ts : TimeSeries F N) :
    Go (View F N × Option (TimeSeries F N)) := do
  let sig := getTimeseriesSignature descriptor.name ts.labelValues
  let (info, adjusted) ← advance descriptor.type (v sig) ts
  return (Function.update v sig (some info), adjusted)

theorem adjustRef_matches (h : Agrees st v) (hr : ¬ st.Stored r) (descriptor : MetricDescriptor) :
    Matches (StepRel r st) (adjustRef descriptor st r)
      (v.adjust descriptor (st.store.cell r)) := by
  unfold adjustRef View.adjust
  rcases get_cases h (getTimeseriesSignature descriptor.name (st.store.cell r).labelValues) with
    ⟨hi, hv⟩ | ⟨i, p, hi, hp, hv, hsi, -⟩
  · simp only [hi, hv, advance]
    exact .ok (restart_rel h hr _ _)
  · simp only [hi, hp, hv, advance, Option.map_some, Option.some.injEq]
    cases adjustTimeseries descriptor.type (st.store.cell r) (st.store.cell i)
        (some (st.store.cell p)) (i = p) with
    | error e => exact .error e
    | ok adjusted =>
      cases adjusted with
      | none => exact .ok (restart_rel h hr _ _)
      | some ts' => exact .ok (adjusted_rel h hr hsi _ _ ts')

/-! ## The loops -/

/-- The results for the time series `refs`; `read` says what is left. -/
structure LoopRel {A B : Type} (refs : List Ref) (st : State F N) (refsOf : A → List Ref)
    (read : Store F N → A → B) (x : State F N × A × Nat) (y : View F N × B × Nat) : Prop where
  agrees : Agrees x.1 y.1
  after : After refs st x.1
  emitted : y.2.1 = read x.1.store x.2.1
  own : refsOf x.2.1 ⊆ refs
  dropped : x.2.2 = y.2.2

theorem adjustMetricTimeseries_matches (descriptor : MetricDescriptor) (hnodup : refs.Nodup)
    (h : Agrees st v) (hrefs : ∀ r ∈ refs, ¬ st.Stored r) :
    Matches (LoopRel refs st id fun store rs => rs.map store.cell)
      (adjustMetricTimeseries (adjustRef descriptor) st refs)
      (adjustMetricTimeseries (View.adjust descriptor) v (refs.map st.store.cell)) := by
  induction refs generalizing st v with
  | nil => exact .ok ⟨h, After.refl st, rfl, List.Subset.refl _, rfl⟩
  | cons r refs ih =>
    obtain ⟨hr, hnodup⟩ := nodup_cons.1 hnodup
    obtain ⟨hunstored, hrest⟩ := forall_mem_cons.1 hrefs
    refine (adjustRef_matches h hunstored descriptor).bind fun ⟨st₁, left⟩ ⟨v₁, emitted⟩ hstep => ?_
    -- the time series still to come are as they were
    have hdisj : List.Disjoint refs [r] := disjoint_singleton.2 hr
    have hcells : refs.map st.store.cell = refs.map st₁.store.cell :=
      map_congr_left fun r' hr' => (hstep.after.cell r' fun hmem => hdisj hr' hmem).symm
    rw [hcells]
    refine (ih hnodup hstep.agrees (hstep.after.unstored hrest hdisj)).bind
      fun ⟨st₂, filtered, dropped⟩ ⟨v₂, out, d⟩ hloop => ?_
    have hafter : After (r :: refs) st st₂ := hstep.after.trans hloop.after
    obtain rfl : emitted = left.map st₁.store.cell := hstep.emitted
    obtain rfl : out = filtered.map st₂.store.cell := hloop.emitted
    obtain rfl : dropped = d := hloop.dropped
    have hown : filtered ⊆ r :: refs := fun r' hr' => mem_cons_of_mem _ (hloop.own hr')
    cases left with
    | none => exact .ok ⟨hloop.agrees, hafter, rfl, hown, rfl⟩
    | some r' =>
      obtain rfl : r' = r := hstep.own r' rfl
      refine .ok ⟨hloop.agrees, hafter, ?_, ?_, rfl⟩
      · show st₁.store.cell r' :: _ = st₂.store.cell r' :: _
        rw [hloop.after.cell r' hr]
      · exact cons_subset.2 ⟨mem_cons_self, hown⟩

theorem adjustMetric_matches {metric : Metric Ref} (hnodup : metric.timeseries.Nodup)
    (h : Agrees st v) (hrefs : ∀ r ∈ metric.timeseries, ¬ st.Stored r) :
    Matches (LoopRel metric.timeseries st (fun o => o.elim [] Metric.timeseries)
        fun store o => o.map store.read)
      (adjustMetric adjustRef st metric) (adjustMetric View.adjust v (st.store.read metric)) := by
  unfold adjustMetric
  by_cases hg : isGauge metric.descriptor.type = true
  · rw [if_pos hg, if_pos (show isGauge (st.store.read metric).descriptor.type = true from hg)]
    exact .ok ⟨h, (After.refl st).mono (nil_subset _), rfl, List.Subset.refl _, rfl⟩
  · rw [if_neg hg, if_neg (show ¬ isGauge (st.store.read metric).descriptor.type = true from hg)]
    refine (adjustMetricTimeseries_matches metric.descriptor hnodup h hrefs).bind
      fun ⟨st', filtered, dropped⟩ ⟨v', out, d⟩ hloop => ?_
    obtain rfl : out = filtered.map st'.store.cell := hloop.emitted
    cases filtered with
    | nil => exact .ok ⟨hloop.agrees, hloop.after, rfl, nil_subset _, hloop.dropped⟩
    | cons r filtered => exact .ok ⟨hloop.agrees, hloop.after, rfl, hloop.own, hloop.dropped⟩

theorem adjustMetrics_matches {metrics : List (Metric Ref)} (hnodup : (refsOf metrics).Nodup)
    (h : Agrees st v) (hrefs : ∀ r ∈ refsOf metrics, ¬ st.Stored r) :
    Matches (LoopRel (refsOf metrics) st refsOf fun store ms => ms.map store.read)
      (adjustMetrics adjustRef st metrics)
      (adjustMetrics View.adjust v (metrics.map st.store.read)) := by
  induction metrics generalizing st v with
  | nil => exact .ok ⟨h, After.refl st, rfl, List.Subset.refl _, rfl⟩
  | cons metric metrics ih =>
    obtain ⟨hfirst, hnodup, hdisj⟩ := nodup_append'.1 hnodup
    have hmem : ∀ r ∈ metric.timeseries, ¬ st.Stored r :=
      fun r hr => hrefs r (mem_append_left _ hr)
    have hmem' : ∀ r ∈ refsOf metrics, ¬ st.Stored r :=
      fun r hr => hrefs r (mem_append_right _ hr)
    refine (adjustMetric_matches hfirst h hmem).bind fun ⟨st₁, left, d₁⟩ ⟨v₁, out, d₂⟩ hstep => ?_
    have hread : metrics.map st.store.read = metrics.map st₁.store.read := by
      refine map_congr_left fun m hm => (hstep.after.read ?_).symm
      exact fun r hr hr' => hdisj hr' (mem_flatMap.2 ⟨m, hm, hr⟩)
    rw [hread]
    refine (ih hnodup hstep.agrees (hstep.after.unstored hmem' (List.disjoint_comm.1 hdisj))).bind
      fun ⟨st₂, rest, d₃⟩ ⟨v₂, outs, d₄⟩ hloop => ?_
    obtain rfl : out = left.map st₁.store.read := hstep.emitted
    obtain rfl : outs = rest.map st₂.store.read := hloop.emitted
    refine .ok ⟨hloop.agrees, hstep.after.trans hloop.after, ?_, ?_, ?_⟩
    · -- what is left of the first metric is not touched by the others
      have hkept : ∀ m, left = some m → st₁.store.read m = st₂.store.read m := by
        rintro m rfl
        exact (hloop.after.read fun r hr hr' => hdisj (hstep.own hr) hr').symm
      cases left with
      | none => rfl
      | some m => simp [hkept m rfl]
    · show refsOf (left.toList ++ rest) ⊆ metric.timeseries ++ refsOf metrics
      rw [refsOf, flatMap_append]
      refine append_subset.2 ⟨?_, fun r hr => mem_append_right _ (hloop.own hr)⟩
      intro r hr
      refine mem_append_left _ (hstep.own ?_)
      cases left with
      | none => cases hr
      | some m => simpa using hr
    · show d₁ + d₃ = d₂ + d₄
      rw [show d₁ = d₂ from hstep.dropped, show d₃ = d₄ from hloop.dropped]

/-! ## Scrapes -/

/-- `AdjustMetrics` on views. -/
def View.scrape (v : View F N) (metrics : List (Metric (TimeSeries F N))) :
    Go (View F N × List (Metric (TimeSeries F N)) × Nat) :=
  adjustMetrics View.adjust v metrics

theorem scrape_matches (h : Represents st v) (metrics : List (Metric (TimeSeries F N))) :
    Matches (fun x y => Represents x.1 y.1 ∧ x.2 = y.2) (scrape st metrics) (v.scrape metrics) := by
  obtain ⟨halloc, hmap⟩ := allocateMetrics_spec st.store metrics
  have hstart : Agrees { st with store := (st.store.allocateMetrics metrics).1 } v := by
    refine ⟨?_, h.paired⟩
    rw [← h.view_eq]
    funext sig
    show (st.tsm.tsiMap.lookup sig).bind _ = (st.tsm.tsiMap.lookup sig).bind _
    cases hl : st.tsm.tsiMap.lookup sig with
    | none => rfl
    | some tsi =>
      have hold : ∀ r, tsi.initial = some r ∨ tsi.previous = some r →
          (st.store.allocateMetrics metrics).1.cell r = st.store.cell r :=
        fun r hr => halloc.cell r (h.below r ⟨sig, tsi, hl, hr⟩)
      show Store.info _ tsi = Store.info _ tsi
      unfold Store.info
      cases hi : tsi.initial with
      | none => rfl
      | some i =>
        cases hp : tsi.previous with
        | none => rfl
        | some p => simp only [hold i (.inl hi), hold p (.inr hp)]
  have hunstored : ∀ r ∈ refsOf (st.store.allocateMetrics metrics).2,
      ¬ State.Stored { st with store := (st.store.allocateMetrics metrics).1 } r := by
    intro r hr hs
    have hge := (halloc.fresh r hr).1
    have hlt := h.below r hs
    omega
  have hloop := adjustMetrics_matches halloc.nodup hstart hunstored
  rw [hmap] at hloop
  refine hloop.bind_left
    fun ⟨st', adjusted, dropped⟩ ⟨v', out, d⟩ hrel => .ok ⟨⟨hrel.agrees, ?_⟩, ?_⟩
  · intro r hs
    rw [show st'.store.next = (st.store.allocateMetrics metrics).1.next from hrel.after.next]
    rcases hrel.after.stored r hs with hs | hr
    · exact Nat.lt_of_lt_of_le (h.below r hs) halloc.le
    · exact (halloc.fresh r hr).2
  · obtain rfl : out = adjusted.map st'.store.read := hrel.emitted
    obtain rfl : dropped = d := hrel.dropped
    rfl

def View.scrapeAll (v : View F N) (scrapes : List (List (Metric (TimeSeries F N)))) :
    Go (View F N × List (List (Metric (TimeSeries F N)) × Nat)) :=
  accumulate View.scrape v scrapes

/-- **The adjuster works on views**: every sequence of scrapes does without pointers what it does
with them. -/
theorem scrapeAll_matches (scrapes : List (List (Metric (TimeSeries F N)))) :
    Matches (fun x y => Represents x.1 y.1 ∧ x.2 = y.2) (scrapeAll newState scrapes)
      (View.scrapeAll (fun _ => none) scrapes) :=
  accumulate_matches (R := Represents) (fun _ _ metrics h => scrape_matches h metrics)
    represents_newState scrapes

theorem run_of_view (scrapes : List (List (Metric (TimeSeries F N))))
    {outs : List (List (Metric (TimeSeries F N)) × Nat)}
    (h : View.scrapeAll (fun _ => none) scrapes = .ok (v, outs)) :
    ∃ st, scrapeAll newState scrapes = .ok (st, outs) := by
  obtain ⟨⟨st, outs'⟩, hrun, -, houts⟩ := (scrapeAll_matches scrapes).of_ok h
  obtain rfl : outs' = outs := houts
  exact ⟨st, hrun⟩

end Collector.Prometheus
