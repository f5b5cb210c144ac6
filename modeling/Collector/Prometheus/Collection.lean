import Collector.Prometheus.Family
import Collector.Prometheus.JobsMap

/-!
# What a collection keeps

`get` does not mark the map that it returns: it is marked when a time series is adjusted on it, and
a collection removes a map that it finds unmarked. So a job that is in use may be removed between
`get` and `AdjustMetrics`, or when all its metrics are gauges. In every run in which a collection
never finds such a map unmarked (`Clear`), nothing that is in use is removed (`collection_keeps`).
-/

namespace Collector.Prometheus

open Lib OpenCensus List

/-! ## Marks -/

section Marks

variable {F N : Type}

/-- The mark of a map, and its entries with their marks, are still there. -/
structure Marks (tsm tsm' : TimeseriesMap) : Prop where
  mark : tsm.mark = true → tsm'.mark = true
  entry : ∀ key tsi, tsm.tsiMap.lookup key = some tsi →
    ∃ tsi', tsm'.tsiMap.lookup key = some tsi' ∧ (tsi.mark = true → tsi'.mark = true)

def TimeseriesMap.Marked (tsm : TimeseriesMap) (key : String) : Prop :=
  tsm.mark = true ∧ ∃ tsi, tsm.tsiMap.lookup key = some tsi ∧ tsi.mark = true

theorem Marks.refl (tsm : TimeseriesMap) : Marks tsm tsm :=
  ⟨id, fun _ tsi h => ⟨tsi, h, id⟩⟩

variable {tsm : TimeseriesMap}

theorem Marks.trans {tsm₁ tsm₂ : TimeseriesMap} (h : Marks tsm tsm₁) (h' : Marks tsm₁ tsm₂) :
    Marks tsm tsm₂ := by
  refine ⟨fun hm => h'.mark (h.mark hm), fun key tsi hl => ?_⟩
  obtain ⟨tsi₁, hl₁, hm₁⟩ := h.entry key tsi hl
  obtain ⟨tsi₂, hl₂, hm₂⟩ := h'.entry key tsi₁ hl₁
  exact ⟨tsi₂, hl₂, fun hm => hm₂ (hm₁ hm)⟩

theorem Marks.marked {tsm' : TimeseriesMap} (h : Marks tsm tsm') {key : String}
    (hm : tsm.Marked key) : tsm'.Marked key := by
  obtain ⟨hmark, tsi, hl, htsi⟩ := hm
  obtain ⟨tsi', hl', hm'⟩ := h.entry key tsi hl
  exact ⟨h.mark hmark, tsi', hl', hm' htsi⟩

theorem marks_put_get (tsm : TimeseriesMap) (sig : String) (tsi : TimeseriesInfo)
    (htsi : tsi.mark = true) :
    Marks tsm ((tsm.get sig).1.put sig tsi) ∧ ((tsm.get sig).1.put sig tsi).Marked sig := by
  refine ⟨⟨fun _ => rfl, fun key tsi₀ hl => ?_⟩, rfl, tsi, ?_, htsi⟩
  · rw [lookup_put_get]
    by_cases hkey : key = sig
    · exact ⟨tsi, by rw [if_pos hkey], fun _ => htsi⟩
    · exact ⟨tsi₀, by rw [if_neg hkey, hl], id⟩
  · rw [lookup_put_get, if_pos rfl]

theorem lookup_gc {key : String} {tsi : TimeseriesInfo} (hmark : tsm.mark = true)
    (hl : tsm.tsiMap.lookup key = some tsi) (htsi : tsi.mark = true) :
    tsm.gc.tsiMap.lookup key = some { tsi with mark := false } := by
  unfold TimeseriesMap.gc
  rw [if_neg (by rw [hmark]; decide)]
  rw [lookup_mapValues, lookup_filterValues, hl, Option.filter_some, if_pos htsi]
  rfl

def SameLabels (st st' : State F N) : Prop :=
  ∀ r, (st'.store.cell r).labelValues = (st.store.cell r).labelValues

variable [Zero F] [Add F] [Sub F] [LT F] [DecidableLT F]
  [Zero N] [Add N] [Sub N] [LT N] [DecidableLT N]

theorem labelValues_of_adjustTimeseries {type : MetricType} {current initial ts : TimeSeries F N}
    {previous : Option (TimeSeries F N)} {same : Bool}
    (h : adjustTimeseries type current initial previous same = .ok (some ts)) :
    ts.labelValues = current.labelValues := by
  obtain ⟨points, -, hret⟩ := bind_eq_ok.1 h
  cases points with
  | none => cases hret
  | some ps => cases hret; rfl

variable {st st' : State F N}

theorem adjustRef_marks {d : MetricDescriptor} {r : Ref} {out : Option Ref}
    (h : adjustRef d st r = .ok (st', out)) :
    Marks st.tsm st'.tsm ∧ SameLabels st st' ∧
      st'.tsm.Marked (getTimeseriesSignature d.name (st.store.cell r).labelValues) := by
  -- all three ways write through the pointer that `get` returned
  have hput := marks_put_get st.tsm (getTimeseriesSignature d.name (st.store.cell r).labelValues)
  unfold adjustRef at h
  simp only at h
  split at h
  · cases h
    exact ⟨(hput _ rfl).1, fun _ => rfl, (hput _ rfl).2⟩
  · obtain ⟨adjusted, hadj, hret⟩ := bind_eq_ok.1 h
    cases adjusted with
    | none =>
      cases hret
      exact ⟨(hput _ rfl).1, fun _ => rfl, (hput _ rfl).2⟩
    | some ts =>
      cases hret
      refine ⟨(hput _ rfl).1, fun r' => ?_, (hput _ rfl).2⟩
      show (Function.update st.store.cell r ts r').labelValues = _
      by_cases hr : r' = r
      · subst hr
        rw [Function.update_self, labelValues_of_adjustTimeseries hadj]
      · rw [Function.update_of_ne hr]

theorem adjustMetricTimeseries_marks {d : MetricDescriptor} {refs : List Ref} {out : List Ref × Nat}
    (h : adjustMetricTimeseries (adjustRef d) st refs = .ok (st', out)) :
    Marks st.tsm st'.tsm ∧ SameLabels st st' ∧ ∀ r ∈ refs,
      st'.tsm.Marked (getTimeseriesSignature d.name (st.store.cell r).labelValues) := by
  induction refs generalizing st out with
  | nil => cases h; exact ⟨.refl _, fun _ => rfl, nofun⟩
  | cons r refs ih =>
    obtain ⟨⟨st₁, adjusted⟩, hstep, h⟩ := bind_eq_ok.1 h
    obtain ⟨⟨st₂, filtered, dropped⟩, hrest, h⟩ := bind_eq_ok.1 h
    obtain rfl : st₂ = st' := by
      cases adjusted with
      | none | some => cases h; rfl
    obtain ⟨hmarks, hlabels, hmarked⟩ := adjustRef_marks hstep
    obtain ⟨hmarks', hlabels', hmarked'⟩ := ih hrest
    refine ⟨hmarks.trans hmarks', fun r' => (hlabels' r').trans (hlabels r'), ?_⟩
    refine forall_mem_cons.2 ⟨hmarks'.marked hmarked, fun r' hr' => ?_⟩
    rw [← hlabels r']
    exact hmarked' r' hr'

theorem adjustMetric_marks {m : Metric Ref} {out : Option (Metric Ref) × Nat}
    (h : adjustMetric adjustRef st m = .ok (st', out)) :
    Marks st.tsm st'.tsm ∧ SameLabels st st' ∧ (isGauge m.descriptor.type = false →
      ∀ r ∈ m.timeseries, st'.tsm.Marked
        (getTimeseriesSignature m.descriptor.name (st.store.cell r).labelValues)) := by
  unfold adjustMetric at h
  split at h
  case isTrue hg =>
    cases h
    exact ⟨.refl _, fun _ => rfl, fun hg' => by rw [hg] at hg'; cases hg'⟩
  case isFalse =>
    obtain ⟨⟨st₁, filtered, dropped⟩, hloop, hret⟩ := bind_eq_ok.1 h
    cases hret
    obtain ⟨hmarks, hlabels, hmarked⟩ := adjustMetricTimeseries_marks hloop
    exact ⟨hmarks, hlabels, fun _ => hmarked⟩

theorem adjustMetrics_marks {metrics : List (Metric Ref)} {out : List (Metric Ref) × Nat}
    (h : adjustMetrics adjustRef st metrics = .ok (st', out)) :
    Marks st.tsm st'.tsm ∧ SameLabels st st' ∧ ∀ m ∈ metrics, isGauge m.descriptor.type = false →
      ∀ r ∈ m.timeseries,
        st'.tsm.Marked
          (getTimeseriesSignature m.descriptor.name (st.store.cell r).labelValues) := by
  induction metrics generalizing st out with
  | nil => cases h; exact ⟨.refl _, fun _ => rfl, nofun⟩
  | cons m metrics ih =>
    obtain ⟨⟨st₁, adjusted, dropped⟩, hfirst, h⟩ := bind_eq_ok.1 h
    obtain ⟨⟨st₂, rest, droppedRest⟩, hrest, h⟩ := bind_eq_ok.1 h
    cases h
    obtain ⟨hmarks, hlabels, hmarked⟩ := adjustMetric_marks hfirst
    obtain ⟨hmarks', hlabels', hmarked'⟩ := ih hrest
    refine ⟨hmarks.trans hmarks', fun r' => (hlabels' r').trans (hlabels r'), ?_⟩
    refine forall_mem_cons.2 ⟨fun hg r hr => hmarks'.marked (hmarked hg r hr), ?_⟩
    intro m' hm' hg r hr
    rw [← hlabels r]
    exact hmarked' m' hm' hg r hr

/-- **`AdjustMetrics` marks** the map and the entries of all time series that are not gauges. -/
theorem scrape_marks {metrics : List (Metric (TimeSeries F N))}
    {out : List (Metric (TimeSeries F N)) × Nat} (h : scrape st metrics = .ok (st', out)) :
    Marks st.tsm st'.tsm ∧ ∀ x ∈ items metrics, st'.tsm.Marked (signatureOf x) := by
  obtain ⟨⟨st₁, adjusted, dropped⟩, hloop, hret⟩ := bind_eq_ok.1 h
  cases hret
  obtain ⟨hmarks, -, hmarked⟩ := adjustMetrics_marks hloop
  refine ⟨hmarks, fun x hx => ?_⟩
  obtain ⟨m, hm, hx⟩ := mem_flatMap.1 hx
  split at hx
  case isTrue => cases hx
  case isFalse hg =>
    obtain ⟨ts, hts, rfl⟩ := mem_map.1 hx
    -- the metric and the time series as they were allocated
    rw [← (allocateMetrics_spec st.store metrics).2] at hm
    obtain ⟨m', hm', rfl⟩ := mem_map.1 hm
    obtain ⟨r, hr, rfl⟩ := mem_map.1 hts
    exact hmarked m' hm' (Bool.eq_false_iff.2 hg) r hr

end Marks

/-! ## The invariant -/

namespace System

variable {F N : Type}

/-- The collection that is going on has been at the entry of the job. -/
def Visited (s : System F N) (sig : String) : Prop :=
  ∃ g, s.gc = some g ∧ ∀ p ∈ g.todo, p.1 ≠ sig

def Unheld (s : System F N) (sig : String) : Prop :=
  ∀ c ∈ s.calls, c.sig = sig → c.pc.map = none

/-- Everything in use is registered: the jobs that were obtained, and the map of every call. -/
structure Live (s : System F N) : Prop where
  obtained : ∀ sig ∈ s.obtained, ∃ r, s.jobsMap.lookup sig = some r
  held : ∀ c ∈ s.calls, ∀ r, c.pc.map = some r → s.jobsMap.lookup c.sig = some r

/-- A series that was adjusted: its entry is there, and marked unless the collection that is going
on has been there. -/
def Present (s : System F N) (p : String × String) : Prop :=
  ∃ r st tsi, s.jobsMap.lookup p.1 = some r ∧ s.maps[r]? = some st ∧
    st.tsm.tsiMap.lookup p.2 = some tsi ∧
    (s.Visited p.1 ∨ (st.tsm.mark = true ∧ tsi.mark = true))

structure Inv (s : System F N) : Prop extends Live s where
  adjusted : ∀ p ∈ s.adjusted, s.Present p
  bound : ∀ sig r, s.jobsMap.lookup sig = some r → r < s.maps.length
  injective : ∀ sig sig' r, s.jobsMap.lookup sig = some r → s.jobsMap.lookup sig' = some r →
    sig = sig'
  /-- What is still to be visited is registered, each job once. -/
  todo : ∀ g, s.gc = some g →
    (g.todo.map Prod.fst).Nodup ∧ ∀ p ∈ g.todo, s.jobsMap.lookup p.1 = some p.2
  /-- What is about to be deleted is not in use. -/
  deleting : ∀ sig r todo, s.gc = some ⟨(sig, r) :: todo, some true⟩ →
    sig ∉ s.obtained ∧ s.Unheld sig ∧ ∀ p ∈ s.adjusted, p.1 ≠ sig

theorem inv_init (gcInterval now : Nat) : (init gcInterval now : System F N).Inv where
  obtained := nofun
  held := nofun
  adjusted := nofun
  bound _ _ h := by cases h
  injective _ _ _ h := by cases h
  todo := nofun
  deleting := nofun

/-- The condition: a map that the collection finds unmarked is not in use. -/
def Clear (s : System F N) : Prop :=
  ∀ sig r todo st, s.gc = some ⟨(sig, r) :: todo, none⟩ → s.maps[r]? = some st →
    st.tsm.mark = false → sig ∉ s.obtained ∧ s.Unheld sig

variable {s s' : System F N} {todo : List (String × Nat)} {b : Option Bool} {i r : Nat}
  {c : Call F N} {sig : String} {st : State F N}

theorem gc_absurd {g : Collecting} {P : Prop} (hnone : s.gc = none) (hsome : s.gc = some g) :
    P := by
  rw [hnone] at hsome
  cases hsome

theorem visiting_inj {x y : String × Nat} {todo' : List (String × Nat)} {b' : Option Bool}
    (h : some (⟨x :: todo, b⟩ : Collecting) = some ⟨y :: todo', b'⟩) : x = y ∧ b = b' := by
  injection h with h
  injection h with htodo hb
  injection htodo with hx
  exact ⟨hx, hb⟩

/-! ### Steps of a call -/

/-- A call moves on; it takes a map only where that is registered and no collection is going on. -/
theorem Inv.setPc (h : s.Inv) {pc : Pc} (hc : s.calls[i]? = some c) (hmap : ∀ r, pc.map = some r →
      c.pc.map = some r ∨ (s.gc = none ∧ s.jobsMap.lookup c.sig = some r)) :
    (s.setPc i c pc).Inv where
  __ := h
  held c' hc' r hr := by
    rcases mem_or_eq_of_mem_set hc' with hc' | rfl
    · exact h.held c' hc' r hr
    · rcases hmap r hr with hold | ⟨-, hreg⟩
      · exact h.held c (mem_of_getElem? hc) r hold
      · exact hreg
  deleting sig r todo hgc := by
    obtain ⟨hobtained, hunheld, hadjusted⟩ := h.deleting sig r todo hgc
    refine ⟨hobtained, fun c' hc' hsig => ?_, hadjusted⟩
    rcases mem_or_eq_of_mem_set hc' with hc' | rfl
    · exact hunheld c' hc' hsig
    · have hold := hunheld c (mem_of_getElem? hc) hsig
      by_contra hne
      obtain ⟨r', hr'⟩ := Option.ne_none_iff_exists'.1 hne
      rcases hmap r' hr' with hmap' | ⟨hnone, -⟩
      · rw [hold] at hmap'
        cases hmap'
      · exact gc_absurd hnone hgc

theorem Inv.record (h : s.Inv) {spawned : Nat} (hgc : s.gc = none)
    (hr : s.jobsMap.lookup sig = some r) :
    ({ s with spawned := spawned, obtained := sig :: s.obtained } : System F N).Inv where
  __ := h
  obtained := forall_mem_cons.2 ⟨⟨r, hr⟩, h.obtained⟩
  deleting _ _ _ hsome := gc_absurd hgc hsome

theorem Inv.obtain (h : s.Inv) (hc : s.calls[i]? = some c) (hgc : s.gc = none)
    (hr : s.jobsMap.lookup c.sig = some r) : (s.obtain i c r).Inv := by
  have hset : (s.setPc i c (.got r)).Inv := h.setPc hc fun r' hr' => by
    cases hr'
    exact .inr ⟨hgc, hr⟩
  exact hset.record hgc hr

theorem Inv.make (h : s.Inv) (hgc : s.gc = none) (hr : s.jobsMap.lookup sig = none) :
    ({ s with
      jobsMap := s.jobsMap.insert sig s.maps.length
      maps := s.maps ++ [newState] } : System F N).Inv := by
  -- what was registered still is, under the same place
  have hkeep : ∀ sig' r, s.jobsMap.lookup sig' = some r →
      (s.jobsMap.insert sig s.maps.length).lookup sig' = some r :=
    fun _ _ hl => (lookup_insert_new hr).2 (.inr hl)
  refine { obtained := ?_, held := ?_, adjusted := ?_, bound := ?_, injective := ?_, todo := ?_,
           deleting := ?_ }
  · intro sig' hsig'
    obtain ⟨r, hl⟩ := h.obtained sig' hsig'
    exact ⟨r, hkeep sig' r hl⟩
  · intro c hc r hmap
    exact hkeep _ _ (h.held c hc r hmap)
  · intro p hp
    obtain ⟨r, st, tsi, hl, hst, htsi, hor⟩ := h.adjusted p hp
    refine ⟨r, st, tsi, hkeep _ _ hl, ?_, htsi, hor⟩
    rw [getElem?_append_left (h.bound _ _ hl), hst]
  · intro sig' r hl
    rw [length_append, length_singleton]
    rcases (lookup_insert_new hr).1 hl with ⟨-, rfl⟩ | hl
    · omega
    · have := h.bound sig' r hl
      omega
  · intro sig₁ sig₂ r h₁ h₂
    rcases (lookup_insert_new hr).1 h₁ with ⟨hsig₁, hr₁⟩ | hold₁
    · rcases (lookup_insert_new hr).1 h₂ with ⟨hsig₂, -⟩ | hold₂
      · rw [hsig₁, hsig₂]
      · have := h.bound _ _ hold₂
        omega
    · rcases (lookup_insert_new hr).1 h₂ with ⟨-, hr₂⟩ | hold₂
      · have := h.bound _ _ hold₁
        omega
      · exact h.injective _ _ _ hold₁ hold₂
  · exact fun g hg => gc_absurd hgc hg
  · exact fun sig' r todo hg => gc_absurd hgc hg

/-- A map is replaced by one that has its entries and their marks, or it was visited just now. -/
theorem Present.replace {p : String × String} (h : s.Present p) {st' : State F N}
    (hsig : s.jobsMap.lookup sig = some r)
    (hinj : ∀ sig', s.jobsMap.lookup sig' = some r → sig' = sig) (hst : s.maps[r]? = some st)
    (hjobs : s'.jobsMap = s.jobsMap) (hmaps : s'.maps = s.maps.set r st')
    (hvisited : ∀ sig', s.Visited sig' → s'.Visited sig')
    (hentry : p.1 = sig → ∀ tsi, st.tsm.tsiMap.lookup p.2 = some tsi →
      (s.Visited sig ∨ (st.tsm.mark = true ∧ tsi.mark = true)) →
      ∃ tsi', st'.tsm.tsiMap.lookup p.2 = some tsi' ∧
        (s'.Visited sig ∨ (st'.tsm.mark = true ∧ tsi'.mark = true))) : s'.Present p := by
  obtain ⟨r₀, st₀, tsi, hl, hst₀, htsi, hor⟩ := h
  by_cases hr : r₀ = r
  · subst hr
    obtain rfl := hinj p.1 hl
    rw [hst] at hst₀
    cases hst₀
    obtain ⟨tsi', htsi', hor'⟩ := hentry rfl tsi htsi hor
    refine ⟨r₀, st', tsi', by rw [hjobs, hl], ?_, htsi', hor'⟩
    rw [hmaps, getElem?_set_self (List.getElem?_eq_some_iff.1 hst).1]
  · refine ⟨r₀, st₀, tsi, by rw [hjobs, hl], ?_, htsi, hor.imp_left (hvisited _)⟩
    rw [hmaps, getElem?_set_ne (Ne.symm hr), hst₀]

/-! ### Steps of a collection -/

theorem Inv.gcLock (h : s.Inv) {order : List (String × Nat)} {spawned : Nat} (hgc : s.gc = none)
    (horder : order.Perm s.jobsMap.pairs) :
    ({ s with
      spawned := spawned
      gc := if s.Due then some ⟨order, none⟩ else none } : System F N).Inv where
  __ := h
  adjusted p hp := by
    obtain ⟨r, st, tsi, hl, hst, htsi, hor⟩ := h.adjusted p hp
    refine ⟨r, st, tsi, hl, hst, htsi, .inr (hor.resolve_left ?_)⟩
    rintro ⟨g, hg, -⟩
    exact gc_absurd hgc hg
  todo g hg := by
    obtain ⟨-, hg⟩ := Option.ite_none_right_eq_some.1 hg
    cases hg
    refine ⟨(horder.map Prod.fst).nodup_iff.2 (GoMap.nodup_keys_pairs _), fun p hp => ?_⟩
    exact GoMap.mem_pairs.1 (horder.mem_iff.1 hp)
  deleting sig r todo hg := by
    obtain ⟨-, hg⟩ := Option.ite_none_right_eq_some.1 hg
    cases hg

theorem not_visited (hgc : s.gc = some ⟨(sig, r) :: todo, b⟩) : ¬ s.Visited sig := by
  rintro ⟨g, hg, hne⟩
  rw [hgc] at hg
  cases hg
  exact hne (sig, r) mem_cons_self rfl

theorem Inv.gcCheck (h : s.Inv) (hclear : s.Clear) (hgc : s.gc = some ⟨(sig, r) :: todo, none⟩)
    (hst : s.maps[r]? = some st) :
    ({ s with gc := some ⟨(sig, r) :: todo, some (!st.tsm.mark)⟩ } : System F N).Inv where
  __ := h
  adjusted p hp := by
    obtain ⟨r', st', tsi, hl, hst', htsi, hor⟩ := h.adjusted p hp
    refine ⟨r', st', tsi, hl, hst', htsi, hor.imp_left ?_⟩
    rintro ⟨g, hg, hne⟩
    rw [hgc] at hg
    cases hg
    exact ⟨_, rfl, hne⟩
  todo g hg := by
    cases hg
    obtain ⟨hnodup, hreg⟩ := h.todo _ hgc
    exact ⟨hnodup, hreg⟩
  deleting sig' r' todo' hg := by
    obtain ⟨hentry, hb⟩ := visiting_inj hg
    cases hentry
    have hunmarked : st.tsm.mark = false := by simpa using hb
    obtain ⟨hobtained, hunheld⟩ := hclear sig r todo st hgc hst hunmarked
    refine ⟨hobtained, hunheld, fun p hp hsig => ?_⟩
    -- what was adjusted on the map would have marked it
    obtain ⟨r₀, st₀, tsi, hl, hst₀, -, hor⟩ := h.adjusted p hp
    rw [hsig, (h.todo _ hgc).2 (sig, r) mem_cons_self] at hl
    cases hl
    rw [hst] at hst₀
    cases hst₀
    rcases hor with hv | ⟨hmark, -⟩
    · rw [hsig] at hv
      exact not_visited hgc hv
    · rw [hunmarked] at hmark
      cases hmark

theorem Inv.todo_tail (h : s.Inv) (hgc : s.gc = some ⟨(sig, r) :: todo, b⟩) :
    (∀ p ∈ todo, p.1 ≠ sig) ∧ (todo.map Prod.fst).Nodup ∧
      ∀ p ∈ todo, s.jobsMap.lookup p.1 = some p.2 := by
  obtain ⟨hnodup, hreg⟩ := h.todo _ hgc
  obtain ⟨hnot, hnodup⟩ := nodup_cons.1 hnodup
  exact ⟨fun p hp hsig => hnot (mem_map.2 ⟨p, hp, hsig⟩), hnodup,
    fun p hp => hreg p (mem_cons_of_mem _ hp)⟩

theorem visited_tail {x : String × Nat} (hgc : s.gc = some ⟨x :: todo, b⟩)
    (hgc' : s'.gc = some ⟨todo, none⟩) {sig} (hv : s.Visited sig) : s'.Visited sig := by
  obtain ⟨g, hg, hne⟩ := hv
  rw [hgc] at hg
  cases hg
  exact ⟨_, hgc', fun p hp => hne p (mem_cons_of_mem _ hp)⟩

theorem Inv.gcDelete (h : s.Inv) (hgc : s.gc = some ⟨(sig, r) :: todo, some true⟩) :
    ({ s with jobsMap := s.jobsMap.erase sig, gc := some ⟨todo, none⟩ } : System F N).Inv := by
  obtain ⟨hobtained, hunheld, hadjusted⟩ := h.deleting sig r todo hgc
  obtain ⟨hne, hnodup, hreg⟩ := h.todo_tail hgc
  refine { obtained := ?_, held := ?_, adjusted := ?_, bound := ?_, injective := ?_, todo := ?_,
           deleting := nofun }
  · intro sig' hsig'
    obtain ⟨r', hl⟩ := h.obtained sig' hsig'
    exact ⟨r', lookup_erase_iff.2 ⟨fun e => hobtained (e ▸ hsig'), hl⟩⟩
  · intro c hc r' hmap
    refine lookup_erase_iff.2 ⟨fun e => ?_, h.held c hc r' hmap⟩
    rw [hunheld c hc e] at hmap
    cases hmap
  · intro p hp
    obtain ⟨r', st, tsi, hl, hst, htsi, hor⟩ := h.adjusted p hp
    exact ⟨r', st, tsi, lookup_erase_iff.2 ⟨hadjusted p hp, hl⟩, hst, htsi,
      hor.imp_left fun hv => visited_tail hgc rfl hv⟩
  · exact fun sig' r' hl => h.bound _ _ (lookup_erase_iff.1 hl).2
  · exact fun sig₁ sig₂ r' h₁ h₂ =>
      h.injective _ _ _ (lookup_erase_iff.1 h₁).2 (lookup_erase_iff.1 h₂).2
  · intro g hg
    cases hg
    exact ⟨hnodup, fun p hp => lookup_erase_iff.2 ⟨hne p hp, hreg p hp⟩⟩

theorem Inv.gcSweep (h : s.Inv) (hgc : s.gc = some ⟨(sig, r) :: todo, some false⟩)
    (hst : s.maps[r]? = some st) :
    ({ s with
      maps := s.maps.set r { st with tsm := st.tsm.gc }
      gc := some ⟨todo, none⟩ } : System F N).Inv := by
  obtain ⟨hne, hnodup, hreg⟩ := h.todo_tail hgc
  have hsig := (h.todo _ hgc).2 (sig, r) mem_cons_self
  refine { obtained := h.obtained, held := h.held, adjusted := fun p hp => ?_,
           bound := fun sig' r' hl => ?_, injective := h.injective, todo := fun g hg => ?_,
           deleting := nofun }
  · refine (h.adjusted p hp).replace hsig (fun sig' hl => h.injective _ _ r hl hsig) hst rfl rfl
      (fun _ hv => visited_tail hgc rfl hv) ?_
    intro _ tsi htsi hor
    obtain ⟨hmark, htm⟩ := hor.resolve_left (not_visited hgc)
    exact ⟨_, lookup_gc hmark htsi htm, .inl ⟨_, rfl, hne⟩⟩
  · rw [length_set]
    exact h.bound sig' r' hl
  · cases hg
    exact ⟨hnodup, hreg⟩

theorem Inv.gcDone (h : s.Inv) :
    ({ s with lastGC := s.now, gc := none, obtained := [], adjusted := [] } : System F N).Inv where
  __ := h
  obtained := nofun
  adjusted := nofun
  todo := nofun
  deleting := nofun

variable [Zero F] [Add F] [Sub F] [LT F] [DecidableLT F]
  [Zero N] [Add N] [Sub N] [LT N] [DecidableLT N]

/-! ### Runs -/

theorem Inv.finish (h : s.Inv) {st' : State F N} {out : List (Metric (TimeSeries F N)) × Nat}
    (hc : s.calls[i]? = some c) (hpc : c.pc = .adjusting r) (hst : s.maps[r]? = some st)
    (hrun : scrape st c.metrics = .ok (st', out)) : (s.finishStep i c r st').Inv := by
  have hset : (s.setPc i c .finished).Inv := h.setPc hc nofun
  have hmap : c.pc.map = some r := by rw [hpc]; rfl
  have hreg : s.jobsMap.lookup c.sig = some r := h.held c (mem_of_getElem? hc) r hmap
  obtain ⟨hmarks, hmarked⟩ := scrape_marks hrun
  refine { obtained := hset.obtained, held := hset.held, adjusted := fun p hp => ?_,
           bound := fun sig r' hl => ?_, injective := hset.injective, todo := hset.todo,
           deleting := fun sig r' todo hgc => ?_ }
  · rcases mem_append.1 hp with hp | hp
    · obtain ⟨x, hx, rfl⟩ := mem_map.1 hp
      obtain ⟨hmark, tsi, htsi, hm⟩ := hmarked x hx
      refine ⟨r, st', tsi, hreg, ?_, htsi, .inr ⟨hmark, hm⟩⟩
      exact getElem?_set_self (List.getElem?_eq_some_iff.1 hst).1
    · refine (h.adjusted p hp).replace hreg
        (fun sig' hl => h.injective _ _ r hl hreg) hst rfl rfl (fun _ hv => hv) ?_
      intro _ tsi htsi hor
      obtain ⟨tsi', htsi', hm⟩ := hmarks.entry _ _ htsi
      exact ⟨tsi', htsi', hor.imp_right fun ⟨hmark, htm⟩ => ⟨hmarks.mark hmark, hm htm⟩⟩
  · show r' < (s.maps.set r st').length
    rw [length_set]
    exact h.bound sig r' hl
  · obtain ⟨hobtained, hunheld, hadjusted⟩ := hset.deleting sig r' todo hgc
    refine ⟨hobtained, hunheld, fun p hp => ?_⟩
    rcases mem_append.1 hp with hp | hp
    · -- the call had the map of its job, so that is not the one to be deleted
      obtain ⟨x, -, rfl⟩ := mem_map.1 hp
      intro hsig
      have hnone := (h.deleting sig r' todo hgc).2.1 c (mem_of_getElem? hc) hsig
      rw [hmap] at hnone
      cases hnone
    · exact hadjusted p hp

/-- The condition on a step: a collection looks at a map only where that is clear. -/
def Careful (s : System F N) (e : Event F N) : Prop :=
  match e with
  | .gcCheck => s.Clear
  | _ => True

theorem Inv.step {e : Event F N} (hcareful : s.Careful e) (hstep : s.step e = some s') (h : s.Inv) :
    s'.Inv := by
  cases transition_of_step hstep with
  | tick d =>
    exact ⟨⟨h.obtained, h.held⟩, h.adjusted, h.bound, h.injective, h.todo, h.deleting⟩
  | commit job target metrics =>
    refine ⟨⟨h.obtained, fun c hc r hmap => ?_⟩, h.adjusted, h.bound, h.injective, h.todo,
      fun sig r todo hgc => ?_⟩
    · rcases mem_append.1 hc with hc | hc
      · exact h.held c hc r hmap
      · rw [mem_singleton.1 hc] at hmap
        cases hmap
    · obtain ⟨hobtained, hunheld, hadjusted⟩ := h.deleting sig r todo hgc
      refine ⟨hobtained, fun c hc hsig => ?_, hadjusted⟩
      rcases mem_append.1 hc with hc | hc
      · exact hunheld c hc hsig
      · rw [mem_singleton.1 hc]
        rfl
  | found _ hc hgc hr => exact h.obtain hc hgc hr
  | missing hc => exact h.setPc hc nofun
  | made hc hgc hr => exact (h.make hgc hr).obtain hc hgc (AList.lookup_insert _)
  | @maybeGC i c r hc hpc hgc =>
    have hmap : c.pc.map = some r := by rw [hpc]; rfl
    have hset : (s.setPc i c (.returned r)).Inv := h.setPc hc fun r' hr' => by
      cases hr'
      exact .inl hmap
    exact hset.record hgc (h.held c (mem_of_getElem? hc) r hmap)
  | lock hc hpc =>
    refine h.setPc hc fun r' hr' => .inl ?_
    cases hr'
    rw [hpc]
    rfl
  | finish hc hpc hst hrun => exact h.finish hc hpc hst hrun
  | gcLock hgc horder => exact h.gcLock hgc horder
  | gcCheck hgc hst => exact h.gcCheck hcareful hgc hst
  | gcDelete hgc => exact h.gcDelete hgc
  | gcSweep hgc hst => exact h.gcSweep hgc hst
  | gcDone => exact h.gcDone

/-- **What a collection is to keep**, of a state in the middle of a run. -/
structure Keeps (s : System F N) : Prop where
  /-- A job that was obtained since the last collection is there after the next. -/
  job : ∀ s', s.step .gcDone = some s' → ∀ sig ∈ s.obtained, ∃ r, s'.jobsMap.lookup sig = some r
  /-- So is a series that was adjusted. -/
  series : ∀ s', s.step .gcDone = some s' → ∀ p ∈ s.adjusted, ∃ r st tsi,
    s'.jobsMap.lookup p.1 = some r ∧ s'.maps[r]? = some st ∧
      st.tsm.tsiMap.lookup p.2 = some tsi
  /-- When `AdjustMetrics` ends, its map is the one that is registered for the job. -/
  map : ∀ i c r s', s.calls[i]? = some c → c.pc = .adjusting r →
    s.step (.finish i) = some s' → s'.jobsMap.lookup c.sig = some r

theorem maps_of_gcDone (h : s.step .gcDone = some s') :
    s'.jobsMap = s.jobsMap ∧ s'.maps = s.maps := by
  cases transition_of_step h with
  | found he => rcases he with he | he <;> cases he
  | gcDone => exact ⟨rfl, rfl⟩

theorem Inv.keeps (h : s.Inv) : s.Keeps where
  job s' hstep := by
    rw [(maps_of_gcDone hstep).1]
    exact h.obtained
  series s' hstep p hp := by
    obtain ⟨r, st, tsi, hl, hst, htsi, -⟩ := h.adjusted p hp
    rw [(maps_of_gcDone hstep).1, (maps_of_gcDone hstep).2]
    exact ⟨r, st, tsi, hl, hst, htsi⟩
  map i c r s' hc hpc hstep := by
    have hreg := h.held c (mem_of_getElem? hc) r (by rw [hpc]; rfl)
    cases transition_of_step hstep with
    | found he => rcases he with he | he <;> cases he
    | finish => exact hreg

/-- A collection that deletes what it has just found unmarked: what is in use stays registered
exactly where that was clear. -/
theorem Inv.live_iff_clear {s₁ s₂ : System F N} (h : s.Inv) (hcheck : s.step .gcCheck = some s₁)
    (hdelete : s₁.step .gcDelete = some s₂) : s₂.Live ↔ s.Clear := by
  constructor
  · intro hlive sig r todo st hgc hst hunmarked
    cases transition_of_step hcheck with
    | found he => rcases he with he | he <;> cases he
    | gcCheck hgc' hst' =>
      rw [hgc] at hgc'
      cases hgc'
      cases transition_of_step hdelete with
      | found he => rcases he with he | he <;> cases he
      | gcDelete hgc'' =>
        cases (visiting_inj hgc'').1
        have herased : (s.jobsMap.erase sig).lookup sig = none := AList.lookup_erase _ _
        refine ⟨fun hobtained => ?_, fun c hc hsig => ?_⟩
        · obtain ⟨r', hr'⟩ := hlive.obtained sig hobtained
          rw [show AList.lookup sig _ = none from herased] at hr'
          cases hr'
        · by_contra hne
          obtain ⟨r', hr'⟩ := Option.ne_none_iff_exists'.1 hne
          have hreg := hlive.held c hc r' hr'
          rw [hsig, show AList.lookup sig _ = none from herased] at hreg
          cases hreg
  · intro hclear
    have h₁ : s₁.Inv := h.step (e := .gcCheck) hclear hcheck
    exact (h₁.step (e := .gcDelete) trivial hdelete).toLive

/-- **Garbage collection**: in every run in which a collection looks at a map only where that is
clear, what is in use is kept in every state reached; and where it is not clear, deleting the map
takes away what is in use. -/
theorem collection_keeps (gcInterval now : Nat) (es : List (Event F N)) (s : System F N)
    (hrun : runFrom step (init gcInterval now) es = some s)
    (hcareful : Meets step Careful (init gcInterval now) es) :
    s.Keeps ∧ ∀ s₁ s₂, s.step .gcCheck = some s₁ → s₁.step .gcDelete = some s₂ →
      (s₂.Live ↔ s.Clear) := by
  have hinv : s.Inv := hcareful.invariant (fun _ _ _ hc hs h => h.step hc hs) hrun
    (inv_init gcInterval now)
  exact ⟨hinv.keeps, fun _ _ hcheck hdelete => hinv.live_iff_clear hcheck hdelete⟩

/-! ### Runs of one job -/

/-- A call that makes the map of the job, and one that finds it when a collection is due; both
adjust their metrics. -/
def twoCalls (metrics : List (Metric (TimeSeries Int Int))) : List (Event Int Int) :=
  [.commit "job" "host" metrics, .lookup 0, .create 0, .maybeGC 0, .lock 0, .finish 0, .tick 2,
    .commit "job" "host" metrics, .lookup 1, .maybeGC 1, .lock 1, .finish 1]

/-- The map is marked when the collection looks at it. -/
theorem collection_keeps_counter :
    ∃ s, runFrom step (init 1 0) (twoCalls (counterScrape 1) ++ [.gcLock [("job:host", 0)]] ++
      [.gcCheck]) = some s ∧ s.Keeps := by
  have hmarked : (runFrom step (init 1 0)
      (twoCalls (counterScrape 1) ++ [.gcLock [("job:host", 0)]])).map
        (fun s => s.maps.map fun st => st.tsm.mark) = some [true] := by decide +kernel
  have hsome : (runFrom step (init 1 0) (twoCalls (counterScrape 1) ++
      [.gcLock [("job:host", 0)]] ++ [.gcCheck])).isSome = true := by decide +kernel
  obtain ⟨s, hs⟩ := Option.isSome_iff_exists.1 hsome
  refine ⟨s, hs, (collection_keeps 1 0 _ s hs (Meets.snoc (meets_of_forall ?_ _) ?_)).1⟩
  · simp [twoCalls, Careful]
  · intro s' hs' sig r todo st _ hst hunmarked
    rw [hs', Option.map_some, Option.some.injEq] at hmarked
    have hmem : st.tsm.mark ∈ s'.maps.map fun st => st.tsm.mark :=
      mem_map.2 ⟨st, mem_of_getElem? hst, rfl⟩
    rw [hmarked, hunmarked] at hmem
    cases mem_singleton.1 hmem

def swept (metrics : List (Metric (TimeSeries Int Int))) : List (Event Int Int) :=
  twoCalls metrics ++ [.gcLock [("job:host", 0)], .gcCheck, .gcSweep, .gcDone]

def gaugeScrape (x : Int) : List (Metric (TimeSeries Int Int)) :=
  [⟨⟨"g", "", "1", .gaugeDouble, []⟩, [⟨none, [], [⟨⟨0, 0⟩, .double x⟩]⟩]⟩]

/-- The next call starts a collection with its `get`, which deletes the map before the call
adjusts its metrics. -/
def overtaken : List (Event Int Int) :=
  swept (counterScrape 1) ++ [.tick 2, .commit "job" "host" (counterScrape 3), .lookup 2,
    .maybeGC 2, .gcLock [("job:host", 0)], .gcCheck, .gcDelete]

/-- The next call has adjusted its metrics, which are gauges, when the collection comes. -/
def gaugesOnly : List (Event Int Int) :=
  swept (gaugeScrape 1) ++ [.tick 2, .commit "job" "host" (gaugeScrape 3), .lookup 2,
    .maybeGC 2, .lock 2, .finish 2, .gcLock [("job:host", 0)], .gcCheck, .gcDelete]

theorem not_keeps_of_deleted {es : List (Event Int Int)} (sig : String) (obtained : List String)
    (h : (runFrom step (init 1 0) es).map (fun s => (s.obtained,
      (s.step .gcDone).map fun s' => s'.jobsMap.lookup sig)) = some (sig :: obtained, some none)) :
    ∃ s, runFrom step (init 1 0) es = some s ∧ ¬ s.Keeps := by
  obtain ⟨s, hs, h⟩ := Option.map_eq_some_iff.1 h
  obtain ⟨hobtained, hdone⟩ := Prod.mk.inj h
  obtain ⟨s', hs', hnone⟩ := Option.map_eq_some_iff.1 hdone
  refine ⟨s, hs, fun hkeeps => ?_⟩
  obtain ⟨r, hr⟩ := hkeeps.job s' hs' sig (by rw [hobtained]; exact mem_cons_self)
  rw [hnone] at hr
  cases hr

/-- The job was obtained since the last collection and is not there after the next, in both runs; in
the first one `AdjustMetrics` ends on a map that is no longer registered. -/
theorem collection_forgets :
    (∃ s, runFrom step (init 1 0) overtaken = some s ∧ ¬ s.Keeps) ∧
    (∃ s, runFrom step (init 1 0) gaugesOnly = some s ∧ ¬ s.Keeps) ∧
    (runFrom step (init 1 0) (overtaken ++ [.gcDone, .lock 2, .finish 2])).map
      (fun s => s.jobsMap.lookup "job:host") = some none :=
  ⟨not_keeps_of_deleted "job:host" ["job:host"] (by decide +kernel),
    not_keeps_of_deleted "job:host" ["job:host"] (by decide +kernel),
    by decide +kernel⟩

end System

end Collector.Prometheus
