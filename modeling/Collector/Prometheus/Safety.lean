import Collector.Prometheus.Family
import Collector.Prometheus.Series

/-!
# Where the adjuster crashes

The signature of a time series tells neither the type of its metric nor how many buckets it has, so
what is kept under it may be of another type or have fewer buckets. `Crashing` lists
what then ends the process, and a sequence of scrapes is adjusted exactly when no time series
meets any of it (`returns_scrapeAll_iff`).
-/

namespace Collector.Prometheus

open Lib OpenCensus
open PointValue (getDistribution getSummary)

variable {F N : Type}

def TimeSeries.distribution (ts : TimeSeries F N) : Option (DistributionValue F N) :=
  ts.points.head?.bind fun p => p.value.getDistribution

def TimeSeries.summary (ts : TimeSeries F N) : Option (SummaryValue F N) :=
  ts.points.head?.bind fun p => p.value.getSummary

def BuiltScrape (metrics : List (Metric (TimeSeries F N))) : Prop :=
  ∀ m ∈ metrics, ∀ ts ∈ m.timeseries, ts.Built m.descriptor.type

theorem built_of_mem_items {scrapes : List (List (Metric (TimeSeries F N)))}
    (hbuilt : ∀ metrics ∈ scrapes, BuiltScrape metrics) :
    ∀ x ∈ scrapes.flatMap items, x.2.Built x.1.type := by
  intro x hx
  obtain ⟨metrics, hmetrics, hx⟩ := List.mem_flatMap.1 hx
  obtain ⟨m, hm, hx⟩ := List.mem_flatMap.1 hx
  split at hx
  · cases hx
  · obtain ⟨ts, hts, rfl⟩ := List.mem_map.1 hx
    exact hbuilt metrics hmetrics m hm ts hts

/-- What is kept has one point each. -/
structure Info.Single (info : Info F N) : Prop where
  initial : ∃ p, info.initial.points = [p]
  previous : ∃ p, info.previous.points = [p]

/-! ## One point -/

theorem returns_adjustBuckets [Sub N] {current initial : List N} :
    Returns (adjustBuckets current initial) ↔ current.length ≤ initial.length := by
  induction current generalizing initial with
  | nil => exact iff_of_true (returns_ok []) (Nat.zero_le _)
  | cons c current ih =>
    cases initial with
    | nil => exact iff_of_false (not_returns_error _) (Nat.not_succ_le_zero _)
    | cons i initial =>
      rw [adjustBuckets, returns_bind_pure, ih]
      exact Nat.succ_le_succ_iff.symm

variable [Add F] [Sub F] [LT F] [DecidableLT F] [Add N] [Sub N] [LT N] [DecidableLT N]

/-- What ends the process when a time series of a metric of this type comes. -/
inductive Crashing : MetricType → Info F N → TimeSeries F N → Prop
  | initialDistribution {info : Info F N} {ts : TimeSeries F N}
      (h : info.initial.distribution = none) : Crashing .cumulativeDistribution info ts
  | previousDistribution {info : Info F N} {ts : TimeSeries F N} (hsame : info.same = false)
      (h : info.previous.distribution = none) : Crashing .cumulativeDistribution info ts
  | buckets {info : Info F N} {ts : TimeSeries F N} {current initial : DistributionValue F N}
      (hc : ts.distribution = some current) (hi : info.initial.distribution = some initial)
      (hreset : ¬ current.Resets initial
        (if info.same then none else info.previous.distribution))
      (hlen : initial.buckets.length < current.buckets.length) :
      Crashing .cumulativeDistribution info ts
  | initialSummary {info : Info F N} {ts : TimeSeries F N}
      (h : info.initial.summary = none) : Crashing .summary info ts
  | previousSummary {info : Info F N} {ts : TimeSeries F N} (hsame : info.same = false)
      (h : info.previous.summary = none) : Crashing .summary info ts

theorem returns_adjust {c i : DistributionValue F N} {emitted : Option (DistributionValue F N)} :
    Returns (c.adjust i emitted) ↔
      (¬ c.Resets i emitted → c.buckets.length ≤ i.buckets.length) := by
  unfold DistributionValue.adjust
  by_cases h : c.Resets i emitted
  · rw [if_pos h]
    exact iff_of_true (returns_ok none) fun h' => absurd h h'
  · rw [if_neg h, returns_bind_pure, returns_adjustBuckets]
    exact ⟨fun hl _ => hl, fun hl => hl h⟩

theorem returns_adjustDistribution {c : DistributionValue F N} {initial previous : PointValue F N}
    {same : Bool} :
    Returns (adjustDistribution (.distribution c) initial previous same) ↔
      ∃ i, initial.getDistribution = some i ∧
        (same = false → previous.getDistribution ≠ none) ∧
        (¬ c.Resets i (if same then none else previous.getDistribution) →
          c.buckets.length ≤ i.buckets.length) := by
  cases initial with
  | double | summary => exact iff_of_false (not_returns_error _) (by simp [getDistribution])
  | distribution i =>
    cases same with
    | true =>
      rw [adjustDistribution_same, returns_adjust]
      simp [getDistribution]
    | false =>
      cases previous with
      | double | summary => exact iff_of_false (not_returns_error _) (by simp [getDistribution])
      | distribution p =>
        rw [adjustDistribution_distinct, returns_adjust]
        simp [getDistribution]

variable [Zero F] [Zero N]

theorem returns_adjustSummary {c : SummaryValue F N} {initial previous : PointValue F N}
    {same : Bool} :
    Returns (adjustSummary (.summary c) initial previous same) ↔
      initial.getSummary ≠ none ∧ (same = false → previous.getSummary ≠ none) := by
  cases initial with
  | double | distribution => exact iff_of_false (not_returns_error _) (by simp [getSummary])
  | summary i =>
    cases same with
    | true =>
      rw [adjustSummary_same]
      exact iff_of_true (returns_ok _) ⟨nofun, nofun⟩
    | false =>
      cases previous with
      | double x => exact iff_of_false (not_returns_error _) (by simp [getSummary])
      | distribution d =>
        exact iff_of_false (not_returns_error _) (by simp [getSummary])
      | summary p =>
        rw [adjustSummary_distinct]
        exact iff_of_true (returns_ok _) ⟨nofun, nofun⟩

/-! ## One time series -/

variable {type : MetricType} {info : Info F N} {ts : TimeSeries F N}

theorem returns_advance_point {c i p : Point F N} (hc : ts.points = [c])
    (hi : info.initial.points = [i]) (hp : info.previous.points = [p]) :
    Returns (advance type (some info) ts) ↔
      Returns (adjustPoint type c.value i.value p.value info.same) := by
  have hts : Returns (adjustTimeseries type ts info.initial (some info.previous) info.same) ↔
      Returns (adjustPoint type c.value i.value p.value info.same) := by
    unfold adjustTimeseries
    rw [returns_bind_pure]
    rw [Option.elim_some, hc, hi, hp, adjustPoints_single, returns_bind_pure]
  rw [← hts]
  unfold advance
  rw [returns_bind]
  refine exists_congr fun adjusted => and_iff_left ?_
  cases adjusted with
  | none | some => exact returns_ok _

omit [Sub F] [DecidableLT F] [Sub N] [DecidableLT N] [Zero F] [Zero N] in
theorem not_crashing_distribution_iff {d : DistributionValue F N} (hd : ts.distribution = some d) :
    ¬ Crashing .cumulativeDistribution info ts ↔ ∃ i, info.initial.distribution = some i ∧
      (info.same = false → info.previous.distribution ≠ none) ∧
      (¬ d.Resets i (if info.same then none else info.previous.distribution) →
        d.buckets.length ≤ i.buckets.length) := by
  constructor
  · intro hsafe
    obtain ⟨i, hi⟩ := Option.ne_none_iff_exists'.1 fun h => hsafe (.initialDistribution h)
    refine ⟨i, hi, fun hsame h => hsafe (.previousDistribution hsame h), fun hreset => ?_⟩
    by_contra hlt
    exact hsafe (.buckets hd hi hreset (Nat.lt_of_not_le hlt))
  · rintro ⟨i, hi, hprev, hlen⟩ hcrash
    cases hcrash with
    | initialDistribution h => rw [h] at hi; cases hi
    | previousDistribution hsame h => exact hprev hsame h
    | buckets hcur hini hreset hlt =>
      rw [hd] at hcur
      rw [hi] at hini
      cases hcur
      cases hini
      exact Nat.not_le_of_lt hlt (hlen hreset)

omit [Sub F] [DecidableLT F] [Sub N] [DecidableLT N] [Zero F] [Zero N] in
theorem not_crashing_summary_iff :
    ¬ Crashing .summary info ts ↔ info.initial.summary ≠ none ∧
      (info.same = false → info.previous.summary ≠ none) := by
  constructor
  · intro hsafe
    exact ⟨fun h => hsafe (.initialSummary h), fun hsame h => hsafe (.previousSummary hsame h)⟩
  · rintro ⟨hini, hprev⟩ hcrash
    cases hcrash with
    | initialSummary h => exact hini h
    | previousSummary hsame h => exact hprev hsame h

theorem returns_advance (hinfo : info.Single) (hts : ts.Built type) :
    Returns (advance type (some info) ts) ↔ ¬ Crashing type info ts := by
  obtain ⟨i, hi⟩ := hinfo.initial
  obtain ⟨p, hp⟩ := hinfo.previous
  obtain ⟨c, hc, hfits⟩ := hts
  rw [returns_advance_point hc hi hp]
  have hidist : info.initial.distribution = i.value.getDistribution := by
    simp [TimeSeries.distribution, hi]
  have hpdist : info.previous.distribution = p.value.getDistribution := by
    simp [TimeSeries.distribution, hp]
  have hisum : info.initial.summary = i.value.getSummary := by simp [TimeSeries.summary, hi]
  have hpsum : info.previous.summary = p.value.getSummary := by simp [TimeSeries.summary, hp]
  unfold adjustPoint
  split
  case h_1 => exact iff_of_true (returns_ok _) nofun
  case h_2 =>
    obtain ⟨d, hd⟩ := hfits
    have hcdist : ts.distribution = some d := by
      simp [TimeSeries.distribution, hc, hd, getDistribution]
    rw [hd, returns_adjustDistribution, ← hidist, ← hpdist, not_crashing_distribution_iff hcdist]
  case h_3 =>
    obtain ⟨d, hd⟩ := hfits
    rw [hd, returns_adjustSummary, ← hisum, ← hpsum, not_crashing_summary_iff]
  case h_4 _ hdist hsum =>
    refine iff_of_true (returns_ok _) ?_
    rintro (_ | _)
    all_goals first | exact hdist rfl | exact hsum rfl

theorem single_of_advance {info : Option (Info F N)} {info' : Info F N}
    {out : Option (TimeSeries F N)} (hinfo : ∀ i, info = some i → i.Single)
    (hts : ∃ p, ts.points = [p]) (h : advance type info ts = .ok (info', out)) : info'.Single := by
  cases info with
  | none => cases h; exact ⟨hts, hts⟩
  | some info =>
    obtain ⟨adjusted, hadj, hret⟩ := bind_eq_ok.1 h
    cases adjusted with
    | none => cases hret; exact ⟨hts, hts⟩
    | some ts' =>
      cases hret
      refine ⟨(hinfo info rfl).initial, ?_⟩
      obtain ⟨points, hpoints, hret⟩ := bind_eq_ok.1 hadj
      obtain ⟨c, hc⟩ := hts
      obtain ⟨i, hi⟩ := (hinfo info rfl).initial
      rw [hc, hi] at hpoints
      obtain ⟨p, -, hpoints⟩ := bind_eq_ok.1 hpoints
      obtain ⟨v, -, hpoints⟩ := bind_eq_ok.1 hpoints
      cases hpoints
      cases v with
      | none => cases hret
      | some v => cases hret; exact ⟨_, rfl⟩

/-! ## Sequences of scrapes -/

def View.Single (v : View F N) : Prop := ∀ sig info, v sig = some info → info.Single

theorem single_of_accumulate {v v' : View F N} {xs : List (Item F N)}
    {outs : List (Option (TimeSeries F N))} (hv : v.Single)
    (hxs : ∀ x ∈ xs, x.2.Built x.1.type)
    (h : accumulate View.adjustItem v xs = .ok (v', outs)) : v'.Single := by
  induction xs generalizing v outs with
  | nil => cases h; exact hv
  | cons x xs ih =>
    obtain ⟨hx, hrest⟩ := List.forall_mem_cons.1 hxs
    obtain ⟨v₁, out, outs', hstep, hrun, -⟩ := accumulate_cons_ok.1 h
    refine ih ?_ hrest hrun
    obtain ⟨⟨info, adjusted⟩, hadv, hret⟩ := bind_eq_ok.1 hstep
    cases hret
    obtain ⟨p, hp, -⟩ := hx
    intro sig info' hinfo'
    by_cases hsig : sig = getTimeseriesSignature x.1.name x.2.labelValues
    · subst hsig
      rw [Function.update_self] at hinfo'
      cases hinfo'
      exact single_of_advance (fun i hi => hv _ i hi) ⟨p, hp⟩ hadv
    · rw [Function.update_of_ne hsig] at hinfo'
      exact hv sig info' hinfo'

theorem returns_adjustItem {v : View F N} (hv : v.Single) {x : Item F N}
    (hx : x.2.Built x.1.type) :
    Returns (v.adjustItem x) ↔
      ∀ info, v (signatureOf x) = some info → ¬ Crashing x.1.type info x.2 := by
  have hstep : Returns (v.adjustItem x) ↔ Returns (advance x.1.type (v (signatureOf x)) x.2) :=
    returns_bind_pure (x := advance x.1.type (v (signatureOf x)) x.2)
  rw [hstep]
  cases hinfo : v (signatureOf x) with
  | none => exact iff_of_true (returns_ok _) nofun
  | some info =>
    rw [returns_advance (hv _ info hinfo) hx]
    exact ⟨fun h info' e => by cases e; exact h, fun h => h info rfl⟩

/-- **When the adjuster does not crash**: no time series of the builder meets, under its signature,
anything that it cannot be adjusted to. -/
theorem returns_scrapeAll_iff (scrapes : List (List (Metric (TimeSeries F N))))
    (hbuilt : ∀ metrics ∈ scrapes, BuiltScrape metrics) :
    Returns (scrapeAll newState scrapes) ↔
      ∀ pre x post v outs, scrapes.flatMap items = pre ++ x :: post →
        accumulate View.adjustItem (fun _ => none) pre = .ok (v, outs) →
        ∀ info, v (signatureOf x) = some info → ¬ Crashing x.1.type info x.2 := by
  have hitems := built_of_mem_items hbuilt
  rw [(scrapeAll_matches scrapes).returns_iff, (scrapeAll_items _ scrapes).returns_iff,
    returns_accumulate]
  refine forall_congr' fun pre => forall_congr' fun x => forall_congr' fun post =>
    forall_congr' fun v => forall_congr' fun outs => forall_congr' fun hsplit =>
      forall_congr' fun hrun => returns_adjustItem ?_ (hitems x (by simp [hsplit]))
  refine single_of_accumulate (fun _ _ h => by cases h) (fun y hy => hitems y ?_) hrun
  rw [hsplit]
  exact List.mem_append_left _ hy

theorem built_pointScrape {name : String} {v : PointValue Int Int}
    (hv : v.Fits type) : BuiltScrape (pointScrape name type v) := by
  intro m hm ts hts
  obtain rfl := List.mem_singleton.1 hm
  obtain rfl := List.mem_singleton.1 hts
  exact ⟨_, rfl, hv⟩

/-- A counter, a histogram and a summary. -/
def threeTypes (x : Int) : List (Metric (TimeSeries Int Int)) :=
  counterScrape x ++
    pointScrape "h" .cumulativeDistribution (.distribution ⟨x, x, [1], [x, 0]⟩) ++
    pointScrape "s" .summary (.summary ⟨some x, some x, none⟩)

theorem built_threeTypes (x : Int) : BuiltScrape (threeTypes x) := by
  unfold BuiltScrape threeTypes
  rw [List.forall_mem_append, List.forall_mem_append]
  exact ⟨⟨built_pointScrape ⟨_, rfl⟩, built_pointScrape ⟨_, rfl⟩⟩, built_pointScrape ⟨_, rfl⟩⟩

theorem threeTypes_not_crashing : Returns (scrapeAll newState [threeTypes 3, threeTypes 5]) ∧
    ∀ pre x post v outs, [threeTypes 3, threeTypes 5].flatMap items = pre ++ x :: post →
      accumulate View.adjustItem (fun _ => none) pre = .ok (v, outs) →
      ∀ info, v (signatureOf x) = some info → ¬ Crashing x.1.type info x.2 := by
  have hbuilt : ∀ metrics ∈ [threeTypes 3, threeTypes 5], BuiltScrape metrics := by
    simp [built_threeTypes]
  have hreturns : Returns (scrapeAll newState [threeTypes 3, threeTypes 5]) := ⟨_, rfl⟩
  exact ⟨hreturns, (returns_scrapeAll_iff _ hbuilt).1 hreturns⟩

/-! ## Inputs that crash -/

def oneGroup (name : String) (type : TextMetricType) (mg : MetricGroup Int) : MetricFamily Int where
  name := name
  mtype := convToOCAMetricType type
  droppedTimeseries := 0
  labelKeysOrdered := []
  metadata := ⟨"", "1"⟩
  groupOrders := (∅ : GoMap String Nat).insert "" 0
  groups := (∅ : GoMap String (MetricGroup Int)).insert "" mg

attribute [local instance] LabelSet.listed

def scrapeFamily (st : State Int Int) (mf : MetricFamily Int) : Go (State Int Int × Nat) := do
  let (metric, _) ← mf.toMetric SliceSort.stable id .stored
  let (st, _, dropped) ← scrape st metric.toList
  return (st, dropped)

def counterFamily : MetricFamily Int := oneGroup "m" .counter ⟨0, [], 0, false, 0, false, 1, []⟩

def histogramFamily (boundaries : List Int) : MetricFamily Int :=
  oneGroup "m" .histogram ⟨0, [], 1, true, 1, true, 0, boundaries.map fun b => ⟨1, b⟩⟩

def crashOf {α : Type} : Go α → Option Crash
  | .error e => some e
  | .ok _ => none

/-- A counter that becomes a histogram, and a histogram that gets a bucket more. -/
theorem adjuster_crashes :
    crashOf (accumulate scrapeFamily newState [counterFamily, histogramFamily [1]]) =
        some .nilDereference ∧
      crashOf (accumulate scrapeFamily newState [histogramFamily [1], histogramFamily [1, 2]]) =
        some .indexOutOfRange := by
  decide +kernel

end Collector.Prometheus
