import Mathlib.Data.List.ReduceOption
import Collector.Prometheus.View

/-!
# Series

A series is a metric name with the label pairs whose value is not empty. The adjuster handles the
time series of a scrape one after the other (`scrape_items`) and knows a series by its signature:
what it keeps and emits under a signature follows from what was scraped under that signature
alone (`followItem`, `scrapeAll_series`).
-/

namespace Collector.Prometheus

open Lib OpenCensus List

variable {F N : Type}

/-! ## The time series of a scrape -/

abbrev Item (F N : Type) := MetricDescriptor × TimeSeries F N

def items (metrics : List (Metric (TimeSeries F N))) : List (Item F N) :=
  metrics.flatMap fun m =>
    if isGauge m.descriptor.type then [] else m.timeseries.map fun ts => (m.descriptor, ts)

theorem items_cons (m : Metric (TimeSeries F N)) (metrics : List (Metric (TimeSeries F N))) :
    items (m :: metrics) = items [m] ++ items metrics := by
  simp [items]

theorem items_append (metrics metrics' : List (Metric (TimeSeries F N))) :
    items (metrics ++ metrics') = items metrics ++ items metrics' :=
  flatMap_append

theorem items_single {m : Metric (TimeSeries F N)} (h : ¬ isGauge m.descriptor.type = true) :
    items [m] = m.timeseries.map fun ts => (m.descriptor, ts) := by
  simp [items, h]

theorem items_gauge {m : Metric (TimeSeries F N)} (h : isGauge m.descriptor.type = true) :
    items [m] = [] := by
  simp [items, h]

def signatureOf (x : Item F N) : String := getTimeseriesSignature x.1.name x.2.labelValues

/-- A metric name and the label pairs with a value that is not empty. -/
structure Series where
  name : String
  labels : List (String × String)
  deriving DecidableEq, Repr

/-- `getTimeseriesSignature` on a series. -/
def Series.signature (s : Series) : String :=
  s.name ++ "," ++ ",".intercalate (s.labels.map Prod.snd)

/-- The pair of a label value with its key, unless it is empty. -/
def labelPair (descriptor : MetricDescriptor) (x : LabelValue × Nat) : Option (String × String) :=
  if x.1.value = "" then none
  else some ((descriptor.labelKeys[x.2]?.join).elim "" LabelKey.key, x.1.value)

def seriesOf (x : Item F N) : Series :=
  ⟨x.1.name, x.2.labelValues.zipIdx.filterMap (labelPair x.1)⟩

theorem map_snd_labelPair (descriptor : MetricDescriptor) (values : List LabelValue) (k : Nat) :
    ((values.zipIdx k).filterMap (labelPair descriptor)).map Prod.snd = nonEmptyValues values := by
  induction values generalizing k with
  | nil => rfl
  | cons v values ih =>
    rw [zipIdx_cons, filterMap_cons, nonEmptyValues, map_cons, filter_cons]
    have hrest := ih (k + 1)
    unfold nonEmptyValues at hrest
    by_cases h : v.value = "" <;> simpa [labelPair, h] using hrest

theorem signatureOf_eq (x : Item F N) : signatureOf x = (seriesOf x).signature := by
  unfold signatureOf getTimeseriesSignature Series.signature seriesOf
  rw [map_snd_labelPair]

theorem seriesOf_congr (s : Series) (d : MetricDescriptor) (ts ts' : TimeSeries F N)
    (h : ts'.labelValues = ts.labelValues) :
    decide (seriesOf (d, ts') = s) = decide (seriesOf (d, ts) = s) := by
  unfold seriesOf
  rw [h]

def seriesIn (s : Series) (metrics : List (Metric (TimeSeries F N))) : List (Item F N) :=
  (items metrics).filter fun x => seriesOf x = s

/-- What is emitted for the items `xs`, with their descriptors. -/
def survivors (xs : List (Item F N)) (outs : List (Option (TimeSeries F N))) : List (Item F N) :=
  (xs.zip outs).filterMap fun p => p.2.map fun ts => (p.1.1, ts)

theorem survivors_cons (x : Item F N) (xs : List (Item F N)) (out : Option (TimeSeries F N))
    (outs : List (Option (TimeSeries F N))) : survivors (x :: xs) (out :: outs) =
      (out.map fun ts => (x.1, ts)).toList ++ survivors xs outs := by
  cases out <;> rfl

variable {xs : List (Item F N)} {outs : List (Option (TimeSeries F N))} {s : Series}

theorem survivors_append {xs' : List (Item F N)} {outs' : List (Option (TimeSeries F N))}
    (h : outs.length = xs.length) :
    survivors (xs ++ xs') (outs ++ outs') = survivors xs outs ++ survivors xs' outs' := by
  unfold survivors
  rw [zip_append h.symm, filterMap_append]

theorem map_snd_survivors (h : outs.length = xs.length) :
    (survivors xs outs).map Prod.snd = outs.reduceOption := by
  induction xs generalizing outs with
  | nil =>
    obtain rfl := length_eq_zero_iff.1 h
    rfl
  | cons x xs ih =>
    obtain ⟨out, outs, rfl⟩ := exists_cons_of_length_eq_add_one h
    rw [survivors_cons, map_append, ih (Nat.succ.inj h)]
    cases out <;> rfl

theorem filter_survivors {q : Item F N → Bool}
    (hq : ∀ d (ts ts' : TimeSeries F N), ts'.labelValues = ts.labelValues → q (d, ts') = q (d, ts))
    (hlen : outs.length = xs.length)
    (hlabels : ∀ p ∈ xs.zip outs, ∀ ts, p.2 = some ts → ts.labelValues = p.1.2.labelValues) :
    (survivors xs outs).filter q =
      survivors (xs.filter q) (((xs.zip outs).filter fun p => q p.1).map Prod.snd) := by
  induction xs generalizing outs with
  | nil => rfl
  | cons x xs ih =>
    obtain ⟨out, outs, rfl⟩ := exists_cons_of_length_eq_add_one hlen
    obtain ⟨hfirst, hrest⟩ := forall_mem_cons.1 hlabels
    have hout : ((out.map fun ts => (x.1, ts)).toList).filter q =
        if q x = true then (out.map fun ts => (x.1, ts)).toList else [] := by
      cases out with
      | none => cases q x <;> rfl
      | some ts =>
        have hx : q (x.1, ts) = q x := hq x.1 x.2 ts (hfirst ts rfl)
        cases h : q x <;> simp [hx, h]
    rw [survivors_cons, filter_append, hout, ih (Nat.succ.inj hlen) hrest, zip_cons_cons]
    by_cases h : q x = true
    · rw [if_pos h, filter_cons_of_pos h, filter_cons_of_pos (by simpa using h),
        map_cons, survivors_cons]
    · rw [if_neg h, filter_cons_of_neg h, filter_cons_of_neg (by simpa using h)]
      rfl

variable [Zero F] [Add F] [Sub F] [LT F] [DecidableLT F]
  [Zero N] [Add N] [Sub N] [LT N] [DecidableLT N]

/-! ## One time series after the other -/

def View.adjustItem (v : View F N) (x : Item F N) : Go (View F N × Option (TimeSeries F N)) :=
  v.adjust x.1 x.2

variable {v v' : View F N}

theorem labelValues_of_adjust {x : Item F N} {ts : TimeSeries F N}
    (h : v.adjustItem x = .ok (v', some ts)) : ts.labelValues = x.2.labelValues := by
  obtain ⟨⟨info, out⟩, hadv, hret⟩ := bind_eq_ok.1 h
  cases hret
  unfold advance at hadv
  split at hadv
  · cases hadv
  · obtain ⟨adjusted, hadj, hret⟩ := bind_eq_ok.1 hadv
    cases adjusted with
    | none => cases hret
    | some ts' =>
      cases hret
      obtain ⟨points, -, hret⟩ := bind_eq_ok.1 hadj
      cases points with
      | none => cases hret
      | some ps => cases hret; rfl

theorem adjustMetricTimeseries_items (d : MetricDescriptor) (v : View F N)
    (tss : List (TimeSeries F N)) :
    Matches (fun x y => x.1 = y.1 ∧
        x.2.1.map (fun ts => (d, ts)) = survivors (tss.map fun ts => (d, ts)) y.2)
      (adjustMetricTimeseries (View.adjust d) v tss)
      (accumulate View.adjustItem v (tss.map fun ts => (d, ts))) := by
  induction tss generalizing v with
  | nil => exact .ok ⟨rfl, rfl⟩
  | cons ts tss ih =>
    have hstep : Matches (· = ·) (v.adjust d ts) (v.adjustItem (d, ts)) := by
      show Matches (· = ·) (v.adjust d ts) (v.adjust d ts)
      cases v.adjust d ts with
      | error e => exact .error e
      | ok x => exact .ok rfl
    refine hstep.bind ?_
    rintro ⟨v₁, out⟩ _ rfl
    refine (ih v₁).bind fun ⟨v₂, filtered, dropped⟩ ⟨v₃, outs⟩ ⟨hv, hout⟩ => ?_
    obtain rfl : v₂ = v₃ := hv
    cases out with
    | none => exact .ok ⟨rfl, by rw [map_cons, survivors_cons]; exact hout⟩
    | some ts' =>
      refine .ok ⟨rfl, ?_⟩
      show _ = survivors ((d, ts) :: _) (some ts' :: outs)
      rw [survivors_cons, ← hout]
      rfl

theorem adjustMetric_items (v : View F N) (m : Metric (TimeSeries F N)) :
    Matches (fun x y => x.1 = y.1 ∧ items x.2.1.toList = survivors (items [m]) y.2)
      (adjustMetric View.adjust v m) (accumulate View.adjustItem v (items [m])) := by
  unfold adjustMetric
  by_cases hg : isGauge m.descriptor.type = true
  · rw [if_pos hg, items_gauge hg]
    exact .ok ⟨rfl, items_gauge hg⟩
  · rw [if_neg hg, items_single hg]
    refine (adjustMetricTimeseries_items m.descriptor v m.timeseries).bind_left
      fun ⟨v₁, filtered, dropped⟩ ⟨v₂, outs⟩ ⟨hv, hout⟩ => .ok ⟨hv, ?_⟩
    rw [← hout]
    cases filtered with
    | nil => rfl
    | cons ts filtered => exact items_single hg

theorem scrape_items (v : View F N) (metrics : List (Metric (TimeSeries F N))) :
    Matches (fun x y => x.1 = y.1 ∧ items x.2.1 = survivors (items metrics) y.2)
      (v.scrape metrics) (accumulate View.adjustItem v (items metrics)) := by
  unfold View.scrape
  induction metrics generalizing v with
  | nil => exact .ok ⟨rfl, rfl⟩
  | cons m metrics ih =>
    rw [items_cons, accumulate_append, adjustMetrics]
    refine ((adjustMetric_items v m).and_right fun _ => length_accumulate).bind
      fun ⟨v₁, left, dropped⟩ ⟨v₂, outs⟩ ⟨⟨hv, hout⟩, hlen⟩ => ?_
    obtain rfl : v₁ = v₂ := hv
    refine (ih v₁).bind fun ⟨v₃, rest, d⟩ ⟨v₄, outs'⟩ ⟨hv', hout'⟩ => .ok ⟨hv', ?_⟩
    show items (left.toList ++ rest) = survivors (items [m] ++ items metrics) (outs ++ outs')
    rw [items_append, survivors_append hlen, hout, hout']

variable {metrics : List (Metric (TimeSeries F N))}

theorem scrape_of_items (h : accumulate View.adjustItem v (items metrics) = .ok (v', outs)) :
    ∃ out, v.scrape metrics = .ok (v', out) ∧ items out.1 = survivors (items metrics) outs := by
  obtain ⟨⟨v₁, out⟩, hs, hv, hout⟩ := (scrape_items v metrics).of_ok h
  obtain rfl : v₁ = v' := hv
  exact ⟨out, hs, hout⟩

theorem scrapeAll_items (v : View F N) (scrapes : List (List (Metric (TimeSeries F N)))) :
    Matches (fun x y => x.1 = y.1) (v.scrapeAll scrapes)
      (accumulate View.adjustItem v (scrapes.flatMap items)) := by
  induction scrapes generalizing v with
  | nil => exact .ok rfl
  | cons metrics scrapes ih =>
    rw [flatMap_cons, accumulate_append]
    refine (scrape_items v metrics).bind fun ⟨v₁, out⟩ ⟨v₂, outs⟩ ⟨hv, _⟩ => ?_
    obtain rfl : v₁ = v₂ := hv
    exact (ih v₁).bind fun x y hxy => .ok hxy

/-! ## One signature -/

def followItem (info : Option (Info F N)) (x : Item F N) :
    Go (Option (Info F N) × Option (TimeSeries F N)) := do
  let (info, out) ← advance x.1.type info x.2
  return (some info, out)

theorem projects_follow (sig : String) :
    Projects (View.adjustItem (F := F) (N := N)) followItem (fun v => v sig)
      fun x => signatureOf x = sig where
  step v x v' out hx h := by
    obtain ⟨⟨info, adjusted⟩, hadv, hret⟩ := bind_eq_ok.1 h
    cases hret
    obtain rfl : signatureOf x = sig := by simpa using hx
    have hself : Function.update v (signatureOf x) (some info) (signatureOf x) = some info :=
      Function.update_self _ _ _
    exact bind_eq_ok.2 ⟨(info, out), hadv, congrArg (fun i => Except.ok (i, out)) hself.symm⟩
  frame v x v' out hx h := by
    obtain ⟨⟨info, adjusted⟩, hadv, hret⟩ := bind_eq_ok.1 h
    cases hret
    have hne : sig ≠ signatureOf x := fun e => by simp [e] at hx
    exact Function.update_of_ne hne _ _

theorem labelValues_of_accumulate (h : accumulate View.adjustItem v xs = .ok (v', outs)) :
    ∀ p ∈ xs.zip outs, ∀ ts, p.2 = some ts → ts.labelValues = p.1.2.labelValues := by
  induction xs generalizing v outs with
  | nil => nofun
  | cons x xs ih =>
    obtain ⟨v₁, out, outs', hx, hxs, rfl⟩ := accumulate_cons_ok.1 h
    refine forall_mem_cons.2 ⟨?_, ih hxs⟩
    rintro ts rfl
    exact labelValues_of_adjust hx

/-- The signature of the series belongs to no other series of the scrape. -/
def Unshared (s : Series) (metrics : List (Metric (TimeSeries F N))) : Prop :=
  ∀ x ∈ items metrics, signatureOf x = s.signature → seriesOf x = s

/-- **What is emitted for a series** in a scrape follows from its own time series. -/
theorem scrape_series {out : List (Metric (TimeSeries F N))} {d : Nat}
    (h : v.scrape metrics = .ok (v', out, d)) (hs : Unshared s metrics) :
    ∃ outs, accumulate followItem (v s.signature) (seriesIn s metrics) =
        .ok (v' s.signature, outs) ∧
      (seriesIn s out).map Prod.snd = outs.reduceOption := by
  obtain ⟨⟨v₁, outs⟩, hrun, hv, hout⟩ := (scrape_items v metrics).ok_of h
  obtain rfl : v' = v₁ := hv
  have hsame : ∀ x ∈ items metrics, decide (signatureOf x = s.signature) =
      decide (seriesOf x = s) := by
    intro x hx
    refine decide_eq_decide.2 ⟨hs x hx, fun e => ?_⟩
    rw [signatureOf_eq, e]
  have hzip : ((items metrics).zip outs).filter (fun p => signatureOf p.1 = s.signature) =
      ((items metrics).zip outs).filter fun p => seriesOf p.1 = s :=
    filter_congr fun p hp => hsame p.1 (of_mem_zip hp).1
  have hfollow := accumulate_project (projects_follow s.signature) hrun
  rw [filter_congr hsame, hzip] at hfollow
  refine ⟨_, hfollow, ?_⟩
  rw [seriesIn, hout, filter_survivors (seriesOf_congr s) (length_accumulate hrun)
    (labelValues_of_accumulate hrun)]
  exact map_snd_survivors (length_accumulate hfollow)

variable {scrapes : List (List (Metric (TimeSeries F N)))}

theorem scrapeAll_series {outs : List (List (Metric (TimeSeries F N)) × Nat)}
    (h : v.scrapeAll scrapes = .ok (v', outs)) (hs : ∀ metrics ∈ scrapes, Unshared s metrics) :
    ∃ os, accumulate (accumulate followItem) (v s.signature) (scrapes.map (seriesIn s)) =
        .ok (v' s.signature, os) ∧
      outs.map (fun out => (seriesIn s out.1).map Prod.snd) = os.map List.reduceOption := by
  induction scrapes generalizing v outs with
  | nil => cases h; exact ⟨[], rfl, rfl⟩
  | cons metrics scrapes ih =>
    obtain ⟨hfirst, hrest⟩ := forall_mem_cons.1 hs
    obtain ⟨v₁, out, outs', hm, hms, rfl⟩ := accumulate_cons_ok.1 h
    obtain ⟨o, ho, hout⟩ := scrape_series hm hfirst
    obtain ⟨os, hos, houts⟩ := ih hms hrest
    refine ⟨o :: os, accumulate_cons_ok.2 ⟨_, o, os, ho, hos, rfl⟩, ?_⟩
    rw [map_cons, map_cons, hout, houts]

theorem run_series {st : State F N} {outs : List (List (Metric (TimeSeries F N)) × Nat)}
    (hrun : scrapeAll newState scrapes = .ok (st, outs))
    (hs : ∀ metrics ∈ scrapes, Unshared s metrics) :
    ∃ info os, accumulate (accumulate followItem) none (scrapes.map (seriesIn s)) =
        .ok (info, os) ∧
      outs.map (fun out => (seriesIn s out.1).map Prod.snd) = os.map List.reduceOption := by
  obtain ⟨⟨v, outs'⟩, hv, -, houts⟩ := (scrapeAll_matches scrapes).ok_of hrun
  obtain rfl : outs = outs' := houts
  obtain ⟨os, hos, houts⟩ := scrapeAll_series hv hs
  exact ⟨_, os, hos, houts⟩

end Collector.Prometheus
