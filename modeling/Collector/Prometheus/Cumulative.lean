import Mathlib.Algebra.Order.Group.Defs
import Mathlib.Algebra.Order.Group.Int
import Mathlib.Algebra.Order.Monoid.Prod
import Collector.Lib.Rebase
import Collector.Prometheus.Family
import Collector.Prometheus.Series

/-!
# What is emitted for a cumulative series

A series that keeps its type and the number of its buckets, and that shares its signature with no
other, is measured from the scrape of its last reset (`Adjusted`). The adjuster keeps the
first time series since that reset and the last one as it emitted it. Their sum is the
last value as it was scraped, which is what the next one is compared with (`adjustPoint_eq`):
here the numbers are exact, elements of ordered groups.
-/

namespace Collector.Prometheus

open Lib OpenCensus List

def Cumulative (type : MetricType) : Prop :=
  type = .cumulativeDouble ∨ type = .cumulativeDistribution ∨ type = .summary

section

variable {F N : Type}

def PointValue.buckets : PointValue F N → List N
  | .distribution d => d.buckets
  | _ => []

/-- A time series of a series that keeps its type and the number of its buckets. -/
structure Steady (type : MetricType) (n : Nat) (ts : TimeSeries F N) : Prop where
  built : ts.Built type
  layout : ∀ p ∈ ts.points, p.value.buckets.length = n

end

variable {F N : Type} [AddCommGroup F] [AddCommGroup N]

/-! ## Values -/

/-- What tells a reset: the count and the sum, or the value of a counter. -/
def PointValue.watched : PointValue F N → N × F
  | .double x => (0, x)
  | .distribution d => (d.count, d.sum)
  | .summary s => (s.count.getD 0, s.sum.getD 0)

/-- The value relative to another one; the percentiles of a summary stay. -/
def PointValue.minus : PointValue F N → PointValue F N → PointValue F N
  | .double x, .double y => .double (x - y)
  | .distribution c, .distribution i => .distribution { c with
      count := c.count - i.count
      sum := c.sum - i.sum
      buckets := List.zipWith (· - ·) c.buckets i.buckets }
  | .summary c, .summary i => .summary { c with
      count := some (c.count.getD 0 - i.count.getD 0)
      sum := some (c.sum.getD 0 - i.sum.getD 0) }
  | v, _ => v

variable {type : MetricType}

theorem watched_minus (htype : Cumulative type) {v base : PointValue F N} (hv : v.Fits type)
    (hbase : base.Fits type) : (v.minus base).watched = v.watched - base.watched := by
  rcases htype with rfl | rfl | rfl
  · obtain ⟨x, rfl⟩ := hv
    obtain ⟨y, rfl⟩ := hbase
    exact Prod.ext (sub_zero 0).symm rfl
  all_goals
    obtain ⟨c, rfl⟩ := hv
    obtain ⟨i, rfl⟩ := hbase
    rfl

theorem adjustBuckets_ok {current initial : List N} (h : current.length = initial.length) :
    adjustBuckets current initial = .ok (List.zipWith (· - ·) current initial) := by
  induction current generalizing initial with
  | nil => rfl
  | cons c current ih =>
    obtain ⟨i, initial, rfl⟩ := exists_cons_of_length_eq_add_one h.symm
    rw [adjustBuckets, ih (Nat.succ.inj h)]
    rfl

def TimeSeries.since (ts base : TimeSeries F N) : TimeSeries F N :=
  { ts with
    startTimestamp := base.startTimestamp
    points := List.zipWith (fun p b => { p with value := p.value.minus b.value })
      ts.points base.points }

open TimeSeries (since)

def TimeSeries.watched (ts : TimeSeries F N) : N × F :=
  ts.points.head?.elim 0 fun p => p.value.watched

variable {n : Nat} {ts : TimeSeries F N}

theorem watched_since (htype : Cumulative type) {base : TimeSeries F N} (hts : Steady type n ts)
    (hbase : Steady type n base) :
    ∀ p ∈ (ts.since base).points, p.value.watched = ts.watched - base.watched := by
  obtain ⟨c, hc, hcfits⟩ := hts.built
  obtain ⟨i, hi, hifits⟩ := hbase.built
  intro p hp
  simp only [since, hc, hi, zipWith_cons_cons, zipWith_nil_right,
    mem_singleton] at hp
  subst hp
  simpa [TimeSeries.watched, hc, hi] using watched_minus htype hcfits hifits

variable [LinearOrder F] [LinearOrder N]

def PointValue.Below (v last : PointValue F N) : Prop :=
  v.watched.1 < last.watched.1 ∨ v.watched.2 < last.watched.2

instance (v last : PointValue F N) : Decidable (v.Below last) := inferInstanceAs (Decidable (_ ∨ _))

theorem watched_le_of_not_below {v last : PointValue F N} (h : ¬ v.Below last) :
    last.watched ≤ v.watched := by
  unfold PointValue.Below at h
  rw [not_or, not_lt, not_lt] at h
  exact h

theorem distribution_adjust_eq {c i q : DistributionValue F N}
    {emitted : Option (DistributionValue F N)} (hlen : c.buckets.length = i.buckets.length)
    (hreset : c.Resets i emitted ↔ (PointValue.distribution c).Below (.distribution q)) :
    c.adjust i emitted = .ok (if (PointValue.distribution c).Below (.distribution q) then none
      else some ((PointValue.distribution c).minus (.distribution i))) := by
  unfold DistributionValue.adjust
  by_cases h : c.Resets i emitted
  · rw [if_pos h, if_pos (hreset.1 h)]
  · rw [if_neg h, if_neg (mt hreset.2 h), adjustBuckets_ok hlen]
    rfl

theorem summary_adjust_eq {c i q : SummaryValue F N} {emitted : Option (SummaryValue F N)}
    (hreset : c.Resets i emitted ↔ (PointValue.summary c).Below (.summary q)) :
    c.adjust i emitted = if (PointValue.summary c).Below (.summary q) then none
      else some ((PointValue.summary c).minus (.summary i)) := by
  unfold SummaryValue.adjust
  by_cases h : c.Resets i emitted
  · rw [if_pos h, if_pos (hreset.1 h)]
  · rw [if_neg h, if_neg (mt hreset.2 h)]
    rfl

section

variable (htype : Cumulative type)

include htype

/-- **One point**, where `last` is the value of the last scrape and what was emitted for it
is relative to `i`. -/
theorem adjustPoint_eq {c i last : PointValue F N} (hc : c.Fits type)
    (hi : i.Fits type) (hlast : last.Fits type) (hlen : c.buckets.length = i.buckets.length) :
    adjustPoint type c i (last.minus i) false =
      .ok (if c.Below last then none else some (c.minus i)) := by
  rcases htype with rfl | rfl | rfl
  · obtain ⟨x, rfl⟩ := hc
    obtain ⟨y, rfl⟩ := hi
    obtain ⟨z, rfl⟩ := hlast
    simp [adjustPoint, adjustDouble, PointValue.minus, PointValue.getDouble, PointValue.Below,
      PointValue.watched]
  · obtain ⟨c, rfl⟩ := hc
    obtain ⟨i, rfl⟩ := hi
    obtain ⟨q, rfl⟩ := hlast
    refine (adjustDistribution_distinct c i _).trans (distribution_adjust_eq hlen ?_)
    simp [DistributionValue.Resets, PointValue.Below, PointValue.watched]
  · obtain ⟨c, rfl⟩ := hc
    obtain ⟨i, rfl⟩ := hi
    obtain ⟨q, rfl⟩ := hlast
    refine (adjustSummary_distinct c i _).trans (congrArg Except.ok (summary_adjust_eq ?_))
    simp [SummaryValue.Resets, PointValue.Below, PointValue.watched]

theorem adjustPoint_restart {c i : PointValue F N} (hc : c.Fits type)
    (hi : i.Fits type) (hlen : c.buckets.length = i.buckets.length) :
    adjustPoint type c i i true = .ok (if c.Below i then none else some (c.minus i)) := by
  rcases htype with rfl | rfl | rfl
  · obtain ⟨x, rfl⟩ := hc
    obtain ⟨y, rfl⟩ := hi
    simp [adjustPoint, adjustDouble, PointValue.minus, PointValue.getDouble, PointValue.Below,
      PointValue.watched]
  · obtain ⟨c, rfl⟩ := hc
    obtain ⟨i, rfl⟩ := hi
    refine (adjustDistribution_same c i _).trans (distribution_adjust_eq hlen ?_)
    simp [DistributionValue.Resets, PointValue.Below, PointValue.watched]
  · obtain ⟨c, rfl⟩ := hc
    obtain ⟨i, rfl⟩ := hi
    refine (adjustSummary_same c i _).trans (congrArg Except.ok (summary_adjust_eq ?_))
    simp [SummaryValue.Resets, PointValue.Below, PointValue.watched]

/-! ## Time series -/

def TimeSeries.Below (ts last : TimeSeries F N) : Prop :=
  ∃ p ∈ ts.points, ∃ q ∈ last.points, p.value.Below q.value

instance : DecidableRel (TimeSeries.Below (F := F) (N := N)) := fun ts last =>
  inferInstanceAs (Decidable (∃ p ∈ ts.points, ∃ q ∈ last.points, p.value.Below q.value))

/-- What is kept of a series: `base` is the first time series since the last reset, `last` the
last one, both as they were scraped. -/
inductive Kept : TimeSeries F N → TimeSeries F N → Info F N → Prop
  | restart (ts : TimeSeries F N) : Kept ts ts (.restart ts)
  | later (base last : TimeSeries F N) : Kept base last ⟨base, last.since base, false⟩

theorem advance_kept {info : Info F N} {base last : TimeSeries F N}
    (hkept : Kept base last info) (hbase : Steady type n base) (hlast : Steady type n last)
    (hts : Steady type n ts) :
    advance type (some info) ts =
      .ok (if ts.Below last then (.restart ts, none)
        else (⟨base, ts.since base, false⟩, some (ts.since base))) := by
  obtain ⟨c, hc, hcfits⟩ := hts.built
  obtain ⟨i, hi, hifits⟩ := hbase.built
  obtain ⟨q, hq, hqfits⟩ := hlast.built
  have hlen : c.value.buckets.length = i.value.buckets.length := by
    rw [hts.layout c (by simp [hc]), hbase.layout i (by simp [hi])]
  have hbelow : ts.Below last ↔ c.value.Below q.value := by
    simp [TimeSeries.Below, hc, hq]
  have hsince : ts.since base = { ts with
      startTimestamp := base.startTimestamp
      points := [{ c with value := c.value.minus i.value }] } := by
    simp [since, hc, hi]
  -- what adjusting the point gives, in either case of what is kept
  have hpoint : adjustPoints type ts.points info.initial.points info.previous.points info.same =
      .ok (if c.value.Below q.value then none
        else some [{ c with value := c.value.minus i.value }]) := by
    cases hkept with
    | restart =>
      have heq : q = i := by
        rw [hi] at hq
        exact ((List.cons.inj hq).1).symm
      subst heq
      simp only [Info.restart, hc, hi, adjustPoints_single,
        adjustPoint_restart htype hcfits hifits hlen]
      split <;> rfl
    | later =>
      simp only [since, hc, hi, hq, zipWith_cons_cons, zipWith_nil_right,
        adjustPoints_single, adjustPoint_eq htype hcfits hifits hqfits hlen]
      split <;> rfl
  have hinitial : info.initial = base := by cases hkept <;> rfl
  unfold advance adjustTimeseries
  simp only [Option.elim_some, hpoint]
  by_cases h : c.value.Below q.value
  · rw [if_pos h, if_pos (hbelow.2 h)]
    rfl
  · rw [if_neg h, if_neg (mt hbelow.1 h), hsince, hinitial]
    rfl

/-! ## Sequences -/

/-- What is kept for a series, where `s` says what it was measured from and what came last. -/
def Follows (type : MetricType) (n : Nat) :
    Option (TimeSeries F N × TimeSeries F N) → Option (Info F N) → Prop
  | none, none => True
  | some (base, last), some info => Kept base last info ∧ Steady type n base ∧ Steady type n last
  | _, _ => False

variable {s : Option (TimeSeries F N × TimeSeries F N)} {info : Option (Info F N)}

theorem followItem_rebase (hinfo : Follows type n s info) {x : Item F N}
    (hx : x.1.type = type ∧ Steady type n x.2) :
    ∃ info', followItem info x =
        .ok (info', (rebaseStep TimeSeries.Below since s x.2).2) ∧
      Follows type n (some (rebaseStep TimeSeries.Below since s x.2).1) info' := by
  obtain ⟨hxtype, hsteady⟩ := hx
  match s, info, hinfo with
  | none, none, _ => exact ⟨some (.restart x.2), rfl, .restart x.2, hsteady, hsteady⟩
  | some (base, last), some info, ⟨hkept, hbase, hlast⟩ =>
    have hadv := advance_kept htype hkept hbase hlast hsteady
    unfold followItem
    rw [hxtype, hadv]
    by_cases h : x.2.Below last
    · simp only [rebaseStep, if_pos h]
      exact ⟨some (.restart x.2), rfl, .restart x.2, hsteady, hsteady⟩
    · simp only [rebaseStep, if_neg h]
      exact ⟨some ⟨base, x.2.since base, false⟩, rfl, .later base x.2, hbase, hsteady⟩

theorem accumulate_followItem (hinfo : Follows type n s info)
    {xs : List (Item F N)} (hxs : ∀ x ∈ xs, x.1.type = type ∧ Steady type n x.2) :
    ∃ info', accumulate followItem info xs =
      .ok (info', rebaseFrom TimeSeries.Below since s (xs.map Prod.snd)) := by
  induction xs generalizing s info with
  | nil => exact ⟨info, rfl⟩
  | cons x xs ih =>
    obtain ⟨hx, hrest⟩ := forall_mem_cons.1 hxs
    obtain ⟨info₁, hstep, hnext⟩ := followItem_rebase htype hinfo hx
    obtain ⟨info', hrun⟩ := ih hnext hrest
    exact ⟨info', accumulate_cons_ok.2 ⟨info₁, _, _, hstep, hrun, rfl⟩⟩

/-- **The time series of a steady series**, from the first one on. -/
theorem accumulate_followItem_none {xs : List (Item F N)}
    (hxs : ∀ x ∈ xs, x.1.type = type ∧ Steady type n x.2) :
    ∃ info', accumulate followItem none xs =
      .ok (info', rebase TimeSeries.Below since (xs.map Prod.snd)) :=
  have hnone : Follows type n (none : Option (TimeSeries F N × TimeSeries F N)) none := trivial
  accumulate_followItem htype hnone hxs

end

def rawsOf (s : Series) (scrapes : List (List (Metric (TimeSeries F N)))) :
    List (TimeSeries F N) :=
  scrapes.flatMap fun metrics => (seriesIn s metrics).map Prod.snd

/-- What is emitted for each of them, where a scrape has at most one. -/
def outcomesOf (s : Series) (scrapes : List (List (Metric (TimeSeries F N))))
    (outs : List (List (Metric (TimeSeries F N)) × Nat)) : List (Option (TimeSeries F N)) :=
  (scrapes.zip outs).flatMap fun p =>
    (seriesIn s p.1).map fun _ => ((seriesIn s p.2.1).map Prod.snd).head?

/-- **What is emitted** for the time series `r` of a series. -/
structure Adjusted (r : List (TimeSeries F N)) (o : List (Option (TimeSeries F N))) : Prop where
  length_eq : o.length = r.length
  /-- The first one and each reset are dropped, and nothing else is. -/
  dropped_iff : ∀ k, k < r.length → (o[k]? = some none ↔ Restarts TimeSeries.Below r k)
  /-- Any other is emitted relative to the first one since the last reset, and with its start. -/
  emitted : ∀ k ts, r[k]? = some ts → ¬ Restarts TimeSeries.Below r k →
    ∃ b base, LastRestart TimeSeries.Below r b k ∧ r[b]? = some base ∧
      o[k]? = some (some (ts.since base))
  nonneg : ∀ (k : Nat) (ts : TimeSeries F N), o[k]? = some (some ts) →
    ∀ p ∈ ts.points, 0 ≤ p.value.watched
  mono : ∀ (j k : Nat) (ts ts' : TimeSeries F N), j ≤ k →
    (∀ i, j < i → i ≤ k → ¬ Restarts TimeSeries.Below r i) →
    o[j]? = some (some ts) → o[k]? = some (some ts') →
    ∀ p ∈ ts.points, ∀ q ∈ ts'.points, p.value.watched ≤ q.value.watched

theorem watched_le_of_not_below_series {last : TimeSeries F N} (hts : Steady type n ts)
    (hlast : Steady type n last) (h : ¬ ts.Below last) : last.watched ≤ ts.watched := by
  obtain ⟨c, hc, -⟩ := hts.built
  obtain ⟨q, hq, -⟩ := hlast.built
  have hpoint : ¬ c.value.Below q.value := fun hb => h ⟨c, by simp [hc], q, by simp [hq], hb⟩
  simpa [TimeSeries.watched, hc, hq] using watched_le_of_not_below hpoint

theorem rebase_emitted {r : List (TimeSeries F N)} {k : Nat} {ts' : TimeSeries F N}
    (h : (rebase TimeSeries.Below since r)[k]? = some (some ts')) :
    ∃ b base ts, LastRestart TimeSeries.Below r b k ∧ r[b]? = some base ∧ r[k]? = some ts ∧
      ts' = ts.since base := by
  have hk : k < r.length := by
    rw [← length_rebaseFrom TimeSeries.Below since none r]
    exact (List.getElem?_eq_some_iff.1 h).1
  have hts : r[k]? = some r[k] := getElem?_eq_getElem hk
  obtain ⟨out, hout, hspec⟩ := rebase_spec TimeSeries.Below since hts
  rw [h] at hout
  cases hout
  rcases hspec with ⟨-, hnone⟩ | ⟨-, b, base, hb, hbase, hsome⟩
  · cases hnone
  · exact ⟨b, base, r[k], hb, hbase, hts, Option.some.inj hsome⟩

variable [IsOrderedAddMonoid F] [IsOrderedAddMonoid N]

theorem adjusted_rebase (htype : Cumulative type) {r : List (TimeSeries F N)}
    (hr : ∀ ts ∈ r, Steady type n ts) :
    Adjusted r (rebase TimeSeries.Below since r) := by
  -- nothing that tells a reset falls between two of them
  have hle : ∀ j k x y, j ≤ k → (∀ i, j < i → i ≤ k → ¬ Restarts TimeSeries.Below r i) →
      r[j]? = some x → r[k]? = some y → x.watched ≤ y.watched := fun j k x y hjk hno hx hy =>
    le_of_not_restarts (fun a ha last hl => watched_le_of_not_below_series (hr a ha) (hr last hl))
      hjk hno hx hy
  have hmem : ∀ {k : Nat} {ts : TimeSeries F N}, r[k]? = some ts → Steady type n ts :=
    fun h => hr _ (mem_of_getElem? h)
  constructor
  case length_eq => exact length_rebaseFrom _ _ none r
  case dropped_iff =>
    intro k hk
    obtain ⟨out, hout, hspec⟩ :=
      rebase_spec TimeSeries.Below since (getElem?_eq_getElem hk)
    rw [hout]
    rcases hspec with ⟨hre, rfl⟩ | ⟨hre, b, base, -, -, rfl⟩
    · exact iff_of_true rfl hre
    · exact iff_of_false nofun hre
  case emitted =>
    intro k ts hts hre
    obtain ⟨out, hout, hspec⟩ := rebase_spec TimeSeries.Below since hts
    rcases hspec with ⟨hre', -⟩ | ⟨-, b, base, hb, hbase, rfl⟩
    · exact absurd hre' hre
    · exact ⟨b, base, hb, hbase, hout⟩
  case nonneg =>
    intro k ts' h p hp
    obtain ⟨b, base, ts, hb, hbase, hts, rfl⟩ := rebase_emitted h
    rw [watched_since htype (hmem hts) (hmem hbase) p hp]
    exact sub_nonneg.2 (hle b k base ts hb.le hb.steady hbase hts)
  case mono =>
    intro j k ts₁ ts₂ hjk hno h₁ h₂ p hp q hq
    obtain ⟨b, base, x, hb, hbase, hx, rfl⟩ := rebase_emitted h₁
    obtain ⟨b', base', y, hb', hbase', hy, rfl⟩ := rebase_emitted h₂
    -- both are relative to the same one
    obtain rfl := (hb.later hjk hno).unique hb'
    rw [hbase] at hbase'
    cases hbase'
    rw [watched_since htype (hmem hx) (hmem hbase) p hp,
      watched_since htype (hmem hy) (hmem hbase) q hq]
    exact sub_le_sub_right (hle j k x y hjk hno hx hy) _

/-! ## Scrapes -/

variable {scrapes : List (List (Metric (TimeSeries F N)))}
  {outs : List (List (Metric (TimeSeries F N)) × Nat)}

omit [IsOrderedAddMonoid F] [IsOrderedAddMonoid N] in
theorem outcomesOf_eq {s : Series} {info' : Option (Info F N)}
    {os : List (List (Option (TimeSeries F N)))}
    (honce : ∀ metrics ∈ scrapes, (seriesIn s metrics).length ≤ 1)
    (hrun : accumulate (accumulate followItem) info (scrapes.map (seriesIn s)) = .ok (info', os))
    (houts : outs.map (fun out => (seriesIn s out.1).map Prod.snd) = os.map List.reduceOption) :
    outcomesOf s scrapes outs = os.flatten := by
  induction scrapes generalizing info outs os with
  | nil => cases hrun; rfl
  | cons metrics scrapes ih =>
    obtain ⟨hfirst, hrest⟩ := forall_mem_cons.1 honce
    obtain ⟨info₁, o, os, ho, hos, rfl⟩ := accumulate_cons_ok.1 hrun
    obtain ⟨out, outs, rfl⟩ : ∃ out outs', outs = out :: outs' := by
      cases outs with
      | nil => cases houts
      | cons out outs => exact ⟨out, outs, rfl⟩
    obtain ⟨hout, houts⟩ := List.cons.inj houts
    have hemitted : (seriesIn s out.1).map Prod.snd = o.reduceOption := hout
    have hlen := length_accumulate ho
    have hhead : (seriesIn s metrics).map (fun _ => ((seriesIn s out.1).map Prod.snd).head?) =
        o := by
      rw [hemitted]
      match hm : seriesIn s metrics, o, hlen with
      | [], [], _ => rfl
      | [x], [y], _ => cases y <;> rfl
      | _ :: _ :: _, _, _ => simp [hm] at hfirst
    show (seriesIn s metrics).map _ ++ outcomesOf s scrapes outs = o ++ os.flatten
    rw [hhead, ih hrest hos houts]

/-- A cumulative series of a sequence of scrapes: it keeps its type and the number of its buckets,
its signature is not shared, and a scrape has at most one time series of it. -/
structure CumulativeSeries (s : Series) (type : MetricType) (n : Nat)
    (scrapes : List (List (Metric (TimeSeries F N)))) : Prop where
  cumulative : Cumulative type
  unshared : ∀ metrics ∈ scrapes, Unshared s metrics
  once : ∀ metrics ∈ scrapes, (seriesIn s metrics).length ≤ 1
  steady : ∀ metrics ∈ scrapes, ∀ x ∈ seriesIn s metrics, x.1.type = type ∧ Steady type n x.2

theorem adjusted_of_run {s : Series} (hs : CumulativeSeries s type n scrapes) {st : State F N}
    (hrun : scrapeAll newState scrapes = .ok (st, outs)) :
    Adjusted (rawsOf s scrapes) (outcomesOf s scrapes outs) := by
  obtain ⟨info₁, os, hos, houts⟩ := run_series hrun hs.unshared
  have hitems : ∀ x ∈ (scrapes.map (seriesIn s)).flatten,
      x.1.type = type ∧ Steady type n x.2 := by
    intro x hx
    obtain ⟨xs, hxs, hx⟩ := mem_flatten.1 hx
    obtain ⟨metrics, hmetrics, rfl⟩ := mem_map.1 hxs
    exact hs.steady metrics hmetrics x hx
  have hraws : (scrapes.map (seriesIn s)).flatten.map Prod.snd = rawsOf s scrapes := by
    rw [map_flatten, map_map]
    rfl
  obtain ⟨info₂, hfollow⟩ := accumulate_followItem_none hs.cumulative hitems
  rw [accumulate_flatten hos] at hfollow
  rw [outcomesOf_eq hs.once hos houts, (Prod.mk.inj (Except.ok.inj hfollow)).2, hraws]
  refine adjusted_rebase hs.cumulative (n := n) fun ts hts => ?_
  rw [← hraws] at hts
  obtain ⟨x, hx, rfl⟩ := mem_map.1 hts
  exact (hitems x hx).2

omit [IsOrderedAddMonoid F] [IsOrderedAddMonoid N] in
theorem returns_of_cumulative
    (h : ∀ x ∈ scrapes.flatMap items, ∃ type n, CumulativeSeries (seriesOf x) type n scrapes) :
    Returns (scrapeAll newState scrapes) := by
  rw [(scrapeAll_matches scrapes).returns_iff, (scrapeAll_items _ scrapes).returns_iff,
    returns_accumulate]
  intro pre x post v outs hsplit hrun
  have hmem : ∀ y ∈ pre ++ [x], y ∈ scrapes.flatMap items := by
    intro y hy
    rw [hsplit]
    simp only [mem_append, mem_cons, not_mem_nil, or_false] at hy ⊢
    exact hy.imp_right .inl
  obtain ⟨type, n, hs⟩ := h x (hmem x (by simp))
  -- what is kept for the signature follows from the time series under it, and so does this step
  have hsteady : ∀ y ∈ pre.filter (fun y => signatureOf y = signatureOf x) ++ [x],
      y.1.type = type ∧ Steady type n y.2 := by
    intro y hy
    have hsig : signatureOf y = signatureOf x := by
      rcases mem_append.1 hy with hy | hy
      · simpa using (mem_filter.1 hy).2
      · rw [mem_singleton.1 hy]
    have hy' : y ∈ scrapes.flatMap items := by
      refine hmem y ?_
      rcases mem_append.1 hy with hy | hy
      · exact mem_append_left _ (mem_filter.1 hy).1
      · exact mem_append_right _ hy
    obtain ⟨metrics, hmetrics, hin⟩ := mem_flatMap.1 hy'
    have hseries := hs.unshared metrics hmetrics y hin (by rw [hsig, signatureOf_eq])
    exact hs.steady metrics hmetrics y (mem_filter.2 ⟨hin, by simpa using hseries⟩)
  obtain ⟨info, hfollow⟩ := accumulate_followItem_none hs.cumulative hsteady
  obtain ⟨info₁, bs₁, bs₂, hpre, hlast, -⟩ := accumulate_append_ok.1 hfollow
  have hkept := accumulate_project (projects_follow (signatureOf x)) hrun
  rw [hpre] at hkept
  obtain ⟨info₂, out, bs', hx, -⟩ := accumulate_cons_ok.1 hlast
  rw [(Prod.mk.inj (Except.ok.inj hkept)).1] at hx
  obtain ⟨adv, hadv, -⟩ := bind_eq_ok.1 hx
  exact returns_bind_pure.2 ⟨adv, hadv⟩

/-- **Cumulative series over whole runs.** In every sequence of scrapes that is adjusted, what is
emitted for a cumulative series is what it was since its last reset, and a sequence of such
series is always adjusted. -/
theorem cumulative_adjusted (scrapes : List (List (Metric (TimeSeries F N)))) :
    (∀ s type n st outs, CumulativeSeries s type n scrapes →
      scrapeAll newState scrapes = .ok (st, outs) →
      Adjusted (rawsOf s scrapes) (outcomesOf s scrapes outs)) ∧
    ((∀ x ∈ scrapes.flatMap items, ∃ type n, CumulativeSeries (seriesOf x) type n scrapes) →
      Returns (scrapeAll newState scrapes)) :=
  ⟨fun _ _ _ _ _ hs hrun => adjusted_of_run hs hrun, returns_of_cumulative⟩

theorem cumulativeSeries_pointScrape (htype : Cumulative type) (vs : List (PointValue Int Int))
    (hvs : ∀ v ∈ vs, v.Fits type ∧ v.buckets.length = n) :
    CumulativeSeries ⟨"m", []⟩ type n (vs.map (pointScrape "m" type)) := by
  have hitems : ∀ v ∈ vs, ∃ y : Item Int Int, items (pointScrape "m" type v) = [y] ∧
      seriesOf y = ⟨"m", []⟩ ∧ y.1.type = type ∧ Steady type n y.2 := by
    intro v hv
    -- no cumulative type is that of a gauge, whose time series are passed on
    have hitem : items (pointScrape "m" type v) =
        [(⟨"m", "", "1", type, []⟩, ⟨some ⟨0, 0⟩, [], [⟨⟨0, 0⟩, v⟩]⟩)] := by
      rcases htype with rfl | rfl | rfl <;> rfl
    refine ⟨_, hitem, rfl, rfl, ?_⟩
    refine ⟨⟨_, rfl, (hvs v hv).1⟩, fun p hp => ?_⟩
    obtain rfl := mem_singleton.1 hp
    exact (hvs v hv).2
  refine ⟨htype, fun metrics hm => ?_, fun metrics hm => ?_, fun metrics hm z hz => ?_⟩
  all_goals
    obtain ⟨v, hv, rfl⟩ := mem_map.1 hm
    obtain ⟨y, hy, hseries, hsteady⟩ := hitems v hv
  · intro z hz _
    rw [hy] at hz
    rwa [mem_singleton.1 hz]
  · rw [seriesIn, hy]
    exact length_filter_le _ _
  · rw [seriesIn, hy] at hz
    rwa [mem_singleton.1 (mem_filter.1 hz).1]

/-- A counter that is reset at its third scrape. -/
theorem cumulative_adjusted_counter : ∃ st outs,
    scrapeAll newState ([3, 5, 1, 4].map counterScrape) = .ok (st, outs) ∧
    Adjusted (rawsOf ⟨"m", []⟩ ([3, 5, 1, 4].map counterScrape))
      (outcomesOf ⟨"m", []⟩ ([3, 5, 1, 4].map counterScrape) outs) :=
  ⟨_, _, rfl, (cumulative_adjusted ([3, 5, 1, 4].map counterScrape)).1 _ _ _ _ _
    (cumulativeSeries_pointScrape (n := 0) (.inl rfl) ([3, 5, 1, 4].map .double) (by
      simp [PointValue.Fits, PointValue.buckets])) rfl⟩

/-- The count and the sum of a histogram grow while its first bucket falls. -/
def fallingBucket : List (List (Metric (TimeSeries Int Int))) :=
  [.distribution ⟨5, 5, [1], [5, 0]⟩, .distribution ⟨6, 6, [1], [3, 3]⟩].map
    (pointScrape "m" .cumulativeDistribution)

/-- Only the count and the sum tell a reset: a bucket may be emitted below zero. -/
theorem bucket_below_zero :
    CumulativeSeries ⟨"m", []⟩ .cumulativeDistribution 2 fallingBucket ∧
    ∃ st outs ts, scrapeAll newState fallingBucket = .ok (st, outs) ∧
      outcomesOf ⟨"m", []⟩ fallingBucket outs = [none, some ts] ∧
      ts.points.map (·.value) = [.distribution ⟨1, 1, [1], [-2, 3]⟩] := by
  refine ⟨cumulativeSeries_pointScrape (.inr (.inl rfl)) _ ?_, _, _, _, rfl, rfl, rfl⟩
  simp [PointValue.Fits, PointValue.buckets]

end Collector.Prometheus
