import Mathlib.Algebra.Ring.Int.Defs
import Mathlib.Data.Set.Basic
import Mathlib.Data.String.Basic
import Collector.Prometheus.Series

/-!
# Which series the adjuster tells apart

`getTimeseriesSignature` joins the name and the values that are not empty with commas: it has no
keys, and no escape for a comma in a value. So it keeps the `words` between commas and nothing
else (`signature_eq_iff`). What is emitted for a series of a job depends on its own history
alone exactly when no other series of the job has its words (`independent_iff`).
-/

namespace Collector.Prometheus

open Lib OpenCensus List

/-! ## Words -/

/-- The pieces between commas of values, at least one. -/
def valueWords : List String → List (List Char)
  | [] => [[]]
  | [v] => v.toList.splitOn ','
  | v :: values => v.toList.splitOn ',' ++ valueWords values

/-- The pieces between commas of a name and the values of its labels. -/
def Series.words (s : Series) : List (List Char) :=
  s.name.toList.splitOn ',' ++ valueWords (s.labels.map Prod.snd)

theorem splitOn_intercalate_values (values : List String) :
    (",".intercalate values).toList.splitOn ',' = valueWords values := by
  induction values with
  | nil => simp [valueWords]
  | cons v values ih =>
    cases values with
    | nil => simp [valueWords]
    | cons v' values =>
      have htoList : (",".intercalate (v :: v' :: values)).toList =
          v.toList ++ ',' :: (",".intercalate (v' :: values)).toList := by
        simp
      rw [htoList, splitOn_append_cons_self, ih]
      rfl

theorem splitOn_signature (s : Series) : s.signature.toList.splitOn ',' = s.words := by
  have htoList : s.signature.toList =
      s.name.toList ++ ',' :: (",".intercalate (s.labels.map Prod.snd)).toList := by
    simp [Series.signature]
  rw [htoList, splitOn_append_cons_self, splitOn_intercalate_values]
  rfl

theorem signature_eq_iff {s s' : Series} : s.signature = s'.signature ↔ s.words = s'.words := by
  constructor
  · intro h
    rw [← splitOn_signature, ← splitOn_signature, h]
  · intro h
    rw [← splitOn_signature, ← splitOn_signature] at h
    have hjoin := congrArg (List.intercalate [',']) h
    rw [intercalate_splitOn, intercalate_splitOn] at hjoin
    exact String.toList_inj.1 hjoin

/-! ## Series that are scraped -/

/-- The values of the labels are not empty. -/
def Series.Proper (s : Series) : Prop := ∀ l ∈ s.labels, l.2 ≠ ""

variable {F N : Type}

def counterItem (s : Series) (x : F) : Item F N :=
  (⟨s.name, "", "1", .cumulativeDouble, s.labels.map fun l => some ⟨l.1, ""⟩⟩,
    ⟨some ⟨0, 0⟩, s.labels.map fun l => ⟨l.2, true⟩, [⟨⟨0, 0⟩, .double x⟩]⟩)

def counterOf (s : Series) (x : F) : Metric (TimeSeries F N) :=
  ⟨(counterItem (N := N) s x).1, [(counterItem s x).2]⟩

theorem items_counterOf (s : Series) (x : F) :
    items [(counterOf s x : Metric (TimeSeries F N))] = [counterItem s x] := rfl

theorem filterMap_labelPair {descriptor : MetricDescriptor} {labels : List (String × String)}
    (hlabels : ∀ l ∈ labels, l.2 ≠ "") (k : Nat)
    (hkeys : ∀ i l, labels[i]? = some l → descriptor.labelKeys[k + i]? = some (some ⟨l.1, ""⟩)) :
    ((labels.map fun l => (⟨l.2, true⟩ : LabelValue)).zipIdx k).filterMap
      (labelPair descriptor) = labels := by
  induction labels generalizing k with
  | nil => rfl
  | cons l labels ih =>
    obtain ⟨hl, hrest⟩ := forall_mem_cons.1 hlabels
    have hkey : descriptor.labelKeys[k]? = some (some ⟨l.1, ""⟩) := hkeys 0 l rfl
    have hpair : labelPair descriptor (⟨l.2, true⟩, k) = some l := by
      simp [labelPair, hl, hkey]
    have htail := ih hrest (k + 1) fun i l' hl' => by
      rw [Nat.add_assoc, Nat.add_comm 1 i]
      exact hkeys (i + 1) l' hl'
    rw [map_cons, zipIdx_cons, filterMap_cons, hpair, htail]

variable {s : Series}

theorem seriesOf_counterItem (hs : s.Proper) (x : F) :
    seriesOf (counterItem s x : Item F N) = s := by
  have hlabels : (seriesOf (counterItem s x : Item F N)).labels = s.labels := by
    refine filterMap_labelPair hs 0 fun i l hl => ?_
    simp [counterItem, hl]
  cases s
  exact congrArg (Series.mk _) hlabels

theorem signatureOf_counterItem (hs : s.Proper) (x : F) :
    signatureOf (counterItem s x : Item F N) = s.signature := by
  rw [signatureOf_eq, seriesOf_counterItem hs]

theorem seriesIn_counterOf {t : Series} (ht : t.Proper) (x : F) :
    seriesIn s [(counterOf t x : Metric (TimeSeries F N))] =
      if t = s then [counterItem t x] else [] := by
  rw [seriesIn, items_counterOf, filter_singleton, seriesOf_counterItem ht]
  by_cases h : t = s
  · simp [h]
  · simp [h]

/-! ## Independence -/

def ScrapedFrom (job : Set Series) (scrapes : List (List (Metric (TimeSeries F N)))) : Prop :=
  ∀ metrics ∈ scrapes, ∀ x ∈ items metrics, seriesOf x ∈ job

def emittedFor (s : Series) (outs : List (List (Metric (TimeSeries F N)) × Nat)) :
    List (List (TimeSeries F N)) :=
  outs.map fun out => (seriesIn s out.1).map Prod.snd

variable [Zero F] [Add F] [Sub F] [LT F] [DecidableLT F]
  [Zero N] [Add N] [Sub N] [LT N] [DecidableLT N]

variable (F N) in
/-- **Independence** of a series in a job: two sequences of scrapes with the same history of the
series emit the same for it, whatever else of the job they have. -/
def Independent (job : Set Series) (s : Series) : Prop :=
  ∀ (scrapes scrapes' : List (List (Metric (TimeSeries F N)))) (st st' : State F N)
    (outs outs' : List (List (Metric (TimeSeries F N)) × Nat)),
    ScrapedFrom job scrapes → ScrapedFrom job scrapes' →
    scrapeAll newState scrapes = .ok (st, outs) →
    scrapeAll newState scrapes' = .ok (st', outs') →
    scrapes.map (seriesIn s) = scrapes'.map (seriesIn s) →
    emittedFor s outs = emittedFor s outs'

theorem independent_of_unshared {job : Set Series}
    (hjob : ∀ t ∈ job, t.words = s.words → t = s) : Independent F N job s := by
  have hunshared : ∀ scrapes : List (List (Metric (TimeSeries F N))), ScrapedFrom job scrapes →
      ∀ metrics ∈ scrapes, Unshared s metrics := by
    intro scrapes hfrom metrics hmetrics x hx hsig
    rw [signatureOf_eq, signature_eq_iff] at hsig
    exact hjob _ (hfrom metrics hmetrics x hx) hsig
  intro scrapes scrapes' st st' outs outs' hfrom hfrom' hrun hrun' hhistory
  obtain ⟨info, os, hos, hemitted⟩ := run_series hrun (hunshared scrapes hfrom)
  obtain ⟨info', os', hos', hemitted'⟩ := run_series hrun' (hunshared scrapes' hfrom')
  rw [hhistory, hos'] at hos
  cases hos
  exact hemitted.trans hemitted'.symm

/-! ## Series that share a signature -/

theorem scrape_counterOf (hs : s.Proper) (v : View F N) (x : F) {info : Info F N}
    {out : Option (TimeSeries F N)}
    (h : advance .cumulativeDouble (v s.signature) (counterItem s x).2 = .ok (info, out)) :
    ∃ res, v.scrape [counterOf s x] = .ok (Function.update v s.signature (some info), res) ∧
      (seriesIn s res.1).map Prod.snd = out.toList := by
  have hstep : v.adjustItem (counterItem s x) =
      .ok (Function.update v s.signature (some info), out) := by
    have hsig : getTimeseriesSignature (counterItem s x : Item F N).1.name
        (counterItem s x : Item F N).2.labelValues = s.signature := signatureOf_counterItem hs x
    unfold View.adjustItem View.adjust
    rw [hsig]
    exact bind_eq_ok.2 ⟨(info, out), h, rfl⟩
  have hitems : accumulate View.adjustItem v (items [counterOf s x]) =
      .ok (Function.update v s.signature (some info), [out]) := by
    exact accumulate_cons_ok.2 ⟨_, out, [], hstep, rfl, rfl⟩
  obtain ⟨res, hres, hsurv⟩ := scrape_of_items hitems
  refine ⟨res, hres, ?_⟩
  rw [seriesIn, hsurv, items_counterOf]
  cases out with
  | none => rfl
  | some ts =>
    have hlabels := labelValues_of_adjust hstep
    have hseries : decide (seriesOf ((counterItem s x : Item F N).1, ts) = s) = true := by
      rw [seriesOf_congr s _ (counterItem s x : Item F N).2 ts hlabels]
      exact decide_eq_true (seriesOf_counterItem hs x)
    simp [survivors, hseries]

theorem advance_counterItem [Std.Irrefl fun a b : F => a < b] (s t : Series) (x : F) :
    ∃ info ts, advance .cumulativeDouble (some (.restart (counterItem t x : Item F N).2))
      (counterItem s x).2 = .ok (info, some ts) := by
  have hx : ¬ x < x := Std.Irrefl.irrefl (r := fun a b : F => a < b) x
  have hpoint : adjustPoint .cumulativeDouble (.double x : PointValue F N) (.double x) (.double x)
      true = .ok (some (.double (x - x))) := by
    simp [adjustPoint, adjustDouble, PointValue.getDouble, hx]
  have hpoints : adjustPoints .cumulativeDouble (counterItem s x : Item F N).2.points
      (counterItem t x : Item F N).2.points (counterItem t x : Item F N).2.points true =
        .ok (some [⟨⟨0, 0⟩, .double (x - x)⟩]) := by
    unfold counterItem
    rw [adjustPoints_single, hpoint]
    rfl
  let ts : TimeSeries F N := { (counterItem s x : Item F N).2 with
    startTimestamp := some ⟨0, 0⟩
    points := [⟨⟨0, 0⟩, .double (x - x)⟩] }
  exact ⟨⟨_, ts, false⟩, ts, bind_eq_ok.2 ⟨some ts, bind_eq_ok.2 ⟨_, hpoints, rfl⟩, rfl⟩⟩

theorem not_independent_of_shared [Std.Irrefl fun a b : F => a < b] {job : Set Series}
    {t : Series} (hs : s ∈ job) (ht : t ∈ job) (hsp : s.Proper) (htp : t.Proper)
    (hsig : t.signature = s.signature) (hne : t ≠ s) : ¬ Independent F N job s := by
  intro hind
  have hfrom : ∀ r ∈ job, r.Proper → ∀ x ∈ items [(counterOf r 0 : Metric (TimeSeries F N))],
      seriesOf x ∈ job := by
    intro r hr hrp x hx
    rw [items_counterOf] at hx
    rwa [mem_singleton.1 hx, seriesOf_counterItem hrp]
  have hfirst : ∀ r : Series, advance .cumulativeDouble ((fun _ => none : View F N) r.signature)
      (counterItem r 0).2 = .ok (.restart (counterItem r 0).2, none) := fun _ => rfl
  -- the series after the other one: what is kept is that of the other one
  obtain ⟨info, ts, hsecond⟩ := advance_counterItem (N := N) s t (0 : F)
  obtain ⟨res₁, hres₁, -⟩ := scrape_counterOf htp (fun _ => none) 0 (hfirst t)
  let v : View F N :=
    Function.update (fun _ => none) t.signature (some (.restart (counterItem t 0).2))
  have hkept : v s.signature = some (.restart (counterItem t 0).2) := by
    show Function.update _ _ _ _ = _
    rw [hsig, Function.update_self]
  obtain ⟨res₂, hres₂, hemitted⟩ := scrape_counterOf hsp v 0 (by rw [hkept]; exact hsecond)
  obtain ⟨st, hrun⟩ := run_of_view [[counterOf t 0], [counterOf s 0]]
    (accumulate_cons_ok.2 ⟨_, res₁, [res₂], hres₁,
      accumulate_cons_ok.2 ⟨_, res₂, [], hres₂, rfl, rfl⟩, rfl⟩)
  -- the series alone
  obtain ⟨res, hres, hdropped⟩ := scrape_counterOf hsp (fun _ => none) 0 (hfirst s)
  obtain ⟨st', hrun'⟩ := run_of_view [[], [counterOf s 0]]
    (accumulate_cons_ok.2 ⟨_, ([], 0), [res], rfl,
      accumulate_cons_ok.2 ⟨_, res, [], hres, rfl, rfl⟩, rfl⟩)
  have hhistory : [[counterOf t 0], [counterOf s 0]].map (seriesIn s) =
      [([] : List (Metric (TimeSeries F N))), [counterOf s 0]].map (seriesIn s) := by
    rw [map_cons, map_cons, seriesIn_counterOf htp, if_neg hne]
    rfl
  have heq := hind _ _ st st' _ _ ?_ ?_ hrun hrun' hhistory
  · have hlast : (seriesIn s res₂.1).map Prod.snd = (seriesIn s res.1).map Prod.snd :=
      (List.cons.inj (List.cons.inj heq).2).1
    rw [hemitted, hdropped] at hlast
    cases hlast
  · intro metrics hm
    rcases mem_pair.1 hm with rfl | rfl
    · exact hfrom t ht htp
    · exact hfrom s hs hsp
  · intro metrics hm
    rcases mem_pair.1 hm with rfl | rfl
    · nofun
    · exact hfrom s hs hsp

/-- **What the adjuster tells apart**: a series of a job is independent exactly when no other series
of the job has the same words. -/
theorem independent_iff [Std.Irrefl fun a b : F => a < b] {job : Set Series}
    (hjob : ∀ t ∈ job, t.Proper) {s : Series} (hs : s ∈ job) :
    Independent F N job s ↔ ∀ t ∈ job, t.words = s.words → t = s := by
  constructor
  · intro hind t ht hwords
    by_contra hne
    exact not_independent_of_shared hs ht (hjob s hs) (hjob t ht) (signature_eq_iff.2 hwords) hne
      hind
  · exact independent_of_unshared

/-- Two values of one label are told apart. -/
theorem independent_values :
    (∀ t ∈ ({⟨"m", [("a", "1")]⟩, ⟨"m", [("a", "2")]⟩} : Set Series), t.Proper) ∧
      Independent Int Int {⟨"m", [("a", "1")]⟩, ⟨"m", [("a", "2")]⟩} ⟨"m", [("a", "1")]⟩ := by
  have hproper : ∀ t ∈ ({⟨"m", [("a", "1")]⟩, ⟨"m", [("a", "2")]⟩} : Set Series), t.Proper := by
    rintro t (rfl | rfl) l hl
    all_goals
      rw [mem_singleton.1 hl]
      decide
  refine ⟨hproper, (independent_iff hproper (.inl rfl)).2 ?_⟩
  rintro t (rfl | rfl) hwords
  · rfl
  · exact absurd hwords (by decide)

/-- A scrape of a counter with the label `a` or `b`, of which one is empty. -/
def labelled (values : List ((String × String) × Int)) : List (Metric (TimeSeries Int Int)) :=
  [⟨⟨"m", "", "1", .cumulativeDouble, [some ⟨"a", ""⟩, some ⟨"b", ""⟩]⟩,
    values.map fun x => ⟨some ⟨0, 0⟩, [⟨x.1.1, x.1.1 ≠ ""⟩, ⟨x.1.2, x.1.2 ≠ ""⟩],
      [⟨⟨0, 0⟩, .double x.2⟩]⟩⟩]

def emittedValues (s : Series) (scrapes : List (List (Metric (TimeSeries Int Int)))) :
    Option (List (List (PointValue Int Int))) :=
  (scrapeAll newState scrapes).toOption.map fun run =>
    (emittedFor s run.2).map fun tss => tss.flatMap fun ts => ts.points.map Point.value

/-- One metric with `a="1"` and with `b="1"`: the first series goes from 10 to 11, and
8 is emitted for it, since what is kept is the value 3 of the second. -/
theorem label_keys_mixed :
    [labelled [(("1", ""), 10), (("", "1"), 3)], labelled [(("1", ""), 11)]].map
        (seriesIn ⟨"m", [("a", "1")]⟩) =
      [labelled [(("1", ""), 10)], labelled [(("1", ""), 11)]].map
        (seriesIn ⟨"m", [("a", "1")]⟩) ∧
    emittedValues ⟨"m", [("a", "1")]⟩
      [labelled [(("1", ""), 10), (("", "1"), 3)], labelled [(("1", ""), 11)]] =
        some [[], [.double 8]] ∧
    emittedValues ⟨"m", [("a", "1")]⟩ [labelled [(("1", ""), 10)], labelled [(("1", ""), 11)]] =
      some [[], [.double 1]] := by
  decide +kernel

end Collector.Prometheus
