import Collector.RemoteWrite.Histogram
import Collector.RemoteWrite.Resend

/-!
# Counting the dropped metrics

What `PushMetrics` returns against what happened to the batch. The export has
succeeded when the endpoint answered the POST with a 2xx status: then the count
is that of the rejected metrics, and otherwise that of the whole batch. A batch
that counts no metric fails to export, as every batch without a sample does, and
it alone fails with a nil error, since `dropped` stays zero.
-/

namespace Collector.RemoteWrite

open Otlp Lib Pdata ExporterHelper

section Accounting

variable {F N S R τ : Type} [GoFloat F] {resourceToInternal : Option N → Option S → R}

/-- The metrics of a batch that fail the validation or have a nil field of points. -/
def rejectedCount (md : Metrics F N S R) : Nat := md.metrics.countP fun m => !accepts m

theorem rejectedCount_le (md : Metrics F N S R) : rejectedCount md ≤ md.metricCount :=
  List.countP_le_length.trans md.length_metrics_le

variable {md : Metrics F N S R} {md' : MetricData F R} {env : PushEnv F τ}

theorem length_rejections (h : md.toOldInternalMetrics resourceToInternal = .ok md') :
    (rejections md' : List (GoError τ)).length = rejectedCount md := by
  have hsome : ∀ m : Metric F, (rejection m : Option (GoError τ)).isSome = !accepts m := by
    intro m
    rw [Bool.eq_iff_iff, Option.isSome_iff_ne_none, Ne, rejection_eq_none_iff]
    simp
  rw [rejections, List.length_filterMap_eq_countP, rejectedCount,
    ← (Metrics.metricsOf_perm h).countP_eq]
  simp only [hsome]

theorem rejectedCount_eq_zero : rejectedCount md = 0 ↔ ∀ m ∈ md.metrics, accepts m = true := by
  simp [rejectedCount, List.countP_eq_zero]

variable [Unicode] (resourceToInternal) (ns : String)

/-- The export succeeds: a POST is answered with a 2xx status. -/
def Exported (env : PushEnv F τ) (md : Metrics F N S R) : Prop :=
  ∃ p ∈ (pushMetrics resourceToInternal ns env md).posts, p.Accepted

/-- The result of a push accounts for the metrics of the batch. -/
structure Accounts (env : PushEnv F τ) (md : Metrics F N S R) (result : Outcome τ) : Prop where
  exported : Exported resourceToInternal ns env md → result.1 = rejectedCount md
  failed : ¬ Exported resourceToInternal ns env md → result.1 = md.metricCount
  bounded : result.1 ≤ md.metricCount
  noError : result.2 = none ↔
    (∀ m ∈ md.metrics, accepts m = true) ∧ Exported resourceToInternal ns env md

def DropsAccounted (env : PushEnv F τ) (md : Metrics F N S R) : Prop :=
  ∃ result, (pushMetrics resourceToInternal ns env md).result = .ok result ∧
    Accounts resourceToInternal ns env md result

variable {resourceToInternal ns}

theorem accounts_failed (h : ¬ Exported resourceToInternal ns env md) (err : Option (GoError τ)) :
    Accounts resourceToInternal ns env md (md.metricCount, err) ↔ err ≠ none := by
  constructor
  · intro ha he
    exact h (ha.noError.1 he).2
  · intro he
    refine ⟨fun hx => absurd hx h, fun _ => rfl, Nat.le_refl _, ?_⟩
    exact ⟨fun hn => absurd hn he, fun hx => absurd hx.2 h⟩

theorem accounts_exported {err : Option (GoError τ)} (h : Exported resourceToInternal ns env md)
    (herr : err = none ↔ rejectedCount md = 0) :
    Accounts resourceToInternal ns env md (rejectedCount md, err) := by
  refine ⟨fun _ => rfl, fun hx => absurd h hx, rejectedCount_le md, ?_⟩
  rw [and_iff_left h]
  exact herr.trans rejectedCount_eq_zero

/-! ## The end of a push -/

omit [GoFloat F] [Unicode] in
theorem pushResult_error (st : PushState F τ) (count : Nat) (err : GoError τ) :
    (pushResult count st (some err)).1 = count ∧
      ((pushResult count st (some err)).2 = none ↔ count = 0) := by
  by_cases h : count = 0
  all_goals simp [pushResult, h]

omit [GoFloat F] [Unicode] in
theorem pushResult_ok (count : Nat) {st : PushState F τ} (h : st.errs.length = st.dropped) :
    (pushResult count st none).1 = st.dropped ∧
      ((pushResult count st none).2 = none ↔ st.dropped = 0) := by
  by_cases hz : st.dropped = 0
  · simp [pushResult, hz]
  · have hne : st.errs ≠ [] := by
      rintro he
      rw [he] at h
      exact hz h.symm
    simp [pushResult, hz, hne]

/-- The batch has a sample to export, and the request for it can be built. -/
def Requests (env : PushEnv F τ) (md' : MetricData F R) : Prop :=
  (∃ m ∈ metricsOf md', exports m = true) ∧ env.marshal = none ∧ env.newRequest = none

/-- A POST is made exactly if the request can be built, and its exchange is that of the
environment. -/
theorem export_cases (env : PushEnv F τ) (hr : Reaches resourceToInternal md md') :
    (¬ Requests env md' ∧ ∃ err, exportTsMap env
      (pushed env.ords ns (PushState.init : PushState F τ) md').conv.tsMap =
        ⟨[], .ok (some err)⟩) ∨
    (Requests env md' ∧ ∃ p, p.exchange = env.exchange ∧ exportTsMap env
      (pushed env.ords ns (PushState.init : PushState F τ) md').conv.tsMap =
        ⟨[p], p.exchange.map answerError⟩) := by
  by_cases he : emissions ns md' = []
  · refine .inl ⟨fun h => emissions_ne_nil_iff.2 h.1 he,
      .new "invalid TsMap: cannot be empty map", ?_⟩
    rw [pushed, he]
    rfl
  · rcases exportTsMap_cases env (tsMap_nonempty (τ := τ) ns env.ords hr.2 he) with
      ⟨err, herr, heq⟩ | ⟨hm, hn, heq⟩
    · refine .inl ⟨fun h => ?_, err, heq⟩
      rw [h.2.1, h.2.2] at herr
      rcases herr with herr | herr <;> cases herr
    · exact .inr ⟨⟨emissions_ne_nil_iff.1 he, hm, hn⟩, _, rfl, heq⟩

theorem dropsAccounted_of_error {st : PushState F τ} {err : GoError τ}
    (hno : ¬ Exported resourceToInternal ns env md)
    (hresult : (pushMetrics resourceToInternal ns env md).result =
      .ok (pushResult md.metricCount st (some err))) :
    DropsAccounted resourceToInternal ns env md ↔ md.metricCount ≠ 0 := by
  obtain ⟨hcount, herr⟩ := pushResult_error st md.metricCount err
  have hacc := accounts_failed hno (pushResult md.metricCount st (some err)).2
  rw [show (md.metricCount, (pushResult md.metricCount st (some err)).2) =
    pushResult md.metricCount st (some err) from Prod.ext hcount.symm rfl] at hacc
  constructor
  · rintro ⟨result, heq, ha⟩
    rw [hresult] at heq
    cases heq
    exact mt herr.2 (hacc.1 ha)
  · intro hz
    exact ⟨_, hresult, hacc.2 (mt herr.1 hz)⟩

theorem dropsAccounted_of_exported (hr : Reaches resourceToInternal md md')
    (h : Exported resourceToInternal ns env md)
    (hresult : (pushMetrics resourceToInternal ns env md).result =
      .ok (pushResult md.metricCount (pushed env.ords ns PushState.init md') none)) :
    DropsAccounted resourceToInternal ns env md := by
  have hlen := length_rejections (τ := τ) hr.1
  set st := pushed env.ords ns (PushState.init : PushState F τ) md' with hst
  have hdropped : st.dropped = rejectedCount md := by simp [hst, pushed, PushState.init, hlen]
  have herrs : st.errs.length = st.dropped := by simp [hst, pushed, PushState.init]
  obtain ⟨hcount, herr⟩ := pushResult_ok md.metricCount herrs
  rw [hdropped] at hcount herr
  refine ⟨_, hresult, ?_⟩
  have hacc := accounts_exported h herr
  rwa [← hcount] at hacc

/-- A push whose POST is answered. The answer decides, and a batch that was POSTed counts some
metric. -/
theorem dropsAccounted_of_answer {p : Post F τ} {a : Except (GoError τ) Http.Response}
    (hr : Reaches resourceToInternal md md') (hx : p.exchange = .ok a)
    (hpush : pushMetrics resourceToInternal ns env md =
      ⟨[p], .ok (pushResult md.metricCount (pushed env.ords ns PushState.init md')
        (answerError a))⟩) : DropsAccounted resourceToInternal ns env md ↔ md.metricCount ≠ 0 := by
  have hposts : (pushMetrics resourceToInternal ns env md).posts = [p] := by rw [hpush]
  have hexp : Exported resourceToInternal ns env md ↔ p.Accepted := by
    simp [Exported, hposts]
  cases ha : answerError a with
  | some err =>
    rw [ha] at hpush
    refine dropsAccounted_of_error (fun h => ?_) (congrArg Sent.result hpush)
    obtain ⟨resp, hresp, hsucc⟩ := hexp.1 h
    rw [hx] at hresp
    cases hresp
    rw [answerError_eq_none_iff.2 ⟨resp, rfl, hsucc⟩] at ha
    cases ha
  | none =>
    rw [ha] at hpush
    obtain ⟨resp, rfl, hsucc⟩ := answerError_eq_none_iff.1 ha
    refine iff_of_true (dropsAccounted_of_exported hr (hexp.2 ⟨resp, hx, hsucc⟩)
      (congrArg Sent.result hpush)) ?_
    obtain ⟨_, hr', he, -⟩ := posts_pushMetrics (hposts ▸ List.mem_cons_self)
    obtain ⟨m, hm, -⟩ := emissions_ne_nil_iff.1 he
    exact Metrics.metricCount_ne_zero hr'.1 hm

/-- **A push accounts for the metrics of its batch** exactly when the exporter is closed, or the
conversion does not crash, the batch counts a metric and, if a request is made, the exchange of it
returns. -/
theorem dropsAccounted_iff (env : PushEnv F τ) (md : Metrics F N S R) :
    DropsAccounted resourceToInternal ns env md ↔
      env.closed = true ∨ ∃ md', Reaches resourceToInternal md md' ∧ md.metricCount ≠ 0 ∧
        (Requests env md' → ∃ a, env.exchange = .ok a) := by
  cases hc : env.closed with
  | true =>
    have hpush : pushMetrics resourceToInternal ns env md = _ := pushMetrics_closed hc
    have hno : ¬ Exported resourceToInternal ns env md := by
      rintro ⟨p, hp, -⟩
      rw [hpush] at hp
      cases hp
    refine iff_of_true ⟨_, congrArg Sent.result hpush, ?_⟩ (.inl rfl)
    exact (accounts_failed hno _).2 (by simp)
  | false =>
    rw [or_iff_right Bool.false_ne_true]
    by_cases hreach : ∃ md', Reaches resourceToInternal md md'
    · obtain ⟨md', hr⟩ := hreach
      have hpush : pushMetrics resourceToInternal ns env md = _ := pushMetrics_open hc hr
      have honly : (∃ md', Reaches resourceToInternal md md' ∧ md.metricCount ≠ 0 ∧
          (Requests env md' → ∃ a, env.exchange = .ok a)) ↔
            md.metricCount ≠ 0 ∧ (Requests env md' → ∃ a, env.exchange = .ok a) := by
        refine ⟨?_, fun h => ⟨md', hr, h⟩⟩
        rintro ⟨md'', hr', h⟩
        cases Except.ok.inj (hr.1.symm.trans hr'.1)
        exact h
      rw [honly]
      rcases export_cases env hr with ⟨hreq, err, hex⟩ | ⟨hreq, p, hx, hex⟩
      · rw [hex] at hpush
        have hno : ¬ Exported resourceToInternal ns env md := by
          rintro ⟨p, hp, -⟩
          rw [hpush] at hp
          cases hp
        rw [dropsAccounted_of_error hno (congrArg Sent.result hpush)]
        exact (and_iff_left fun h => absurd h hreq).symm
      · rw [hex] at hpush
        rw [forall_prop_of_true hreq, ← hx]
        cases hx : p.exchange with
        | error c =>
          refine iff_of_false ?_ fun h => by simpa using h.2
          rintro ⟨result, heq, -⟩
          rw [hpush, hx] at heq
          cases heq
        | ok a =>
          rw [and_iff_left ⟨a, rfl⟩]
          rw [hx] at hpush
          exact dropsAccounted_of_answer hr hx hpush
    · obtain ⟨c, hcr⟩ : ∃ c, pushMetrics resourceToInternal ns env md = ⟨[], .error c⟩ :=
        pushMetrics_crash hc fun md' h => hreach ⟨md', h⟩
      refine iff_of_false ?_ fun ⟨md', h, _⟩ => hreach ⟨md', h⟩
      rintro ⟨result, heq, -⟩
      rw [hcr] at heq
      cases heq

end Accounting

section Failures

attribute [local instance] Unicode.latin1 GoFloat.whole

def threeBucketsBatch : Metrics Int Unit Unit Unit :=
  .internal [some ⟨(), [some ⟨[some threeBucketsMetric]⟩]⟩]

/-- In calm weather, a well-formed histogram stops the process. -/
theorem unaccounted_drops :
    (pushMetrics (fun _ _ => ()) "" calm threeBucketsBatch :
        Sent (Post Int Unit) (Outcome Unit)).result = .error .indexOutOfRange ∧
      ¬ DropsAccounted (fun _ _ => ()) "" (calm : PushEnv Int Unit) threeBucketsBatch := by
  refine ⟨rfl, ?_⟩
  rintro ⟨result, heq, -⟩
  cases heq

end Failures

end Collector.RemoteWrite
