import Collector.RemoteWrite.Push

/-!
# Retrying an accepted batch

A batch that mixes valid and invalid metrics is POSTed without the invalid ones
and still ends in an error: the endpoint has accepted the samples, `PushMetrics`
returns the combined validation errors, and these are not permanent. The retry
loop then sends the same batch again.
-/

namespace Collector.RemoteWrite

open Otlp Lib Pdata ExporterHelper List

/-! ## Pieces of an attempt -/

section Attempts

variable {F R τ : Type}

theorem rejections_ne_nil_iff {md : MetricData F R} :
    (rejections md : List (GoError τ)) ≠ [] ↔ ∃ m ∈ metricsOf md, accepts m = false := by
  rw [rejections, Ne, filterMap_eq_nil_iff]
  simp [rejection_eq_none_iff]

theorem isPermanent_rejections {md : MetricData F R} :
    GoError.isPermanent (GoError.combineErrors (rejections md : List (GoError τ))) = false := by
  by_contra hn
  obtain ⟨err, herr⟩ := GoError.isPermanent_combineErrors (by simpa using hn)
  have hmem : GoError.permanent err ∈ (rejections md : List (GoError τ)) := by
    rw [herr]
    exact mem_cons_self
  obtain ⟨m, -, hm⟩ := mem_filterMap.1 hmem
  unfold rejection at hm
  split at hm
  · cases ht : getType m.metricDescriptor <;> simp [ht, pointsError] at hm
  · cases hm

theorem posts_exportTsMap {env : PushEnv F τ} {tsMap : TsMap (Sample F)} {p : Post F τ}
    (hp : p ∈ (exportTsMap env tsMap).posts) :
    tsMap.entries.length ≠ 0 ∧
      exportTsMap env tsMap = ⟨[p], p.exchange.map answerError⟩ := by
  by_cases hz : tsMap.entries.length = 0
  · unfold exportTsMap wrapTimeSeries at hp
    rw [if_pos hz] at hp
    cases hp
  · refine ⟨hz, ?_⟩
    rcases exportTsMap_cases env hz with ⟨err, -, heq⟩ | ⟨-, -, heq⟩
    · rw [heq] at hp
      cases hp
    · rw [heq] at hp ⊢
      rw [mem_singleton.1 hp]

/-- An attempt in calm weather: the exporter is open and the endpoint answers 200. -/
def calm : PushEnv F τ where
  closed := false
  ords _ := .stored
  tsOrder := .stored
  marshal := none
  newRequest := none
  exchange := .ok (.ok ⟨200, "200 OK", "", ""⟩)

theorem exportTsMap_calm {tsMap : TsMap (Sample F)} (h : tsMap.entries.length ≠ 0) :
    exportTsMap (calm : PushEnv F τ) tsMap =
      ⟨[⟨tsMap.values, .ok (.ok ⟨200, "200 OK", "", ""⟩)⟩], .ok none⟩ := by
  rcases exportTsMap_cases (calm : PushEnv F τ) h with ⟨err, herr, -⟩ | ⟨-, -, heq⟩
  · rcases herr with herr | herr <;> cases herr
  · exact heq

end Attempts

section Resend

variable {F N S R τ : Type} [Unicode] [GoFloat F] (resourceToInternal : Option N → Option S → R)
  (ns : String)

/-- `metricsRequest` around `PushMetrics`. -/
def metricsRequest : RequestKind (Metrics F N S R) (PushEnv F τ) (Post F τ) τ where
  push := pushMetrics resourceToInternal ns
  onPartialError _ req := req
  count := Metrics.dataPointCount

def Mixed (md : Metrics F N S R) : Prop :=
  ∃ md', Reaches resourceToInternal md md' ∧ (∃ m ∈ metricsOf md', exports m = true) ∧
    ∃ m ∈ metricsOf md', accepts m = false

/-- Whatever the rounds bring, no POST follows one that was answered with a 2xx status. -/
def NoResend (τ : Type) (cfg : RetrySettings) (md : Metrics F N S R) : Prop :=
  ∀ rounds, (retrySend (metricsRequest (τ := τ) resourceToInternal ns) cfg md rounds).posts.Pairwise
    fun p _ => ¬ p.Accepted

variable {resourceToInternal ns}

theorem leftover_metricsRequest (md : Metrics F N S R) (err : GoError τ) :
    leftover (metricsRequest (τ := τ) resourceToInternal ns) md err = md :=
  leftover_of_whole _ (fun _ => rfl) err

theorem emissions_ne_nil_iff {md : MetricData F R} :
    emissions ns md ≠ [] ↔ ∃ m ∈ metricsOf md, exports m = true := by
  rw [emissions, Ne, flatMap_eq_nil_iff]
  simp [metricEmissions_eq_nil_iff]

variable {md : Metrics F N S R}

theorem posts_pushMetrics {env : PushEnv F τ} {p : Post F τ}
    (hp : p ∈ (pushMetrics resourceToInternal ns env md).posts) :
    ∃ md', Reaches resourceToInternal md md' ∧ emissions ns md' ≠ [] ∧
      pushMetrics resourceToInternal ns env md =
        ⟨[p], (p.exchange.map answerError).map
          (pushResult md.metricCount (pushed env.ords ns PushState.init md'))⟩ := by
  have hc : env.closed = false := by
    by_contra hn
    rw [pushMetrics_silent (.inl (by simpa using hn))] at hp
    cases hp
  obtain ⟨md', hr⟩ : ∃ md', Reaches resourceToInternal md md' := by
    by_contra hn
    rw [pushMetrics_silent (.inr fun md' h => hn ⟨md', h⟩)] at hp
    cases hp
  rw [pushMetrics_open hc hr] at hp ⊢
  obtain ⟨hne, hex⟩ := posts_exportTsMap hp
  refine ⟨md', hr, fun he => hne ?_, by rw [hex]; rfl⟩
  rw [pushed, he]
  rfl

theorem result_of_accepted {env : PushEnv F τ} {p : Post F τ} (hmix : ¬ Mixed resourceToInternal md)
    (hp : p ∈ (pushMetrics resourceToInternal ns env md).posts) (hacc : p.Accepted) :
    (pushMetrics resourceToInternal ns env md).result = .ok (0, none) := by
  obtain ⟨md', hr, he, heq⟩ := posts_pushMetrics hp
  obtain ⟨resp, hex, hsucc⟩ := hacc
  have hrej : (rejections md' : List (GoError τ)) = [] := by
    by_contra hn
    exact hmix ⟨md', hr, emissions_ne_nil_iff.1 he, rejections_ne_nil_iff.1 hn⟩
  rw [heq]
  simp [hex, answerError, hsucc, Except.map, pushResult, pushed, hrej, PushState.init]

theorem pairwise_posts (env : PushEnv F τ) (md : Metrics F N S R) :
    (pushMetrics resourceToInternal ns env md).posts.Pairwise fun p _ => ¬ p.Accepted := by
  cases h : (pushMetrics resourceToInternal ns env md).posts with
  | nil => exact List.Pairwise.nil
  | cons p ps =>
    obtain ⟨_, _, _, heq⟩ := posts_pushMetrics (p := p) (by rw [h]; exact mem_cons_self)
    rw [heq] at h
    rw [← h]
    exact pairwise_singleton _ _

variable (ns) in
theorem pushMetrics_calm (hmix : Mixed resourceToInternal md) :
    ∃ (p : Post F τ) (dropped : Nat) (err : GoError τ), p.Accepted ∧
      GoError.isPermanent (some err) = false ∧
      pushMetrics resourceToInternal ns calm md = ⟨[p], .ok (dropped, some err)⟩ := by
  obtain ⟨md', hr, hexp, hrej⟩ := hmix
  have hne := tsMap_nonempty (τ := τ) ns (fun _ => .stored) hr.2 (emissions_ne_nil_iff.2 hexp)
  have hdrop : (rejections md' : List (GoError τ)) ≠ [] := rejections_ne_nil_iff.2 hrej
  obtain ⟨err, herr⟩ := Option.ne_none_iff_exists'.1
    (mt GoError.combineErrors_eq_none.1 hdrop)
  let st := pushed (fun _ => .stored) ns (PushState.init : PushState F τ) md'
  refine ⟨⟨st.conv.tsMap.values, .ok (.ok ⟨200, "200 OK", "", ""⟩)⟩,
    (rejections md' : List (GoError τ)).length, err, ⟨_, rfl, by decide⟩, ?_, ?_⟩
  · rw [← herr]
    exact isPermanent_rejections
  · have hex := exportTsMap_calm (τ := τ) (show st.conv.tsMap.entries.length ≠ 0 from hne)
    rw [pushMetrics_open rfl hr]
    show (exportTsMap calm st.conv.tsMap).map (pushResult md.metricCount st) = _
    rw [hex]
    simp [st, Sent.map, Except.map, pushResult, pushed, PushState.init, hdrop, herr]

theorem not_noResend_of_mixed {cfg : RetrySettings} (hen : cfg.enabled = true)
    (hmix : Mixed resourceToInternal md) : ¬ NoResend resourceToInternal ns τ cfg md := by
  intro h
  obtain ⟨p, dropped, err, hacc, hperm, hpush⟩ := pushMetrics_calm (τ := τ) ns hmix
  have hr := h [⟨calm, some 0, .timer⟩, ⟨calm, some 0, .timer⟩]
  rw [retrySend_enabled _ hen] at hr
  have hposts : (retryLoop (metricsRequest (τ := τ) resourceToInternal ns) md
      [⟨calm, some 0, .timer⟩, ⟨calm, some 0, .timer⟩]).posts = [p, p] := by
    have hp : (metricsRequest (τ := τ) resourceToInternal ns).push calm md =
        ⟨[p], .ok (dropped, some err)⟩ := hpush
    simp [retryLoop, hp, hperm, leftover_metricsRequest, Run.posts]
  rw [hposts] at hr
  exact (pairwise_cons.1 hr).1 p mem_cons_self hacc

/-- **When an accepted batch is never sent again.** -/
theorem noResend_iff (cfg : RetrySettings) (md : Metrics F N S R) :
    NoResend resourceToInternal ns τ cfg md ↔
      cfg.enabled = false ∨ ¬ Mixed resourceToInternal md := by
  constructor
  · intro h
    by_contra hn
    obtain ⟨hen, hmix⟩ := not_or.1 hn
    exact not_noResend_of_mixed (by simpa using hen) (not_not.1 hmix) h
  · intro h rounds
    cases hen : cfg.enabled with
    | true =>
      rw [retrySend_enabled _ hen]
      have hmix : ¬ Mixed resourceToInternal md := by
        rcases h with h | h
        · rw [hen] at h; cases h
        · exact h
      exact retryLoop_pairwise _ (fun _ _ err _ => leftover_metricsRequest md err)
        (fun env => pairwise_posts env md)
        (fun env p hp hacc => ⟨0, result_of_accepted hmix hp hacc⟩) rounds
    | false =>
      cases rounds with
      | nil =>
        simp only [retrySend, hen]
        exact List.Pairwise.nil
      | cons r rs =>
        rw [posts_retrySend_disabled _ hen]
        exact pairwise_posts r.env md

end Resend

section Mixed

attribute [local instance] Unicode.latin1 GoFloat.whole

def gaugeAndDelta : Metrics Int Unit Unit Unit :=
  .internal [some ⟨(), [some ⟨[
    some ⟨some ⟨"g", "", "", .int64, .instantaneous⟩, some [some ⟨[], 0, 0, 1⟩], none, none, none⟩,
    some ⟨some ⟨"c", "", "", .monotonicInt64, .delta⟩, some [some ⟨[], 0, 0, 1⟩], none, none,
      none⟩]⟩]⟩]

/-- The defaults of the remote write exporter send the gauge again. -/
theorem gaugeAndDelta_resent :
    ¬ NoResend (fun _ _ => ()) "" Unit createDefaultRetrySettings gaugeAndDelta := by
  refine not_noResend_of_mixed rfl ⟨_, ⟨rfl, ?_⟩, ⟨_, mem_cons_self, rfl⟩,
    _, mem_cons_of_mem _ mem_cons_self, rfl⟩
  intro m hm hv
  rcases mem_cons.1 hm with rfl | hm
  · intro pts hpts pt hpt
    cases hpts
    rw [mem_singleton.1 hpt]
    exact not_mem_nil
  · rw [mem_singleton.1 hm] at hv
    exact absurd hv Bool.false_ne_true

end Mixed

end Collector.RemoteWrite
