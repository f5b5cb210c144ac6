import Collector.RemoteWrite.Resend

/-!
# The Cortex exporter

The remote write exporter behind an HTTP client that signs its requests. A
`SigningRoundTripper` calls `log.Fatal` when the transport under it fails, so an
endpoint that cannot be reached ends the collector. It also calls `GetBody` on
every request, and the client gives it requests without one when it follows a
redirect.

The exporter works through batches, each with its own run of the retry loop; a
crash ends the work on all of them.
-/

namespace Collector.Cortex

open Otlp Pdata ExporterHelper RemoteWrite

/-- `AuthSettings`; the other fields only reach the signer and the log. -/
structure AuthSettings where
  region : String
  service : String
  enabled : Bool
  deriving DecidableEq, Repr

/-- `validateAuthSettings`, with the text of its error. -/
def validateAuthSettings (params : AuthSettings) : Option String :=
  if params.enabled && params.region == "" || params.service == "" then
    some "invalid authentication configuration"
  else none

/-- The parts of a `Config` that an attempt meets. `createMetricsExporter` fails unless the
settings of a signing client are valid. -/
structure Config where
  ns : String
  endpoint : String
  auth : AuthSettings
  retry : RetrySettings
  authValid : auth.enabled = true → validateAuthSettings auth = none

/-- What one round trip meets. -/
structure Hop (τ : Type) where
  /-- The error of `signer.Sign`. -/
  sign : Http.Request τ → List UInt8 → Option (GoError τ)
  /-- The transport under the signer. -/
  transport : Http.Request τ → Except (GoError τ) Http.Response

structure AttemptEnv (F τ : Type) where
  ords : Nat → MapOrder Label
  tsOrder : MapOrder (TimeSeries (Sample F))
  /-- The error texts of `proto.Marshal` and `http.NewRequest`. -/
  marshal : Option String
  newRequest : Option String
  /-- The compressed `WriteRequest`. -/
  data : List UInt8
  hops : Nat → Hop τ
  parse : String → String → Except (GoError τ) String

section Client

variable {F τ : Type}

/-- `SigningRoundTripper.RoundTrip`. -/
def signedRoundTrip (hop : Hop τ) (req : Http.Request τ) : Http.Exchange τ :=
  match req.getBody with
  | none => .error .nilDereference
  | some (.error err) => .ok (.error err)
  | some (.ok (.error err)) => .ok (.error err)
  | some (.ok (.ok content)) =>
    match hop.sign req content with
    | some err => .ok (.error err)
    | none =>
      match hop.transport req with
      | .error _ => .error .logFatal
      | .ok resp => .ok (.ok resp)

/-- The transport that `createMetricsExporter` gives to the client. -/
def roundTrip (auth : AuthSettings) (hop : Hop τ) (req : Http.Request τ) : Http.Exchange τ :=
  if auth.enabled then signedRoundTrip hop req else .ok (hop.transport req)

def AttemptEnv.client (cfg : Config) (env : AttemptEnv F τ) : Http.Client τ :=
  ⟨fun via => roundTrip cfg.auth (env.hops via), env.parse⟩

def AttemptEnv.request (cfg : Config) (env : AttemptEnv F τ) : Http.Request τ :=
  .new .post cfg.endpoint env.data

/-- The attempt, as the exporter meets it while it is open. -/
def AttemptEnv.pushEnv (cfg : Config) (env : AttemptEnv F τ) : PushEnv F τ where
  closed := false
  ords := env.ords
  tsOrder := env.tsOrder
  marshal := env.marshal.map .new
  newRequest := env.newRequest.map .new
  exchange := (env.client cfg).run (env.request cfg)

/-- The attempt ends the process: a signed request meets a transport error, or a redirect. -/
def Fatal (cfg : Config) (env : AttemptEnv F τ) : Prop :=
  cfg.auth.enabled = true ∧ env.marshal = none ∧ env.newRequest = none ∧
    (env.hops 0).sign (env.request cfg) env.data = none ∧
    ((∃ err, (env.hops 0).transport (env.request cfg) = .error err) ∨
      ∃ resp, (env.hops 0).transport (env.request cfg) = .ok resp ∧
        resp.statusCode ∈ [301, 302, 303, 307, 308] ∧ resp.location ≠ "" ∧
        ∃ url, env.parse cfg.endpoint resp.location = .ok url)

variable {cfg : Config} {env : AttemptEnv F τ}

theorem signedRoundTrip_crash_iff :
    (∃ crash, signedRoundTrip (env.hops 0) (env.request cfg) = .error crash) ↔
      (env.hops 0).sign (env.request cfg) env.data = none ∧
        ∃ err, (env.hops 0).transport (env.request cfg) = .error err := by
  show (∃ crash, (match (env.hops 0).sign (env.request cfg) env.data with
    | some err => (.ok (.error err) : Http.Exchange τ)
    | none => match (env.hops 0).transport (env.request cfg) with
      | .error _ => .error .logFatal
      | .ok resp => .ok (.ok resp)) = .error crash) ↔ _
  cases (env.hops 0).sign (env.request cfg) env.data with
  | some err => simp
  | none => cases (env.hops 0).transport (env.request cfg) <;> simp

theorem signedRoundTrip_ok_iff {resp : Http.Response} :
    signedRoundTrip (env.hops 0) (env.request cfg) = .ok (.ok resp) ↔
      (env.hops 0).sign (env.request cfg) env.data = none ∧
        (env.hops 0).transport (env.request cfg) = .ok resp := by
  show (match (env.hops 0).sign (env.request cfg) env.data with
    | some err => (.ok (.error err) : Http.Exchange τ)
    | none => match (env.hops 0).transport (env.request cfg) with
      | .error _ => .error .logFatal
      | .ok resp => .ok (.ok resp)) = _ ↔ _
  cases (env.hops 0).sign (env.request cfg) env.data with
  | some err => simp
  | none => cases (env.hops 0).transport (env.request cfg) <;> simp

theorem client_crash_iff (hm : env.marshal = none) (hn : env.newRequest = none) :
    (∃ crash, (env.client cfg).run (env.request cfg) = .error crash) ↔ Fatal cfg env := by
  cases hen : cfg.auth.enabled with
  | false =>
    have hret : ∀ via req, ∃ a, (env.client cfg).roundTrip via req = .ok a := fun via req =>
      ⟨(env.hops via).transport req, by simp [AttemptEnv.client, roundTrip, hen]⟩
    obtain ⟨a, ha⟩ := Http.follow_returns hret (env.request cfg) 0 9 (env.request cfg)
    refine iff_of_false ?_ fun h => ?_
    · rintro ⟨crash, hc⟩
      rw [Http.Client.run, ha] at hc
      cases hc
    · rw [h.1] at hen
      cases hen
  | true =>
    have htrip : ∀ via, (env.client cfg).roundTrip via = signedRoundTrip (env.hops via) := by
      intro via
      funext req
      simp [AttemptEnv.client, roundTrip, hen]
    rw [Http.Client.run_crash_iff ?_, htrip, signedRoundTrip_crash_iff]
    · have hcli : ∀ resp, (∃ next, Http.Follows (env.client cfg) (env.request cfg)
          (env.request cfg) resp next) ↔ _ := fun resp => Http.follows_new_iff
      simp only [exists_and_left, signedRoundTrip_ok_iff, hcli, Fatal, hen, hm, hn, true_and,
        and_assoc, ← and_or_left]
      rfl
    · intro via req hnone
      refine ⟨.nilDereference, ?_⟩
      rw [htrip]
      simp only [signedRoundTrip, hnone]

theorem not_permanent_of_answer {a : Except (GoError τ) Http.Response} {err : GoError τ}
    (hrun : (env.client cfg).run (env.request cfg) = .ok a) (herr : answerError a = some err) :
    GoError.isPermanent (some err) = false := by
  cases a with
  | error e =>
    cases herr
    obtain ⟨pre, e', rfl⟩ := Http.isUrlError_of_follow hrun
    rfl
  | ok resp =>
    simp only [answerError] at herr
    split at herr
    · cases herr
    · cases herr
      rfl

end Client

/-! ## Attempts -/

section Attempts

variable (F : Type) {N S R τ : Type} [GoFloat F] (resourceToInternal : Option N → Option S → R)

/-- A batch of valid metrics with at least one point. -/
structure ValidBatch where
  md : Metrics F N S R
  internal : MetricData F R
  translates : md.toOldInternalMetrics resourceToInternal = .ok internal
  valid : ∀ m ∈ metricsOf internal, accepts m = true
  nonempty : ∃ m ∈ metricsOf internal, exports m = true

variable {F resourceToInternal}

theorem ValidBatch.metricCount_ne_zero (batch : ValidBatch F resourceToInternal) :
    batch.md.metricCount ≠ 0 := by
  obtain ⟨m, hm, -⟩ := batch.nonempty
  exact Metrics.metricCount_ne_zero batch.translates hm

variable [Unicode]

/-- One call of `PushMetrics`. -/
def attempt (cfg : Config) (batch : ValidBatch F resourceToInternal) (env : AttemptEnv F τ) :
    Sent (Post F τ) (Outcome τ) :=
  pushMetrics resourceToInternal cfg.ns (env.pushEnv cfg) batch.md

def Delivered (cfg : Config) (batch : ValidBatch F resourceToInternal) (env : AttemptEnv F τ) :
    Prop := ∃ p ∈ (attempt cfg batch env).posts, p.Accepted

/-- The attempt returns `(0, nil)` after a 2xx answer, and otherwise an error for the whole
batch. -/
def Settled (cfg : Config) (batch : ValidBatch F resourceToInternal) (env : AttemptEnv F τ) :
    Prop :=
  (Delivered cfg batch env → (attempt cfg batch env).result = .ok (0, none)) ∧
    (¬ Delivered cfg batch env → ∃ err,
      (attempt cfg batch env).result = .ok (batch.md.metricCount, some err))

variable {cfg : Config} {batch : ValidBatch F resourceToInternal} {env : AttemptEnv F τ}

theorem Settled.returns (h : Settled cfg batch env) :
    ∃ out, (attempt cfg batch env).result = .ok out := by
  by_cases hd : Delivered cfg batch env
  · exact ⟨_, h.1 hd⟩
  · obtain ⟨err, herr⟩ := h.2 hd
    exact ⟨_, herr⟩

def answerOutcome (count : Nat) (err : Option (GoError τ)) : Outcome τ :=
  (if err.isSome then count else 0, err)

theorem attempt_cases (cfg : Config) (batch : ValidBatch F resourceToInternal)
    (env : AttemptEnv F τ) (hc : Convertible batch.internal) :
    (∃ msg, (env.marshal ≠ none ∨ env.newRequest ≠ none) ∧
      attempt cfg batch env = ⟨[], .ok (batch.md.metricCount, some (.new msg))⟩) ∨
    env.marshal = none ∧ env.newRequest = none ∧ ∃ req,
      attempt cfg batch env = ⟨[⟨req, (env.client cfg).run (env.request cfg)⟩],
        ((env.client cfg).run (env.request cfg)).map fun a =>
          answerOutcome batch.md.metricCount (answerError a)⟩ := by
  have hrej : (rejections batch.internal : List (GoError τ)) = [] := by
    by_contra hn
    obtain ⟨m, hm, hacc⟩ := rejections_ne_nil_iff.1 hn
    rw [batch.valid m hm] at hacc
    cases hacc
  let st := pushed env.ords cfg.ns (PushState.init : PushState F τ) batch.internal
  have hres : pushResult batch.md.metricCount st = answerOutcome batch.md.metricCount := by
    funext err
    cases err <;>
      simp [st, pushResult, pushed, hrej, PushState.init, answerOutcome,
        batch.metricCount_ne_zero, GoError.combineErrors]
  have hopen : attempt cfg batch env = (exportTsMap (env.pushEnv cfg) st.conv.tsMap).map
      (answerOutcome batch.md.metricCount) := by
    rw [← hres]
    exact pushMetrics_open rfl ⟨batch.translates, hc⟩
  have hne := tsMap_nonempty (τ := τ) cfg.ns env.ords hc (emissions_ne_nil_iff.2 batch.nonempty)
  rcases exportTsMap_cases (env.pushEnv cfg) hne with ⟨err, herr, heq⟩ | ⟨hm, hn, heq⟩
  · obtain ⟨msg, rfl, hmsg⟩ : ∃ msg, err = .new msg ∧
        (env.marshal ≠ none ∨ env.newRequest ≠ none) := by
      rcases herr with herr | herr
      · obtain ⟨msg, hmsg, rfl⟩ := Option.map_eq_some_iff.1 herr
        exact ⟨msg, rfl, .inl (by simp [hmsg])⟩
      · obtain ⟨msg, hmsg, rfl⟩ := Option.map_eq_some_iff.1 herr
        exact ⟨msg, rfl, .inr (by simp [hmsg])⟩
    refine .inl ⟨msg, hmsg, ?_⟩
    rw [hopen, heq]
    rfl
  · refine .inr ⟨Option.map_eq_none_iff.1 hm, Option.map_eq_none_iff.1 hn,
      env.tsOrder.order st.conv.tsMap.values, ?_⟩
    have hmap : ∀ x : Http.Exchange τ,
        (x.map answerError).map (answerOutcome batch.md.metricCount) =
        x.map fun a => answerOutcome batch.md.metricCount (answerError a) := by
      intro x
      cases x <;> rfl
    rw [hopen, heq]
    exact congrArg (Sent.mk [_]) (hmap _)

theorem attempt_crash (cfg : Config) (batch : ValidBatch F resourceToInternal)
    (env : AttemptEnv F τ) (h : ¬ Convertible batch.internal) :
    ∃ c, (attempt cfg batch env).result = .error c := by
  obtain ⟨c, hc⟩ := convert_crash (τ := τ) env.ords cfg.ns h
  have hcr : (batch.md.toOldInternalMetrics resourceToInternal >>=
      convert (τ := τ) (env.pushEnv cfg).ords cfg.ns) = .error c := by
    rw [batch.translates]
    exact hc
  refine ⟨c, ?_⟩
  unfold attempt pushMetrics
  rw [hcr]
  rfl

/-- **What an attempt returns** that neither crashes in the conversion nor in the client. -/
theorem attempt_result (hc : Convertible batch.internal) (hf : ¬ Fatal cfg env) :
    Delivered cfg batch env ∧ (attempt cfg batch env).result = .ok (0, none) ∨
    ¬ Delivered cfg batch env ∧ ∃ err, GoError.isPermanent (some err) = false ∧
      (attempt cfg batch env).result = .ok (batch.md.metricCount, some err) := by
  rcases attempt_cases cfg batch env hc with ⟨msg, -, heq⟩ | ⟨hm, hn, req, heq⟩
  · refine .inr ⟨?_, .new msg, rfl, by rw [heq]⟩
    rintro ⟨p, hp, -⟩
    rw [heq] at hp
    cases hp
  · cases hrun : (env.client cfg).run (env.request cfg) with
    | error crash => exact absurd ((client_crash_iff hm hn).1 ⟨crash, hrun⟩) hf
    | ok a =>
      rw [hrun] at heq
      cases herr : answerError a with
      | none =>
        obtain ⟨resp, rfl, hsucc⟩ := answerError_eq_none_iff.1 herr
        refine .inl ⟨⟨⟨req, _⟩, by rw [heq]; exact List.mem_cons_self, resp, rfl, hsucc⟩, ?_⟩
        rw [heq]
        simp [Except.map, herr, answerOutcome]
      | some err =>
        refine .inr ⟨?_, err, not_permanent_of_answer hrun herr, ?_⟩
        · rintro ⟨p, hp, resp, hresp, hsucc⟩
          rw [heq] at hp
          rw [List.mem_singleton.1 hp] at hresp
          cases hresp
          rw [answerError_eq_none_iff.2 ⟨resp, rfl, hsucc⟩] at herr
          cases herr
        · rw [heq]
          simp [Except.map, herr, answerOutcome]

theorem settled_iff : Settled cfg batch env ↔ Convertible batch.internal ∧ ¬ Fatal cfg env := by
  constructor
  · intro h
    obtain ⟨out, hout⟩ := h.returns
    have hc : Convertible batch.internal := by
      by_contra hn
      obtain ⟨c, hcr⟩ := attempt_crash cfg batch env hn
      rw [hcr] at hout
      cases hout
    refine ⟨hc, fun hf => ?_⟩
    obtain ⟨crash, hcrash⟩ := (client_crash_iff hf.2.1 hf.2.2.1).2 hf
    rcases attempt_cases cfg batch env hc with ⟨msg, hmsg, -⟩ | ⟨-, -, req, heq⟩
    · rcases hmsg with hmsg | hmsg
      · exact hmsg hf.2.1
      · exact hmsg hf.2.2.1
    · rw [heq, hcrash] at hout
      cases hout
  · rintro ⟨hc, hf⟩
    rcases attempt_result hc hf with ⟨hd, hres⟩ | ⟨hd, err, -, hres⟩
    · exact ⟨fun _ => hres, fun hn => absurd hd hn⟩
    · exact ⟨fun h => absurd h hd, fun _ => ⟨err, hres⟩⟩

end Attempts

/-! ## Runs -/

section Runs

variable {F N S R τ : Type} [GoFloat F] [Unicode] {resourceToInternal : Option N → Option S → R}

structure Job (F τ : Type) {N S R : Type} [GoFloat F]
    (resourceToInternal : Option N → Option S → R) where
  batch : ValidBatch F resourceToInternal
  rounds : List (Round (AttemptEnv F τ))

variable (resourceToInternal) in
/-- `metricsRequest` around the exporter's `PushMetrics`. -/
def cortexRequest (cfg : Config) :
    RequestKind (Metrics F N S R) (AttemptEnv F τ) (Post F τ) τ where
  push env md := pushMetrics resourceToInternal cfg.ns (env.pushEnv cfg) md
  onPartialError _ req := req
  count := Metrics.dataPointCount

def Job.run (cfg : Config) (job : Job F τ resourceToInternal) :
    Run (Metrics F N S R) (AttemptEnv F τ) (Post F τ) τ :=
  retrySend (cortexRequest resourceToInternal cfg) cfg.retry job.batch.md job.rounds

/-- The jobs, one after the other, as far as the process lives. -/
def deliverAll (cfg : Config) (jobs : List (Job F τ resourceToInternal)) :
    Go (List (Run (Metrics F N S R) (AttemptEnv F τ) (Post F τ) τ)) :=
  jobs.mapM fun job =>
    match (job.run cfg).ending with
    | .crashed c => .error c
    | _ => .ok (job.run cfg)

/-- The loop goes on after failed attempts, for as long as the back-off and the timers let it. -/
def Persists (cfg : Config) (job : Job F τ resourceToInternal)
    (run : Run (Metrics F N S R) (AttemptEnv F τ) (Post F τ) τ) : Prop :=
  cfg.retry.enabled = true →
    (∀ r ∈ job.rounds, ¬ Delivered cfg job.batch r.env ∧ r.backoff ≠ none ∧ r.wake = .timer) →
    run.attempts.map Attempt.env = job.rounds.map Round.env ∧ run.ending = .running

/-- Every attempt is settled, and the process works through all jobs. -/
def Contained (cfg : Config) (jobs : List (Job F τ resourceToInternal)) : Prop :=
  (∀ job ∈ jobs, ∀ r ∈ job.rounds, Settled cfg job.batch r.env) ∧
    ∃ runs, deliverAll cfg jobs = .ok runs ∧ List.Forall₂ (Persists cfg) jobs runs

theorem intact_cortexRequest (cfg : Config) (md : Metrics F N S R) :
    Intact (cortexRequest (τ := τ) resourceToInternal cfg) md :=
  fun _ _ err _ => leftover_of_whole _ (fun _ => rfl) err

variable {job : Job F τ resourceToInternal}

theorem Job.run_not_crashed {cfg : Config} (h : ∀ r ∈ job.rounds, Settled cfg job.batch r.env)
    (c : Crash) : (job.run cfg).ending ≠ .crashed c :=
  retrySend_not_crashed _ cfg.retry (intact_cortexRequest cfg _)
    (fun r hr => (h r hr).returns) c

theorem Job.persists {cfg : Config} (h : ∀ r ∈ job.rounds, Settled cfg job.batch r.env) :
    Persists cfg job (job.run cfg) := by
  intro hen hfail
  unfold Job.run
  rw [retrySend_enabled _ hen]
  refine retryLoop_again _ (intact_cortexRequest cfg _) fun r hr => ?_
  obtain ⟨hd, hb, hw⟩ := hfail r hr
  obtain ⟨d, hd'⟩ := Option.ne_none_iff_exists'.1 hb
  obtain ⟨hc, hf⟩ := settled_iff.1 (h r hr)
  rcases attempt_result hc hf with ⟨hdel, -⟩ | ⟨-, err, hperm, hres⟩
  · exact absurd hdel hd
  · exact ⟨err, d, ⟨_, hres⟩, hperm, hd', hw⟩

/-- **When failures are contained.** -/
theorem contained_iff (cfg : Config) (jobs : List (Job F τ resourceToInternal)) :
    Contained cfg jobs ↔ ∀ job ∈ jobs, ∀ r ∈ job.rounds,
      Convertible job.batch.internal ∧ ¬ Fatal cfg r.env := by
  constructor
  · rintro ⟨h, -⟩ job hjob r hr
    exact settled_iff.1 (h job hjob r hr)
  · intro h
    have hset : ∀ job ∈ jobs, ∀ r ∈ job.rounds, Settled cfg job.batch r.env :=
      fun job hjob r hr => settled_iff.2 (h job hjob r hr)
    refine ⟨hset, jobs.map (Job.run cfg), ?_, ?_⟩
    · refine Lib.mapM_ok fun job hjob => ?_
      cases hend : (job.run cfg).ending with
      | crashed c => exact absurd hend (Job.run_not_crashed (hset job hjob) c)
      | running | returned => rfl
    · exact List.forall₂_map_right_iff.2
        (List.forall₂_same.2 fun job hjob => Job.persists (hset job hjob))

end Runs

section Refused

attribute [local instance] Unicode.latin1 GoFloat.whole

def gaugeBatch : ValidBatch Int (fun (_ : Option Unit) (_ : Option Unit) => ()) where
  md := .internal [some ⟨(), [some ⟨[some ⟨some ⟨"g", "", "", .int64, .instantaneous⟩,
    some [some ⟨[], 0, 0, 1⟩], none, none, none⟩]⟩]⟩]
  internal := [some ⟨(), [some ⟨[some ⟨some ⟨"g", "", "", .int64, .instantaneous⟩,
    some [some ⟨[], 0, 0, 1⟩], none, none, none⟩]⟩]⟩]
  translates := rfl
  valid _ hm := by
    rw [List.mem_singleton.1 hm]
    rfl
  nonempty := ⟨_, List.mem_cons_self, rfl⟩

def refused : AttemptEnv Int Unit where
  ords _ := .stored
  tsOrder := .stored
  marshal := none
  newRequest := none
  data := []
  hops _ := ⟨fun _ _ => none, fun _ => .error (.new "connection refused")⟩
  parse _ url := .ok url

def signingConfig : Config where
  ns := ""
  endpoint := "http://cortex:9009/api/prom/push"
  auth := ⟨"us-west-2", "aps", true⟩
  retry := createDefaultRetrySettings
  authValid _ := rfl

/-- A refused connection ends the collector. -/
theorem refused_not_contained :
    ¬ Contained signingConfig [⟨gaugeBatch, [⟨refused, some 0, .timer⟩]⟩] := by
  rintro ⟨-, runs, h, -⟩
  have hc : deliverAll signingConfig [⟨gaugeBatch, [⟨refused, some 0, .timer⟩]⟩] =
      .error .logFatal := rfl
  cases h

end Refused

end Collector.Cortex
