import Collector.ExporterHelper.Retry
import Collector.Pdata.Traces
import Collector.Pdata.Metrics

/-!
# The chain of senders

A request of each signal goes through an observability sender, the retry loop and
`timeoutSender` to the pusher of the exporter. The caller of the chain is whoever calls
`queuedRetrySender.send`, or a consumer of its queue. The number of dropped items
comes back the same way: as the pusher or the loop reports it (`reported`), except
that `metricsSenderWithObservability` replaces it by the number of metrics sent.
-/

namespace Collector.ExporterHelper

open Pdata

section Senders

variable {Q A P F N S R X τ : Type}

/-! ## Requests -/

def tracesRequest (pusher : A → Traces R X → Sent P (Outcome (Traces R X))) :
    RequestKind (Traces R X) A P (Traces R X) where
  push := pusher
  onPartialError failed _ := failed
  count := spanCount

def metricsRequest (pusher : A → Metrics F N S R → Sent P (Outcome τ)) :
    RequestKind (Metrics F N S R) A P τ where
  push := pusher
  onPartialError _ req := req
  count md := md.metricAndDataPointCount.2

def logsRequest (pusher : A → Logs R X → Sent P (Outcome τ)) :
    RequestKind (Logs R X) A P τ where
  push := pusher
  onPartialError _ req := req
  count := logRecordCount

/-! ## Senders -/

/-- A run whose result is passed on as `f` has it. -/
def Run.pass (f : Outcome τ → Outcome τ) (run : Run Q A P τ) : Run Q A P τ where
  attempts := run.attempts
  ending :=
    match run.ending with
    | .returned out => .returned (f out)
    | .running => .running
    | .crashed c => .crashed c

/-- `tracesExporterWithObservability.send`. -/
def tracesExporterWithObservability (nextSender : Traces R X → Run (Traces R X) A P τ)
    (td : Traces R X) : Run (Traces R X) A P τ :=
  (nextSender td).pass fun (droppedSpans, err) => (droppedSpans, err)

/-- `metricsSenderWithObservability.send`. -/
def metricsSenderWithObservability (nextSender : Metrics F N S R → Run (Metrics F N S R) A P τ)
    (md : Metrics F N S R) : Run (Metrics F N S R) A P τ :=
  (nextSender md).pass fun (_numDroppedMetrics, err) =>
    let (numReceivedMetrics, _numPoints) := md.metricAndDataPointCount
    (numReceivedMetrics, err)

/-- `logsExporterWithObservability.send`. -/
def logsExporterWithObservability (nextSender : Logs R X → Run (Logs R X) A P τ)
    (ld : Logs R X) : Run (Logs R X) A P τ :=
  (nextSender ld).pass fun (numDroppedLogs, err) => (numDroppedLogs, err)

def tracesSend (pusher : A → Traces R X → Sent P (Outcome (Traces R X))) (cfg : RetrySettings)
    (rounds : List (Round A)) : Traces R X → Run (Traces R X) A P (Traces R X) :=
  tracesExporterWithObservability fun td => retrySend (tracesRequest pusher) cfg td rounds

def metricsSend (pusher : A → Metrics F N S R → Sent P (Outcome τ)) (cfg : RetrySettings)
    (rounds : List (Round A)) : Metrics F N S R → Run (Metrics F N S R) A P τ :=
  metricsSenderWithObservability fun md => retrySend (metricsRequest pusher) cfg md rounds

def logsSend (pusher : A → Logs R X → Sent P (Outcome τ)) (cfg : RetrySettings)
    (rounds : List (Round A)) : Logs R X → Run (Logs R X) A P τ :=
  logsExporterWithObservability fun ld => retrySend (logsRequest pusher) cfg ld rounds

structure QueueSettings where
  enabled : Bool
  numConsumers : Nat
  queueSize : Nat
  deriving DecidableEq, Repr

def errorRefused : GoError τ := .new "failed to add to the queue"

/-- A call of `queuedRetrySender.send`: what the caller gets, and the call of the consumer sender
that is made for it, by the caller or by a consumer of the queue. -/
structure Queued (Q A P τ : Type) where
  answer : Ending τ
  consumed : Option (Run Q A P τ)

/-- `queuedRetrySender.send`. `produced` is what `queue.Produce` answers. -/
def queuedSend (cfg : QueueSettings) (produced : Bool) (count : Q → Nat)
    (consumerSender : Q → Run Q A P τ) (req : Q) : Queued Q A P τ :=
  if !cfg.enabled then ⟨(consumerSender req).ending, some (consumerSender req)⟩
  else if !produced then ⟨.returned (count req, some errorRefused), none⟩
  else ⟨.returned (0, none), some (consumerSender req)⟩

theorem consumed_queuedSend {cfg : QueueSettings} {produced : Bool} {count : Q → Nat}
    {consumerSender : Q → Run Q A P τ} {req : Q} {run : Run Q A P τ}
    (h : (queuedSend cfg produced count consumerSender req).consumed = some run) :
    run = consumerSender req := by
  unfold queuedSend at h
  split at h
  · cases h
    rfl
  · split at h
    · cases h
    · cases h
      rfl

/-! ## The number of dropped items -/

/-- The run of a chain returns the dropped items that were reported for the last attempt of the
retry loop, in the unit in which the pusher and the `count` of the request report them. -/
structure CountsDrops (k : RequestKind Q A P τ) (cfg : RetrySettings) (rounds : List (Round A))
    (req : Q) (run : Run Q A P τ) : Prop where
  returns : ExitsReturn k cfg rounds req run
  reported : ∀ n err, run.ending = .returned (n, err) → ∃ req' r out,
    LastRound k cfg req rounds req' r ∧ (k.push r.env req').result = .ok out ∧
      n = reported k cfg req' out
  none_dropped : ∀ n, run.ending = .returned (n, none) →
    (∀ req' r dropped, LastRound k cfg req rounds req' r →
      (k.push r.env req').result = .ok (dropped, none) → dropped = 0) → n = 0

theorem countsDrops_retrySend (k : RequestKind Q A P τ) (cfg : RetrySettings)
    (rounds : List (Round A)) (req : Q) :
    CountsDrops k cfg rounds req (retrySend k cfg req rounds) := by
  refine ⟨exitsReturn_retrySend k cfg rounds req, fun n err h => ?_, fun n h hzero => ?_⟩
  · obtain ⟨req', r, -, hlast, -⟩ := lastRound_of_returned k h
    obtain ⟨out, hres, hn, -⟩ := hlast.returned k h
    exact ⟨req', r, out, hlast, hres, hn⟩
  · obtain ⟨req', r, -, hlast, -⟩ := lastRound_of_returned k h
    obtain ⟨⟨dropped, err⟩, hres, rfl, hnone⟩ := hlast.returned k h
    obtain rfl : err = none := hnone.1 rfl
    exact hzero req' r dropped hlast hres

theorem pass_id (run : Run Q A P τ) : run.pass (fun out => (out.1, out.2)) = run := by
  obtain ⟨attempts, ending⟩ := run
  cases ending <;> rfl

theorem returned_pass {f : Outcome τ → Outcome τ} {run : Run Q A P τ} {res : Outcome τ}
    (h : (run.pass f).ending = .returned res) :
    ∃ out, run.ending = .returned out ∧ res = f out := by
  obtain ⟨attempts, ending⟩ := run
  cases ending with
  | returned out =>
    cases h
    exact ⟨out, rfl, rfl⟩
  | running | crashed => cases h

variable {pusher : A → Metrics F N S R → Sent P (Outcome τ)}

theorem lastRound_metricsRequest {cfg : RetrySettings} {md md' : Metrics F N S R}
    {rounds : List (Round A)} {r : Round A}
    (h : LastRound (metricsRequest pusher) cfg md rounds md' r) : md' = md := by
  induction h with
  | disabled | here => rfl
  | later _ _ _ ih => exact ih.trans (leftover_of_whole _ (fun _ => rfl) _)

theorem ending_metricsSend {cfg : RetrySettings} {rounds : List (Round A)} {md : Metrics F N S R}
    {r : Round A} {out : Outcome τ} (h : LastRound (metricsRequest pusher) cfg md rounds md r)
    (hres : (pusher r.env md).result = .ok out) :
    ∃ err, (metricsSend pusher cfg rounds md).ending =
      .returned (md.metricAndDataPointCount.1, err) ∧ (err = none ↔ out.2 = none) := by
  obtain ⟨err, hend, hnone⟩ := h.ending _ hres
  refine ⟨err, ?_, hnone⟩
  simp only [metricsSend, metricsSenderWithObservability, Run.pass, hend]

/-- **The number that comes back through the chain.** Traces and logs: what the pusher or the
retry loop reported. Metrics: that only where it happens to be the number of metrics. -/
theorem countsDrops_iff (queue : QueueSettings) (produced : Bool) (cfg : RetrySettings)
    (rounds : List (Round A)) :
    (∀ (pusher : A → Traces R X → Sent P (Outcome (Traces R X))) (td : Traces R X) (run),
      (queuedSend queue produced spanCount (tracesSend pusher cfg rounds) td).consumed = some run →
      CountsDrops (tracesRequest pusher) cfg rounds td run) ∧
    (∀ (pusher : A → Logs R X → Sent P (Outcome τ)) (ld : Logs R X) (run),
      (queuedSend queue produced logRecordCount (logsSend pusher cfg rounds) ld).consumed =
        some run →
      CountsDrops (logsRequest pusher) cfg rounds ld run) ∧
    ∀ (pusher : A → Metrics F N S R → Sent P (Outcome τ)) (md : Metrics F N S R) (run),
      (queuedSend queue produced (metricsRequest pusher).count (metricsSend pusher cfg rounds)
        md).consumed = some run →
      (CountsDrops (metricsRequest pusher) cfg rounds md run ↔
        ∀ r out, LastRound (metricsRequest pusher) cfg md rounds md r →
          (pusher r.env md).result = .ok out →
          reported (metricsRequest pusher) cfg md out = md.metricAndDataPointCount.1) := by
  refine ⟨fun pusher td run hrun => ?_, fun pusher ld run hrun => ?_, fun pusher md run hrun => ?_⟩
  · rw [consumed_queuedSend hrun, tracesSend, tracesExporterWithObservability, pass_id]
    exact countsDrops_retrySend _ cfg rounds td
  · rw [consumed_queuedSend hrun, logsSend, logsExporterWithObservability, pass_id]
    exact countsDrops_retrySend _ cfg rounds ld
  · rw [consumed_queuedSend hrun]
    constructor
    · intro h r out hlast hres
      obtain ⟨err, hend, -⟩ := ending_metricsSend hlast hres
      obtain ⟨md', r', out', hlast', hres', hn⟩ := h.reported _ _ hend
      obtain ⟨rfl, rfl⟩ := hlast.unique _ hlast'
      obtain rfl : out = out' := Except.ok.inj (hres.symm.trans hres')
      exact hn.symm
    · intro h
      have hinner := countsDrops_retrySend (metricsRequest pusher) cfg rounds md
      have hcount : ∀ n err, (metricsSend pusher cfg rounds md).ending = .returned (n, err) →
          (retrySend (metricsRequest pusher) cfg md rounds).ending = .returned (n, err) := by
        intro n err hend
        obtain ⟨⟨m, e⟩, hret, hout⟩ := returned_pass hend
        obtain ⟨hn, rfl⟩ : n = md.metricAndDataPointCount.1 ∧ err = e := Prod.mk.inj hout
        obtain ⟨md', r, out, hlast, hres, rfl⟩ := hinner.reported _ _ hret
        obtain rfl := lastRound_metricsRequest hlast
        rw [hn, ← h r out hlast hres]
        exact hret
      refine ⟨fun md' r out hlast hres => ?_,
        fun n err hend => hinner.reported n err (hcount n err hend),
        fun n hend hzero => hinner.none_dropped n (hcount n none hend) hzero⟩
      obtain rfl := lastRound_metricsRequest hlast
      obtain ⟨err, hend, -⟩ := ending_metricsSend hlast hres
      exact ⟨_, err, hend⟩

end Senders

def oneGauge : Metrics Int Unit Unit Unit :=
  .openCensus [⟨none, none, [some ⟨none, [some ⟨none, [], [some ⟨none, none⟩]⟩], none⟩]⟩]

def acceptAll (_ : Unit) (_ : Metrics Int Unit Unit Unit) : Sent Unit (Outcome Unit) :=
  ⟨[()], .ok (0, none)⟩

def oneRound : List (Round Unit) := [⟨(), none, .timer⟩]

/-- A batch of one time series that was accepted comes back as one dropped item. -/
theorem accepted_counts_as_dropped :
    (metricsSend acceptAll createDefaultRetrySettings oneRound oneGauge).ending =
        .returned (1, none) ∧
      ¬ CountsDrops (metricsRequest acceptAll) createDefaultRetrySettings oneRound oneGauge
        (metricsSend acceptAll createDefaultRetrySettings oneRound oneGauge) := by
  have hend : (metricsSend acceptAll createDefaultRetrySettings oneRound oneGauge).ending =
      .returned (1, none) := rfl
  refine ⟨hend, fun h => ?_⟩
  have hzero := h.none_dropped 1 hend fun _ _ dropped _ hres => by
    cases hres
    rfl
  cases hzero

end Collector.ExporterHelper
