import Collector.ExporterHelper.Retry
import Collector.Pdata.Traces
import Collector.Pdata.Metrics

/-!
# The OTLP exporter

`processError` sorts the answer of a server into success, permanent errors,
throttling and errors to retry, for the retry loop to act on. The push functions
wrap what it returns with `fmt.Errorf`, and the loop looks at types only: it
sees neither the permanent errors nor the throttling, so it retries every error
and waits as long as its own back-off says.
-/

namespace Collector.OtlpExporter

open Otlp Pdata ExporterHelper

/-- The package `status` of gRPC. -/
class StatusPackage where
  /-- `status.Convert`. -/
  convert {τ : Type} : GoError τ → Status
  convert_status {τ : Type} (st : Status) : convert (.status st : GoError τ) = st

section Push

variable {F N S R X τ : Type}

def shouldRetry : Code → Bool
  | .canceled | .deadlineExceeded | .permissionDenied | .unauthenticated | .resourceExhausted
  | .aborted | .outOfRange | .unavailable | .dataLoss => true
  | _ => false

/-- The `time.Duration` of a delay, which may overflow. -/
def throttleDuration (t : ProtoDuration) : Int64 := t.seconds * 1000000000 + t.nanos.toInt64

/-- `getThrottleDuration`: the first `RetryInfo` decides. -/
def getThrottleDuration : List Detail → Go Int64
  | [] => .ok 0
  | .retryInfo t :: _ => do
    let t ← deref t
    if t.seconds > 0 ∨ t.nanos > 0 then .ok (throttleDuration t) else .ok 0
  | _ :: details => getThrottleDuration details

def errPermanentError : GoError τ := .permanent (.new "fatal error sending to server")

variable [StatusPackage]

open StatusPackage (convert) in
def processError : Option (GoError τ) → Go (Option (GoError τ))
  | none => .ok none
  | some err =>
    if (convert err).code = .ok then .ok none
    else if shouldRetry (convert err).code then do
      let delay ← getThrottleDuration (convert err).details
      if delay ≠ 0 then .ok (some (.throttleRetry err delay)) else .ok (some err)
    else .ok (some errPermanentError)

/-- What the push functions share: the error is wrapped, and all items are dropped. -/
def pushData (count : Nat) (pre : String) (answer : Option (GoError τ)) : Go (Outcome τ) := do
  match ← processError answer with
  | some err => .ok (count, some (.wrap pre err))
  | none => .ok (0, none)

def pushTraceData (answer : Option (GoError τ)) (td : Traces R X) : Go (Outcome τ) :=
  pushData (spanCount td) "failed to push trace data via OTLP exporter: " answer

def pushMetricsData [GoFloat F] (resourceToInternal : Option N → Option S → R)
    (answer : Option (GoError τ)) (md : Metrics F N S R) : Go (Outcome τ) := do
  let imd ← md.toOldInternalMetrics resourceToInternal
  pushData (Otlp.metricCount imd) "failed to push metrics data via OTLP exporter: " answer

def pushLogData (answer : Option (GoError τ)) (ld : Logs R X) : Go (Outcome τ) :=
  pushData (logRecordCount ld) "failed to push log data via OTLP exporter: " answer

/-! ## Requests

An attempt meets the status the server answers with, if any.
-/

/-- `tracesRequest` around `pushTraceData`. -/
def tracesRequest : RequestKind (Traces R X) (Option Status) (Option Status) (Traces R X) where
  push answer td := ⟨[answer], pushTraceData (answer.map .status) td⟩
  onPartialError failed _ := failed
  count := spanCount

/-- `metricsRequest` around `pushMetricsData`. -/
def metricsRequest [GoFloat F] (resourceToInternal : Option N → Option S → R) :
    RequestKind (Metrics F N S R) (Option Status) (Option Status) (Traces R X) where
  push answer md := ⟨[answer], pushMetricsData resourceToInternal (answer.map .status) md⟩
  onPartialError _ req := req
  count := Metrics.dataPointCount

/-- `logsRequest` around `pushLogData`. -/
def logsRequest : RequestKind (Logs R X) (Option Status) (Option Status) (Traces R X) where
  push answer ld := ⟨[answer], pushLogData (answer.map .status) ld⟩
  onPartialError _ req := req
  count := logRecordCount

end Push

/-! ## What a status asks for -/

def nanoseconds (t : ProtoDuration) : Int := t.seconds.toInt * 1000000000 + t.nanos.toInt

/-- The status carries a `RetryInfo` with this delay. -/
def Asks (st : Status) (t : ProtoDuration) : Prop := Detail.retryInfo (some t) ∈ st.details

/-- The first `RetryInfo` of the details. -/
def firstRetryInfo : List Detail → Option (Option ProtoDuration)
  | [] => none
  | .retryInfo t :: _ => some t
  | _ :: details => firstRetryInfo details

/-- The status makes `getThrottleDuration` read a nil delay. -/
def NilDelay (st : Status) : Prop :=
  shouldRetry st.code = true ∧ firstRetryInfo st.details = some none

theorem getThrottleDuration_ok {details : List Detail} (h : firstRetryInfo details ≠ some none) :
    ∃ delay, getThrottleDuration details = .ok delay := by
  induction details with
  | nil => exact ⟨0, rfl⟩
  | cons detail details ih =>
    cases detail with
    | retryInfo t =>
      cases t with
      | none => exact absurd rfl h
      | some t =>
        show ∃ delay, (if t.seconds > 0 ∨ t.nanos > 0 then Except.ok (throttleDuration t)
          else Except.ok 0) = (Except.ok delay : Go Int64)
        split
        all_goals exact ⟨_, rfl⟩
    | message | undecodable => exact ih h

theorem getThrottleDuration_crash {details : List Detail} (h : firstRetryInfo details = some none) :
    getThrottleDuration details = .error .nilDereference := by
  induction details with
  | nil => cases h
  | cons detail details ih =>
    cases detail with
    | retryInfo t =>
      cases h
      rfl
    | message | undecodable => exact ih h

section Outcomes

variable [StatusPackage] {τ : Type}

theorem processError_cases (st : Status) :
    st.code = .ok ∧ processError (some (.status st : GoError τ)) = .ok none ∨
    st.code ≠ .ok ∧ ¬ NilDelay st ∧
      (∃ err, processError (some (.status st : GoError τ)) = .ok (some err)) ∨
    NilDelay st ∧ processError (some (.status st : GoError τ)) = .error .nilDereference := by
  by_cases hok : st.code = .ok
  · exact .inl ⟨hok, by simp [processError, StatusPackage.convert_status, hok]⟩
  · cases hr : shouldRetry st.code with
    | false =>
      have hn : ¬ NilDelay st := fun h => by rw [h.1] at hr; cases hr
      exact .inr (.inl ⟨hok, hn, errPermanentError, by
        simp [processError, StatusPackage.convert_status, hok, hr]⟩)
    | true =>
      by_cases hnil : firstRetryInfo st.details = some none
      · refine .inr (.inr ⟨⟨hr, hnil⟩, ?_⟩)
        simp [processError, StatusPackage.convert_status, hok, hr, getThrottleDuration_crash hnil,
          Bind.bind, Except.bind]
      · obtain ⟨delay, hd⟩ := getThrottleDuration_ok hnil
        refine .inr (.inl ⟨hok, fun h => hnil h.2, ?_⟩)
        by_cases hz : delay = 0
        · refine ⟨.status st, ?_⟩
          simp [processError, StatusPackage.convert_status, hok, hr, hd, hz, Bind.bind, Except.bind]
        · refine ⟨.throttleRetry (.status st) delay, ?_⟩
          simp [processError, StatusPackage.convert_status, hok, hr, hd, hz, Bind.bind, Except.bind]

/-- **The outcome of a push that was answered with a status**: success, a wrapped error, or a
crash. -/
theorem pushData_cases (count : Nat) (pre : String) (st : Status) :
    st.code = .ok ∧ pushData count pre (some (.status st : GoError τ)) = .ok (0, none) ∨
    st.code ≠ .ok ∧ ¬ NilDelay st ∧ (∃ err,
      pushData count pre (some (.status st : GoError τ)) = .ok (count, some (.wrap pre err))) ∨
    NilDelay st ∧ pushData count pre (some (.status st : GoError τ)) = .error .nilDereference := by
  unfold pushData
  rcases processError_cases (τ := τ) st with ⟨hok, h⟩ | ⟨hok, hn, err, h⟩ | ⟨hn, h⟩
  · exact .inl ⟨hok, by rw [h]; rfl⟩
  · exact .inr (.inl ⟨hok, hn, err, by rw [h]; rfl⟩)
  · exact .inr (.inr ⟨hn, by rw [h]; rfl⟩)

end Outcomes

end Collector.OtlpExporter
