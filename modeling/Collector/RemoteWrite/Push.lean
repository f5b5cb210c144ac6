import Collector.ExporterHelper.Retry
import Collector.Go.Http
import Collector.Pdata.Metrics
import Collector.RemoteWrite.Grouping

/-!
# Pushing a batch

`PrwExporter.PushMetrics` and `export`: the conversion, one POST of the series,
and how the answer becomes a count of dropped metrics and an error. What an
attempt meets outside the exporter is a `PushEnv`. `fmt.Errorf` is called on the
status line without operands; the text stands for the format here.
-/

namespace Collector.RemoteWrite

open Otlp Lib Pdata ExporterHelper

abbrev WriteRequest (F : Type) := List (TimeSeries (Sample F))

structure Post (F τ : Type) where
  request : WriteRequest F
  exchange : Http.Exchange τ

/-- The endpoint answered the POST with a 2xx status. -/
def Post.Accepted {F τ : Type} (p : Post F τ) : Prop :=
  ∃ resp, p.exchange = .ok (.ok resp) ∧ resp.success = true

/-- What one call of `PushMetrics` meets. -/
structure PushEnv (F τ : Type) where
  /-- `closeChan` is closed. -/
  closed : Bool
  ords : Nat → MapOrder Label
  tsOrder : MapOrder (TimeSeries (Sample F))
  /-- The error of `proto.Marshal`. -/
  marshal : Option (GoError τ)
  /-- The error of `http.NewRequest`. -/
  newRequest : Option (GoError τ)
  /-- What `client.Do` makes of the request. -/
  exchange : Http.Exchange τ

section Push

variable {F N S R τ : Type}

def wrapTimeSeries (ord : MapOrder (TimeSeries (Sample F))) (tsMap : TsMap (Sample F)) :
    Except (GoError τ) (WriteRequest F) :=
  if tsMap.entries.length = 0 then .error (.new "invalid TsMap: cannot be empty map")
  else .ok (ord.order tsMap.values)

def answerError : Except (GoError τ) Http.Response → Option (GoError τ)
  | .error err => some err
  | .ok resp =>
    if resp.success then none
    else some (.new ("server returned HTTP status " ++ resp.status ++ ": " ++ resp.line))

theorem answerError_eq_none_iff {a : Except (GoError τ) Http.Response} :
    answerError a = none ↔ ∃ resp, a = .ok resp ∧ resp.success = true := by
  cases a with
  | error | ok => simp [answerError]

/-- `export`. -/
def exportTsMap (env : PushEnv F τ) (tsMap : TsMap (Sample F)) :
    Sent (Post F τ) (Option (GoError τ)) :=
  match wrapTimeSeries env.tsOrder tsMap with
  | .error err => ⟨[], .ok (some err)⟩
  | .ok req =>
    match env.marshal, env.newRequest with
    | some err, _ => ⟨[], .ok (some err)⟩
    | none, some err => ⟨[], .ok (some err)⟩
    | none, none => ⟨[⟨req, env.exchange⟩], env.exchange.map answerError⟩

/-- The end of `PushMetrics`: a failed export drops the whole batch. -/
def pushResult (count : Nat) (st : PushState F τ) (err : Option (GoError τ)) : Outcome τ :=
  let dropped := if err.isSome then count else st.dropped
  let errs := st.errs ++ err.toList
  if dropped ≠ 0 then (dropped, GoError.combineErrors errs) else (0, none)

/-- **The export of a map with some series**: it fails before the POST, or the exchange decides. -/
theorem exportTsMap_cases (env : PushEnv F τ) {tsMap : TsMap (Sample F)}
    (h : tsMap.entries.length ≠ 0) :
    (∃ err, (env.marshal = some err ∨ env.newRequest = some err) ∧
      exportTsMap env tsMap = ⟨[], .ok (some err)⟩) ∨
    env.marshal = none ∧ env.newRequest = none ∧
      exportTsMap env tsMap = ⟨[⟨env.tsOrder.order tsMap.values, env.exchange⟩],
        env.exchange.map answerError⟩ := by
  unfold exportTsMap wrapTimeSeries
  rw [if_neg h]
  cases hm : env.marshal with
  | some err => exact .inl ⟨err, .inl rfl, rfl⟩
  | none =>
    cases hn : env.newRequest with
    | some err => exact .inl ⟨err, .inr rfl, rfl⟩
    | none => exact .inr ⟨rfl, rfl, rfl⟩

variable [Unicode] [GoFloat F] (resourceToInternal : Option N → Option S → R) (ns : String)

def pushMetrics (env : PushEnv F τ) (md : Metrics F N S R) : Sent (Post F τ) (Outcome τ) :=
  if env.closed then ⟨[], .ok (md.metricCount, some (.new "shutdown has been called"))⟩
  else
    match md.toOldInternalMetrics resourceToInternal >>= convert env.ords ns with
    | .error c => ⟨[], .error c⟩
    | .ok st => (exportTsMap env st.conv.tsMap).map (pushResult md.metricCount st)

/-! ## What a push does -/

/-- The batch reaches the export, as these internal metrics. -/
def Reaches (md : Metrics F N S R) (md' : MetricData F R) : Prop :=
  md.toOldInternalMetrics resourceToInternal = .ok md' ∧ Convertible md'

variable {resourceToInternal ns}

variable (ns) in
theorem tsMap_nonempty (ords : Nat → MapOrder Label) {md : MetricData F R} (h : Convertible md)
    (he : emissions ns md ≠ []) :
    (pushed ords ns (PushState.init : PushState F τ) md).conv.tsMap.entries.length ≠ 0 := by
  obtain ⟨e, hmem⟩ := List.exists_mem_of_ne_nil _ he
  obtain ⟨st, hst, k, ts, hk, -⟩ := sample_mem_tsMap ns τ ords h hmem
  rw [convert_ok ords ns h] at hst
  cases hst
  intro hz
  have hts := GoMap.mem_values.2 ⟨k, hk⟩
  rw [GoMap.values, List.length_eq_zero_iff.1 hz] at hts
  cases hts

variable {env : PushEnv F τ} {md : Metrics F N S R}

theorem pushMetrics_open {md' : MetricData F R} (hc : env.closed = false)
    (h : Reaches resourceToInternal md md') :
    pushMetrics resourceToInternal ns env md =
      (exportTsMap env (pushed env.ords ns (PushState.init : PushState F τ) md').conv.tsMap).map
        (pushResult md.metricCount (pushed env.ords ns PushState.init md')) := by
  have hst : (md.toOldInternalMetrics resourceToInternal >>= convert env.ords ns) =
      .ok (pushed env.ords ns (PushState.init : PushState F τ) md') := by
    rw [h.1]
    exact convert_ok env.ords ns h.2
  simp only [pushMetrics, hc, hst]
  rfl

theorem pushMetrics_crash (hc : env.closed = false)
    (h : ∀ md', ¬ Reaches resourceToInternal md md') :
    ∃ c, pushMetrics resourceToInternal ns env md = ⟨[], .error c⟩ := by
  obtain ⟨c, hcr⟩ : ∃ c, (md.toOldInternalMetrics resourceToInternal >>=
      convert (τ := τ) env.ords ns) = .error c := by
    cases hmd : md.toOldInternalMetrics resourceToInternal with
    | error c => exact ⟨c, rfl⟩
    | ok md' => exact convert_crash env.ords ns fun hconv => h md' ⟨hmd, hconv⟩
  refine ⟨c, ?_⟩
  simp only [pushMetrics, hc, hcr]
  rfl

theorem pushMetrics_closed (hc : env.closed = true) :
    pushMetrics resourceToInternal ns env md =
      ⟨[], .ok (md.metricCount, some (.new "shutdown has been called"))⟩ := by
  simp only [pushMetrics, hc]
  rfl

theorem pushMetrics_silent (h : env.closed = true ∨ ∀ md', ¬ Reaches resourceToInternal md md') :
    (pushMetrics resourceToInternal ns env md).posts = [] := by
  cases hc : env.closed with
  | true => rw [pushMetrics_closed hc]
  | false =>
    rcases h with h | h
    · rw [hc] at h
      cases h
    · obtain ⟨c, hcr⟩ : ∃ c, pushMetrics resourceToInternal ns env md = ⟨[], .error c⟩ :=
        pushMetrics_crash hc h
      rw [hcr]

end Push

end Collector.RemoteWrite
