import Collector.OtlpExporter.Push

/-!
# What the retry loop makes of a status

A status says whether to try again, and after what delay at the earliest. The
loop keeps to it only by chance: it makes another attempt whatever the code is,
and waits as long as the back-off library says.
-/

namespace Collector.OtlpExporter

open Otlp Pdata ExporterHelper

section Meaning

variable {Q P τ : Type} (k : RequestKind Q (Option Status) P τ) (cfg : RetrySettings)

def Sendable (req : Q) : Prop := ∃ out, (k.push none req).result = .ok out

/-- The run heeds the status that answered its `i`-th attempt `a`. -/
structure Heeds (run : Run Q (Option Status) P τ) (i : Nat) (a : Attempt Q (Option Status) P)
    (st : Status) : Prop where
  noPanic : run.attempts.length = i + 1 → ∀ c, run.ending ≠ .crashed c
  final : shouldRetry st.code = false →
    run.attempts.length = i + 1 ∧ run.ending ≠ .running
  delayed : shouldRetry st.code = true → ∀ t, Asks st t → 0 < nanoseconds t →
    ∀ δ, a.delay = some δ → nanoseconds t ≤ δ.toInt

/-- Every run heeds the status wherever it is answered and the back-off library then says
`backoff`. -/
def KeepsMeaning (st : Status) (backoff : Option Int64) : Prop :=
  ∀ req, Sendable k req → ∀ rounds i r a, rounds[i]? = some r → r.env = some st →
    r.backoff = backoff → (retrySend k cfg req rounds).attempts[i]? = some a →
      Heeds (retrySend k cfg req rounds) i a st

variable [StatusPackage]

/-- The request kinds of the exporter. -/
def WrapsErrors : Prop :=
  ∀ req, Sendable k req → ∃ count pre, ∀ answer,
    (k.push answer req).result = pushData count pre (answer.map .status)

variable {k cfg}

theorem WrapsErrors.intact (hk : WrapsErrors k) {req : Q} (hreq : Sendable k req) :
    Intact k req := by
  intro answer dropped err h
  obtain ⟨count, pre, hpush⟩ := hk req hreq
  rw [hpush] at h
  cases answer with
  | none => cases h
  | some st =>
    rcases pushData_cases (τ := τ) count pre st with ⟨-, h'⟩ | ⟨-, -, err', h'⟩ | ⟨-, h'⟩
    · rw [Option.map_some, h'] at h
      cases h
    · rw [Option.map_some, h'] at h
      cases h
      rfl
    · rw [Option.map_some, h'] at h
      cases h

/-- What holds of a status, the settings and a back-off for the status to be heeded. -/
def Heeded (cfg : RetrySettings) (st : Status) (backoff : Option Int64) : Prop :=
  st.code = .ok ∨ ¬ NilDelay st ∧ (cfg.enabled = false ∨
    if shouldRetry st.code then
      ∀ t, Asks st t → 0 < nanoseconds t → ∀ b, backoff = some b → nanoseconds t ≤ b.toInt
    else backoff = none)

theorem WrapsErrors.cases (hk : WrapsErrors k) {req : Q} (hreq : Sendable k req) (st : Status) :
    st.code = .ok ∧ (k.push (some st) req).result = .ok (0, none) ∨
    st.code ≠ .ok ∧ ¬ NilDelay st ∧ (∃ dropped pre err,
      (k.push (some st) req).result = .ok (dropped, some (.wrap pre err))) ∨
    NilDelay st ∧ (k.push (some st) req).result = .error .nilDereference := by
  obtain ⟨count, pre, hpush⟩ := hk req hreq
  rw [hpush]
  rcases pushData_cases (τ := τ) count pre st with h | ⟨hok, hn, err, h⟩ | h
  · exact .inl h
  · exact .inr (.inl ⟨hok, hn, count, pre, err, h⟩)
  · exact .inr (.inr h)

variable {st : Status} {backoff : Option Int64}

/-- One round is enough to see whether a status is heeded. -/
theorem heeded_of_keepsMeaning (hk : WrapsErrors k) (req : Q) (hreq : Sendable k req)
    (h : KeepsMeaning k cfg st backoff) : Heeded cfg st backoff := by
  have hone : ∀ a, (retrySend k cfg req [⟨some st, backoff, .timer⟩]).attempts[0]? = some a →
      Heeds (retrySend k cfg req [⟨some st, backoff, .timer⟩]) 0 a st :=
    fun a ha => h req hreq _ 0 _ a rfl rfl rfl ha
  rcases hk.cases hreq st with ⟨hok, -⟩ | ⟨hok, hn, dropped, pre, err, hres⟩ | ⟨hn, hres⟩
  · exact .inl hok
  · refine .inr ⟨hn, ?_⟩
    cases hen : cfg.enabled with
    | false => exact .inl rfl
    | true =>
      right
      rw [retrySend_enabled k hen] at hone
      cases backoff with
      | none =>
        split
        · nofun
        · rfl
      | some b =>
        have hrun : retryLoop k req [⟨some st, some b, .timer⟩] =
            ⟨[⟨req, some st, (k.push (some st) req).posts, some b⟩], .running⟩ := by
          simp [retryLoop, hres, GoError.isPermanent, retryDelay]
        rw [hrun] at hone
        have hheeds := hone _ rfl
        split
        · rename_i hretry
          rintro t ht hpos _ ⟨⟩
          exact hheeds.delayed hretry t ht hpos b rfl
        · rename_i hretry
          exact absurd rfl (hheeds.final (by simpa using hretry)).2
  · have hrun : retrySend k cfg req [⟨some st, backoff, .timer⟩] =
        ⟨[⟨req, some st, (k.push (some st) req).posts, none⟩], .crashed .nilDereference⟩ := by
      cases hen : cfg.enabled <;> simp [retrySend, retryLoop, hen, hres]
    rw [hrun] at hone
    exact absurd rfl ((hone _ rfl).noPanic rfl .nilDereference)

omit [StatusPackage] in
theorem Heeded.not_nilDelay (h : Heeded cfg st backoff) : ¬ NilDelay st := by
  rcases h with hok | ⟨hn, -⟩
  · intro hn
    have hr := hn.1
    rw [hok] at hr
    cases hr
  · exact hn

omit [StatusPackage] in
theorem Heeded.delayed (h : Heeded cfg st backoff) (hen : cfg.enabled = true) {b : Int64}
    (hb : backoff = some b) (hretry : shouldRetry st.code = true) {t : ProtoDuration}
    (ht : Asks st t) (hpos : 0 < nanoseconds t) : nanoseconds t ≤ b.toInt := by
  rcases h with hok | ⟨-, hen' | hif⟩
  · rw [hok] at hretry
    cases hretry
  · rw [hen] at hen'
    cases hen'
  · rw [if_pos hretry] at hif
    exact hif t ht hpos b hb

theorem keepsMeaning_of_heeded (hk : WrapsErrors k) (h : Heeded cfg st backoff) :
    KeepsMeaning k cfg st backoff := by
  intro req hreq rounds i r a hr henv hb ha
  have hok : ∀ c, (k.push r.env req).result ≠ .error c := by
    intro c hc
    rw [henv] at hc
    rcases hk.cases hreq st with ⟨-, hres⟩ | ⟨-, -, dropped, pre, err, hres⟩ | ⟨hn, -⟩
    · rw [hres] at hc
      cases hc
    · rw [hres] at hc
      cases hc
    · exact h.not_nilDelay hn
  have hwrap : ∀ dropped err, (k.push r.env req).result = .ok (dropped, some err) →
      st.code ≠ .ok ∧ ∀ d, retryDelay d err = d := by
    intro dropped err herr
    rw [henv] at herr
    rcases hk.cases hreq st with ⟨-, hres⟩ | ⟨hne, -, dropped', pre, err', hres⟩ | ⟨-, hres⟩
    · rw [hres] at herr
      cases herr
    · rw [hres] at herr
      cases herr
      exact ⟨hne, fun _ => rfl⟩
    · rw [hres] at herr
      cases herr
  cases hen : cfg.enabled with
  | false =>
    obtain ⟨hdelay, hlen, hrun, hcrash⟩ := retrySend_disabled k hen hr ha
    refine ⟨fun _ c hc => hok c (hcrash c hc), fun _ => ⟨hlen, hrun⟩, fun _ t _ _ δ hδ => ?_⟩
    rw [hdelay] at hδ
    cases hδ
  | true =>
    rw [retrySend_enabled k hen] at ha ⊢
    rcases retryLoop_followed k (hk.intact hreq) hr ha with
      ⟨err, d, hag, hdelay, hlast⟩ | ⟨hlen, hrun, hcrash, hdelay⟩
    · obtain ⟨dropped, hres⟩ := hag.result
      obtain ⟨hne, hwait⟩ := hwrap dropped err hres
      refine ⟨fun hlen c hc => ?_, fun hretry => ?_, fun hretry t ht hpos δ hδ => ?_⟩
      · rw [hlast hlen] at hc
        cases hc
      · -- another attempt follows, so the library has given a back-off
        rcases h with hok | ⟨-, hen' | hif⟩
        · exact absurd hok hne
        · rw [hen] at hen'
          cases hen'
        · rw [hretry, if_neg Bool.false_ne_true, ← hb, hag.backoff] at hif
          cases hif
      · rw [hdelay, hwait] at hδ
        cases hδ
        exact h.delayed hen (hb.symm.trans hag.backoff) hretry ht hpos
    · refine ⟨fun _ c hc => hok c (hcrash c hc), fun _ => ⟨hlen, hrun⟩,
        fun hretry t ht hpos δ hδ => ?_⟩
      obtain ⟨dropped, err, d, hres, hback, rfl⟩ := hdelay δ hδ
      rw [(hwrap dropped err hres).2]
      exact h.delayed hen (hb.symm.trans hback) hretry ht hpos

end Meaning

section Exporter

variable {F N S R X : Type} [StatusPackage]

theorem wrapsErrors_tracesRequest : WrapsErrors (tracesRequest (R := R) (X := X)) :=
  fun td _ => ⟨spanCount td, _, fun _ => rfl⟩

theorem wrapsErrors_logsRequest : WrapsErrors (logsRequest (R := R) (X := X)) :=
  fun ld _ => ⟨logRecordCount ld, _, fun _ => rfl⟩

theorem wrapsErrors_metricsRequest [GoFloat F] (resourceToInternal : Option N → Option S → R) :
    WrapsErrors (metricsRequest (F := F) (X := X) resourceToInternal) := by
  rintro md ⟨out, hout⟩
  cases hmd : md.toOldInternalMetrics resourceToInternal with
  | error c =>
    simp only [metricsRequest, pushMetricsData, hmd] at hout
    cases hout
  | ok imd =>
    refine ⟨Otlp.metricCount imd, "failed to push metrics data via OTLP exporter: ",
      fun answer => ?_⟩
    simp only [metricsRequest, pushMetricsData, hmd]
    rfl

/-- **Which statuses the retry loop heeds**, after any of the three push functions. -/
theorem keepsMeaning_iff [GoFloat F] (resourceToInternal : Option N → Option S → R)
    (cfg : RetrySettings) (st : Status) (backoff : Option Int64) :
    (KeepsMeaning (tracesRequest (R := R) (X := X)) cfg st backoff ∧
      KeepsMeaning (metricsRequest (F := F) (X := X) resourceToInternal) cfg st backoff ∧
      KeepsMeaning (logsRequest (R := R) (X := X)) cfg st backoff) ↔ Heeded cfg st backoff := by
  constructor
  · rintro ⟨h, -, -⟩
    exact heeded_of_keepsMeaning wrapsErrors_tracesRequest [] ⟨_, rfl⟩ h
  · intro h
    exact ⟨keepsMeaning_of_heeded wrapsErrors_tracesRequest h,
      keepsMeaning_of_heeded (wrapsErrors_metricsRequest resourceToInternal) h,
      keepsMeaning_of_heeded wrapsErrors_logsRequest h⟩

end Exporter

/-- An error that is no status is one of an unknown code. -/
@[reducible] def StatusPackage.unknown : StatusPackage where
  convert
    | .status st => st
    | err => ⟨.unknown, err.error, []⟩
  convert_status _ := rfl

attribute [local instance] StatusPackage.unknown

/-- An invalid argument is sent again, a delay of a minute is cut to the back-off of five seconds,
and a `RetryInfo` without a delay ends the process. -/
theorem statuses_not_heeded :
    ¬ KeepsMeaning (tracesRequest (R := Unit) (X := Unit)) createDefaultRetrySettings
      ⟨.invalidArgument, "", []⟩ (some 5000000000) ∧
    ¬ KeepsMeaning (tracesRequest (R := Unit) (X := Unit)) createDefaultRetrySettings
      ⟨.unavailable, "", [.retryInfo (some ⟨60, 0⟩)]⟩ (some 5000000000) ∧
    ¬ KeepsMeaning (tracesRequest (R := Unit) (X := Unit)) createDefaultRetrySettings
      ⟨.unavailable, "", [.retryInfo none]⟩ (some 5000000000) := by
  have hone : ∀ st, KeepsMeaning (tracesRequest (R := Unit) (X := Unit))
      createDefaultRetrySettings st (some 5000000000) → ∀ a,
      (retrySend tracesRequest createDefaultRetrySettings []
        [⟨some st, some 5000000000, .timer⟩]).attempts[0]? = some a →
      Heeds (retrySend tracesRequest createDefaultRetrySettings []
        [⟨some st, some 5000000000, .timer⟩]) 0 a st :=
    fun st h a ha => h [] ⟨_, rfl⟩ _ 0 _ a rfl rfl rfl ha
  refine ⟨fun h => ?_, fun h => ?_, fun h => ?_⟩
  · exact absurd rfl ((hone _ h _ rfl).final rfl).2
  · exact absurd ((hone _ h _ rfl).delayed rfl ⟨60, 0⟩ List.mem_cons_self (by decide) _ rfl)
      (by decide)
  · exact absurd rfl ((hone _ h _ rfl).noPanic rfl .nilDereference)

end Collector.OtlpExporter
