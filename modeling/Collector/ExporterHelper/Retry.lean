import Collector.Go.Errors

/-!
# The retry loop

`retrySender.send` of `exporterhelper/queued_retry.go`. What the loop cannot
decide comes from outside, round by round (`Round`): how the attempt turns out,
what the back-off library answers, and what ends the wait. A list of rounds
drives the loop for as long as it lasts, so a statement about every list is one
about every run. The run keeps a record of its attempts.

`Q` is the type of requests, `A` what decides one attempt and `P` what can be
seen of one on the wire. The deadline that `timeoutSender` puts on an attempt
is part of `A`.
-/

namespace Collector.ExporterHelper

/-- An attempt: what was put on the wire, and how the call ended. -/
structure Sent (P ρ : Type) where
  posts : List P
  result : Go ρ

def Sent.map {P ρ σ : Type} (f : ρ → σ) (sent : Sent P ρ) : Sent P σ :=
  ⟨sent.posts, sent.result.map f⟩

/-- The result of a `send`: the dropped items and the error. -/
abbrev Outcome (τ : Type) := Nat × Option (GoError τ)

/-- A kind of request: how it is exported, what is left of it after a partial error, and how many
items it counts. -/
structure RequestKind (Q A P τ : Type) where
  push : A → Q → Sent P (Outcome τ)
  onPartialError : τ → Q → Q
  count : Q → Nat

/-- What ends the wait before the next attempt. -/
inductive Wake where
  | cancelled
  | stopped
  | timer
  deriving DecidableEq, Repr

structure Round (A : Type) where
  env : A
  /-- `expBackoff.NextBackOff()`; `none` is `backoff.Stop`. -/
  backoff : Option Int64
  wake : Wake

/-- The record of an attempt, with the delay chosen after it. -/
structure Attempt (Q A P : Type) where
  req : Q
  env : A
  posts : List P
  delay : Option Int64

inductive Ending (τ : Type) where
  | running
  | returned (out : Outcome τ)
  | crashed (c : Crash)

structure Run (Q A P τ : Type) where
  attempts : List (Attempt Q A P)
  ending : Ending τ

def Run.posts {Q A P τ : Type} (run : Run Q A P τ) : List P := run.attempts.flatMap Attempt.posts

section Loop

variable {Q A P τ : Type} (k : RequestKind Q A P τ)

def leftover (req : Q) : GoError τ → Q
  | .partialError _ failed => k.onPartialError failed req
  | _ => req

/-- The source's own `max` on durations. -/
def maxDuration (x y : Int64) : Int64 := if x < y then y else x

def retryDelay (backoffDelay : Int64) : GoError τ → Int64
  | .throttleRetry _ delay => maxDuration backoffDelay delay
  | _ => backoffDelay

/-- `retrySender.send` with retry enabled. -/
def retryLoop (req : Q) : List (Round A) → Run Q A P τ
  | [] => ⟨[], .running⟩
  | r :: rs =>
    let sent := k.push r.env req
    match sent.result with
    | .error c => ⟨[⟨req, r.env, sent.posts, none⟩], .crashed c⟩
    | .ok (dropped, none) => ⟨[⟨req, r.env, sent.posts, none⟩], .returned (dropped, none)⟩
    | .ok (dropped, some err) =>
      if GoError.isPermanent (some err) then
        ⟨[⟨req, r.env, sent.posts, none⟩], .returned (dropped, some err)⟩
      else
        let req' := leftover k req err
        match r.backoff with
        | none =>
          ⟨[⟨req, r.env, sent.posts, none⟩],
            .returned (k.count req', some (.wrap "max elapsed time expired " err))⟩
        | some d =>
          let attempt := ⟨req, r.env, sent.posts, some (retryDelay d err)⟩
          match r.wake with
          | .cancelled =>
            ⟨[attempt], .returned (k.count req',
              some (.wrap "request is cancelled or timed out " err))⟩
          | .stopped =>
            ⟨[attempt], .returned (k.count req', some (.wrap "interrupted due to shutdown " err))⟩
          | .timer =>
            let rest := retryLoop req' rs
            ⟨attempt :: rest.attempts, rest.ending⟩

/-- `RetrySettings`; the intervals only feed the back-off library. -/
structure RetrySettings where
  enabled : Bool
  initialInterval : Int64
  maxInterval : Int64
  maxElapsedTime : Int64
  deriving DecidableEq, Repr

/-- `CreateDefaultRetrySettings`: 5 s, 30 s and 5 min. -/
def createDefaultRetrySettings : RetrySettings :=
  ⟨true, 5000000000, 30000000000, 300000000000⟩

/-- `retrySender.send`. -/
def retrySend (cfg : RetrySettings) (req : Q) (rounds : List (Round A)) : Run Q A P τ :=
  if cfg.enabled then retryLoop k req rounds
  else
    match rounds with
    | [] => ⟨[], .running⟩
    | r :: _ =>
      let sent := k.push r.env req
      match sent.result with
      | .error c => ⟨[⟨req, r.env, sent.posts, none⟩], .crashed c⟩
      | .ok out => ⟨[⟨req, r.env, sent.posts, none⟩], .returned out⟩

variable {cfg : RetrySettings} {req : Q} {r : Round A} {rounds : List (Round A)} {i : Nat}
  {out : Outcome τ}

theorem retrySend_enabled (h : cfg.enabled = true) (req : Q) (rounds : List (Round A)) :
    retrySend k cfg req rounds = retryLoop k req rounds := by
  unfold retrySend
  rw [if_pos h]

theorem posts_retrySend_disabled (h : cfg.enabled = false) (req : Q) (r : Round A)
    (rs : List (Round A)) : (retrySend k cfg req (r :: rs)).posts = (k.push r.env req).posts := by
  simp only [retrySend, h]
  cases (k.push r.env req).result <;> simp [Run.posts]

/-! ## One round -/

/-- The round ends in another attempt, after this error. -/
structure Again (req : Q) (r : Round A) (err : GoError τ) (d : Int64) : Prop where
  result : ∃ dropped, (k.push r.env req).result = .ok (dropped, some err)
  notPermanent : GoError.isPermanent (some err) = false
  backoff : r.backoff = some d
  wake : r.wake = .timer

/-- The round ends the run, perhaps after a delay was chosen. -/
structure Ends (req : Q) (r : Round A) (delay : Option Int64) (ending : Ending τ) : Prop where
  last : ∀ err d, ¬ Again k req r err d
  notRunning : ending ≠ .running
  crash : ∀ c, ending = .crashed c → (k.push r.env req).result = .error c
  delay : ∀ δ, delay = some δ → ∃ dropped err d,
    (k.push r.env req).result = .ok (dropped, some err) ∧ r.backoff = some d ∧ δ = retryDelay d err

/-- **One round of the loop**: another attempt, or the end of the run. -/
theorem retryLoop_cons (req : Q) (r : Round A) (rs : List (Round A)) :
    (∃ err d, Again k req r err d ∧ retryLoop k req (r :: rs) =
      ⟨⟨req, r.env, (k.push r.env req).posts, some (retryDelay d err)⟩ ::
        (retryLoop k (leftover k req err) rs).attempts,
        (retryLoop k (leftover k req err) rs).ending⟩) ∨
    ∃ delay ending, Ends k req r delay ending ∧
      retryLoop k req (r :: rs) = ⟨[⟨req, r.env, (k.push r.env req).posts, delay⟩], ending⟩ := by
  cases hres : (k.push r.env req).result with
  | error c =>
    refine .inr ⟨none, .crashed c, ⟨?_, nofun, ?_, nofun⟩, by simp only [retryLoop, hres]⟩
    · rintro err d ⟨⟨dropped, hd⟩, -, -, -⟩
      rw [hres] at hd
      cases hd
    · rintro _ ⟨⟩
      exact hres
  | ok out =>
    obtain ⟨dropped, err⟩ := out
    cases err with
    | none =>
      refine .inr ⟨none, .returned _, ⟨?_, nofun, nofun, nofun⟩,
        by simp only [retryLoop, hres]; rfl⟩
      rintro err d ⟨⟨dropped, hd⟩, -, -, -⟩
      rw [hres] at hd
      cases hd
    | some err =>
      cases hp : GoError.isPermanent (some err) with
      | true =>
        refine .inr ⟨none, .returned _, ⟨?_, nofun, nofun, nofun⟩,
          by simp only [retryLoop, hres, hp]; rfl⟩
        rintro err' d ⟨⟨dropped, hd⟩, hnp, -, -⟩
        rw [hres] at hd
        cases hd
        rw [hp] at hnp
        cases hnp
      | false =>
        cases hb : r.backoff with
        | none =>
          refine .inr ⟨none, .returned _, ⟨?_, nofun, nofun, nofun⟩,
            by simp only [retryLoop, hres, hp, hb]; rfl⟩
          rintro err' d ⟨-, -, hbd, -⟩
          rw [hb] at hbd
          cases hbd
        | some d =>
          cases hw : r.wake with
          | timer =>
            exact .inl ⟨err, d, ⟨⟨dropped, hres⟩, hp, hb, hw⟩, by
              simp only [retryLoop, hres, hp, hb, hw]; rfl⟩
          | cancelled | stopped =>
            refine .inr ⟨some (retryDelay d err), .returned _, ⟨?_, nofun, nofun, ?_⟩, by
              simp only [retryLoop, hres, hp, hb, hw]; rfl⟩
            · rintro err' d' ⟨-, -, -, hwt⟩
              rw [hw] at hwt
              cases hwt
            · rintro _ ⟨⟩
              exact ⟨dropped, err, d, hres, hb, rfl⟩

/-! ## Whole runs -/

/-- No attempt changes what is left of the request. -/
def Intact (req : Q) : Prop :=
  ∀ env dropped err, (k.push env req).result = .ok (dropped, some err) → leftover k req err = req

theorem leftover_of_whole (h : ∀ failed, k.onPartialError failed req = req) (err : GoError τ) :
    leftover k req err = req := by
  cases err with
  | partialError _ failed => exact h failed
  | new | wrap | permanent | throttleRetry | status => rfl

theorem Again.leftover_eq {k : RequestKind Q A P τ} {err : GoError τ} {d : Int64}
    (h : Again k req r err d) (hleft : Intact k req) : leftover k req err = req := by
  obtain ⟨dropped, hres⟩ := h.result
  exact hleft r.env dropped err hres

theorem retryLoop_pairwise {accepted : P → Prop} (hleft : Intact k req)
    (hpush : ∀ env, (k.push env req).posts.Pairwise fun p _ => ¬ accepted p)
    (hacc : ∀ env, ∀ p ∈ (k.push env req).posts, accepted p →
      ∃ dropped, (k.push env req).result = .ok (dropped, none)) (rounds : List (Round A)) :
    (retryLoop k req rounds).posts.Pairwise fun p _ => ¬ accepted p := by
  induction rounds with
  | nil => exact List.Pairwise.nil
  | cons r rs ih =>
    rcases retryLoop_cons k req r rs with ⟨err, d, hag, heq⟩ | ⟨delay, ending, -, heq⟩
    · rw [heq, hag.leftover_eq hleft]
      show ((k.push r.env req).posts ++ (retryLoop k req rs).posts).Pairwise _
      refine List.pairwise_append.2 ⟨hpush r.env, ih, fun p hp _ _ hap => ?_⟩
      obtain ⟨dropped, hok⟩ := hacc r.env p hp hap
      obtain ⟨dropped', herr⟩ := hag.result
      rw [hok] at herr
      cases herr
    · rw [heq]
      simpa [Run.posts] using hpush r.env

theorem retryLoop_drop (hleft : Intact k req) (hi : i < (retryLoop k req rounds).attempts.length) :
    retryLoop k req (rounds.drop i) =
      ⟨(retryLoop k req rounds).attempts.drop i, (retryLoop k req rounds).ending⟩ := by
  induction rounds generalizing i with
  | nil => cases hi
  | cons r rs ih =>
    cases i with
    | zero => rfl
    | succ i =>
      rcases retryLoop_cons k req r rs with ⟨err, d, hag, heq⟩ | ⟨delay, ending, -, heq⟩
      · rw [heq, hag.leftover_eq hleft] at hi ⊢
        exact ih (Nat.lt_of_succ_lt_succ hi)
      · rw [heq] at hi
        simp at hi

theorem attempts_retryLoop_ne_nil (req : Q) (r : Round A) (rs : List (Round A)) :
    (retryLoop k req (r :: rs)).attempts ≠ [] := by
  rcases retryLoop_cons k req r rs with ⟨err, d, -, heq⟩ | ⟨delay, ending, -, heq⟩
  · rw [heq]
    nofun
  · rw [heq]
    nofun

/-- What follows the attempt `a` of the round `r` in a run: another attempt, which is still to
come where the run stops here, or the end of the run. -/
def Followed (run : Run Q A P τ) (i : Nat) (req : Q) (r : Round A) (a : Attempt Q A P) : Prop :=
  (∃ err d, Again k req r err d ∧ a.delay = some (retryDelay d err) ∧
    (run.attempts.length = i + 1 → run.ending = .running)) ∨
  run.attempts.length = i + 1 ∧ run.ending ≠ .running ∧
    (∀ c, run.ending = .crashed c → (k.push r.env req).result = .error c) ∧
    ∀ δ, a.delay = some δ → ∃ dropped err d,
      (k.push r.env req).result = .ok (dropped, some err) ∧ r.backoff = some d ∧
        δ = retryDelay d err

theorem retryLoop_followed (hleft : Intact k req) {a : Attempt Q A P} (hr : rounds[i]? = some r)
    (ha : (retryLoop k req rounds).attempts[i]? = some a) :
    Followed k (retryLoop k req rounds) i req r a := by
  obtain ⟨hi, hai⟩ := List.getElem?_eq_some_iff.1 ha
  obtain ⟨hir, hri⟩ := List.getElem?_eq_some_iff.1 hr
  have hdrop := retryLoop_drop k hleft hi
  rw [List.drop_eq_getElem_cons hir, List.drop_eq_getElem_cons hi, hri, hai] at hdrop
  rcases retryLoop_cons k req r (rounds.drop (i + 1)) with
    ⟨err, d, hag, heq⟩ | ⟨delay, ending, hend, heq⟩
  · rw [heq, hag.leftover_eq hleft] at hdrop
    injection hdrop with hatt hending
    injection hatt with ha' hrest
    refine .inl ⟨err, d, hag, by rw [← ha'], fun hlen => ?_⟩
    -- the run stops here, so no round is left
    have hnil : rounds.drop (i + 1) = [] := by
      cases hrs : rounds.drop (i + 1) with
      | nil => rfl
      | cons r' rs =>
        rw [hrs, List.drop_eq_nil_of_le (Nat.le_of_eq hlen)] at hrest
        exact absurd hrest (attempts_retryLoop_ne_nil k req r' rs)
    rw [← hending, hnil]
    rfl
  · rw [heq] at hdrop
    injection hdrop with hatt hending
    injection hatt with ha' hrest
    have hlen := congrArg List.length hrest
    simp only [List.length_nil, List.length_drop] at hlen
    refine .inr ⟨by omega, hending ▸ hend.notRunning, fun c hc => ?_, fun δ hδ => ?_⟩
    · exact hend.crash c (hending.trans hc)
    · rw [← ha'] at hδ
      exact hend.delay δ hδ

theorem retryLoop_again (hleft : Intact k req) (h : ∀ r ∈ rounds, ∃ err d, Again k req r err d) :
    (retryLoop k req rounds).attempts.map Attempt.env = rounds.map Round.env ∧
      (retryLoop k req rounds).ending = .running := by
  induction rounds with
  | nil => exact ⟨rfl, rfl⟩
  | cons r rs ih =>
    obtain ⟨hr, hrs⟩ := List.forall_mem_cons.1 h
    rcases retryLoop_cons k req r rs with ⟨err, d, hag, heq⟩ | ⟨delay, ending, hend, -⟩
    · obtain ⟨henv, hend⟩ := ih hrs
      rw [heq, hag.leftover_eq hleft]
      exact ⟨congrArg (r.env :: ·) henv, hend⟩
    · obtain ⟨err, d, hag⟩ := hr
      exact absurd hag (hend.last err d)

theorem retryLoop_not_crashed (hleft : Intact k req)
    (h : ∀ r ∈ rounds, ∃ out, (k.push r.env req).result = .ok out) (c : Crash) :
    (retryLoop k req rounds).ending ≠ .crashed c := by
  induction rounds with
  | nil => nofun
  | cons r rs ih =>
    obtain ⟨⟨out, hout⟩, hrs⟩ := List.forall_mem_cons.1 h
    rcases retryLoop_cons k req r rs with ⟨err, d, hag, heq⟩ | ⟨delay, ending, hend, heq⟩
    · rw [heq, hag.leftover_eq hleft]
      exact ih hrs
    · rw [heq]
      intro hc
      rw [hend.crash c hc] at hout
      cases hout

theorem retrySend_not_crashed (cfg : RetrySettings) (hleft : Intact k req)
    (h : ∀ r ∈ rounds, ∃ out, (k.push r.env req).result = .ok out) (c : Crash) :
    (retrySend k cfg req rounds).ending ≠ .crashed c := by
  cases hen : cfg.enabled with
  | true =>
    rw [retrySend_enabled k hen]
    exact retryLoop_not_crashed k hleft h c
  | false =>
    cases rounds with
    | nil =>
      simp only [retrySend, hen]
      nofun
    | cons r rs =>
      obtain ⟨out, hout⟩ := h r List.mem_cons_self
      simp only [retrySend, hen, hout]
      nofun

theorem retrySend_disabled (hen : cfg.enabled = false) {a : Attempt Q A P}
    (hr : rounds[i]? = some r) (ha : (retrySend k cfg req rounds).attempts[i]? = some a) :
    a.delay = none ∧ (retrySend k cfg req rounds).attempts.length = i + 1 ∧
      (retrySend k cfg req rounds).ending ≠ .running ∧
      ∀ c, (retrySend k cfg req rounds).ending = .crashed c →
        (k.push r.env req).result = .error c := by
  cases rounds with
  | nil => cases hr
  | cons r' rs =>
    have hone : ∃ ending, ending ≠ .running ∧
        (∀ c, ending = .crashed c → (k.push r'.env req).result = .error c) ∧
        retrySend k cfg req (r' :: rs) =
          ⟨[⟨req, r'.env, (k.push r'.env req).posts, none⟩], ending⟩ := by
      cases hres : (k.push r'.env req).result with
      | error c =>
        refine ⟨.crashed c, nofun, ?_, by simp [retrySend, hen, hres]⟩
        rintro _ ⟨⟩
        rfl
      | ok out => exact ⟨.returned out, nofun, nofun, by simp [retrySend, hen, hres]⟩
    obtain ⟨ending, hrun, hcrash, heq⟩ := hone
    rw [heq] at ha ⊢
    cases i with
    | zero =>
      cases hr
      cases ha
      exact ⟨rfl, rfl, hrun, hcrash⟩
    | succ i => cases ha

/-! ## The last attempt -/

/-- The dropped items that `send` returns when this is how its last attempt ended: those that the
pusher reports, or all that is left where the loop gave up. -/
def reported (cfg : RetrySettings) (req : Q) : Outcome τ → Nat
  | (dropped, none) => dropped
  | (dropped, some err) =>
    if cfg.enabled = true ∧ GoError.isPermanent (some err) = false then k.count (leftover k req err)
    else dropped

/-- The rounds come to a last attempt, at this request and in this round. -/
inductive LastRound (cfg : RetrySettings) : Q → List (Round A) → Q → Round A → Prop where
  | disabled {req : Q} {r : Round A} {rs : List (Round A)} (h : cfg.enabled = false) :
    LastRound cfg req (r :: rs) req r
  | here {req : Q} {r : Round A} {rs : List (Round A)} (h : ∀ err d, ¬ Again k req r err d) :
    LastRound cfg req (r :: rs) req r
  | later {req req' : Q} {r r' : Round A} {rs : List (Round A)} {err : GoError τ} {d : Int64}
    (hen : cfg.enabled = true) (h : Again k req r err d)
    (hrest : LastRound cfg (leftover k req err) rs req' r') : LastRound cfg req (r :: rs) req' r'

theorem ending_of_not_again (hen : cfg.enabled = true) {rs : List (Round A)}
    (h : ∀ err d, ¬ Again k req r err d) (hres : (k.push r.env req).result = .ok out) :
    ∃ err, (retryLoop k req (r :: rs)).ending = .returned (reported k cfg req out, err) ∧
      (err = none ↔ out.2 = none) := by
  obtain ⟨dropped, err⟩ := out
  cases err with
  | none => exact ⟨none, by simp only [retryLoop, hres]; rfl, Iff.rfl⟩
  | some err =>
    cases hp : GoError.isPermanent (some err) with
    | true => exact ⟨some err, by simp [retryLoop, hres, hp, reported], Iff.rfl⟩
    | false =>
      have hrep : reported k cfg req (dropped, some err) = k.count (leftover k req err) := by
        simp [reported, hen, hp]
      rw [hrep]
      cases hb : r.backoff with
      | none => exact ⟨_, by simp only [retryLoop, hres, hp, hb]; rfl, by simp⟩
      | some d =>
        cases hw : r.wake with
        | timer => exact absurd ⟨⟨dropped, hres⟩, hp, hb, hw⟩ (h err d)
        | cancelled | stopped => exact ⟨_, by simp only [retryLoop, hres, hp, hb, hw]; rfl, by simp⟩

theorem ending_of_disabled (hen : cfg.enabled = false) {rs : List (Round A)}
    (hres : (k.push r.env req).result = .ok out) :
    (retrySend k cfg req (r :: rs)).ending = .returned (reported k cfg req out, out.2) := by
  obtain ⟨dropped, err⟩ := out
  cases err <;> simp [retrySend, hen, hres, reported]

theorem Again.err_unique {err err' : GoError τ} {d d' : Int64} (h : Again k req r err d)
    (h' : Again k req r err' d') : err = err' := by
  obtain ⟨dropped, hr⟩ := h.result
  obtain ⟨dropped', hr'⟩ := h'.result
  rw [hr] at hr'
  cases hr'
  rfl

theorem LastRound.ending {req' : Q} (h : LastRound k cfg req rounds req' r)
    (hres : (k.push r.env req').result = .ok out) :
    ∃ err, (retrySend k cfg req rounds).ending = .returned (reported k cfg req' out, err) ∧
      (err = none ↔ out.2 = none) := by
  induction h with
  | disabled hen => exact ⟨out.2, ending_of_disabled k hen hres, Iff.rfl⟩
  | @here req r rs h =>
    cases hen : cfg.enabled with
    | true =>
      rw [retrySend_enabled k hen]
      exact ending_of_not_again k hen h hres
    | false => exact ⟨out.2, ending_of_disabled k hen hres, Iff.rfl⟩
  | @later req req' r r' rs err d hen h hrest ih =>
    have hrun := ih hres
    rw [retrySend_enabled k hen] at hrun ⊢
    rcases retryLoop_cons k req r rs with ⟨err', d', hag, heq⟩ | ⟨delay, ending, hend, -⟩
    · obtain rfl := h.err_unique k hag
      rw [heq]
      exact hrun
    · exact absurd h (hend.last err d)

/-- Wherever the loop ends, if its last attempt did not crash, it has returned. -/
def ExitsReturn (cfg : RetrySettings) (rounds : List (Round A)) (req : Q) (run : Run Q A P τ) :
    Prop :=
  ∀ req' r out, LastRound k cfg req rounds req' r → (k.push r.env req').result = .ok out →
    ∃ n err, run.ending = .returned (n, err)

theorem exitsReturn_retrySend (cfg : RetrySettings) (rounds : List (Round A)) (req : Q) :
    ExitsReturn k cfg rounds req (retrySend k cfg req rounds) := by
  intro req' r out hlast hres
  obtain ⟨err, hend, -⟩ := hlast.ending k hres
  exact ⟨_, err, hend⟩

theorem lastRound_of_returned {res : Outcome τ}
    (h : (retrySend k cfg req rounds).ending = .returned res) :
    ∃ req' r out, LastRound k cfg req rounds req' r ∧ (k.push r.env req').result = .ok out := by
  induction rounds generalizing req with
  | nil =>
    unfold retrySend at h
    split at h <;> cases h
  | cons r rs ih =>
    cases hen : cfg.enabled with
    | false =>
      cases hres : (k.push r.env req).result with
      | ok out => exact ⟨req, r, out, .disabled hen, hres⟩
      | error c => simp [retrySend, hen, hres] at h
    | true =>
      rw [retrySend_enabled k hen] at h
      rcases retryLoop_cons k req r rs with ⟨err, d, hag, heq⟩ | ⟨delay, ending, hend, heq⟩
      · rw [heq] at h
        rw [← retrySend_enabled k hen] at h
        obtain ⟨req', r', out, hlast, hres⟩ := ih h
        exact ⟨req', r', out, .later hen hag hlast, hres⟩
      · cases hres : (k.push r.env req).result with
        | ok out => exact ⟨req, r, out, .here hend.last, hres⟩
        | error c =>
          simp only [retryLoop, hres] at h
          cases h

theorem LastRound.unique {q q' : Q} {r' : Round A} (h : LastRound k cfg req rounds q r)
    (h' : LastRound k cfg req rounds q' r') : q = q' ∧ r = r' := by
  induction h with
  | disabled hen =>
    cases h' with
    | disabled | here => exact ⟨rfl, rfl⟩
    | later hen' => rw [hen] at hen'; cases hen'
  | here hlast =>
    cases h' with
    | disabled | here => exact ⟨rfl, rfl⟩
    | later _ hag _ => exact absurd hag (hlast _ _)
  | later hen hag hrest ih =>
    cases h' with
    | disabled hen' => rw [hen] at hen'; cases hen'
    | here hlast => exact absurd hag (hlast _ _)
    | later _ hag' hrest' =>
      obtain rfl := hag.err_unique k hag'
      exact ih hrest'

theorem LastRound.returned {q : Q} (h : LastRound k cfg req rounds q r) {n : Nat}
    {err : Option (GoError τ)} (hret : (retrySend k cfg req rounds).ending = .returned (n, err)) :
    ∃ out, (k.push r.env q).result = .ok out ∧ n = reported k cfg q out ∧
      (err = none ↔ out.2 = none) := by
  obtain ⟨q', r', out, hlast, hres⟩ := lastRound_of_returned k hret
  obtain ⟨rfl, rfl⟩ := h.unique k hlast
  obtain ⟨err', hend, hnone⟩ := h.ending k hres
  rw [hend] at hret
  cases hret
  exact ⟨out, hres, rfl, hnone⟩

end Loop

end Collector.ExporterHelper
