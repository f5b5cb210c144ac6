import Mathlib.Data.List.Perm.Subperm
import Collector.ExporterHelper.Senders

/-!
# No span is sent twice or lost count of

The posts of an attempt to push traces are here the spans that the backend accepts
in it. A pusher is truthful in an attempt when the number of dropped spans is that of
the spans not accepted, a partial error carries these spans, and after another
error that is not permanent the backend has accepted nothing. Then what the loop
sends next is what was not accepted (`Truthful.leftover`). So over a whole run the
spans accepted and the spans left over make up the request, and each exit of the
loop returns the number of the latter.
-/

namespace Collector.ExporterHelper

open Pdata List

section Conservation

variable {A R X : Type}

/-- The attempt reports what has become of the spans. -/
structure Truthful (td : Traces R X) (sent : Sent X (Outcome (Traces R X))) : Prop where
  accepted : sent.posts.Subperm (itemsOf td)
  dropped : ∀ dropped err, sent.result = .ok (dropped, err) →
    dropped + sent.posts.length = spanCount td
  failed : ∀ dropped err failed, sent.result = .ok (dropped, some (.partialError err failed)) →
    (itemsOf failed ++ sent.posts).Perm (itemsOf td)
  transient : ∀ dropped err, sent.result = .ok (dropped, some err) →
    GoError.isPermanent (some err) = false → (∀ err' failed, err ≠ .partialError err' failed) →
    sent.posts = []

variable {pusher : A → Traces R X → Sent X (Outcome (Traces R X))}

variable {td : Traces R X} {cfg : RetrySettings}

/-- **One attempt**: what is left of the request and what was accepted make up the request. -/
theorem Truthful.leftover {env : A} (h : Truthful td (pusher env td)) {dropped : Nat}
    {err : GoError (Traces R X)} (hres : (pusher env td).result = .ok (dropped, some err))
    (hp : GoError.isPermanent (some err) = false) :
    (itemsOf (leftover (tracesRequest pusher) td err) ++ (pusher env td).posts).Perm
      (itemsOf td) := by
  cases err with
  | partialError err failed => exact h.failed dropped err failed hres
  | permanent => cases hp
  | new | wrap | throttleRetry | status =>
    rw [h.transient dropped _ hres hp nofun, append_nil]
    exact .refl _

theorem Truthful.reported {env : A} (h : Truthful td (pusher env td)) {out : Outcome (Traces R X)}
    (hres : (pusher env td).result = .ok out) :
    reported (tracesRequest pusher) cfg td out + (pusher env td).posts.length = spanCount td := by
  obtain ⟨dropped, err⟩ := out
  cases err with
  | none => exact h.dropped dropped none hres
  | some err =>
    by_cases hgive : cfg.enabled = true ∧ GoError.isPermanent (some err) = false
    · have hperm := (h.leftover hres hgive.2).length_eq
      rw [length_append, length_itemsOf, length_itemsOf] at hperm
      simp only [ExporterHelper.reported, if_pos hgive]
      exact hperm
    · simp only [ExporterHelper.reported, if_neg hgive]
      exact h.dropped dropped _ hres

structure Conserved (td : Traces R X) (run : Run (Traces R X) A X (Traces R X)) : Prop where
  /-- No span is accepted more often than it occurs in the request. -/
  atMostOnce : run.posts.Subperm (itemsOf td)
  /-- The returned count and the accepted spans make up the request. -/
  counted : ∀ dropped err, run.ending = .returned (dropped, err) →
    dropped + run.posts.length = spanCount td

theorem conserved_last {rounds : List (Round A)} {r : Round A} {delay : Option Int64}
    (h : Truthful td (pusher r.env td))
    (hlast : LastRound (tracesRequest pusher) cfg td rounds td r)
    (hrun : (retrySend (tracesRequest pusher) cfg td rounds).attempts =
      [⟨td, r.env, (pusher r.env td).posts, delay⟩]) :
    Conserved td (retrySend (tracesRequest pusher) cfg td rounds) := by
  have hposts : (retrySend (tracesRequest pusher) cfg td rounds).posts =
      (pusher r.env td).posts := by
    simp [Run.posts, hrun]
  refine ⟨hposts ▸ h.accepted, fun n err hret => ?_⟩
  obtain ⟨out, hres, rfl, -⟩ := hlast.returned _ hret
  rw [hposts]
  exact h.reported hres

theorem Conserved.cons {td' : Traces R X} {posts : List X} {a : Attempt (Traces R X) A X}
    {run : Run (Traces R X) A X (Traces R X)} (h : Conserved td' run) (ha : a.posts = posts)
    (hperm : (itemsOf td' ++ posts).Perm (itemsOf td)) :
    Conserved td ⟨a :: run.attempts, run.ending⟩ := by
  have hposts : (⟨a :: run.attempts, run.ending⟩ : Run (Traces R X) A X (Traces R X)).posts =
      posts ++ run.posts := by
    simp [Run.posts, ha]
  have hlen := hperm.length_eq
  rw [length_append, length_itemsOf, length_itemsOf] at hlen
  refine ⟨?_, fun n err hret => ?_⟩
  · rw [hposts]
    have hsub : (posts ++ run.posts).Subperm (posts ++ itemsOf td') :=
      (subperm_append_left posts).2 h.atMostOnce
    exact hsub.trans (perm_append_comm.trans hperm).subperm
  · have hcount := h.counted n err hret
    rw [hposts, length_append]
    unfold spanCount at hcount ⊢
    omega

/-- The loop, by induction on its rounds. The request shrinks, so it is general. -/
theorem conserved_retryLoop (hen : cfg.enabled = true) {rounds : List (Round A)}
    (h : ∀ a ∈ (retryLoop (tracesRequest pusher) td rounds).attempts,
      Truthful a.req (pusher a.env a.req)) :
    Conserved td (retryLoop (tracesRequest pusher) td rounds) := by
  induction rounds generalizing td with
  | nil => exact ⟨nil_subperm, nofun⟩
  | cons r rs ih =>
    rcases retryLoop_cons (tracesRequest pusher) td r rs with
      ⟨err, d, hag, heq⟩ | ⟨delay, ending, hend, heq⟩
    · rw [heq] at h ⊢
      obtain ⟨hfirst, hrest⟩ := forall_mem_cons.1 h
      obtain ⟨dropped, hres⟩ := hag.result
      exact (ih hrest).cons rfl (hfirst.leftover hres hag.notPermanent)
    · have hattempts : (retryLoop (tracesRequest pusher) td (r :: rs)).attempts =
          [⟨td, r.env, (pusher r.env td).posts, delay⟩] := by
        rw [heq]
        rfl
      rw [hattempts] at h
      rw [← retrySend_enabled _ hen] at hattempts ⊢
      exact conserved_last (h _ mem_cons_self) (.here hend.last) hattempts

theorem conserved_retrySend (rounds : List (Round A))
    (h : ∀ a ∈ (retrySend (tracesRequest pusher) cfg td rounds).attempts,
      Truthful a.req (pusher a.env a.req)) :
    Conserved td (retrySend (tracesRequest pusher) cfg td rounds) := by
  cases hen : cfg.enabled with
  | true =>
    rw [retrySend_enabled _ hen] at h ⊢
    exact conserved_retryLoop hen h
  | false =>
    cases rounds with
    | nil =>
      simp only [retrySend, hen]
      refine ⟨nil_subperm, fun n err hret => ?_⟩
      cases hret
    | cons r rs =>
      have hone : (retrySend (tracesRequest pusher) cfg td (r :: rs)).attempts =
          [⟨td, r.env, (pusher r.env td).posts, none⟩] := by
        cases hres : (pusher r.env td).result <;> simp [retrySend, hen, tracesRequest, hres]
      rw [hone] at h
      exact conserved_last (h _ mem_cons_self) (.disabled hen) hone

/-- **Spans are conserved by the retry loop**, whatever its attempts come to and wherever it is
cut, as long as they report what they did; and each exit returns. -/
theorem spans_conserved (pusher : A → Traces R X → Sent X (Outcome (Traces R X)))
    (cfg : RetrySettings) (td : Traces R X) (rounds : List (Round A))
    (h : ∀ a ∈ (retrySend (tracesRequest pusher) cfg td rounds).attempts,
      Truthful a.req (pusher a.env a.req)) :
    Conserved td (retrySend (tracesRequest pusher) cfg td rounds) ∧
      ExitsReturn (tracesRequest pusher) cfg rounds td
        (retrySend (tracesRequest pusher) cfg td rounds) :=
  ⟨conserved_retrySend rounds h, exitsReturn_retrySend _ cfg rounds td⟩

end Conservation

def threeSpans : Traces Unit Nat := [some ⟨(), [some ⟨[1, 2, 3]⟩]⟩]

/-- A backend that accepts one span of a request and asks for the others again. -/
def onePerAttempt (_ : Unit) (td : Traces Unit Nat) : Sent Nat (Outcome (Traces Unit Nat)) :=
  match itemsOf td with
  | [] => ⟨[], .ok (0, none)⟩
  | x :: xs =>
    ⟨[x], .ok (xs.length, some (.partialError (.new "busy") [some ⟨(), [some ⟨xs⟩]⟩]))⟩

theorem truthful_onePerAttempt (env : Unit) (td : Traces Unit Nat) :
    Truthful td (onePerAttempt env td) := by
  have hlen : (itemsOf td).length = spanCount td := length_itemsOf td
  unfold onePerAttempt
  split
  · rename_i hnil
    rw [hnil] at hlen
    refine ⟨nil_subperm, ?_, nofun, nofun⟩
    rintro _ _ ⟨⟩
    exact hlen
  · rename_i x xs hcons
    rw [hcons, length_cons] at hlen
    refine ⟨hcons ▸ singleton_subperm_iff.2 mem_cons_self, ?_, ?_, ?_⟩
    · rintro _ _ ⟨⟩
      exact hlen
    · rintro _ _ _ ⟨⟩
      rw [hcons]
      simp [itemsOf]
    · rintro _ _ ⟨⟩ - hne
      exact absurd rfl (hne _ _)

/-- Two attempts and a shutdown: two spans accepted, one dropped. -/
def cutRun : Run (Traces Unit Nat) Unit Nat (Traces Unit Nat) :=
  retrySend (tracesRequest onePerAttempt) createDefaultRetrySettings threeSpans
    [⟨(), some 5, .timer⟩, ⟨(), some 7, .stopped⟩]

theorem spans_conserved_cut :
    cutRun.posts = [1, 2] ∧ (∃ err, cutRun.ending = .returned (1, some err)) ∧
      Conserved threeSpans cutRun :=
  ⟨by decide, ⟨_, rfl⟩,
    (spans_conserved onePerAttempt _ _ _ fun _ _ => truthful_onePerAttempt _ _).1⟩

end Collector.ExporterHelper
