import Collector.TailSampling.Life
import Mathlib.Algebra.Ring.Int.Defs

/-!
# The rate limit

`rate_limiting.go` of the tail sampling processor. The policy counts the spans that it has sampled,
from 0 in every second. While the clock is not set back and no sum passes the largest `int64`, that
is as good as to remember them all.
-/

namespace Collector.TailSampling

open List

structure RateLimiting where
  currentSecond : Int64 := 0
  spansInCurrentSecond : Int64 := 0
  spansPerSecond : Int64

/-- A call of `Evaluate`: the time, and the `SpanCount` of the trace. -/
structure Evaluation where
  currSecond : Int64
  spanCount : Int64
  deriving DecidableEq

namespace RateLimiting

def newRateLimiting (spansPerSecond : Int64) : RateLimiting := { spansPerSecond }

def enterSecond (r : RateLimiting) (currSecond : Int64) : RateLimiting :=
  if r.currentSecond ≠ currSecond then
    { r with currentSecond := currSecond, spansInCurrentSecond := 0 }
  else r

def evaluate (r : RateLimiting) (e : Evaluation) : RateLimiting × Decision :=
  let r := r.enterSecond e.currSecond
  let spansInSecondIfSampled := r.spansInCurrentSecond + e.spanCount
  if spansInSecondIfSampled < r.spansPerSecond then
    ({ r with spansInCurrentSecond := spansInSecondIfSampled }, .sampled)
  else (r, .notSampled)

def sampled (r : RateLimiting) : List Evaluation → List Evaluation
  | [] => []
  | e :: es =>
    match r.evaluate e with
    | (r, .sampled) => e :: r.sampled es
    | (r, _) => r.sampled es

end RateLimiting

def spansAt (es : List Evaluation) (second : Int64) : Int :=
  ((es.filter (·.currSecond = second)).map (·.spanCount.toInt)).sum

/-- A trace is taken if the spans taken in its second stay below the limit with it. -/
def withinLimit (limit : Int64) (taken : List Evaluation) : List Evaluation → List Evaluation
  | [] => []
  | e :: es =>
    if spansAt taken e.currSecond + e.spanCount.toInt < limit.toInt then
      e :: withinLimit limit (e :: taken) es
    else withinLimit limit taken es

/-- What the policy knows of the traces taken. -/
structure Counts (r : RateLimiting) (taken : List Evaluation) : Prop where
  past : ∀ e ∈ taken, e.currSecond ≤ r.currentSecond
  counted : r.spansInCurrentSecond.toInt = spansAt taken r.currentSecond
  bounded : 0 ≤ r.spansInCurrentSecond.toInt ∧
    (r.spansInCurrentSecond = 0 ∨ r.spansInCurrentSecond < r.spansPerSecond)

/-- A number of spans that, added to one below the limit, is an `int64` still. -/
def Fits (limit : Int64) (e : Evaluation) : Prop :=
  0 ≤ e.spanCount.toInt ∧ limit.toInt + e.spanCount.toInt ≤ 2 ^ 63

variable {r : RateLimiting} {taken es : List Evaluation} {e : Evaluation}

theorem Counts.enterSecond (h : Counts r taken) {second : Int64} (hle : r.currentSecond ≤ second) :
    Counts (r.enterSecond second) taken ∧ (r.enterSecond second).currentSecond = second ∧
      (r.enterSecond second).spansPerSecond = r.spansPerSecond := by
  unfold RateLimiting.enterSecond
  split
  next hne =>
    -- the clock shows a later second, in which nothing was sampled
    have hnone : taken.filter (·.currSecond = second) = [] := by
      simp only [filter_eq_nil_iff, decide_eq_true_eq]
      rintro e he rfl
      exact hne (Int64.le_antisymm hle (h.past e he))
    exact ⟨⟨fun e he => Int64.le_trans (h.past e he) hle, by simp [spansAt, hnone], by simp⟩,
      rfl, rfl⟩
  next heq => exact ⟨h, not_not.1 heq, rfl⟩

theorem Counts.toInt_add (h : Counts r taken) (he : Fits r.spansPerSecond e) :
    (r.spansInCurrentSecond + e.spanCount).toInt =
      spansAt taken r.currentSecond + e.spanCount.toInt := by
  obtain ⟨hnonneg, hle⟩ := he
  have hbound := h.bounded.1
  have hsum : r.spansInCurrentSecond.toInt + e.spanCount.toInt < 2 ^ 63 := by
    rcases h.bounded.2 with hzero | hlt
    · rw [hzero, Int64.toInt_zero, Int.zero_add]
      exact e.spanCount.toInt_lt
    · have := Int64.lt_iff_toInt_lt.1 hlt
      omega
  rw [Int64.toInt_add, ← h.counted]
  exact Int.bmod_eq_of_le (by omega) (by omega)

theorem Counts.sampled_eq (h : Counts r taken) (hfits : ∀ e ∈ es, Fits r.spansPerSecond e)
    (hclock : (r.currentSecond :: es.map Evaluation.currSecond).Pairwise (· ≤ ·)) :
    r.sampled es = withinLimit r.spansPerSecond taken es := by
  induction es generalizing r taken with
  | nil => rfl
  | cons e es ih =>
    rw [map_cons, pairwise_cons] at hclock
    rw [forall_mem_cons] at hfits
    obtain ⟨hin, hsecond, hlimit⟩ := h.enterSecond (hclock.1 e.currSecond (by simp))
    rw [RateLimiting.sampled, RateLimiting.evaluate]
    generalize r.enterSecond e.currSecond = r' at *
    rw [← hlimit] at hfits ⊢
    have hadd := hin.toInt_add hfits.1
    rw [← hsecond] at hclock
    rw [withinLimit, ← hsecond, ← hadd]
    by_cases hlt : r'.spansInCurrentSecond + e.spanCount < r'.spansPerSecond
    · rw [if_pos hlt, if_pos (Int64.lt_iff_toInt_lt.1 hlt)]
      refine congrArg (e :: ·) (ih ⟨?_, ?_, ?_⟩ hfits.2 hclock.2)
      · simpa [hsecond] using hin.past
      · simpa [spansAt, hsecond, Int.add_comm] using hadd
      · have hcounted := hin.counted
        have := hin.bounded.1
        have := hfits.1.1
        exact ⟨by simp only; omega, .inr hlt⟩
    · rw [if_neg hlt, if_neg (mt Int64.lt_iff_toInt_lt.2 hlt)]
      exact ih hin hfits.2 hclock.2

/-- **In every second the limit is kept, and no trace refused without need**, while the clock is not
set back and no trace is so large that its spans pass the largest `int64` with the limit. -/
theorem rateLimiting_refines {limit : Int64} (hfits : ∀ e ∈ es, Fits limit e)
    (hclock : (0 :: es.map Evaluation.currSecond).Pairwise (· ≤ ·)) :
    (RateLimiting.newRateLimiting limit).sampled es = withinLimit limit [] es :=
  Counts.sampled_eq (r := .newRateLimiting limit) ⟨by simp, rfl, Int.le_refl 0, .inl rfl⟩ hfits
    hclock

theorem limit_of_six :
    withinLimit 6 [] [⟨1, 3⟩, ⟨1, 3⟩, ⟨1, 2⟩, ⟨2, 4⟩] = [⟨1, 3⟩, ⟨1, 2⟩, ⟨2, 4⟩] :=
  (rateLimiting_refines (by simp [Fits]) (by decide)).symm.trans (by decide)

/-- A sum that wraps is negative, and so below the limit. -/
example : (RateLimiting.newRateLimiting 10).sampled [⟨1, 1⟩, ⟨1, 9223372036854775807⟩] =
    [⟨1, 1⟩, ⟨1, 9223372036854775807⟩] := by
  decide

end Collector.TailSampling
