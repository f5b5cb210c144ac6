import Collector.Batch.Shutdown

/-!
# Splitting makes progress

A trace that passes the maximum is split, and what the batch does not take of it is put back on the
channel. Each time the batch takes a span of it, so it comes back at most as often as it has spans.
This needs a size above 0, and by at most one above the maximum: otherwise the part that is taken
can be empty, or a batch above the maximum waits for more spans while an empty trace goes round.
-/

namespace Collector.Batch

open Lib Pdata.Scoped List

variable {R L X : Type} {cfg : Config} {s s' : State R L X} {td rest : Traces R L X}

namespace State

/-- What the batches have taken so far. -/
def batched (s : State R L X) : Multiset (R × L × X) := allSpans s.exported + spansOf s.traceData

theorem batched_addAndSend (cfg : Config) (s : State R L X) (td : Traces R L X) :
    (s.addAndSend cfg td).batched = s.batched + spansOf td := by
  have hframe := s.frame_addAndSend cfg td
  have hspans := s.spans_addAndSend cfg td
  unfold spans at hspans
  rw [hframe.newItem, hframe.requeueing] at hspans
  refine add_right_cancel (b := allSpans s.newItem + allSpans s.requeueing) ?_
  unfold batched
  rw [← add_assoc, hspans]
  abel

/-- The batch is not large enough to be sent. -/
def Small (cfg : Config) (s : State R L X) : Prop :=
  s.spanCount = 0 ∨ s.spanCount < cfg.sendBatchSize

theorem small_addAndSend (cfg : Config) (s : State R L X) (td : Traces R L X) :
    (s.addAndSend cfg td).Small cfg := by
  unfold addAndSend
  split
  case isTrue => exact .inl rfl
  case isFalse hlt => exact .inr (UInt32.not_le.1 hlt)

theorem Small.flush (h : s.Small cfg) : s.flush.Small cfg := by
  unfold State.flush
  split
  case isTrue => exact .inl rfl
  case isFalse => exact h

theorem Small.receive (h : s.Small cfg) (td : Traces R L X) : (s.receive cfg td).Small cfg := by
  rcases s.receive_cases cfg td with ⟨-, heq⟩ | ⟨-, c, -, heq⟩ | ⟨-, -, part, rest, -, -, heq⟩
  · rw [heq]
    exact small_addAndSend cfg s td
  · rw [heq]
    exact h
  · rw [heq]
    exact small_addAndSend cfg _ part

end State

theorem small_step (cfg : Config) (s : State R L X) (e : Event R L X) (s' : State R L X)
    (hstep : step cfg s e = some s') (h : s.Small cfg) : s'.Small cfg := by
  cases (took_of_step hstep).2 with
  | consume | requeue | sendOnClosed | close => exact h
  | @receive td items => exact State.Small.receive (s := { s with newItem := items }) h td
  | tick | finish => exact h.flush

/-- In a run, the processing cycle takes the trace from the channel, and `rest` is put back. -/
structure PutsBack (cfg : Config) (s s' : State R L X) (td rest : Traces R L X) : Prop where
  reached : ∃ es, runFrom (step cfg) {} es = some s
  taken : s.newItem.head? = some td
  step : step cfg s .receive = some s'
  back : s'.requeueing = s.requeueing ++ [rest]

/-- Settings for which a part of a split trace is never empty. -/
def Config.Splitting (cfg : Config) : Prop :=
  cfg.sendBatchMaxSize = 0 ∨
    0 < cfg.sendBatchSize ∧ cfg.sendBatchSize.toNat ≤ cfg.sendBatchMaxSize.toNat + 1

theorem part_pos (hcfg : cfg.Splitting) (hsmall : s.Small cfg) (hsplits : s.Splits cfg td) :
    0 < min (s.splitSize cfg) (spanCount td) := by
  obtain ⟨hmax, hlt⟩ := hsplits
  obtain hzero | ⟨hpos, hle⟩ := hcfg
  · rw [hzero] at hmax
    exact absurd hmax (UInt32.lt_irrefl 0)
  · have hcount : s.spanCount < cfg.sendBatchSize := hsmall.elim (fun h => h ▸ hpos) id
    have hsub : s.splitSize cfg = cfg.sendBatchSize.toNat - s.spanCount.toNat :=
      UInt32.toNat_sub_of_le _ _ (UInt32.le_of_lt hcount)
    rw [UInt32.lt_iff_toNat_lt] at hcount
    -- a trace without spans is not split, since the batch is not above the maximum
    have htd : spanCount td ≠ 0 := by
      intro h
      rw [h] at hlt
      change cfg.sendBatchMaxSize < s.spanCount + 0 at hlt
      rw [UInt32.add_zero, UInt32.lt_iff_toNat_lt] at hlt
      omega
    omega

theorem moved_of_putsBack (hcfg : cfg.Splitting) (h : PutsBack cfg s s' td rest) :
    ∃ moved : Multiset (R × L × X), moved ≠ 0 ∧ s'.batched = s.batched + moved ∧
      moved + spansOf rest = spansOf td := by
  obtain ⟨es, hrun⟩ := h.reached
  have hsmall := runFrom_invariant (small_step cfg) hrun (.inl rfl)
  have hback := h.back
  cases (took_of_step h.step).2 with
  | @receive td' items hitem =>
    obtain rfl : td' = td := by simpa [hitem] using h.taken
    rcases State.receive_cases cfg { s with newItem := items } td' with
      ⟨-, heq⟩ | ⟨-, c, -, heq⟩ | ⟨hsplits, -, part, rest', hpart, hperm, heq⟩
    · rw [heq, (State.frame_addAndSend cfg _ td').requeueing] at hback
      simp at hback
    · rw [heq] at hback
      simp at hback
    · rw [heq, (State.frame_addAndSend cfg _ part).requeueing] at hback
      obtain rfl : rest' = rest := by simpa using hback
      rw [heq, State.batched_addAndSend]
      refine ⟨spansOf part, fun hnil => ?_, rfl, Multiset.coe_eq_coe.2 hperm⟩
      have hpos := part_pos hcfg hsmall hsplits
      rw [← length_spansOf, (Multiset.coe_eq_zero _).1 hnil] at hpart
      exact absurd hpart hpos.ne

/-- **A trace that is put back has lost spans to the batch**, and comes back at most as often as it
has spans. -/
theorem split_progress (cfg : Config) (hcfg : cfg.Splitting) :
    (∀ (s s' : State R L X) (td rest : Traces R L X), PutsBack cfg s s' td rest →
      ∃ moved : Multiset (R × L × X), moved ≠ 0 ∧ s'.batched = s.batched + moved ∧
        moved + spansOf rest = spansOf td) ∧
    ∀ (td : Traces R L X) (tds : List (Traces R L X)),
      (td :: tds).IsChain (fun td rest => ∃ s s', PutsBack cfg s s' td rest) →
      tds.length ≤ spanCount td := by
  refine ⟨fun s s' td rest => moved_of_putsBack hcfg, fun td tds hchain => ?_⟩
  induction tds generalizing td with
  | nil => exact Nat.zero_le _
  | cons rest tds ih =>
    obtain ⟨⟨s, s', hback⟩, hrest⟩ := isChain_cons_cons.1 hchain
    obtain ⟨moved, hne, -, hsum⟩ := moved_of_putsBack hcfg hback
    have hcard := congrArg Multiset.card hsum
    have hpos := Multiset.card_pos.2 hne
    have hle := ih rest hrest
    rw [Multiset.card_add, Multiset.coe_card, Multiset.coe_card, length_spansOf,
      length_spansOf] at hcard
    rw [length_cons]
    omega

/-- One library with these spans. -/
def spansIn (l : List Nat) : Traces Unit Unit Nat := [some ⟨(), [some ⟨(), l⟩]⟩]

theorem split_progress_two : ∃ s s' : State Unit Unit Nat,
    PutsBack ⟨1, 1, 1, Nat.one_pos⟩ s s' (spansIn [0, 1]) (spansIn [0]) ∧
      ∃ moved, moved ≠ 0 ∧ s'.batched = s.batched + moved ∧
        moved + spansOf (spansIn [0]) = spansOf (spansIn [0, 1]) := by
  have hback : PutsBack ⟨1, 1, 1, Nat.one_pos⟩
      { newItem := [spansIn [0, 1]], consumed := [spansIn [0, 1]] }
      { requeueing := [spansIn [0]], consumed := [spansIn [0, 1]], exported := [spansIn [1]] }
      (spansIn [0, 1]) (spansIn [0]) :=
    ⟨⟨[.consume (spansIn [0, 1])], by decide +kernel⟩, rfl, by decide +kernel, rfl⟩
  exact ⟨_, _, hback, (split_progress _ (.inr (by decide))).1 _ _ _ _ hback⟩

/-- With size 0 and maximum 1, two spans are put back whole. -/
theorem put_back_whole :
    ∃ s s' : State Unit Unit Nat,
      PutsBack ⟨0, 1, 1, Nat.one_pos⟩ s s' (spansIn [0, 1]) (spansIn [0, 1]) ∧
        s'.batched = s.batched :=
  ⟨{ newItem := [spansIn [0, 1]], consumed := [spansIn [0, 1]] },
    { requeueing := [spansIn [0, 1]], consumed := [spansIn [0, 1]], exported := [[]] },
    ⟨⟨[.consume (spansIn [0, 1])], by decide +kernel⟩, rfl, by decide +kernel, rfl⟩,
    by decide +kernel⟩

end Collector.Batch
