import Collector.Batch.Cycle

/-!
# The maximum size of a batch

`send_batch_max_size` decides whether a trace is split, but the part that is taken fills the batch
up to `send_batch_size`, and a trace that does not pass that size is taken whole. So the maximum
holds exactly for settings where the size is not the larger of the two, which nothing checks.
-/

namespace Collector.Batch

open Lib Pdata.Scoped

variable {R L X : Type}

theorem State.add_exported (s : State R L X) (td : Traces R L X) :
    (s.add td).exported = s.exported := by
  unfold add
  split <;> rfl

/-- The batch is counted, it is not large enough to be sent, and what was sent was not too large. -/
structure Bounded (cfg : Config) (s : State R L X) : Prop where
  counted : s.Counted
  small : s.spanCount = 0 ∨ s.spanCount < cfg.sendBatchSize
  sent : ∀ batch ∈ s.exported, spanCount batch ≤ cfg.sendBatchMaxSize.toNat

theorem bounded_init (cfg : Config) : Bounded cfg ({} : State R L X) :=
  ⟨rfl, .inl rfl, fun _ h => (List.not_mem_nil h).elim⟩

namespace Bounded

variable {cfg : Config} {s : State R L X}

theorem congr {s' : State R L X} (h : Bounded cfg s) (hcount : s'.spanCount = s.spanCount)
    (hdata : s'.traceData = s.traceData) (hsent : s'.exported = s.exported) : Bounded cfg s' :=
  ⟨by rw [State.Counted, hcount, hdata]; exact h.counted, hcount ▸ h.small, hsent ▸ h.sent⟩

theorem le_size (h : Bounded cfg s) : s.spanCount.toNat ≤ cfg.sendBatchSize.toNat := by
  rcases h.small with hzero | hlt
  · rw [hzero]
    exact Nat.zero_le _
  · exact Nat.le_of_lt (UInt32.lt_iff_toNat_lt.1 hlt)

theorem sendItems (hsent : ∀ batch ∈ s.exported, spanCount batch ≤ cfg.sendBatchMaxSize.toNat)
    (hbatch : spanCount s.traceData ≤ cfg.sendBatchMaxSize.toNat) : Bounded cfg s.sendItems := by
  refine ⟨rfl, .inl rfl, fun batch hmem => ?_⟩
  rcases List.mem_append.1 hmem with hmem | hmem
  · exact hsent batch hmem
  · rw [List.mem_singleton.1 hmem]
    exact hbatch

theorem flush (h : Bounded cfg s) (hsize : cfg.sendBatchSize ≤ cfg.sendBatchMaxSize) :
    Bounded cfg s.flush := by
  unfold State.flush
  split
  case isTrue =>
    refine sendItems h.sent ?_
    rw [← h.counted]
    exact Nat.le_trans h.le_size (UInt32.le_iff_toNat_le.1 hsize)
  case isFalse => exact h

theorem addAndSend (h : Bounded cfg s) {td : Traces R L X}
    (hmax : s.spanCount.toNat + spanCount td ≤ cfg.sendBatchMaxSize.toNat) :
    Bounded cfg (s.addAndSend cfg td) := by
  have hroom : s.spanCount.toNat + spanCount td < 2 ^ 32 :=
    Nat.lt_of_le_of_lt hmax cfg.sendBatchMaxSize.toNat_lt
  have hcounted := h.counted.add hroom
  have hsent : ∀ batch ∈ (s.add td).exported, spanCount batch ≤ cfg.sendBatchMaxSize.toNat := by
    rw [State.add_exported]
    exact h.sent
  unfold State.addAndSend
  split
  case isTrue =>
    refine sendItems hsent ?_
    rw [← hcounted, State.add_spanCount hroom]
    exact hmax
  case isFalse hsmall => exact ⟨hcounted, .inr (UInt32.not_le.1 hsmall), hsent⟩

theorem receive (h : Bounded cfg s) (hpos : 0 < cfg.sendBatchMaxSize)
    (hsize : cfg.sendBatchSize ≤ cfg.sendBatchMaxSize) {td : Traces R L X}
    (hroom : s.spanCount.toNat + spanCount td < 2 ^ 32) : Bounded cfg (s.receive cfg td) := by
  rcases s.receive_cases cfg td with
    ⟨hsplits, heq⟩ | ⟨-, c, -, heq⟩ | ⟨-, -, part, rest, hpart, -, heq⟩
  · rw [heq]
    refine h.addAndSend ?_
    have hle := UInt32.not_lt.1 fun hlt => hsplits ⟨hpos, hlt⟩
    rw [UInt32.le_iff_toNat_le, UInt32.toNat_add, UInt32.toNat_ofNat', Nat.add_mod_mod,
      Nat.mod_eq_of_lt hroom] at hle
    exact hle
  · rw [heq]
    exact h.congr rfl rfl rfl
  · rw [heq]
    -- the part fills the batch up to the size, which the subtraction does not pass below
    have hsub : s.splitSize cfg = cfg.sendBatchSize.toNat - s.spanCount.toNat :=
      UInt32.toNat_sub_of_le _ _ (UInt32.le_iff_toNat_le.2 h.le_size)
    have hle := h.le_size
    have hmax := UInt32.le_iff_toNat_le.1 hsize
    have hrest : Bounded cfg { s with requeueing := s.requeueing ++ [rest] } :=
      h.congr rfl rfl rfl
    refine hrest.addAndSend ?_
    show s.spanCount.toNat + spanCount part ≤ _
    omega

theorem step (hpos : 0 < cfg.sendBatchMaxSize) (hsize : cfg.sendBatchSize ≤ cfg.sendBatchMaxSize)
    (s : State R L X) (e : Event R L X) (s' : State R L X) (hroom : NoWrap s e)
    (hstep : step cfg s e = some s') (h : Bounded cfg s) : Bounded cfg s' := by
  cases (took_of_step hstep).2 with
  | consume | requeue | sendOnClosed | close => exact h.congr rfl rfl rfl
  | @receive td items hitem =>
    have hitems : Bounded cfg { s with newItem := items } := h.congr rfl rfl rfl
    refine hitems.receive hpos hsize (hroom td ?_)
    rw [hitem]
    rfl
  | tick => exact h.flush hsize
  | finish => exact (h.flush hsize).congr rfl rfl rfl

end Bounded

/-! ## A trace that passes the maximum and not the size -/

theorem State.added_sent (cfg : Config) (s : State R L X) (td : Traces R L X)
    (hpos : 0 < (s.add td).spanCount) :
    (s.add td).traceData ∈ (s.addAndSend cfg td).flush.exported := by
  unfold addAndSend
  split
  case isTrue =>
    have hempty : (s.add td).sendItems.flush = (s.add td).sendItems :=
      if_neg (UInt32.lt_irrefl 0)
    exact List.mem_append_right _ List.mem_cons_self
  case isFalse =>
    rw [flush, if_pos hpos]
    exact List.mem_append_right _ List.mem_cons_self

theorem receive_above_maximum {cfg : Config} {s : State R L X} {td : Traces R L X}
    (hpos : 0 < cfg.sendBatchMaxSize) (hzero : s.spanCount = 0)
    (hmax : cfg.sendBatchMaxSize.toNat < spanCount td)
    (hsize : spanCount td ≤ cfg.sendBatchSize.toNat) :
    s.receive cfg td =
      { s with requeueing := s.requeueing ++ [State.emptied td] }.addAndSend cfg td := by
  have hlt : spanCount td < 2 ^ 32 := Nat.lt_of_le_of_lt hsize cfg.sendBatchSize.toNat_lt
  have hsplits : s.Splits cfg td := by
    refine ⟨hpos, UInt32.lt_iff_toNat_lt.2 ?_⟩
    rw [hzero, UInt32.zero_add, UInt32.toNat_ofNat_of_lt' hlt]
    exact hmax
  have hsplit : splitTrace (s.splitSize cfg) td = .ok (td, none) := by
    refine if_pos ?_
    rw [State.splitSize, hzero, UInt32.sub_zero]
    exact hsize
  rw [State.receive, if_pos hsplits, hsplit]
  rfl

variable [Inhabited R] [Inhabited L] [Inhabited X]

def equalSpans (n : Nat) : Traces R L X :=
  [some ⟨default, [some ⟨default, .replicate n default⟩]⟩]

theorem spanCount_equalSpans (n : Nat) : spanCount (equalSpans n : Traces R L X) = n := by
  simp [spanCount, equalSpans]

def receiveAndTick (n : Nat) : List (Event R L X) := [.consume (equalSpans n), .receive, .tick]

variable (R L X) in
theorem sent_above_maximum {cfg : Config} (hpos : 0 < cfg.sendBatchMaxSize)
    (hsize : cfg.sendBatchMaxSize < cfg.sendBatchSize) :
    ∃ n, cfg.sendBatchMaxSize.toNat < n ∧
      Meets (step cfg) NoWrap ({} : State R L X) (receiveAndTick n) ∧
      ∃ s : State R L X, runFrom (step cfg) {} (receiveAndTick n) = some s ∧
        equalSpans n ∈ s.exported := by
  let n := cfg.sendBatchMaxSize.toNat + 1
  let td : Traces R L X := equalSpans n
  have hcount : spanCount td = n := spanCount_equalSpans n
  have hn : n ≤ cfg.sendBatchSize.toNat := UInt32.lt_iff_toNat_lt.1 hsize
  have hlt : n < 2 ^ 32 := Nat.lt_of_le_of_lt hn cfg.sendBatchSize.toNat_lt
  have hconsume : step cfg {} (.consume td) = some { newItem := [td], consumed := [td] } :=
    by simp [step, cfg.capacity_pos]
  refine ⟨n, Nat.lt_succ_self _, ⟨trivial, fun s hs => ?_⟩, ?_⟩
  · rw [hconsume] at hs
    cases hs
    refine ⟨fun td' htd' => ?_, fun _ _ => ⟨trivial, fun _ _ => trivial⟩⟩
    cases htd'
    rw [hcount]
    simpa using hlt
  · let received : State R L X :=
      { requeueing := [State.emptied td], consumed := [td] }
    have hreceive : step cfg { newItem := [td], consumed := [td] } .receive =
        some (received.addAndSend cfg td) :=
      congrArg some (receive_above_maximum hpos rfl (hcount ▸ Nat.lt_succ_self _) (hcount ▸ hn))
    have htick : step cfg (received.addAndSend cfg td) .tick =
        some (received.addAndSend cfg td).flush := by
      have hframe := received.frame_addAndSend cfg td
      simp [step, hframe.panic, hframe.done, received]
    refine ⟨(received.addAndSend cfg td).flush, ?_, ?_⟩
    · simp only [receiveAndTick, runFrom_cons]
      rw [hconsume, Option.bind_some, hreceive, Option.bind_some, htick]
      rfl
    · have hadd :
          received.add td = { received with spanCount := 0 + .ofNat n, traceData := td } := by
        rw [State.add, hcount, if_neg (Nat.succ_ne_zero _)]
        rfl
      have hsent := received.added_sent cfg td
      rw [hadd] at hsent
      refine hsent ?_
      show 0 < 0 + UInt32.ofNat n
      rw [UInt32.zero_add, UInt32.lt_iff_toNat_lt, UInt32.toNat_ofNat_of_lt' hlt]
      exact Nat.succ_pos _

/-- **The maximum holds for every sequence of traces and ticks exactly when the size is not above
it**, as long as the count of a batch does not wrap. -/
theorem batches_within_maximum_iff (R L X : Type) [Inhabited R] [Inhabited L] [Inhabited X]
    (cfg : Config) (hpos : 0 < cfg.sendBatchMaxSize) :
    (∀ (es : List (Event R L X)) (s : State R L X),
        Meets (step cfg) NoWrap {} es → runFrom (step cfg) {} es = some s →
        ∀ batch ∈ s.exported, spanCount batch ≤ cfg.sendBatchMaxSize.toNat) ↔
      cfg.sendBatchSize ≤ cfg.sendBatchMaxSize := by
  constructor
  · intro h
    refine UInt32.not_lt.1 fun hsize => ?_
    obtain ⟨n, hn, hroom, s, hrun, hmem⟩ := sent_above_maximum R L X hpos hsize
    have hle := h _ s hroom hrun _ hmem
    rw [spanCount_equalSpans] at hle
    exact absurd hn (Nat.not_lt.2 hle)
  · intro hsize es s hroom hrun
    exact (hroom.invariant (Bounded.step hpos hsize) hrun (bounded_init cfg)).sent

/-- Batches are sent when they have two spans, and have at most three. -/
def twoOfThree : Config := ⟨2, 3, 1, Nat.one_pos⟩

theorem twoOfThree_bounded :
    0 < twoOfThree.sendBatchMaxSize ∧
      ∀ (es : List (Event Unit Unit Nat)) (s : State Unit Unit Nat),
        Meets (step twoOfThree) NoWrap {} es → runFrom (step twoOfThree) {} es = some s →
        ∀ batch ∈ s.exported, spanCount batch ≤ 3 :=
  ⟨by decide, (batches_within_maximum_iff Unit Unit Nat twoOfThree (by decide)).2 (by decide)⟩

/-- Batches are sent when they have ten spans, and should have at most five. -/
def tenOfFive : Config := ⟨10, 5, 1, Nat.one_pos⟩

theorem seven_sent :
    0 < tenOfFive.sendBatchMaxSize ∧
      ((runFrom (step tenOfFive) ({} : State Unit Unit Nat) (receiveAndTick 7)).map fun s =>
        s.exported.map spanCount) = some [7] :=
  ⟨by decide, by decide +kernel⟩

end Collector.Batch
