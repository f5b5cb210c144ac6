import Collector.Batch.Cycle
import Mathlib.Algebra.BigOperators.Group.Multiset.Basic
import Mathlib.Tactic.Abel

/-!
# Shutdown of the batch processor

`Shutdown` closes the channel and waits for the processing cycle, but not for the goroutines that
put the rest of a split trace back. Such a goroutine may come to its send when the channel is
closed, which brings the process down. So nothing is lost exactly when no goroutine is on its way
at the close, nothing is split after it, no split meets a nil pointer, and the count of the last
batch has not wrapped to zero.
-/

namespace Collector.Batch

open Lib Pdata Pdata.Scoped Multiset State

variable {R L X : Type}

/-- The spans of some traces, each as often as it is there. -/
def allSpans (tds : List (Traces R L X)) : Multiset (R × L × X) := tds.flatMap spansOf

@[simp] theorem allSpans_nil : allSpans ([] : List (Traces R L X)) = 0 := rfl

@[simp] theorem allSpans_singleton (td : Traces R L X) : allSpans [td] = spansOf td := by
  simp [allSpans]

@[simp] theorem allSpans_append (tds tds' : List (Traces R L X)) :
    allSpans (tds ++ tds') = allSpans tds + allSpans tds' := by
  simp [allSpans]

@[simp] theorem allSpans_cons (td : Traces R L X) (tds : List (Traces R L X)) :
    allSpans (td :: tds) = spansOf td + allSpans tds := by
  simp [allSpans]

theorem allSpans_eraseIdx {tds : List (Traces R L X)} {i : Nat} {td : Traces R L X}
    (h : tds[i]? = some td) : allSpans (tds.eraseIdx i) + spansOf td = allSpans tds := by
  obtain ⟨hi, rfl⟩ := List.getElem?_eq_some_iff.1 h
  have hperm := (List.getElem_cons_eraseIdx_perm hi).flatMap_right spansOf
  rw [add_comm, ← allSpans_cons]
  exact coe_eq_coe.2 hperm

/-- Every span that is somewhere: sent, in the batch, on the channel or with a goroutine. -/
def State.spans (s : State R L X) : Multiset (R × L × X) :=
  allSpans s.exported + spansOf s.traceData + allSpans s.newItem + allSpans s.requeueing

theorem State.spans_sendItems (s : State R L X) : s.sendItems.spans = s.spans := by
  simp [spans, sendItems, spansOf]

theorem State.spans_flush (s : State R L X) : s.flush.spans = s.spans := by
  unfold flush
  split
  case isTrue => exact s.spans_sendItems
  case isFalse => rfl

theorem State.spans_add (s : State R L X) (td : Traces R L X) :
    (s.add td).spans = s.spans + spansOf td := by
  unfold add
  split
  case isTrue hzero =>
    rw [spansOf_eq_nil hzero]
    exact (add_zero _).symm
  case isFalse =>
    simp only [spans, spansOf_append, ← coe_add]
    abel

theorem State.spans_addAndSend (cfg : Config) (s : State R L X) (td : Traces R L X) :
    (s.addAndSend cfg td).spans = s.spans + spansOf td := by
  unfold addAndSend
  split
  case isTrue => rw [spans_sendItems, spans_add]
  case isFalse => exact s.spans_add td

/-! ## Nothing gets lost on the way -/

/-- What the body of the `select` does to the rest of the state. -/
structure State.Received (s : State R L X) (td : Traces R L X) (s' : State R L X) : Prop where
  newItem : s'.newItem = s.newItem
  closed : s'.closed = s.closed
  consumed : s'.consumed = s.consumed
  done : s'.done = s.done
  requeueing : s.requeueing <+: s'.requeueing
  spans : s'.panic = none → s'.spans = s.spans + spansOf td

theorem State.receive_received (cfg : Config) (s : State R L X) (td : Traces R L X) :
    s.Received td (s.receive cfg td) := by
  rcases s.receive_cases cfg td with ⟨-, heq⟩ | ⟨-, c, -, heq⟩ | ⟨-, -, part, rest, -, hperm, heq⟩
  · rw [heq]
    have hframe := s.frame_addAndSend cfg td
    exact ⟨hframe.newItem, hframe.closed, hframe.consumed, hframe.done,
      hframe.requeueing ▸ List.prefix_rfl, fun _ => s.spans_addAndSend cfg td⟩
  · rw [heq]
    exact ⟨rfl, rfl, rfl, rfl, List.prefix_rfl, fun h => (by cases h)⟩
  · rw [heq]
    let split : State R L X := { s with requeueing := s.requeueing ++ [rest] }
    have hframe := split.frame_addAndSend cfg part
    refine ⟨hframe.newItem, hframe.closed, hframe.consumed, hframe.done,
      hframe.requeueing ▸ List.prefix_append _ _, fun _ => ?_⟩
    have hitems : (spansOf part : Multiset (R × L × X)) + spansOf rest = spansOf td :=
      coe_eq_coe.2 hperm
    rw [spans_addAndSend, ← hitems]
    simp only [spans, allSpans_append, allSpans_singleton]
    abel

/-- What holds in every run: as long as nothing panics, every span that was consumed is
somewhere. -/
structure Kept (s : State R L X) : Prop where
  spans : s.panic = none → allSpans s.consumed = s.spans
  done : s.done = true → s.closed = true

theorem kept_init : Kept ({} : State R L X) := ⟨fun _ => rfl, fun h => (by cases h)⟩

theorem kept_step (cfg : Config) (s : State R L X) (e : Event R L X) (s' : State R L X)
    (hstep : step cfg s e = some s') (h : Kept s) : Kept s' := by
  obtain ⟨hpanic, htook⟩ := took_of_step hstep
  have hspans := h.spans hpanic
  cases htook with
  | consume =>
    refine ⟨fun _ => ?_, h.done⟩
    simp only [spans, allSpans_append, allSpans_singleton, hspans]
    abel
  | @receive td items hitem =>
    have hreceived := { s with newItem := items }.receive_received cfg td
    refine ⟨fun hnone => ?_, fun hdone => ?_⟩
    · rw [hreceived.consumed, hreceived.spans hnone]
      simp only [hspans, spans, hitem, allSpans_cons]
      abel
    · rw [hreceived.closed]
      exact h.done (hreceived.done ▸ hdone)
  | tick =>
    have hframe := s.frame_flush
    exact ⟨fun _ => by rw [hframe.consumed, s.spans_flush, hspans],
      fun hdone => hframe.closed ▸ h.done (hframe.done ▸ hdone)⟩
  | requeue hitem =>
    refine ⟨fun _ => ?_, h.done⟩
    have herase := allSpans_eraseIdx hitem
    simp only [spans, allSpans_append, allSpans_singleton, hspans, ← herase]
    abel
  | sendOnClosed => exact ⟨fun hnone => (by cases hnone), h.done⟩
  | close => exact ⟨fun _ => hspans, fun _ => rfl⟩
  | finish _ hclosed =>
    have hframe := s.frame_flush
    refine ⟨fun _ => ?_, fun _ => hframe.closed ▸ hclosed⟩
    exact hframe.consumed ▸ hspans.trans s.spans_flush.symm

/-! ## Orderly shutdowns -/

/-- No goroutine is on its way when the channel is closed, nothing is split after that or with a
nil pointer in it, and at the end a batch with spans does not count as empty. -/
def Orderly (cfg : Config) (s : State R L X) : Event R L X → Prop
  | .receive => ∀ td ∈ s.newItem.head?, s.Splits cfg td →
      s.closed = false ∧ Returns (splitTrace (s.splitSize cfg) td)
  | .close => s.requeueing = []
  | .finish => s.spanCount = 0 → spansOf s.traceData = []
  | _ => True

/-- Nothing was sent on a closed channel, and `Shutdown` returns when every span has been passed on
as often as it was consumed. -/
def Safe (s : State R L X) : Prop :=
  s.panic = none ∧ (s.done = true → (s.exported.flatMap spansOf).Perm (s.consumed.flatMap spansOf))

structure Settled (s : State R L X) : Prop where
  panic : s.panic = none
  closed : s.closed = true → s.requeueing = []
  done : s.done = true → s.newItem = [] ∧ spansOf s.traceData = []

theorem settled_init : Settled ({} : State R L X) := ⟨rfl, fun _ => rfl, fun h => (by cases h)⟩

variable {cfg : Config} {s : State R L X}

theorem receive_orderly {td : Traces R L X} (hpanic : s.panic = none)
    (horderly : s.Splits cfg td → s.closed = false ∧ Returns (splitTrace (s.splitSize cfg) td)) :
    (s.receive cfg td).panic = none ∧
      (s.closed = true → (s.receive cfg td).requeueing = s.requeueing) := by
  rcases s.receive_cases cfg td with
    ⟨-, heq⟩ | ⟨hsplits, c, herr, -⟩ | ⟨hsplits, -, part, rest, -, -, heq⟩
  · rw [heq]
    have hframe := s.frame_addAndSend cfg td
    exact ⟨hframe.panic.trans hpanic, fun _ => hframe.requeueing⟩
  · obtain ⟨-, split, hok⟩ := horderly hsplits
    rw [herr] at hok
    cases hok
  · rw [heq]
    have hopen := (horderly hsplits).1
    refine ⟨(frame_addAndSend cfg _ part).panic.trans hpanic, fun hclosed => ?_⟩
    rw [hopen] at hclosed
    cases hclosed

theorem settled_step (cfg : Config) (s : State R L X) (e : Event R L X) (s' : State R L X)
    (horderly : Orderly cfg s e) (hstep : step cfg s e = some s') (h : Kept s ∧ Settled s) :
    Kept s' ∧ Settled s' := by
  obtain ⟨hkept, hsettled⟩ := h
  refine ⟨kept_step cfg s e s' hstep hkept, ?_⟩
  -- as long as the channel is open the cycle has not ended
  have hrunning : s.closed = false → s.done = true → False := fun hopen hdone => by
    rw [hkept.done hdone] at hopen
    cases hopen
  cases (took_of_step hstep).2 with
  | consume hopen =>
    exact ⟨hsettled.panic, hsettled.closed, fun hdone => (hrunning hopen hdone).elim⟩
  | @receive td items hitem hdone =>
    have hreceived := { s with newItem := items }.receive_received cfg td
    obtain ⟨hpanic, hrequeueing⟩ := receive_orderly (s := { s with newItem := items })
      hsettled.panic (horderly td (by rw [hitem]; rfl))
    refine ⟨hpanic, fun hclosed => ?_, fun hdone' => ?_⟩
    · have hclosed' : s.closed = true := hreceived.closed ▸ hclosed
      exact (hrequeueing hclosed').trans (hsettled.closed hclosed')
    · rw [hreceived.done] at hdone'
      exact absurd (hdone.symm.trans hdone') (by decide)
  | tick hdone =>
    have hframe := s.frame_flush
    refine ⟨hframe.panic.trans hsettled.panic, fun hclosed => ?_, fun hdone' => ?_⟩
    · exact hframe.requeueing.trans (hsettled.closed (hframe.closed ▸ hclosed))
    · rw [hframe.done] at hdone'
      exact absurd (hdone.symm.trans hdone') (by decide)
  | requeue hitem hopen =>
    refine ⟨hsettled.panic, fun hclosed => ?_, fun hdone => (hrunning hopen hdone).elim⟩
    exact absurd (hopen.symm.trans hclosed) (by decide)
  | sendOnClosed hitem hclosed =>
    rw [hsettled.closed hclosed] at hitem
    cases hitem
  | close hopen =>
    exact ⟨hsettled.panic, fun _ => horderly, fun hdone => (hrunning hopen hdone).elim⟩
  | finish hdone hclosed hempty =>
    have hframe := s.frame_flush
    refine ⟨hframe.panic.trans hsettled.panic, fun _ => ?_, fun _ => ⟨?_, ?_⟩⟩
    · exact hframe.requeueing.trans (hsettled.closed hclosed)
    · exact hframe.newItem.trans hempty
    · show spansOf s.flush.traceData = []
      unfold flush
      split
      case isTrue => rfl
      case isFalse hzero => exact horderly (UInt32.le_zero_iff.1 (UInt32.not_lt.1 hzero))

theorem safe_of_orderly {es : List (Event R L X)} (horderly : Meets (step cfg) (Orderly cfg) {} es)
    (hrun : runFrom (step cfg) {} es = some s) : Safe s := by
  obtain ⟨hkept, hsettled⟩ :=
    horderly.invariant (settled_step cfg) hrun ⟨kept_init, settled_init⟩
  refine ⟨hsettled.panic, fun hdone => coe_eq_coe.1 ?_⟩
  obtain ⟨hnew, hbatch⟩ := hsettled.done hdone
  have hspans := hkept.spans hsettled.panic
  rw [spans, hnew, hbatch, hsettled.closed (hkept.done hdone)] at hspans
  have heq : allSpans s.exported = allSpans s.consumed := by simpa using hspans.symm
  exact heq

/-! ## A step that is not orderly -/

/-- Something panicked, or a goroutine will send on the closed channel, or `Shutdown` returned too
early. -/
def Doomed (s : State R L X) : Prop :=
  s.panic ≠ none ∨ (s.closed = true ∧ s.requeueing ≠ []) ∨
    (s.done = true ∧ s.closed = true ∧ allSpans s.exported ≠ allSpans s.consumed)

theorem doomed_stays (cfg : Config) (s : State R L X) (e : Event R L X) (s' : State R L X)
    (hstep : step cfg s e = some s') (h : Doomed s) : Doomed s' := by
  obtain ⟨hpanic, htook⟩ := took_of_step hstep
  rcases h with hpanicked | ⟨hclosed, hrequeueing⟩ | ⟨hdone, hclosed, hlost⟩
  · exact absurd hpanic hpanicked
  · cases htook with
    | consume hopen | requeue _ hopen | close hopen =>
      exact absurd (hopen.symm.trans hclosed) (by decide)
    | @receive td items =>
      have hreceived := { s with newItem := items }.receive_received cfg td
      refine .inr (.inl ⟨hreceived.closed.trans hclosed, fun hnil => hrequeueing ?_⟩)
      exact List.prefix_nil.1 (hnil ▸ hreceived.requeueing)
    | sendOnClosed => exact .inl (Option.some_ne_none _)
    | tick | finish =>
      have hframe := s.frame_flush
      exact .inr (.inl ⟨hframe.closed.trans hclosed, hframe.requeueing ▸ hrequeueing⟩)
  · cases htook with
    | consume hopen | requeue _ hopen | close hopen =>
      exact absurd (hopen.symm.trans hclosed) (by decide)
    | receive _ hrunning | tick hrunning | finish hrunning =>
      exact absurd (hrunning.symm.trans hdone) (by decide)
    | sendOnClosed => exact .inl (Option.some_ne_none _)

theorem doomed_of_not_orderly (cfg : Config) (s : State R L X) (e : Event R L X) (s' : State R L X)
    (hstep : step cfg s e = some s') (h : Kept s) (hnot : ¬ Orderly cfg s e) : Doomed s' := by
  obtain ⟨hpanic, htook⟩ := took_of_step hstep
  cases htook with
  | consume | tick | requeue | sendOnClosed => exact absurd trivial hnot
  | close => exact .inr (.inl ⟨rfl, hnot⟩)
  | @receive td items hitem =>
    have hnot' : ¬ (s.Splits cfg td →
        s.closed = false ∧ Returns (splitTrace (s.splitSize cfg) td)) := by
      refine fun h => hnot fun td' htd' => ?_
      rw [hitem] at htd'
      cases htd'
      exact h
    obtain ⟨hsplits, hbad⟩ := Classical.not_imp.1 hnot'
    rcases { s with newItem := items }.receive_cases cfg td with
      ⟨hunsplit, -⟩ | ⟨-, c, -, heq⟩ | ⟨-, hreturns, part, rest, -, -, heq⟩
    · exact absurd hsplits hunsplit
    · rw [heq]
      exact .inl (Option.some_ne_none _)
    · have hclosed : s.closed = true :=
        Bool.eq_true_of_not_eq_false fun hopen => hbad ⟨hopen, hreturns⟩
      rw [heq]
      have hframe := frame_addAndSend cfg
        { s with newItem := items, requeueing := s.requeueing ++ [rest] } part
      refine .inr (.inl ⟨hframe.closed.trans hclosed, ?_⟩)
      rw [hframe.requeueing]
      exact List.append_ne_nil_of_right_ne_nil _ (List.cons_ne_nil _ _)
  | finish hdone hclosed hempty =>
    obtain ⟨hzero, hbatch⟩ := Classical.not_imp.1 hnot
    have hflush : s.flush = s := if_neg (by rw [hzero]; exact UInt32.lt_irrefl 0)
    rw [hflush]
    refine .inr (.inr ⟨rfl, hclosed, fun heq => hbatch (List.length_eq_zero_iff.1 ?_)⟩)
    -- the spans of the batch are missing
    have hcard := congrArg Multiset.card (heq.trans (h.spans hpanic))
    simp only [spans, card_add, coe_card] at hcard
    omega

def Ended (s : State R L X) : Prop := s.panic ≠ none ∨ (s.done = true ∧ s.requeueing = [])

theorem not_doomed_of_safe (hended : Ended s) (hsafe : Safe s) : ¬ Doomed s := by
  obtain ⟨hpanic, hall⟩ := hsafe
  rcases hended with hpanicked | ⟨hdone, hrequeueing⟩
  · exact absurd hpanic hpanicked
  · rintro (hpanicked | ⟨-, hmore⟩ | ⟨-, -, hlost⟩)
    · exact hpanicked hpanic
    · exact hmore hrequeueing
    · exact hlost (coe_eq_coe.2 (hall hdone))

/-- Batches of two spans, and a channel of one item. -/
def pairs : Config := ⟨2, 2, 1, Nat.one_pos⟩

def three : Traces Unit String Nat := [some ⟨(), [some ⟨"lib", [1, 2, 3]⟩]⟩]

/-- The rest of the trace is back on the channel before it is closed. -/
def inTime : List (Event Unit String Nat) :=
  [.consume three, .receive, .requeue 0, .close, .receive, .finish]

def drained : State Unit String Nat where
  closed := true
  exported := [[some ⟨(), [some ⟨"lib", [3, 2]⟩]⟩], [some ⟨(), [some ⟨"lib", [1]⟩]⟩]]
  consumed := [three]
  done := true

/-- The channel is closed before the goroutine gets to it. -/
def tooLate : List (Event Unit String Nat) := [.consume three, .receive, .close, .requeue 0]

/-- **No span is lost or repeated while nothing panics**: what was consumed is what was sent, and
what is in the batch, on the channel or with a goroutine that puts it back. -/
theorem spans_accounted {es : List (Event R L X)} (hrun : runFrom (step cfg) {} es = some s)
    (hpanic : s.panic = none) : allSpans s.consumed = s.spans :=
  (runFrom_invariant (kept_step cfg) hrun kept_init).spans hpanic

theorem spans_accounted_drained : allSpans drained.consumed = drained.spans :=
  spans_accounted (by decide +kernel : runFrom (step pairs) {} inTime = some drained) rfl

/-! ## Without a maximum -/

/-- **Without a maximum nothing is lost**, as long as the count of a batch does not wrap. -/
theorem safe_without_maximum (hmax : cfg.sendBatchMaxSize = 0) {es : List (Event R L X)}
    (hroom : Meets (step cfg) NoWrap {} es) (hrun : runFrom (step cfg) {} es = some s) :
    Safe s := by
  have hunsplit : ∀ (s : State R L X) (td : Traces R L X), ¬ s.Splits cfg td := fun s td h => by
    rw [State.Splits, hmax] at h
    exact UInt32.lt_irrefl 0 h.1
  have hkept : ∀ (s : State R L X) (e : Event R L X) (s' : State R L X), NoWrap s e →
      step cfg s e = some s' → s.Counted ∧ s.requeueing = [] →
      s'.Counted ∧ s'.requeueing = [] := by
    rintro s e s' hroom hstep ⟨hcounted, hnone⟩
    refine ⟨counted_step cfg s e s' hroom hstep hcounted, ?_⟩
    cases (took_of_step hstep).2 with
    | consume | close => exact hnone
    | @receive td items =>
      rw [receive, if_neg (hunsplit _ td)]
      exact (frame_addAndSend cfg _ td).requeueing.trans hnone
    | tick | finish => exact s.frame_flush.requeueing.trans hnone
    | requeue hitem | sendOnClosed hitem =>
      rw [hnone] at hitem
      cases hitem
  have himp : ∀ (s : State R L X) (e : Event R L X), NoWrap s e → s.Counted ∧ s.requeueing = [] →
      Orderly cfg s e := by
    rintro s e - ⟨hcounted, hnone⟩
    cases e with
    | consume | tick | requeue => trivial
    | receive => exact fun td _ hsplits => (hunsplit s td hsplits).elim
    | close => exact hnone
    | finish =>
      intro hzero
      rw [State.Counted, hzero] at hcounted
      exact spansOf_eq_nil hcounted.symm
  exact safe_of_orderly (hroom.imp hkept himp ⟨rfl, rfl⟩) hrun

theorem three_without_maximum : ∃ s, s.exported = [three] ∧ s.done = true ∧
    runFrom (step ⟨4, 0, 1, Nat.one_pos⟩) {} [.consume three, .receive, .close, .finish] = some s ∧
    Safe s := by
  have hrun : runFrom (step ⟨4, 0, 1, Nat.one_pos⟩) {} [.consume three, .receive, .close, .finish] =
      some { closed := true, exported := [three], consumed := [three], done := true } := by
    decide +kernel
  refine ⟨_, rfl, rfl, hrun, safe_without_maximum rfl ?_ hrun⟩
  refine ⟨trivial, fun s h => ⟨?_, fun _ _ => ⟨trivial, fun _ _ => ⟨trivial, fun _ _ => trivial⟩⟩⟩⟩
  cases h
  rintro _ ⟨⟩
  decide

end Collector.Batch
