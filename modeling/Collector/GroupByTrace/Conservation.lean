import Collector.GroupByTrace.Depot

/-!
# Spans in the group-by-trace processor

`onTraceExpired` takes the id from the ring buffer at once, but the spans are copied and removed by
later steps of other goroutines. Spans of the same trace that arrive in between start a new life of
it in the same place of the storage: after the copy they are removed with the old ones, and when the
new life expires before the removal, the old ones are copied again. A trace whose spans are gone
when it expires leaves a read lock behind, and nothing can be stored after that.

So every span is kept and none is forwarded twice exactly when the steps of the run are orderly.
-/

namespace Collector.GroupByTrace

open Lib Pdata.Scoped Multiset

variable {R L X K : Type} [DecidableEq K]

/-- Every span that was received is about to be stored, in the storage, in a release event or
forwarded, and no span is forwarded more often than it was received. -/
def Safe (s : State R L X K) : Prop :=
  s.panic = none ∧
    s.receivedSpans ≤ s.inHand + s.storedSpans + s.pendingSpans + s.forwardedSpans ∧
    s.forwardedSpans ≤ s.receivedSpans

/-- Nothing that was copied, and no removal, is on its way. -/
def AtRest (s : State R L X K) : Prop :=
  s.panic ≠ none ∨
    (s.events = [] ∧ s.fires = [] ∧ s.releasing = [] ∧ ∀ id, s.phase ≠ .removing id)

section

variable {traceID : X → Go (Option K)} {s s' : State R L X K}

/-! ## From the traces to the whole -/

variable (traceID) in
theorem le_of_filter_le {spans spans' : Multiset (R × L × X)}
    (h : ∀ id, spans.filter (HasID traceID id) ≤ spans'.filter (HasID traceID id))
    (hids : ∀ span ∈ spans, HasSomeID traceID span) : spans ≤ spans' := by
  classical
  refine le_iff_count.2 fun span => ?_
  by_cases hspan : span ∈ spans
  · obtain ⟨id, hid⟩ := hids span hspan
    have hle := le_iff_count.1 (h id) span
    rw [count_filter_of_pos hid, count_filter_of_pos hid] at hle
    exact hle
  · rw [count_eq_zero_of_notMem hspan]
    exact Nat.zero_le _

theorem Tidy.filter_stored (h : Tidy traceID s) (id : K) :
    s.storedSpans.filter (HasID traceID id) = s.storedAt id := by
  have hcontent := h.content
  unfold State.storedSpans State.storedAt
  simp only [AList.lookup] at hcontent ⊢
  have hkeys := s.st.content.nodupKeys
  generalize s.st.content.entries = entries at hcontent hkeys ⊢
  induction entries with
  | nil => rfl
  | cons entry entries ih =>
    obtain ⟨key, rss⟩ := entry
    have hentry := hcontent key rss (List.dlookup_cons_eq _ _ _)
    obtain ⟨hkey, hkeys⟩ := List.nodupKeys_cons.1 hkeys
    have hrest := ih (fun id' rss' hlookup => ?_) hkeys
    · rw [List.flatMap_cons, ← coe_add, filter_add, hrest]
      by_cases hid : id = key
      · subst hid
        rw [List.dlookup_cons_eq, hentry.filter_self, List.dlookup_eq_none.2 hkey]
        exact add_zero _
      · rw [List.dlookup_cons_ne _ _ hid, hentry.filter_ne hid, zero_add]
    · refine hcontent id' rss' ?_
      have hne : id' ≠ key := fun heq => by
        subst heq
        rw [List.dlookup_eq_none.2 hkey] at hlookup
        cases hlookup
      rw [List.dlookup_cons_ne _ _ hne]
      exact hlookup

theorem Tidy.filter_all (h : Tidy traceID s) (id : K) :
    (s.inHand + s.storedSpans + s.pendingSpans + s.forwardedSpans).filter (HasID traceID id) =
      (s.depot traceID id).inHand + (s.depot traceID id).stored + (s.depot traceID id).sent := by
  rw [add_assoc, filter_add, filter_add, h.filter_stored]
  rfl

/-- **Sound depots keep every span, and forward none twice.** -/
theorem Tidy.safe (h : Tidy traceID s) (hpanic : s.panic = none)
    (hsound : ∀ id, (s.depot traceID id).Sound) : Safe s := by
  refine ⟨hpanic, le_of_filter_le traceID (fun id => ?_) h.received,
    le_of_filter_le traceID (fun id => ?_) fun span hspan => ?_⟩
  · rw [h.filter_all]
    exact (hsound id).covered.1
  · have hle : s.forwardedSpans ≤ s.pendingSpans + s.forwardedSpans := le_add_left _ _
    have hsent : s.forwardedSpans.filter (HasID traceID id) ≤ (s.depot traceID id).sent :=
      filter_le_filter (HasID traceID id) hle
    exact hsent.trans ((le_add_left _ _).trans (hsound id).covered.2)
  · exact h.copied span (mem_add.2 (.inr hspan))

/-! ## Runs -/

theorem depot_init_sound (traceID : X → Go (Option K)) (cfg : Config) (id : K) :
    ((State.init cfg : State R L X K).depot traceID id).Sound :=
  ⟨Nat.zero_le 1, fun _ => ⟨rfl, rfl⟩, fun h => (by cases h)⟩

omit [DecidableEq K] in
theorem panic_fire {events : List (Event R L X K)} (h : s.fire events = some s') :
    s'.panic = s.panic := by
  unfold State.fire at h
  split at h
  · cases h
  · split at h <;> cases h <;> rfl

theorem panic_handle (s : State R L X K) (e : Event R L X K) : (s.handle e).panic = s.panic := by
  cases e with
  | traceExpired id =>
    unfold State.handle
    dsimp only
    split <;> rfl
  | traceReceived | traceReleased | traceRemoved | stop => rfl

theorem panic_receive {work : Work R L X K} (hphase : s.phase = .receiving work)
    (horderly : Orderly traceID s .run) (hpanic : s.panic = none) :
    (s.receive traceID work).panic = none := by
  unfold Orderly at horderly
  rw [hphase] at horderly
  unfold State.receive
  split
  · split
    · exact hpanic
    case isFalse hcontains =>
      obtain ⟨r, hput⟩ := horderly.resolve_left hcontains
      split
      case h_1 herror =>
        rw [hput] at herror
        cases herror
      · exact hpanic
      · exact hpanic
  · obtain ⟨batches, hsplit⟩ := horderly
    rw [hsplit]
    exact hpanic
  · exact hpanic
  · exact hpanic

variable {cfg : Config} {a : Act R L X}

theorem panic_step (horderly : Orderly traceID s a) (hstep : step cfg traceID s a = some s') :
    s'.panic = none := by
  unfold step at hstep
  split at hstep
  case isTrue => cases hstep
  case isFalse hpanic =>
    have hnone : s.panic = none := not_not.1 hpanic
    cases a with
    | consume => exact (panic_fire hstep).trans hnone
    | send i =>
      dsimp only at hstep
      split at hstep
      case h_2 => cases hstep
      case h_1 =>
        obtain ⟨-, hstep⟩ := Option.ite_none_right_eq_some.1 hstep
        cases hstep
        exact hnone
    | expire i =>
      dsimp only at hstep
      split at hstep
      case h_1 => cases hstep
      case h_2 => exact (panic_fire hstep).trans hnone
    | shutdown =>
      obtain ⟨-, hstep⟩ := Option.ite_none_right_eq_some.1 hstep
      cases hstep
      exact hnone
    | release i =>
      dsimp only [State.markAsReleased] at hstep
      split at hstep
      case h_1 => cases hstep
      case h_2 =>
        obtain ⟨-, hstep⟩ := Option.ite_none_left_eq_some.1 hstep
        split at hstep <;> cases hstep <;> exact hnone
      case h_3 => exact (panic_fire hstep).trans hnone
    | run =>
      dsimp only [State.run] at hstep
      split at hstep
      case h_1 =>
        split at hstep
        · cases hstep
        · cases hstep
          exact (panic_handle _ _).trans hnone
      case h_2 work hphase =>
        cases hstep
        exact panic_receive hphase horderly hnone
      case h_7 => cases hstep
      case h_3 | h_4 | h_5 | h_6 =>
        obtain ⟨-, hstep⟩ := Option.ite_none_right_eq_some.1 hstep
        cases hstep
        exact hnone

def Good (traceID : X → Go (Option K)) (s : State R L X K) : Prop :=
  s.panic = none ∧ ∀ id, (s.depot traceID id).Sound

section

variable (hadmitted : Admitted traceID s a) (hstep : step cfg traceID s a = some s')
  (htidy : Tidy traceID s)

include hadmitted hstep htidy

theorem good_step (horderly : Orderly traceID s a) (h : Good traceID s) : Good traceID s' := by
  have hpanic := panic_step horderly hstep
  obtain ⟨-, p, hmoves, hiff⟩ := step_projects htidy hadmitted hstep
  exact ⟨hpanic, fun id => (h.2 id).move (hmoves id) ((hiff hpanic).2 horderly id)⟩

/-- A span of some trace is lost, or will be forwarded twice. -/
def Doomed (traceID : X → Go (Option K)) (s : State R L X K) : Prop :=
  s.panic ≠ none ∨ ∃ id, (s.depot traceID id).Doomed

theorem doomed_of_not_orderly (h : Good traceID s)
    (hnot : ¬ Orderly traceID s a) : Doomed traceID s' := by
  by_cases hpanic : s'.panic = none
  swap
  · exact .inl hpanic
  obtain ⟨-, p, hmoves, hiff⟩ := step_projects htidy hadmitted hstep
  obtain ⟨id, hid⟩ := not_forall.1 fun hall => hnot ((hiff hpanic).1 hall)
  exact .inr ⟨id, (h.2 id).doomed (hmoves id) hid⟩

theorem doomed_stays (h : Doomed traceID s) : Doomed traceID s' := by
  rcases h with hpanic | ⟨id, hid⟩
  · unfold step at hstep
    rw [if_pos hpanic] at hstep
    cases hstep
  · obtain ⟨-, p, hmoves, -⟩ := step_projects htidy hadmitted hstep
    exact .inr ⟨id, hid.move (hmoves id)⟩

end

theorem not_doomed_of_safe (htidy : Tidy traceID s) (hrest : AtRest s)
    (hnodup : s.receivedSpans.Nodup) (hsafe : Safe s) : ¬ Doomed traceID s := by
  obtain ⟨hpanic, hcovered, honce⟩ := hsafe
  obtain ⟨hevents, hfires, hreleasing, hphase⟩ := hrest.resolve_left (not_not.2 hpanic)
  rintro (hpanic' | ⟨id, hid⟩)
  · exact hpanic' hpanic
  · have hpending : s.pendingEvents = [] := by
      unfold State.pendingEvents
      rw [hevents, hfires]
      rfl
    have hremoves : s.phase.removes id = false := by
      cases hp : s.phase with
      | removing id' => exact absurd hp (hphase id')
      | idle | receiving | evicting | storing | stopping | stopped => rfl
    refine hid.at_rest ?_ ?_ (hnodup.filter _) ⟨?_, ?_⟩
    · show s.owed id = 0
      unfold State.owed
      rw [hpending, hreleasing, hremoves]
      rfl
    · show s.heldSpans.filter (HasID traceID id) = 0
      unfold State.heldSpans
      rw [hreleasing]
      rfl
    · rw [← htidy.filter_all]
      exact filter_le_filter _ hcovered
    · show (s.pendingSpans + s.forwardedSpans).filter (HasID traceID id) ≤ _
      have hnone : s.pendingSpans = 0 := by
        unfold State.pendingSpans
        rw [hpending]
        rfl
      rw [hnone, zero_add]
      exact filter_le_filter _ honce

end

/-- Two slots for traces, and a channel of four events. -/
def twoTraces : Config := ⟨2, 4⟩

/-- Spans that are a trace id and a number. -/
def idOf (span : Nat × Nat) : Go (Option Nat) := .ok (some span.1)

def oneSpan (span : Nat × Nat) : Traces Unit Unit (Nat × Nat) :=
  [some ⟨(), [some ⟨(), [span]⟩]⟩]

def deliver (span : Nat × Nat) : List (Act Unit Unit (Nat × Nat)) :=
  [.consume (oneSpan span), .send 0, .run, .run, .run, .run, .run]

def expireAndRead : List (Act Unit Unit (Nat × Nat)) := [.expire 0, .send 0, .run, .release 0]

def handOver : List (Act Unit Unit (Nat × Nat)) :=
  [.release 0, .send 0, .send 0, .run, .run, .run]

def released : State Unit Unit (Nat × Nat) Nat where
  ringBuffer := ⟨0, 2, [none, none], ∅⟩
  received := [oneSpan (1, 10)]
  forwarded := [[⟨(), [some ⟨(), [(1, 10)]⟩]⟩]]

/-- Another span of the trace was delivered between the copy and the removal. -/
def overtaken : State Unit Unit (Nat × Nat) Nat where
  ringBuffer := ⟨1, 2, [none, some 1], (∅ : GoMap Nat Nat).insert 1 1⟩
  timers := [1]
  received := [oneSpan (1, 10), oneSpan (1, 11)]
  forwarded := [[⟨(), [some ⟨(), [(1, 10)]⟩]⟩]]

end Collector.GroupByTrace
