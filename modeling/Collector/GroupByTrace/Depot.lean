import Collector.GroupByTrace.Machine
import Collector.Lib.Handover

/-!
# One trace in the group-by-trace processor

For each trace id the processor is a `Depot`: its spans arrive in batches, are stored, are copied
by `markAsReleased` and handed over in a `traceReleased` event, and are removed by the
`traceRemoved` event that follows. `step_projects` says that every step of the processor is, for
every trace, one move of its depot or none, and that the step is `Orderly` exactly when all these
moves do no harm. This is for runs without eviction and shutdown, and for spans with trace ids.
-/

namespace Collector.GroupByTrace

open Lib Pdata.Scoped List State
open Multiset (coe_add coe_eq_coe coe_eq_zero filter_add filter_eq_nil mem_coe mem_add notMem_zero)

variable {R L X K : Type} [DecidableEq K]

/-! ## Where the spans are -/

def traceSpans (rss : List (ResourceSpans R L X)) : List (R × L × X) := rss.flatMap resourceSpans

def Event.released : Event R L X K → List (R × L × X)
  | .traceReleased rss => traceSpans rss
  | _ => []

def Event.removes (id : K) : Event R L X K → Bool
  | .traceRemoved traceID => traceID = id
  | _ => false

/-- The copy of a trace that is not fired yet. -/
def Releasing.copied : Releasing R L X K → List (R × L × X)
  | .reading _ => []
  | .read _ trace => traceSpans trace

def Releasing.removes (id : K) : Releasing R L X K → Bool
  | .reading _ => false
  | .read traceID _ => traceID = id

def Work.spans (work : Work R L X K) : List (R × L × X) :=
  work.batches.flatMap SingleTraceBatch.spans ++ spansOf work.resources

def Phase.spans : Phase R L X K → List (R × L × X)
  | .receiving work => work.spans
  | .evicting _ batch work | .storing batch _ work => batch.spans ++ work.spans
  | _ => []

def Phase.removes (id : K) : Phase R L X K → Bool
  | .removing traceID => traceID = id
  | _ => false

namespace State

def pendingEvents (s : State R L X K) : List (Event R L X K) := s.events ++ s.fires.flatten

def receivedSpans (s : State R L X K) : Multiset (R × L × X) := s.received.flatMap spansOf

/-- What `onTraceReceived` is about to store. Once a reader has left its lock behind, it waits for
the storage for ever. -/
def inHand (s : State R L X K) : Multiset (R × L × X) :=
  if s.st.readers = 0 then s.phase.spans else 0

def storedSpans (s : State R L X K) : Multiset (R × L × X) :=
  s.st.content.entries.flatMap fun e => traceSpans e.2

def heldSpans (s : State R L X K) : Multiset (R × L × X) := s.releasing.flatMap Releasing.copied

def pendingSpans (s : State R L X K) : Multiset (R × L × X) :=
  s.pendingEvents.flatMap Event.released

def forwardedSpans (s : State R L X K) : Multiset (R × L × X) := s.forwarded.flatMap traceSpans

def storedAt (s : State R L X K) (id : K) : Multiset (R × L × X) :=
  traceSpans ((s.st.content.lookup id).getD [])

def owed (s : State R L X K) (id : K) : Nat :=
  s.pendingEvents.countP (Event.removes id) + s.releasing.countP (Releasing.removes id) +
    (s.phase.removes id).toNat

end State

instance (traceID : X → Go (Option K)) (id : K) :
    DecidablePred (HasID (R := R) (L := L) traceID id) := fun span =>
  inferInstanceAs (Decidable (traceID span.2.2 = .ok (some id)))

def HasSomeID (traceID : X → Go (Option K)) (span : R × L × X) : Prop :=
  ∃ id, HasID traceID id span

instance (traceID : X → Go (Option K)) (span : R × L × X) :
    Decidable (HasSomeID traceID span) :=
  match h : traceID span.2.2 with
  | .ok (some id) => isTrue ⟨id, h⟩
  | .ok none => isFalse fun ⟨id, hid⟩ => by cases h.symm.trans hid
  | .error c => isFalse fun ⟨id, hid⟩ => by cases h.symm.trans hid

def State.depot (traceID : X → Go (Option K)) (s : State R L X K) (id : K) :
    Depot (R × L × X) where
  received := s.receivedSpans.filter (HasID traceID id)
  inHand := s.inHand.filter (HasID traceID id)
  stored := s.storedAt id
  held := s.heldSpans.filter (HasID traceID id)
  sent := (s.pendingSpans + s.forwardedSpans).filter (HasID traceID id)
  owed := s.owed id

/-! ## Steps that do no harm -/

/-- What the event goroutine finds: batches have trace ids, and no trace is evicted. -/
def AdmittedRun (traceID : X → Go (Option K)) (ringBuffer : RingBuffer K) :
    Phase R L X K → List (Event R L X K) → Prop
  | .idle, .traceReceived td :: _ => ∀ span ∈ spansOf td, HasSomeID traceID span
  | .receiving ⟨batch :: _, _⟩, _ =>
    ringBuffer.contains batch.traceID ∨ ringBuffer.evicts batch.traceID = false
  | _, _ => True

instance (traceID : X → Go (Option K)) (ringBuffer : RingBuffer K) :
    ∀ (phase : Phase R L X K) (events : List (Event R L X K)),
      Decidable (AdmittedRun traceID ringBuffer phase events)
  | .idle, .traceReceived td :: _ =>
    inferInstanceAs (Decidable (∀ span ∈ spansOf td, HasSomeID traceID span))
  | .receiving ⟨_ :: _, _⟩, _ => inferInstanceAs (Decidable (_ ∨ _))
  | .idle, [] | .idle, .traceExpired _ :: _ | .idle, .traceReleased _ :: _
  | .idle, .traceRemoved _ :: _ | .idle, .stop :: _ | .receiving ⟨[], _⟩, _ | .evicting _ _ _, _
  | .storing _ _ _, _ | .removing _, _ | .stopping, _ | .stopped, _ => isTrue trivial

/-- The batches have trace ids, no trace is evicted and the machine is not shut down. -/
def Admitted (traceID : X → Go (Option K)) (s : State R L X K) : Act R L X → Prop
  | .shutdown => False
  | .run => AdmittedRun traceID s.ringBuffer s.phase s.events
  | _ => True

instance (traceID : X → Go (Option K)) (s : State R L X K) :
    ∀ a : Act R L X, Decidable (Admitted traceID s a)
  | .shutdown => inferInstanceAs (Decidable False)
  | .run => inferInstanceAs (Decidable (AdmittedRun traceID s.ringBuffer s.phase s.events))
  | .consume _ | .send _ | .expire _ | .release _ => isTrue trivial

/-- A trace is read only when no removal of it is to come, and spans are added to it only then. A
trace that is not found is read only when nothing waits to be stored, and after that no spans are
received. Nothing meets a nil pointer or a ring buffer without slots. -/
def Orderly (traceID : X → Go (Option K)) (s : State R L X K) : Act R L X → Prop
  | .release i =>
    match s.releasing[i]? with
    | some (.reading id) =>
      match s.st.content.lookup id with
      | some _ => s.owed id = 0
      | none => s.inHand = 0
    | _ => True
  | .run =>
    match s.phase, s.events with
    | .idle, .traceReceived td :: _ => s.st.readers = 0 ∨ spansOf td = []
    | .receiving ⟨batch :: _, _⟩, _ =>
      s.ringBuffer.contains batch.traceID ∨ Returns (s.ringBuffer.put batch.traceID)
    | .receiving ⟨[], some rs :: _⟩, _ => Returns (splitByTrace traceID rs)
    | .storing batch _ _, _ => s.owed batch.traceID = 0
    | _, _ => True
  | _ => True

/-! ## Spans by trace -/

/-- Spans of one trace, at least one. -/
structure TraceOf (traceID : X → Go (Option K)) (id : K) (spans : List (R × L × X)) : Prop where
  nonempty : spans ≠ []
  hasID : ∀ span ∈ spans, HasID traceID id span

variable {traceID : X → Go (Option K)} {id : K} {spans : List (R × L × X)}

theorem TraceOf.filter_self (h : TraceOf traceID id spans) :
    (spans : Multiset (R × L × X)).filter (HasID traceID id) = spans :=
  Multiset.filter_eq_self.2 fun span hspan => h.hasID span (Multiset.mem_coe.1 hspan)

theorem TraceOf.filter_ne {id' : K} (h : TraceOf traceID id spans) (hne : id' ≠ id) :
    (spans : Multiset (R × L × X)).filter (HasID traceID id') = 0 := by
  refine Multiset.filter_eq_nil.2 fun span hspan hid => hne ?_
  have heq := (h.hasID span (Multiset.mem_coe.1 hspan)).symm.trans hid
  cases heq
  rfl

omit [DecidableEq K] in
theorem TraceOf.append {spans' : List (R × L × X)} (h : ∀ span ∈ spans, HasID traceID id span)
    (h' : TraceOf traceID id spans') : TraceOf traceID id (spans ++ spans') :=
  ⟨append_ne_nil_of_right_ne_nil _ h'.nonempty,
    fun span hspan => (mem_append.1 hspan).elim (h span) (h'.hasID span)⟩

structure Work.Tidy (traceID : X → Go (Option K)) (work : Work R L X K) : Prop where
  batches : ∀ batch ∈ work.batches, TraceOf traceID batch.traceID batch.spans
  resources : ∀ span ∈ spansOf work.resources, HasSomeID traceID span

def Phase.Tidy (traceID : X → Go (Option K)) : Phase R L X K → Prop
  | .idle | .removing _ => True
  | .receiving work => work.Tidy traceID
  | .storing batch _ work => TraceOf traceID batch.traceID batch.spans ∧ work.Tidy traceID
  | .evicting _ _ _ | .stopping | .stopped => False

/-- What holds in every run that is admitted: stored traces, batches and copies have the spans of
one trace. -/
structure Tidy (traceID : X → Go (Option K)) (s : State R L X K) : Prop where
  content : ∀ id rss, s.st.content.lookup id = some rss → TraceOf traceID id (traceSpans rss)
  releasing : ∀ id trace, .read id trace ∈ s.releasing → TraceOf traceID id (traceSpans trace)
  phase : s.phase.Tidy traceID
  received : ∀ span ∈ s.receivedSpans, HasSomeID traceID span
  copied : ∀ span ∈ s.pendingSpans + s.forwardedSpans, HasSomeID traceID span
  running : s.closed = false
  unstopped : Event.stop ∉ s.pendingEvents

theorem tidy_init (traceID : X → Go (Option K)) (cfg : Config) :
    Tidy traceID (State.init cfg : State R L X K) where
  content id rss h := by cases h
  releasing id trace h := (not_mem_nil h).elim
  phase := trivial
  received span h := (notMem_zero span h).elim
  copied span h := (notMem_zero span h).elim
  running := rfl
  unstopped := not_mem_nil

/-! ## Every step is a move of every depot -/

structure Projects (traceID : X → Go (Option K)) (s s' : State R L X K) (orderly : Prop) :
    Prop where
  tidy : Tidy traceID s'
  moves : ∃ p : K → Prop,
    (∀ id, Depot.Move (p id) (s.depot traceID id) (s'.depot traceID id)) ∧
      (s'.panic = none → ((∀ id, p id) ↔ orderly))

section

variable {s s' : State R L X K}

theorem State.depot_congr (hreceived : s'.receivedSpans = s.receivedSpans)
    (hhand : s'.inHand = s.inHand) (hcontent : s'.st.content = s.st.content)
    (hheld : s'.heldSpans = s.heldSpans)
    (hsent : s'.pendingSpans + s'.forwardedSpans = s.pendingSpans + s.forwardedSpans)
    (howed : ∀ id, s'.owed id = s.owed id) (id : K) :
    s'.depot traceID id = s.depot traceID id := by
  unfold depot storedAt
  rw [hreceived, hhand, hcontent, hheld, hsent, howed id]

variable {orderly : Prop} {events : List (Event R L X K)} {e : Event R L X K}
  {fires : List (List (Event R L X K))} {i : Nat} {trace : List (ResourceSpans R L X)}

theorem projects_stay (htidy : Tidy traceID s')
    (heq : ∀ id, s'.depot traceID id = s.depot traceID id) (h : s'.panic = none → orderly) :
    Projects traceID s s' orderly :=
  ⟨htidy, fun _ => True, fun id => heq id ▸ .stay,
    fun hpanic => iff_of_true (fun _ => trivial) (h hpanic)⟩

theorem projects_at (id : K) (htidy : Tidy traceID s') {p : Prop}
    (hmove : Depot.Move p (s.depot traceID id) (s'.depot traceID id))
    (hne : ∀ id', id' ≠ id → s'.depot traceID id' = s.depot traceID id') :
    Projects traceID s s' p := by
  refine ⟨htidy, fun id' => id' = id → p, fun id' => ?_, fun _ => ?_⟩
  · by_cases hid : id' = id
    · subst hid
      exact Depot.Move.iff ⟨fun hp _ => hp, fun hp => hp rfl⟩ hmove
    · rw [hne id' hid]
      exact Depot.Move.iff ⟨fun _ heq => absurd heq hid, fun _ => trivial⟩ .stay
  · exact ⟨fun hall => hall id rfl, fun hp _ _ => hp⟩

/-! ### Firing -/

theorem Tidy.fire_eq (h : Tidy traceID s) (hfire : s.fire events = some s') :
    s' = { s with fires := s.fires ++ [events] } := by
  unfold fire at hfire
  split at hfire
  · cases hfire
  · rw [if_neg (by rw [h.running]; decide)] at hfire
    cases hfire
    rfl

omit [DecidableEq K] in
theorem State.pendingEvents_fire (s : State R L X K) (events : List (Event R L X K)) :
    { s with fires := s.fires ++ [events] }.pendingEvents = s.pendingEvents ++ events := by
  simp [pendingEvents]

omit [DecidableEq K] in
theorem State.pendingSpans_fire (s : State R L X K) (events : List (Event R L X K)) :
    { s with fires := s.fires ++ [events] }.pendingSpans =
      s.pendingSpans + (events.flatMap Event.released : List (R × L × X)) := by
  unfold pendingSpans
  rw [pendingEvents_fire, flatMap_append, coe_add]

theorem Tidy.fire (h : Tidy traceID s)
    (hspans : ∀ span ∈ events.flatMap Event.released, HasSomeID traceID span)
    (hstop : Event.stop ∉ events) : Tidy traceID { s with fires := s.fires ++ [events] } := by
  refine { h with copied := ?_, unstopped := ?_ }
  · intro span hspan
    rw [s.pendingSpans_fire, add_right_comm] at hspan
    exact (Multiset.mem_add.1 hspan).elim (h.copied span) (hspans span)
  · rw [s.pendingEvents_fire]
    exact fun hmem => (mem_append.1 hmem).elim h.unstopped hstop

theorem projects_fire (h : Tidy traceID s) (hspans : e.released = [])
    (hremoves : ∀ id, e.removes id = false) (hstop : e ≠ .stop) (hfire : s.fire [e] = some s') :
    Projects traceID s s' True := by
  have hnone : [e].flatMap Event.released = [] := by simp [hspans]
  rw [h.fire_eq hfire]
  refine projects_stay (h.fire ?_ ?_) (depot_congr rfl rfl rfl rfl ?_ fun id => ?_)
    fun _ => trivial
  · rw [hnone]
    exact fun span hspan => (not_mem_nil hspan).elim
  · exact fun hmem => hstop (mem_singleton.1 hmem).symm
  · rw [s.pendingSpans_fire, hnone]
    show s.pendingSpans + 0 + s.forwardedSpans = _
    rw [add_zero]
  · unfold owed
    rw [s.pendingEvents_fire, countP_append]
    simp [hremoves]

theorem projects_perm (h : Tidy traceID s)
    (hperm : (events ++ fires.flatten).Perm s.pendingEvents) :
    Projects traceID s { s with events, fires } True := by
  have hspans : { s with events, fires }.pendingSpans = s.pendingSpans :=
    Multiset.coe_eq_coe.2 (hperm.flatMap_right _)
  refine projects_stay { h with copied := ?_, unstopped := ?_ }
    (depot_congr rfl rfl rfl rfl ?_ fun id => ?_) fun _ => trivial
  · rw [hspans]
    exact h.copied
  · exact fun hmem => h.unstopped (hperm.mem_iff.1 hmem)
  · rw [hspans]
    rfl
  · exact congrArg (· + _ + _) (hperm.countP_eq _)

omit [DecidableEq K] in
theorem flatten_send (h : fires[i]? = some (e :: events)) :
    (e :: (if events.length = 0 then fires.eraseIdx i else fires.set i events).flatten).Perm
      fires.flatten := by
  obtain ⟨hi, hval⟩ := List.getElem?_eq_some_iff.1 h
  have hperm := (getElem_cons_eraseIdx_perm hi).flatten
  rw [hval, flatten_cons, cons_append] at hperm
  refine List.Perm.trans (List.Perm.cons e ?_) hperm
  split
  case isTrue hnil =>
    rw [length_eq_zero_iff.1 hnil, nil_append]
  case isFalse => exact (set_perm_cons_eraseIdx hi events).flatten

/-! ### Releasing -/

omit [DecidableEq K] in
theorem releasing_perm {call : Releasing R L X K} (h : s.releasing[i]? = some call) :
    s.releasing.Perm (call :: s.releasing.eraseIdx i) := by
  obtain ⟨hi, rfl⟩ := List.getElem?_eq_some_iff.1 h
  exact (getElem_cons_eraseIdx_perm hi).symm

theorem filter_eq_zero_iff {spans : Multiset (R × L × X)}
    (h : ∀ span ∈ spans, HasSomeID traceID span) :
    (∀ id, spans.filter (HasID traceID id) = 0) ↔ spans = 0 := by
  constructor
  · intro hnone
    refine Multiset.eq_zero_of_forall_notMem fun span hspan => ?_
    obtain ⟨id, hid⟩ := h span hspan
    exact Multiset.filter_eq_nil.1 (hnone id) span hspan hid
  · rintro rfl id
    rfl

theorem traceSpans_append (rss rss' : List (ResourceSpans R L X)) :
    traceSpans (rss ++ rss') = traceSpans rss ++ traceSpans rss' := flatMap_append

variable (h : Tidy traceID s)

include h

theorem Tidy.inHand : ∀ span ∈ s.inHand, HasSomeID traceID span := by
  have hwork : ∀ work : Work R L X K, work.Tidy traceID → ∀ span ∈ work.spans,
      HasSomeID traceID span := fun work hwork span hspan => by
    rcases mem_append.1 hspan with hbatch | hresource
    · obtain ⟨batch, hmem, hbatch⟩ := mem_flatMap.1 hbatch
      exact ⟨batch.traceID, (hwork.batches batch hmem).hasID span hbatch⟩
    · exact hwork.resources span hresource
  intro span hspan
  unfold State.inHand at hspan
  split at hspan
  case isFalse => exact (notMem_zero span hspan).elim
  case isTrue =>
    have hphase := h.phase
    rw [mem_coe] at hspan
    cases hp : s.phase with
    | idle | removing | stopping | stopped =>
      rw [hp] at hspan
      exact (not_mem_nil hspan).elim
    | receiving work =>
      rw [hp] at hspan hphase
      exact hwork work hphase span hspan
    | storing batch new work =>
      rw [hp] at hspan hphase
      rcases mem_append.1 hspan with hspan | hspan
      · exact ⟨batch.traceID, hphase.1.hasID span hspan⟩
      · exact hwork work hphase.2 span hspan
    | evicting =>
      rw [hp] at hphase
      exact hphase.elim

theorem Tidy.releasing_perm {call : Releasing R L X K} (hcall : s.releasing[i]? = some call) :
    (∀ id trace, .read id trace ∈ s.releasing.eraseIdx i → TraceOf traceID id (traceSpans trace)) ∧
      s.heldSpans = call.copied + ((s.releasing.eraseIdx i).flatMap Releasing.copied : List _) ∧
      ∀ id, s.releasing.countP (Releasing.removes id) =
        (s.releasing.eraseIdx i).countP (Releasing.removes id) + (call.removes id).toNat := by
  have hperm := GroupByTrace.releasing_perm hcall
  refine ⟨fun id trace hmem => h.releasing id trace ?_, ?_, fun id => ?_⟩
  · exact hperm.mem_iff.2 (mem_cons_of_mem _ hmem)
  · exact (Multiset.coe_eq_coe.2 (hperm.flatMap_right _)).trans (coe_add _ _).symm
  · rw [hperm.countP_eq, countP_cons]
    cases call.removes id <;> rfl

/-- A trace that is not found: the read lock stays, and nothing more can be stored. -/
theorem projects_not_found (hcall : s.releasing[i]? = some (.reading id)) : Projects traceID s
      { s with
        st := { s.st with readers := s.st.readers + 1 }
        releasing := s.releasing.eraseIdx i }
      (s.inHand = 0) := by
  obtain ⟨hreleasing, hheld, hcount⟩ := h.releasing_perm hcall
  refine ⟨{ h with releasing := hreleasing },
    fun id => (s.depot traceID id).inHand = 0, fun id' => ?_, fun _ => filter_eq_zero_iff h.inHand⟩
  refine Depot.Move.lose.to (Depot.ext rfl rfl rfl ?_ rfl ?_)
  · show Multiset.filter _ (heldSpans _) = Multiset.filter _ s.heldSpans
    rw [hheld]
    exact congrArg (Multiset.filter _) (zero_add _).symm
  · show _ + _ + _ = s.owed id'
    rw [owed, hcount]
    rfl

theorem projects_found (hcall : s.releasing[i]? = some (.reading id))
    (hfound : s.st.content.lookup id = some trace) :
    Projects traceID s { s with releasing := s.releasing.set i (.read id trace) }
      (s.owed id = 0) := by
  obtain ⟨hreleasing, hheld, hcount⟩ := h.releasing_perm hcall
  have htrace := h.content id trace hfound
  obtain ⟨hi, -⟩ := List.getElem?_eq_some_iff.1 hcall
  have hperm := set_perm_cons_eraseIdx hi (Releasing.read id trace)
  have hstored : s.storedAt id = traceSpans trace := by rw [storedAt, hfound]; rfl
  -- the copy, and what is owed after it
  have hheld' : heldSpans { s with releasing := s.releasing.set i (.read id trace) } =
      s.heldSpans + (traceSpans trace : List (R × L × X)) := by
    refine (Multiset.coe_eq_coe.2 (hperm.flatMap_right _)).trans ?_
    rw [hheld, flatMap_cons, ← coe_add]
    exact (add_comm _ _).trans (congrArg (· + _) (zero_add _).symm)
  have howed' : ∀ id', owed { s with releasing := s.releasing.set i (.read id trace) } id' =
      s.owed id' + (decide (id = id')).toNat := fun id' => by
    show s.pendingEvents.countP (Event.removes id') +
      (s.releasing.set i (.read id trace)).countP (Releasing.removes id') +
      (s.phase.removes id').toNat = _
    rw [owed, hcount, hperm.countP_eq, countP_cons]
    by_cases hid : id = id'
    · simp [Releasing.removes, hid]
      omega
    · simp [Releasing.removes, hid]
  refine projects_at id ?_ ?_ fun id' hid => ?_
  · refine { h with releasing := fun id' trace' hmem => ?_ }
    rcases mem_cons.1 (hperm.mem_iff.1 hmem) with heq | hmem
    · cases heq
      exact htrace
    · exact hreleasing id' trace' hmem
  · refine (Depot.Move.copy (c := s.depot traceID id) ?_).to (Depot.ext rfl rfl rfl ?_ rfl ?_)
    · show s.storedAt id ≠ 0
      rw [hstored]
      exact fun hnil => htrace.nonempty ((coe_eq_zero _).1 hnil)
    · show Multiset.filter _ (heldSpans _) = Multiset.filter _ s.heldSpans + s.storedAt id
      rw [hheld', filter_add, htrace.filter_self, hstored]
    · show owed _ id = s.owed id + 1
      rw [howed', decide_eq_true rfl]
      rfl
  · refine Depot.ext rfl rfl rfl ?_ rfl ?_
    · show Multiset.filter _ (heldSpans _) = Multiset.filter _ s.heldSpans
      rw [hheld', filter_add, htrace.filter_ne hid, add_zero]
    · show owed _ id' = s.owed id'
      rw [howed', decide_eq_false (Ne.symm hid)]
      rfl

theorem projects_hand (hcall : s.releasing[i]? = some (.read id trace))
    (hfire : State.fire { s with releasing := s.releasing.eraseIdx i }
      [.traceReleased trace, .traceRemoved id] = some s') : Projects traceID s s' True := by
  obtain ⟨hreleasing, hheld, hcount⟩ := h.releasing_perm hcall
  have htrace := h.releasing id trace (mem_of_getElem? hcall)
  let left : State R L X K := { s with releasing := s.releasing.eraseIdx i }
  have hleft : Tidy traceID left := { h with releasing := hreleasing }
  have hspans : [Event.traceReleased trace, .traceRemoved id].flatMap Event.released =
      traceSpans trace := append_nil _
  rw [hleft.fire_eq hfire]
  refine ⟨hleft.fire ?_ (by simp), fun _ => True, fun id' => ?_,
    fun _ => iff_of_true (fun _ => trivial) trivial⟩
  · rw [hspans]
    exact fun span hspan => ⟨id, htrace.hasID span hspan⟩
  · refine (Depot.Move.hand (c := s.depot traceID id')
      ((traceSpans trace : Multiset (R × L × X)).filter (HasID traceID id'))
      (left.heldSpans.filter (HasID traceID id')) ?_).to (Depot.ext rfl rfl rfl rfl ?_ ?_)
    · show Multiset.filter _ s.heldSpans = _
      rw [hheld, filter_add, add_comm]
      rfl
    · show Multiset.filter _ (pendingSpans _ + s.forwardedSpans) =
        Multiset.filter _ (s.pendingSpans + s.forwardedSpans) + _
      rw [left.pendingSpans_fire, hspans, add_right_comm, filter_add]
      rfl
    · show (pendingEvents _).countP (Event.removes id') + _ + _ = s.owed id'
      rw [left.pendingEvents_fire, owed, hcount, countP_append]
      have hone : [Event.traceReleased trace, .traceRemoved id].countP (Event.removes id') =
          (Releasing.removes id' (.read id trace)).toNat := by
        by_cases hid : id = id' <;> simp [Event.removes, Releasing.removes, hid]
      rw [hone]
      show s.pendingEvents.countP _ + _ + (s.releasing.eraseIdx i).countP _ +
        (s.phase.removes id').toNat = _
      omega

/-! ### Handling -/

theorem Tidy.take (hevents : s.events = e :: events) :
    s.pendingEvents = e :: { s with events }.pendingEvents ∧
      s.pendingSpans = e.released + { s with events }.pendingSpans ∧ e ≠ .stop ∧
      Tidy traceID { s with events } := by
  have hpending : s.pendingEvents = e :: { s with events }.pendingEvents := by
    unfold pendingEvents
    rw [hevents]
    rfl
  have hspans : s.pendingSpans = e.released + { s with events }.pendingSpans := by
    unfold pendingSpans
    rw [hpending, flatMap_cons, coe_add]
  refine ⟨hpending, hspans, fun hstop => h.unstopped ?_, h.content, h.releasing, h.phase,
    h.received, fun span hspan => h.copied span ?_, h.running, fun hstop => h.unstopped ?_⟩
  · rw [hpending, hstop]
    exact mem_cons_self
  · rw [hspans, add_assoc]
    exact Multiset.mem_add.2 (.inr hspan)
  · rw [hpending]
    exact mem_cons_of_mem _ hstop

theorem projects_received {td : Traces R L X} (hphase : s.phase = .idle)
    (hevents : s.events = .traceReceived td :: events)
    (hids : ∀ span ∈ spansOf td, HasSomeID traceID span) :
    Projects traceID s (State.handle { s with events } (.traceReceived td))
      (s.st.readers = 0 ∨ spansOf td = []) := by
  obtain ⟨hpending, hspans, -, htidy⟩ := h.take hevents
  have hids' : ∀ span ∈ (spansOf td : Multiset (R × L × X)), HasSomeID traceID span :=
    fun span hspan => hids span (Multiset.mem_coe.1 hspan)
  have hreceived : receivedSpans (handle { s with events } (.traceReceived td)) =
      s.receivedSpans + (spansOf td : List (R × L × X)) := by
    show Multiset.ofList ((s.received ++ [td]).flatMap spansOf) = _
    rw [flatMap_append, ← coe_add, flatMap_singleton]
    rfl
  have hsent : pendingSpans { s with events } = s.pendingSpans := by
    rw [hspans]
    exact (zero_add _).symm
  have howed : ∀ id, owed (handle { s with events } (.traceReceived td)) id =
      s.owed id := fun id => by
    unfold owed
    rw [hpending, hphase]
    rfl
  have hhand : s.inHand = 0 := by
    unfold State.inHand
    rw [hphase]
    split <;> rfl
  refine ⟨⟨htidy.content, htidy.releasing, ⟨nofun, hids⟩, ?_, htidy.copied, htidy.running,
    htidy.unstopped⟩, ?_⟩
  · rw [hreceived]
    exact fun span hspan => (Multiset.mem_add.1 hspan).elim (h.received span) (hids' span)
  · -- what arrives is taken in hand, unless the storage is locked for ever
    have hdepot : ∀ id,
        depot traceID (handle { s with events } (.traceReceived td)) id =
        { s.depot traceID id with
          received := (s.depot traceID id).received +
            (spansOf td : Multiset (R × L × X)).filter (HasID traceID id)
          inHand := (State.inHand (handle { s with events } (.traceReceived td))).filter
            (HasID traceID id) } := fun id => by
      refine Depot.ext ?_ rfl rfl rfl ?_ (howed id)
      · show Multiset.filter _ (receivedSpans _) = Multiset.filter _ s.receivedSpans + _
        rw [hreceived, filter_add]
      · show Multiset.filter _ (pendingSpans { s with events } + s.forwardedSpans) = _
        rw [hsent]
        rfl
    have hzero : ∀ id, (s.depot traceID id).inHand = 0 := fun id => by
      show Multiset.filter _ s.inHand = 0
      rw [hhand]
      rfl
    by_cases hreaders : s.st.readers = 0
    · refine ⟨fun _ => True, fun id => ?_, fun _ => iff_of_true (fun _ => trivial) (.inl hreaders)⟩
      have hhand' : State.inHand (handle { s with events } (.traceReceived td)) =
          (spansOf td : List (R × L × X)) := if_pos hreaders
      have hmove := Depot.Move.arrive (c := s.depot traceID id)
        ((spansOf td : Multiset (R × L × X)).filter (HasID traceID id))
      rw [hzero id, zero_add] at hmove
      rw [hdepot, hhand']
      exact hmove
    · refine ⟨fun id => (spansOf td : Multiset (R × L × X)).filter (HasID traceID id) = 0,
        fun id => ?_, fun _ => ?_⟩
      · have hhand' : State.inHand (handle { s with events } (.traceReceived td)) = 0 :=
          if_neg hreaders
        refine (Depot.Move.miss _).to ?_
        rw [hdepot, hhand']
        exact Depot.ext rfl (hzero id).symm rfl rfl rfl rfl
      · rw [filter_eq_zero_iff hids', coe_eq_zero]
        exact (or_iff_right hreaders).symm

theorem projects_handle (hphase : s.phase = .idle)
    (hevents : s.events = e :: events) (he : ∀ td, e ≠ .traceReceived td) :
    Projects traceID s (State.handle { s with events } e) True := by
  obtain ⟨hpending, hspans, hstop, htidy⟩ := h.take hevents
  have hsent (hnone : e.released = []) : pendingSpans { s with events } = s.pendingSpans := by
    rw [hspans, hnone]
    exact (zero_add _).symm
  cases e with
  | traceReceived td => exact absurd rfl (he td)
  | stop => exact absurd rfl hstop
  | traceExpired id =>
    have hsent := hsent rfl
    have hremoves : ∀ id', s.pendingEvents.countP (Event.removes id') =
        (pendingEvents { s with events }).countP (Event.removes id') := fun id' => by
      rw [hpending, countP_cons_of_neg (by simp [Event.removes])]
    unfold handle
    dsimp only
    split
    case isTrue =>
      refine projects_stay { htidy with releasing := ?_ }
        (depot_congr rfl rfl rfl ?_ ?_ fun id' => ?_) fun _ => trivial
      · intro id' trace hmem
        rcases mem_append.1 hmem with hmem | hmem
        · exact h.releasing id' trace hmem
        · cases mem_singleton.1 hmem
      · show Multiset.ofList ((s.releasing ++ [Releasing.reading id]).flatMap Releasing.copied) = _
        rw [flatMap_append]
        simp [Releasing.copied, heldSpans]
      · show pendingSpans { s with events } + s.forwardedSpans = _
        rw [hsent]
      · show (pendingEvents { s with events }).countP (Event.removes id') +
          (s.releasing ++ [Releasing.reading id]).countP (Releasing.removes id') +
          (s.phase.removes id').toNat = s.owed id'
        rw [← hremoves, countP_append]
        rfl
    case isFalse =>
      refine projects_stay htidy (depot_congr rfl rfl rfl rfl ?_ fun id' => ?_)
        fun _ => trivial
      · show pendingSpans { s with events } + s.forwardedSpans = _
        rw [hsent]
      · unfold owed
        rw [hremoves]
  | traceReleased rss =>
    have hsent : pendingSpans { s with events } +
        Multiset.ofList ((s.forwarded ++ [rss]).flatMap traceSpans) =
        s.pendingSpans + s.forwardedSpans := by
      rw [hspans, flatMap_append, flatMap_singleton, ← coe_add]
      show _ + (s.forwardedSpans + (traceSpans rss : List (R × L × X))) =
        (traceSpans rss : List (R × L × X)) + _ + s.forwardedSpans
      abel
    refine projects_stay { htidy with copied := ?_ }
      (depot_congr rfl rfl rfl rfl hsent fun id' => ?_) fun _ => trivial
    · intro span hspan
      exact h.copied span (hsent ▸ hspan)
    · unfold owed
      rw [hpending]
      rfl
  | traceRemoved id =>
    have hsent := hsent rfl
    refine projects_stay { htidy with phase := trivial }
      (depot_congr rfl ?_ rfl rfl ?_ fun id' => ?_) fun _ => trivial
    · unfold State.inHand
      rw [hphase]
      rfl
    · show pendingSpans { s with events } + s.forwardedSpans = _
      rw [hsent]
    · -- the removal moves from the channel to the event goroutine
      show (pendingEvents { s with events }).countP (Event.removes id') +
        s.releasing.countP (Releasing.removes id') + (Phase.removes id' (.removing id)).toNat = _
      rw [owed, hpending, hphase, countP_cons]
      by_cases hid : id = id' <;> simp [Event.removes, Phase.removes, hid]
      omega

/-! ### Receiving -/

theorem projects_phase {ringBuffer : RingBuffer K} {phase : Phase R L X K}
    (hspans : phase.spans.Perm s.phase.spans)
    (hremoves : ∀ id, phase.removes id = s.phase.removes id) (htidy : phase.Tidy traceID)
    (horderly : orderly) : Projects traceID s { s with ringBuffer, phase } orderly := by
  refine projects_stay { h with phase := htidy }
    (depot_congr rfl ?_ rfl rfl rfl fun id => ?_) fun _ => horderly
  · have hspans' : (phase.spans : Multiset (R × L × X)) = s.phase.spans :=
      Multiset.coe_eq_coe.2 hspans
    unfold State.inHand
    rw [hspans']
  · unfold owed
    rw [hremoves]
    rfl

theorem projects_panic {p : Panic} : Projects traceID s { s with panic := some p } orderly :=
  projects_stay { h with } (depot_congr rfl rfl rfl rfl rfl fun _ => rfl)
    fun hpanic => (by cases hpanic)

theorem projects_receive {work : Work R L X K}
    (hphase : s.phase = .receiving work) (hadmitted : Admitted traceID s .run) :
    Projects traceID s (s.receive traceID work) (Orderly traceID s .run) := by
  have hwork := h.phase
  rw [hphase] at hwork
  obtain ⟨batches, resources⟩ := work
  unfold Admitted at hadmitted
  unfold Orderly
  rw [hphase] at hadmitted ⊢
  cases batches with
  | cons batch batches =>
    have hbatch := hwork.batches batch mem_cons_self
    have hrest : Work.Tidy traceID (⟨batches, resources⟩ : Work R L X K) :=
      ⟨fun b hb => hwork.batches b (mem_cons_of_mem _ hb), hwork.resources⟩
    have hstoring : ∀ new, (Phase.storing batch new ⟨batches, resources⟩).spans.Perm
        s.phase.spans := fun new => by
      rw [hphase]
      simp [Phase.spans, Work.spans]
    have hremoves : ∀ new id, (Phase.storing batch new ⟨batches, resources⟩).removes id =
        s.phase.removes id := fun new id => by
      rw [hphase]
      rfl
    unfold receive
    dsimp only
    split
    case isTrue hcontains =>
      exact projects_phase h (hstoring false) (hremoves false) ⟨hbatch, hrest⟩ (.inl hcontains)
    case isFalse hcontains =>
      have hevicts := hadmitted.resolve_left hcontains
      unfold RingBuffer.evicts at hevicts
      split
      case h_1 => exact projects_panic h
      case h_2 ringBuffer hput =>
        exact projects_phase h (hstoring true) (hremoves true) ⟨hbatch, hrest⟩ (.inr ⟨_, hput⟩)
      case h_3 hput =>
        rw [hput] at hevicts
        cases hevicts
  | nil =>
    cases resources with
    | nil =>
      refine projects_phase h ?_ (fun id => ?_) trivial trivial
      all_goals
        rw [hphase]
        rfl
    | cons rs resources =>
      cases rs with
      | none =>
        refine projects_phase h ?_ (fun id => ?_) ⟨nofun, hwork.resources⟩ trivial
        all_goals
          rw [hphase]
          rfl
      | some rs =>
        have hids := hwork.resources
        rw [spansOf_cons] at hids
        unfold receive
        dsimp only
        split
        case h_1 => exact projects_panic h
        case h_2 batches hsplit =>
          obtain ⟨hperm, hall⟩ := splitByTrace_spans hsplit fun span hspan =>
            hids span (mem_append_left _ hspan)
          refine projects_phase h ?_ (fun id => ?_) ⟨?_, ?_⟩ ⟨_, hsplit⟩
          · rw [hphase]
            exact hperm.append_right _
          · rw [hphase]
            rfl
          · exact fun batch hbatch => ⟨(hall batch hbatch).2, (hall batch hbatch).1⟩
          · exact fun span hspan => hids span (mem_append_right _ hspan)

/-! ### Storing and removing -/

theorem projects_store {batch : SingleTraceBatch R L X K} {new : Bool}
    {work : Work R L X K} (hphase : s.phase = .storing batch new work)
    (hreaders : s.st.readers = 0) :
    Projects traceID s (s.store batch new work) (s.owed batch.traceID = 0) := by
  have htidy := h.phase
  rw [hphase] at htidy
  obtain ⟨hbatch, hwork⟩ := htidy
  let rss := (s.st.content.lookup batch.traceID).getD []
  have hspans : traceSpans (rss ++ [batch.rs]) = traceSpans rss ++ batch.spans := by
    rw [traceSpans_append]
    simp [traceSpans, SingleTraceBatch.spans]
  have hcontent : (s.store batch new work).st.content =
      s.st.content.insert batch.traceID (rss ++ [batch.rs]) := rfl
  have hstored : ∀ id, id ≠ batch.traceID → (s.store batch new work).storedAt id = s.storedAt id :=
    fun id hid => by
      unfold storedAt
      rw [hcontent, AList.lookup_insert_ne hid]
  have hstored' : (s.store batch new work).storedAt batch.traceID =
      s.storedAt batch.traceID + (batch.spans : List (R × L × X)) := by
    unfold storedAt
    rw [hcontent, AList.lookup_insert, Option.getD_some, hspans, ← coe_add]
  have hhand : s.inHand =
      (work.spans : Multiset (R × L × X)) + (batch.spans : List (R × L × X)) := by
    unfold State.inHand
    rw [hphase, if_pos hreaders, add_comm]
    exact (coe_add _ _).symm
  have hhand' : (s.store batch new work).inHand = (work.spans : List (R × L × X)) :=
    if_pos hreaders
  have howed : ∀ id, (s.store batch new work).owed id = s.owed id := fun id => by
    unfold owed
    rw [hphase]
    rfl
  refine ⟨{ h with content := ?_, phase := hwork },
    fun id => s.owed id = 0 ∨
      (batch.spans : Multiset (R × L × X)).filter (HasID traceID id) = 0, fun id => ?_, fun _ => ?_⟩
  · intro id trace hlookup
    rw [hcontent] at hlookup
    by_cases hid : id = batch.traceID
    · subst hid
      rw [AList.lookup_insert] at hlookup
      cases hlookup
      rw [hspans]
      refine TraceOf.append (fun span hspan => ?_) hbatch
      cases hold : s.st.content.lookup batch.traceID with
      | none =>
        have hnil : rss = [] := by simp [rss, hold]
        rw [hnil] at hspan
        exact (not_mem_nil hspan).elim
      | some old =>
        have hrss : rss = old := by simp [rss, hold]
        rw [hrss] at hspan
        exact (h.content _ old hold).hasID span hspan
    · rw [AList.lookup_insert_ne hid] at hlookup
      exact h.content id trace hlookup
  · have hsplit : (s.depot traceID id).inHand =
        (work.spans : Multiset (R × L × X)).filter (HasID traceID id) +
          (batch.spans : Multiset (R × L × X)).filter (HasID traceID id) := by
      show Multiset.filter _ s.inHand = _
      rw [hhand, filter_add]
    refine (Depot.Move.store (c := s.depot traceID id) _ _ hsplit).to
      (Depot.ext rfl ?_ ?_ rfl rfl (howed id))
    · show Multiset.filter _ (State.inHand _) = _
      rw [hhand']
    · show (s.store batch new work).storedAt id = s.storedAt id + _
      by_cases hid : id = batch.traceID
      · rw [hid, hstored', hbatch.filter_self]
      · rw [hstored id hid, hbatch.filter_ne hid, add_zero]
  · constructor
    · intro hall
      refine (hall batch.traceID).resolve_right fun hzero => hbatch.nonempty ?_
      rw [hbatch.filter_self] at hzero
      exact (coe_eq_zero _).1 hzero
    · intro hnone id
      by_cases hid : id = batch.traceID
      · exact .inl (hid ▸ hnone)
      · exact .inr (hbatch.filter_ne hid)

theorem Tidy.held_eq_zero (hnone : s.releasing.countP (Releasing.removes id) = 0) :
    s.heldSpans.filter (HasID traceID id) = 0 := by
  refine Multiset.filter_eq_nil.2 fun span hspan hid => ?_
  obtain ⟨call, hcall, hspan⟩ := mem_flatMap.1 (Multiset.mem_coe.1 hspan)
  cases call with
  | reading => exact not_mem_nil hspan
  | read id' trace =>
    have heq := ((h.releasing id' trace hcall).hasID span hspan).symm.trans hid
    cases heq
    have hremoves := countP_eq_zero.1 hnone _ hcall
    simp [Releasing.removes] at hremoves

theorem projects_remove (hphase : s.phase = .removing id) :
    Projects traceID s { s with st := (s.st.delete id).1, phase := .idle } True := by
  let left : State R L X K := { s with st := (s.st.delete id).1, phase := .idle }
  have howed : ∀ id', s.owed id' = left.owed id' + (decide (id = id')).toNat := fun id' => by
    unfold owed
    rw [hphase]
    rfl
  have hhand : left.inHand = s.inHand := by
    unfold State.inHand
    rw [hphase]
    rfl
  refine projects_at id ?_ ?_ fun id' hid => ?_
  · exact { h with
      content := fun id' trace hlookup => h.content id' trace (lookup_erase_iff.1 hlookup).2
      phase := trivial }
  · have hn : (s.depot traceID id).owed = left.owed id + 1 := by
      show s.owed id = _
      rw [howed, decide_eq_true rfl]
      rfl
    refine (Depot.Move.remove _ hn fun hzero => h.held_eq_zero ?_).to
      (Depot.ext rfl ?_ ?_ rfl rfl rfl)
    · have hzero' : left.pendingEvents.countP (Event.removes id) +
        s.releasing.countP (Releasing.removes id) + 0 = 0 := hzero
      omega
    · show Multiset.filter _ left.inHand = Multiset.filter _ s.inHand
      rw [hhand]
    · show Multiset.ofList (traceSpans ((AList.lookup id (s.st.content.erase id)).getD [])) = 0
      rw [AList.lookup_erase]
      rfl
  · refine Depot.ext rfl ?_ ?_ rfl rfl ?_
    · show Multiset.filter _ left.inHand = Multiset.filter _ s.inHand
      rw [hhand]
    · show Multiset.ofList (traceSpans ((AList.lookup id' (s.st.content.erase id)).getD [])) = _
      rw [AList.lookup_erase_ne hid]
      rfl
    · show left.owed id' = s.owed id'
      rw [howed, decide_eq_false (Ne.symm hid)]
      rfl

end

/-- **Every step is, for every trace, one move of its depot or none, and it is orderly exactly when
all these moves do no harm.** -/
theorem step_projects {cfg : Config} {s s' : State R L X K} {a : Act R L X} (h : Tidy traceID s)
    (hadmitted : Admitted traceID s a) (hstep : step cfg traceID s a = some s') :
    Projects traceID s s' (Orderly traceID s a) := by
  unfold step at hstep
  split at hstep
  case isTrue => cases hstep
  case isFalse =>
    cases a with
    | consume td =>
      exact projects_fire (e := .traceReceived td) h rfl (fun _ => rfl) (fun h => by cases h) hstep
    | send i =>
      dsimp only at hstep
      split at hstep
      case h_2 => cases hstep
      case h_1 e events hfires =>
        obtain ⟨-, hstep⟩ := Option.ite_none_right_eq_some.1 hstep
        cases hstep
        refine projects_perm h ?_
        rw [append_assoc]
        exact (flatten_send hfires).append_left _
    | expire i =>
      dsimp only at hstep
      split at hstep
      case h_1 => cases hstep
      case h_2 id _ =>
        have htimers : Tidy traceID { s with timers := s.timers.eraseIdx i } := { h with }
        obtain ⟨htidy, hmoves⟩ := projects_fire (e := .traceExpired id) htimers rfl (fun _ => rfl)
          (fun h => by cases h) hstep
        exact ⟨htidy, hmoves⟩
    | shutdown => exact hadmitted.elim
    | release i =>
      dsimp only [markAsReleased] at hstep
      split at hstep
      case h_1 => cases hstep
      case h_2 id hcall =>
        obtain ⟨-, hstep⟩ := Option.ite_none_left_eq_some.1 hstep
        cases hfound : s.st.content.lookup id with
        | none =>
          rw [MemoryStorage.get, hfound] at hstep
          cases hstep
          simp only [Orderly, hcall, hfound]
          exact projects_not_found h hcall
        | some trace =>
          rw [MemoryStorage.get, hfound] at hstep
          cases hstep
          simp only [Orderly, hcall, hfound]
          exact projects_found h hcall hfound
      case h_3 id trace hcall =>
        simp only [Orderly, hcall]
        exact projects_hand h hcall hstep
    | run =>
      dsimp only [run] at hstep
      split at hstep
      case h_1 hphase =>
        split at hstep
        case h_1 => cases hstep
        case h_2 e events hevents =>
          cases hstep
          cases e with
          | traceReceived td =>
            simp only [Admitted, AdmittedRun, Orderly, hphase, hevents] at hadmitted ⊢
            exact projects_received h hphase hevents hadmitted
          | traceExpired | traceReleased | traceRemoved | stop =>
            simpa only [Orderly, hphase, hevents] using
              projects_handle h hphase hevents fun td heq => (by cases heq)
      case h_2 work hphase =>
        cases hstep
        exact projects_receive h hphase hadmitted
      case h_4 batch new work hphase =>
        obtain ⟨hreaders, hstep⟩ := Option.ite_none_right_eq_some.1 hstep
        cases hstep
        simp only [Orderly, hphase]
        exact projects_store h hphase hreaders
      case h_5 id hphase =>
        obtain ⟨-, hstep⟩ := Option.ite_none_right_eq_some.1 hstep
        cases hstep
        simp only [Orderly, hphase]
        exact projects_remove h hphase
      case h_7 => cases hstep
      -- eviction and shutdown are not admitted
      case h_3 hphase | h_6 hphase =>
        have hfalse := h.phase
        rw [hphase] at hfalse
        exact hfalse.elim

end Collector.GroupByTrace
