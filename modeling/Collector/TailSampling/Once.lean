import Collector.TailSampling.Owed
import Collector.TailSampling.View

/-!
# Spans are forwarded once

The tick passes the stored batches on for every policy that samples, and a call passes its spans on
for every such policy, too. So two policies that sample make two copies. A call that has passed its
spans on for one policy and finds the next one without a decision stores them as well; when the tick
has decided the first policy but has not yet read the batches, it passes them on once more.

These two are all: in the runs without them, and without decisions that are changed later, every
delivery is forwarded once (`passedOnce_iff`).
-/

namespace Collector.TailSampling

open Lib List State

variable {N R X : Type}

/-- Evaluators return `Sampled`, `NotSampled` or an error. -/
def Act.Answers : Act N R X → Prop
  | .evaluate result => result ∈ [none, some .sampled, some .notSampled]
  | _ => True

def Visit.evaluates : Visit → Option Nat
  | .evaluating i => some i
  | _ => none

def Visit.reads : Visit → Option Nat
  | .reading i => some i
  | _ => none

/-- The policy whose decision on the trace stored at `a` call `c` is to look at. -/
def State.checks (s : State N R X) (a c : Nat) : Option Nat :=
  match s.calls[c]? with
  | some ⟨_, _, _, .policies d i⟩ => if d.address = a then some i else none
  | _ => none

/-- A policy that has decided on the trace stored at `a` does not decide otherwise. -/
def KeepsDecision (cfg : Config) (a : Nat) (s : State N R X) : Act N R X → Prop
  | .evaluate result =>
    ∀ i ∈ (s.phase.visit a).evaluates, ∀ old ∈ (s.trace cfg a).decisions[i]?,
      old = .pending ∨ old = result.getD .notSampled
  | _ => True

/-- No second policy decides to sample the trace stored at `a`, and no call stores spans of it
between such a decision and the reading of the batches. -/
def Orderly (cfg : Config) (a : Nat) (s : State N R X) : Act N R X → Prop
  | .evaluate result =>
    result = some .sampled → ∀ i ∈ (s.phase.visit a).evaluates,
      ∀ p ∈ (s.trace cfg a).decisions.zipIdx, p.1 = .sampled → p.2 = i
  | .run c =>
    ∀ j ∈ s.checks a c, (s.trace cfg a).decisions[j]? = some .pending →
      (s.phase.visit a).reads = none
  | _ => True

def State.timesForwarded (s : State N R X) (d : Delivery N R X) : Nat :=
  s.forwarded.countP fun f => f.delivery.number = d.number

/-- The call that brought the delivery is not yet through with it. -/
def State.UnderWay (s : State N R X) (d : Delivery N R X) : Prop :=
  ∃ call ∈ s.calls, ∃ i, call.stage.under = some (d, i)

/-- **Every delivery to the trace stored at `a` is forwarded at most once**, and exactly once when
a policy has decided to sample, the tick that decided has left the trace, and the call is through
with the delivery. -/
structure PassedOnce (cfg : Config) (a : Nat) (s : State N R X) : Prop where
  atMost : ∀ d ∈ s.received, d.address = a → s.timesForwarded d ≤ 1
  exactly : .sampled ∈ (s.trace cfg a).decisions →
    s.phase.visit a = .away ∨ 2 ≤ s.visited.count a →
    ∀ d ∈ s.received, d.address = a → ¬ s.UnderWay d → s.timesForwarded d = 1

/-- The tick and the calls have nothing to do with the trace stored at `a`. -/
def AtRest (a : Nat) (s : State N R X) : Prop :=
  s.phase.visit a = .away ∧ ∀ d, d.address = a → ¬ s.UnderWay d

section Decidable

variable (cfg : Config) (a : Nat) (s : State N R X)

instance : ∀ act : Act N R X, Decidable act.Answers
  | .evaluate result =>
    inferInstanceAs (Decidable (result ∈ [none, some .sampled, some .notSampled]))
  | .process _ | .group _ _ | .run _ | .collect | .tick | .next => isTrue trivial

instance : ∀ act, Decidable (KeepsDecision cfg a s act)
  | .evaluate result => inferInstanceAs (Decidable (∀ i ∈ (s.phase.visit a).evaluates,
      ∀ old ∈ (s.trace cfg a).decisions[i]?, old = .pending ∨ old = result.getD .notSampled))
  | .process _ | .group _ _ | .run _ | .collect | .tick | .next => isTrue trivial

instance : ∀ act, Decidable (Orderly cfg a s act)
  | .evaluate result => inferInstanceAs (Decidable (result = some .sampled →
      ∀ i ∈ (s.phase.visit a).evaluates, ∀ p ∈ (s.trace cfg a).decisions.zipIdx,
        p.1 = .sampled → p.2 = i))
  | .run c => inferInstanceAs (Decidable (∀ j ∈ s.checks a c,
      (s.trace cfg a).decisions[j]? = some .pending → (s.phase.visit a).reads = none))
  | .process _ | .group _ _ | .collect | .tick | .next => isTrue trivial

end Decidable

section View

variable {traceId : X → TraceKey} {cfg : Config} {s s' : State N R X} {act : Act N R X} {a : Nat}

/-! ## The conditions in the life of a trace -/

theorem mem_evaluates {v : Visit} {i : Nat} : i ∈ v.evaluates ↔ v = .evaluating i := by
  cases v <;> simp [Visit.evaluates, eq_comm]

theorem reads_eq_none {v : Visit} : v.reads = none ↔ ∀ i, v ≠ .reading i := by
  cases v <;> simp [Visit.reads]

theorem State.label_run (c : Nat) :
    s.label a (.run c) = .stay ∧ s.checks a c = none ∨
      ∃ m i, s.label a (.run c) = .check m i ∧ s.checks a c = some i := by
  unfold checks
  cases hc : s.calls[c]? with
  | none => exact .inl ⟨by simp [label, hc], rfl⟩
  | some call =>
    obtain ⟨td, groups, single, stage⟩ := call
    cases stage with
    | policies d i =>
      by_cases ha : d.address = a
      · exact .inr ⟨d.number, i, by simp [label, hc, ha], if_pos ha⟩
      · exact .inl ⟨by simp [label, hc, ha], if_neg ha⟩
    | choosing | adding | posting | evicting | dropping | deleting =>
      exact .inl ⟨by simp [label, hc], rfl⟩

theorem State.label_evaluate (result : Option Decision) :
    s.phase.visit a = .away ∧ s.label a (.evaluate result) = .stay ∨
      s.label a (.evaluate result) = .decide (result.getD .notSampled) := by
  by_cases haway : s.phase.visit a = .away
  · exact .inl ⟨haway, if_pos haway⟩
  · exact .inr (if_neg haway)

theorem State.label_next (s : State N R X) (a : Nat) :
    s.label a .next ∈ [Move.stay, .visit, .finish, .read] := by
  cases hp : s.phase with
  | idle => simp [label, hp]
  | batch ids =>
    cases ids with
    | nil => simp [label, hp]
    | cons e ids => by_cases h : s.idToTrace.lookup e.id = some a <;> simp [label, hp, h]
  | evaluating b | reading b => by_cases h : b = a <;> simp [label, hp, h]

theorem State.label_other {P : Move → Prop} (hstay : P .stay) (harrive : ∀ m, P (.arrive m))
    (hvisit : P .visit) (hfinish : P .finish) (hread : P .read)
    (hevaluate : ∀ result, act ≠ .evaluate result) (hrun : ∀ c, act ≠ .run c) :
    P (s.label a act) := by
  cases act with
  | evaluate result => exact absurd rfl (hevaluate result)
  | run c => exact absurd rfl (hrun c)
  | group c j =>
    by_cases h : s.target c j = some a
    · have hlabel : s.label a (.group c j) = .arrive s.received.length := if_pos h
      rw [hlabel]
      exact harrive _
    · have hlabel : s.label a (.group c j) = .stay := if_neg h
      rw [hlabel]
      exact hstay
  | next =>
    have hlabel := s.label_next a
    simp only [mem_cons, not_mem_nil, or_false] at hlabel
    rcases hlabel with h | h | h | h
    · rw [h]
      exact hstay
    · rw [h]
      exact hvisit
    · rw [h]
      exact hfinish
    · rw [h]
      exact hread
  | process | collect | tick => exact hstay

theorem getD_eq_sampled {result : Option Decision} :
    result.getD .notSampled = .sampled ↔ result = some .sampled := by
  cases result <;> simp

theorem settles_of_answers (h : act.Answers) : Life.Settles (s.view cfg a) (s.label a act) := by
  cases act with
  | evaluate result =>
    rcases s.label_evaluate (a := a) result with ⟨-, hlabel⟩ | hlabel
    · rw [hlabel]
      trivial
    · rw [hlabel]
      simp only [Act.Answers, mem_cons, not_mem_nil, or_false] at h
      rcases h with rfl | rfl | rfl <;> simp [Life.Settles]
  | run c => rcases s.label_run (a := a) c with ⟨h, -⟩ | ⟨m, i, h, -⟩ <;> rw [h] <;> trivial
  | process | group | collect | tick | next =>
    exact label_other trivial (fun _ => trivial) trivial trivial trivial (by simp) (by simp)

theorem stable_iff : Life.Stable (s.view cfg a) (s.label a act) ↔ KeepsDecision cfg a s act := by
  cases act with
  | evaluate result =>
    rcases s.label_evaluate (a := a) result with ⟨haway, hlabel⟩ | hlabel
    · rw [hlabel]
      simp [Life.Stable, KeepsDecision, haway, Visit.evaluates]
    · rw [hlabel]
      constructor
      · intro h i hi old hold
        exact h i old (mem_evaluates.1 hi) hold
      · intro h i old hv hold
        exact h i (mem_evaluates.2 hv) old hold
  | run c => rcases s.label_run (a := a) c with ⟨h, -⟩ | ⟨m, i, h, -⟩ <;> rw [h] <;> exact Iff.rfl
  | process | group | collect | tick | next =>
    refine iff_of_true ?_ trivial
    exact label_other trivial (fun _ => trivial) trivial trivial trivial (by simp) (by simp)

theorem clean_iff : Life.Clean (s.view cfg a) (s.label a act) ↔ Orderly cfg a s act := by
  cases act with
  | evaluate result =>
    rcases s.label_evaluate (a := a) result with ⟨haway, hlabel⟩ | hlabel
    · rw [hlabel]
      simp [Life.Clean, Orderly, haway, Visit.evaluates]
    · rw [hlabel]
      simp only [Life.Clean, Orderly, getD_eq_sampled, mem_evaluates, Prod.forall,
        mem_zipIdx_iff_getElem?]
      refine imp_congr_right fun _ => forall_congr' fun i => imp_congr_right fun _ => ?_
      exact ⟨fun h d j hd hs => h j (hs ▸ hd), fun h j hj => h .sampled j hj rfl⟩
  | run c =>
    rcases s.label_run (a := a) c with ⟨h, hchecks⟩ | ⟨m, j, h, hchecks⟩
    · rw [h]
      simp [Life.Clean, Orderly, hchecks]
    · rw [h]
      simp only [Life.Clean, Orderly, hchecks, Option.mem_def, Option.some.injEq, forall_eq',
        reads_eq_none]
      rfl
  | process | group | collect | tick | next =>
    refine iff_of_true ?_ trivial
    exact label_other trivial (fun _ => trivial) trivial trivial trivial (by simp) (by simp)

/-! ## Deliveries in the life of a trace -/

theorem mem_transit {p : Nat × Nat} :
    p ∈ s.transit a ↔ ∃ call ∈ s.calls, p ∈ call.transit a := by
  unfold transit
  induction s.calls with
  | nil => simp
  | cons call calls ih => simp [ih]

theorem Call.mem_transit {call : Call N R X} {p : Nat × Nat} :
    p ∈ call.transit a ↔
      ∃ d, call.stage.under = some (d, p.2) ∧ d.address = a ∧ d.number = p.1 := by
  unfold Call.transit
  cases hu : call.stage.under with
  | none => simp
  | some q =>
    obtain ⟨d, i⟩ := q
    obtain ⟨m, j⟩ := p
    by_cases ha : d.address = a
    · simp only [ha, if_true, Multiset.mem_singleton, Prod.mk.injEq, Option.some.injEq]
      constructor
      · rintro ⟨rfl, rfl⟩
        exact ⟨d, ⟨rfl, rfl⟩, ha, rfl⟩
      · rintro ⟨d', ⟨rfl, rfl⟩, -, rfl⟩
        exact ⟨rfl, rfl⟩
    · simp only [ha, if_false, Multiset.notMem_zero, Option.some.injEq, Prod.mk.injEq, false_iff]
      rintro ⟨d', ⟨rfl, rfl⟩, ha', -⟩
      exact ha ha'

theorem Kept.underWay_iff (h : Kept traceId s) {d : Delivery N R X} (hd : d ∈ s.received) :
    s.UnderWay d ↔ ∃ i, (d.number, i) ∈ s.transit d.address := by
  simp only [mem_transit, Call.mem_transit]
  constructor
  · rintro ⟨call, hcall, i, hu⟩
    exact ⟨i, call, hcall, d, hu, rfl, rfl⟩
  · rintro ⟨i, call, hcall, d', hu, -, hn⟩
    obtain rfl := h.eq_of_number (h.under call hcall d' i hu) hd hn
    exact ⟨call, hcall, i, hu⟩

theorem Kept.timesPassed_eq (h : Kept traceId s) (cfg : Config) {d : Delivery N R X}
    (hd : d ∈ s.received) :
    (s.view cfg d.address).timesPassed d.number = s.timesForwarded d := by
  change (passed s d.address).countP _ = _
  rw [passed, countP_map, countP_filter]
  refine countP_congr fun f hf => ?_
  obtain ⟨hreceived, haddress⟩ := h.forwarded f hf
  simp only [Function.comp_apply, Bool.and_eq_true, decide_eq_true_eq, and_iff_left_iff_imp]
  intro hn
  rw [← haddress, h.eq_of_number hreceived hd hn]

theorem Kept.exists_of_timesPassed (h : Kept traceId s) {m : Nat}
    (hm : (s.view cfg a).timesPassed m ≠ 0) : ∃ d ∈ s.received, d.address = a ∧ d.number = m := by
  obtain ⟨p, hp, hpm⟩ := countP_pos_iff.1 (Nat.pos_of_ne_zero hm)
  obtain ⟨f, hf, rfl⟩ := mem_map.1 hp
  obtain ⟨hf, ha⟩ := mem_filter.1 hf
  obtain ⟨hreceived, haddress⟩ := h.forwarded f hf
  exact ⟨f.delivery, hreceived, haddress.trans (by simpa using ha), by simpa using hpm⟩

theorem mem_arrived {m : Nat} :
    m ∈ s.arrived a ↔ ∃ d ∈ s.received, d.address = a ∧ d.number = m := by
  simp [arrived, and_assoc]

theorem Kept.once_iff (h : Kept traceId s) :
    PassedOnce cfg a s ↔ (s.view cfg a).Once := by
  constructor
  · intro honce
    refine ⟨fun m => ?_, fun hs hv m hm hout => ?_⟩
    · by_cases hm : (s.view cfg a).timesPassed m = 0
      · omega
      · obtain ⟨d, hd, rfl, rfl⟩ := h.exists_of_timesPassed hm
        rw [h.timesPassed_eq cfg hd]
        exact honce.atMost d hd rfl
    · obtain ⟨d, hd, rfl, rfl⟩ := mem_arrived.1 hm
      rw [h.timesPassed_eq cfg hd]
      refine honce.exactly hs hv d hd rfl fun hunder => ?_
      obtain ⟨i, hi⟩ := (h.underWay_iff hd).1 hunder
      exact hout i hi
  · intro honce
    refine ⟨fun d hd ha => ?_, fun hs hv d hd ha hunder => ?_⟩
    · subst ha
      rw [← h.timesPassed_eq cfg hd]
      exact honce.atMost d.number
    · subst ha
      rw [← h.timesPassed_eq cfg hd]
      refine honce.exactly hs hv d.number (mem_arrived.2 ⟨d, hd, rfl, rfl⟩) fun i hi => ?_
      exact hunder ((h.underWay_iff hd).2 ⟨i, hi⟩)

theorem AtRest.transit_eq (h : AtRest a s) : s.transit a = 0 := by
  refine Multiset.eq_zero_of_forall_notMem fun p hp => ?_
  obtain ⟨call, hcall, hp⟩ := mem_transit.1 hp
  obtain ⟨d, hu, ha, -⟩ := Call.mem_transit.1 hp
  exact h.2 d ha ⟨call, hcall, p.2, hu⟩

end View

/-! ## Runs -/

section Run

variable {cfg : Config} {traceId : X → TraceKey} {acts : List (Act N R X)} {s : State N R X}

/-- **Deliveries are forwarded once**, whatever the policies and the order of the steps, if the run
is orderly; once the tick and the calls are through with the trace, only then. What is forwarded for
a delivery has just its spans of the trace. -/
theorem passedOnce_iff (a : Nat) (hrun : runFrom (step cfg traceId) (.init cfg) acts = some s)
    (hanswers : ∀ act ∈ acts, act.Answers)
    (hkeeps : Meets (step cfg traceId) (KeepsDecision cfg a) (.init cfg) acts) :
    (Meets (step cfg traceId) (Orderly cfg a) (.init cfg) acts → PassedOnce cfg a s) ∧
    (AtRest a s →
      (PassedOnce cfg a s ↔ Meets (step cfg traceId) (Orderly cfg a) (.init cfg) acts)) ∧
    ∀ f ∈ s.forwarded, f.delivery ∈ s.received ∧
      (f.delivery.batch.spans.filter fun x => traceId x = f.delivery.id) = f.delivery.spans := by
  have hviews := views (N := N) (R := R) cfg traceId a
  have hkept : Kept traceId s := runFrom_invariant hviews.kept hrun Kept.init
  have hlife := hviews.run hrun Kept.init
  have hmeets : ∀ P, _ := fun P => hviews.meets (P := P) hrun Kept.init
  have hsettles := (hmeets Life.Settles).2
    (meets_of_forall (fun act hact s => settles_of_answers (hanswers act hact)) _)
  have hstable := (hmeets Life.Stable).2 (by simpa only [stable_iff] using hkeeps)
  have hclean := hmeets Life.Clean
  simp only [clean_iff] at hclean
  have hif : Meets (step cfg traceId) (Orderly cfg a) (.init cfg) acts → PassedOnce cfg a s :=
    fun h => hkept.once_iff.2 (Life.once_of_clean hlife hsettles hstable (hclean.2 h))
  refine ⟨hif, fun hrest => ⟨fun honce => ?_, hif⟩, fun f hf => ?_⟩
  · exact hclean.1 (Life.clean_of_once hlife hsettles hstable hrest.1 hrest.transit_eq
      (hkept.once_iff.1 honce))
  · obtain ⟨hreceived, -⟩ := hkept.forwarded f hf
    exact ⟨hreceived, (hkept.batches _ hreceived).1⟩

end Run

/-! ## Runs that pass spans on twice -/

def oneTrace : UInt8 → TraceKey := fun _ => List.replicate 16 0

def twoPolicies : Config :=
  { policies := 2, maxNumTraces := 1, numDecisionBatches := 1, batchChannelSize := 1 }

def upToTick : List (Act Unit Unit UInt8) :=
  [.process ⟨(), (), [1], ""⟩, .group 0 0, .run 0, .run 0, .run 0, .collect, .collect,
    .tick, .next, .tick, .next]

def bothSample : List (Act Unit Unit UInt8) :=
  upToTick ++ [.evaluate (some .sampled), .next, .evaluate (some .sampled), .next, .next, .next]

/-- The first policy samples; before the batches are read, a second call has passed its span on for
that policy and stored it at the next one. -/
def storedBeforeRead : List (Act Unit Unit UInt8) :=
  upToTick ++ [.process ⟨(), (), [2], ""⟩, .group 1 0, .evaluate (some .sampled), .run 1, .run 1,
    .next, .evaluate (some .notSampled), .next, .next]

/-- One policy samples, and a second call comes after it. -/
def oneSamples : List (Act Unit Unit UInt8) :=
  upToTick ++ [.evaluate (some .sampled), .next, .evaluate none, .next, .next,
    .process ⟨(), (), [2], ""⟩, .group 1 0, .run 1, .run 1, .run 1]

theorem oneSamples_passedOnce :
    ∃ s, runFrom (step twoPolicies oneTrace) (.init twoPolicies) oneSamples = some s ∧
      (∀ act ∈ oneSamples, act.Answers) ∧
      Meets (step twoPolicies oneTrace) (KeepsDecision twoPolicies 0) (.init twoPolicies)
        oneSamples ∧
      Meets (step twoPolicies oneTrace) (Orderly twoPolicies 0) (.init twoPolicies) oneSamples ∧
      PassedOnce twoPolicies 0 s ∧ s.received.length = 2 ∧ s.forwarded.length = 2 := by
  have hrun : (runFrom (step twoPolicies oneTrace) (.init twoPolicies) oneSamples).map
      (fun s => (s.received.length, s.forwarded.length)) = some (2, 2) := by decide +kernel
  obtain ⟨s, hs, hlengths⟩ := Option.map_eq_some_iff.1 hrun
  have hanswers : ∀ act ∈ oneSamples, act.Answers := by decide
  have hkeeps : Meets (step twoPolicies oneTrace) (KeepsDecision twoPolicies 0)
      (.init twoPolicies) oneSamples := by decide +kernel
  have horderly : Meets (step twoPolicies oneTrace) (Orderly twoPolicies 0)
      (.init twoPolicies) oneSamples := by decide +kernel
  exact ⟨s, hs, hanswers, hkeeps, horderly, (passedOnce_iff 0 hs hanswers hkeeps).1 horderly,
    congrArg Prod.fst hlengths, congrArg Prod.snd hlengths⟩

/-- A delivery that was forwarded twice, while its trace is in the map. -/
theorem not_passedOnce {acts : List (Act Unit Unit UInt8)} (k : Nat)
    (h : (runFrom (step twoPolicies oneTrace) (.init twoPolicies) acts).map (fun s =>
      ((s.received[k]?).map fun d => (d.address, s.timesForwarded d),
        s.idToTrace.lookup (oneTrace 1))) = some (some (0, 2), some 0)) :
    ∃ s, runFrom (step twoPolicies oneTrace) (.init twoPolicies) acts = some s ∧
      s.idToTrace.lookup (oneTrace 1) = some 0 ∧ ¬ PassedOnce twoPolicies 0 s := by
  obtain ⟨s, hs, hpair⟩ := Option.map_eq_some_iff.1 h
  obtain ⟨hdelivery, hlookup⟩ := Prod.mk.inj hpair
  obtain ⟨d, hd, htimes⟩ := Option.map_eq_some_iff.1 hdelivery
  obtain ⟨ha, htwo⟩ := Prod.mk.inj htimes
  refine ⟨s, hs, hlookup, fun honce => ?_⟩
  have hle := honce.atMost d (mem_of_getElem? hd) ha
  omega

theorem two_samples_and_late_store_pass_twice :
    (∃ s, runFrom (step twoPolicies oneTrace) (.init twoPolicies) bothSample = some s ∧
      s.idToTrace.lookup (oneTrace 1) = some 0 ∧ ¬ PassedOnce twoPolicies 0 s) ∧
    (∃ s, runFrom (step twoPolicies oneTrace) (.init twoPolicies) storedBeforeRead = some s ∧
      s.idToTrace.lookup (oneTrace 1) = some 0 ∧ ¬ PassedOnce twoPolicies 0 s) ∧
    ∀ acts ∈ [bothSample, storedBeforeRead], (∀ act ∈ acts, act.Answers) ∧
      Meets (step twoPolicies oneTrace) (KeepsDecision twoPolicies 0) (.init twoPolicies) acts := by
  refine ⟨not_passedOnce 0 (by decide +kernel), not_passedOnce 1 (by decide +kernel), ?_⟩
  decide +kernel

end Collector.TailSampling
