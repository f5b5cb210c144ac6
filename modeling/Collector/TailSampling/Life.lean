import Collector.Lib.Run
import Mathlib.Data.Multiset.AddSub

/-!
# The life of a stored trace

What happens to one `TraceData` of the tail sampling processor, seen by itself. Deliveries of spans
arrive and go through the policies one by one: a delivery is stored at the first policy without
a decision, and passed on at every policy before it that has decided to sample. The tick visits the
trace: for each policy it writes the decision, and, where the trace is sampled, reads what
is stored and passes it on; at the end of a visit the store is emptied. The decision is
written before the store is read, so a delivery can come between the two.

`visits` counts the visits, and no policy is evaluated more often than that (`Counted`).
-/

namespace Collector.TailSampling

open Lib List

/-- `sampling.Decision`. -/
inductive Decision where
  | unspecified
  | pending
  | sampled
  | notSampled
  | dropped
  deriving DecidableEq, Repr

/-- Where the tick stands with the trace. -/
inductive Visit where
  | away
  /-- It is to evaluate policy `i`, or, after the last one, to empty the store. -/
  | evaluating (i : Nat)
  /-- Policy `i` has decided to sample, and the store is to be read. -/
  | reading (i : Nat)
  deriving DecidableEq, Repr

/-- One stored trace. Deliveries are given by their numbers. -/
@[ext] structure Life where
  decisions : List Decision
  stored : List Nat := []
  visit : Visit := .away
  /-- The deliveries on their way, each with the policy it is at. -/
  transit : Multiset (Nat × Nat) := 0
  /-- What was passed on, each with the policy it was for. -/
  passed : List (Nat × Nat) := []
  arrived : List Nat := []
  /-- The policies that were evaluated. -/
  evaluated : List Nat := []
  visits : Nat := 0

inductive Move where
  | stay
  | arrive (m : Nat)
  /-- A delivery looks at the decision of the policy it is at. -/
  | check (m i : Nat)
  | visit
  | decide (d : Decision)
  | read
  | finish
  deriving DecidableEq, Repr

namespace Life

def new (n : Nat) : Life := { decisions := List.replicate n .pending }

/-- Delivery `m` at policy `i`. -/
def check (l : Life) (m i : Nat) : Life :=
  match l.decisions[i]? with
  | none => { l with transit := l.transit.erase (m, i) }
  | some .pending => { l with transit := l.transit.erase (m, i), stored := l.stored ++ [m] }
  | some .sampled =>
    { l with
      transit := (m, i + 1) ::ₘ l.transit.erase (m, i)
      passed := l.passed ++ [(m, i)] }
  | some _ => { l with transit := (m, i + 1) ::ₘ l.transit.erase (m, i) }

/-- Policy `i` decides. -/
def decide (l : Life) (i : Nat) (d : Decision) : Life :=
  { l with
    decisions := l.decisions.set i d
    visit := if d = .sampled then .reading i else .evaluating (i + 1)
    evaluated := l.evaluated ++ [i] }

def step (l : Life) : Move → Option Life
  | .stay => some l
  | .arrive m =>
    if m ∈ l.arrived then none
    else some { l with transit := (m, 0) ::ₘ l.transit, arrived := l.arrived ++ [m] }
  | .check m i => if (m, i) ∈ l.transit then some (l.check m i) else none
  | .visit =>
    if l.visit = .away ∧ l.arrived ≠ [] then
      some { l with visit := .evaluating 0, visits := l.visits + 1 }
    else none
  | .decide d =>
    match l.visit with
    | .evaluating i => if i < l.decisions.length then some (l.decide i d) else none
    | _ => none
  | .read =>
    match l.visit with
    | .reading i =>
      some { l with
        passed := l.passed ++ l.stored.map fun m => (m, i)
        visit := .evaluating (i + 1) }
    | _ => none
  | .finish =>
    match l.visit with
    | .evaluating i =>
      if i = l.decisions.length then some { l with stored := [], visit := .away } else none
    | _ => none

/-! ## Conditions on the moves -/

/-- Policies decide to sample or not to sample. -/
def Settles (_ : Life) : Move → Prop
  | .decide d => d = .sampled ∨ d = .notSampled
  | _ => True

def Stable (l : Life) : Move → Prop
  | .decide d => ∀ i old, l.visit = .evaluating i → l.decisions[i]? = some old →
    old = .pending ∨ old = d
  | _ => True

/-! ## What a move can do -/

inductive Moved (l : Life) : Move → Life → Prop where
  | stay : Moved l .stay l
  | arrive {m : Nat} (hm : m ∉ l.arrived) :
    Moved l (.arrive m) { l with transit := (m, 0) ::ₘ l.transit, arrived := l.arrived ++ [m] }
  | leave {m i : Nat} {rest : Multiset (Nat × Nat)} (ht : l.transit = (m, i) ::ₘ rest)
    (hd : l.decisions[i]? = none) : Moved l (.check m i) { l with transit := rest }
  | store {m i : Nat} {rest : Multiset (Nat × Nat)} (ht : l.transit = (m, i) ::ₘ rest)
    (hd : l.decisions[i]? = some .pending) :
    Moved l (.check m i) { l with transit := rest, stored := l.stored ++ [m] }
  | late {m i : Nat} {rest : Multiset (Nat × Nat)} (ht : l.transit = (m, i) ::ₘ rest)
    (hd : l.decisions[i]? = some .sampled) :
    Moved l (.check m i) { l with transit := (m, i + 1) ::ₘ rest, passed := l.passed ++ [(m, i)] }
  | skip {m i : Nat} {rest : Multiset (Nat × Nat)} {d : Decision}
    (ht : l.transit = (m, i) ::ₘ rest) (hd : l.decisions[i]? = some d) (hp : d ≠ .pending)
    (hs : d ≠ .sampled) : Moved l (.check m i) { l with transit := (m, i + 1) ::ₘ rest }
  | visit (hv : l.visit = .away) (ha : l.arrived ≠ []) :
    Moved l .visit { l with visit := .evaluating 0, visits := l.visits + 1 }
  | decide {i : Nat} {d : Decision} (hv : l.visit = .evaluating i)
    (hi : i < l.decisions.length) : Moved l (.decide d) (l.decide i d)
  | read {i : Nat} (hv : l.visit = .reading i) :
    Moved l .read { l with
      passed := l.passed ++ l.stored.map fun m => (m, i)
      visit := .evaluating (i + 1) }
  | finish (hv : l.visit = .evaluating l.decisions.length) :
    Moved l .finish { l with stored := [], visit := .away }

variable {l l' : Life} {mv : Move}

theorem Moved.to {l'' : Life} (h : Moved l mv l') (heq : l'' = l') : Moved l mv l'' := heq ▸ h

theorem moved_check {m i : Nat} (h : (m, i) ∈ l.transit) : Moved l (.check m i) (l.check m i) := by
  obtain ⟨rest, ht⟩ := Multiset.exists_cons_of_mem h
  have herase : l.transit.erase (m, i) = rest := by rw [ht, Multiset.erase_cons_head]
  unfold check
  rw [herase]
  split
  case h_1 hd => exact .leave ht hd
  case h_2 hd => exact .store ht hd
  case h_3 hd => exact .late ht hd
  case h_4 d hp hs hd => exact .skip ht hd hp hs

theorem moved_of_step (h : l.step mv = some l') : Moved l mv l' := by
  cases mv with
  | stay =>
    cases h
    exact .stay
  | arrive m =>
    obtain ⟨hm, h⟩ := Option.ite_none_left_eq_some.1 h
    cases h
    exact .arrive hm
  | check m i =>
    obtain ⟨hm, h⟩ := Option.ite_none_right_eq_some.1 h
    cases h
    exact moved_check hm
  | visit =>
    obtain ⟨⟨hv, ha⟩, h⟩ := Option.ite_none_right_eq_some.1 h
    cases h
    exact .visit hv ha
  | decide d =>
    simp only [step] at h
    split at h
    case h_1 i hv =>
      obtain ⟨hi, h⟩ := Option.ite_none_right_eq_some.1 h
      cases h
      exact .decide hv hi
    case h_2 => cases h
  | read =>
    simp only [step] at h
    split at h <;> cases h
    case h_1 i hv => exact .read hv
  | finish =>
    simp only [step] at h
    split at h
    case h_1 i hv =>
      obtain ⟨hi, h⟩ := Option.ite_none_right_eq_some.1 h
      cases h
      exact .finish (hi ▸ hv)
    case h_2 => cases h

theorem getElem?_set_decisions {i : Nat} (hi : i < l.decisions.length) (d : Decision) (j : Nat) :
    (l.decisions.set i d)[j]? = if i = j then some d else l.decisions[j]? := by
  rw [getElem?_set]
  by_cases h : i = j
  · simp [hi]
  · simp [h]

theorem Moved.step (h : Moved l mv l') : l.step mv = some l' := by
  cases h with
  | stay => rfl
  | arrive hm => exact if_neg hm
  | leave ht hd | store ht hd | late ht hd =>
    simp [Life.step, check, ht, hd]
  | skip ht hd hp hs =>
    rename_i m i rest d
    cases d with
    | pending => exact absurd rfl hp
    | sampled => exact absurd rfl hs
    | unspecified | notSampled | dropped => simp [Life.step, check, ht, hd]
  | visit hv ha => exact if_pos ⟨hv, ha⟩
  | decide hv hi => simp [Life.step, hv, hi]
  | read hv | finish hv => simp [Life.step, hv]

theorem Moved.length_decisions (h : Moved l mv l') :
    l'.decisions.length = l.decisions.length := by
  cases h with
  | decide hv hi => exact length_set
  | _ => rfl

/-! ## Evaluations -/

/-- The visit has got beyond policy `i`. -/
def beyond (l : Life) (i : Nat) : Prop :=
  match l.visit with
  | .away => True
  | .evaluating k => i < k
  | .reading k => i ≤ k

/-- The evaluations go with the visits. -/
structure Counted (l : Life) : Prop where
  beyond : ∀ i, i < l.decisions.length → l.beyond i → l.evaluated.count i = l.visits
  ahead : ∀ i, i < l.decisions.length → ¬ l.beyond i → l.evaluated.count i + 1 = l.visits
  range : ∀ i ∈ l.evaluated, i < l.decisions.length
  decided : ∀ (i : Nat) (d : Decision), l.decisions[i]? = some d → d ≠ .pending → i ∈ l.evaluated

theorem Counted.new (n : Nat) : Counted (new n) where
  beyond := by simp [Life.new]
  ahead i _ hi := absurd trivial hi
  range := by simp [Life.new]
  decided i d hd hp := by
    obtain ⟨-, rfl⟩ := mem_replicate.1 (mem_of_getElem? hd)
    exact absurd rfl hp

variable (h : Counted l)

include h

theorem Counted.congr (hd : l'.decisions = l.decisions) (hv : l'.visit = l.visit)
    (he : l'.evaluated = l.evaluated) (hn : l'.visits = l.visits) : Counted l' := by
  have hbeyond : ∀ i, l'.beyond i ↔ l.beyond i := by
    intro i
    rw [Life.beyond, Life.beyond, hv]
  refine ⟨fun i hi hb => ?_, fun i hi hb => ?_, fun i hi => ?_, fun i d hi => ?_⟩
  · rw [he, hn]
    exact h.beyond i (hd ▸ hi) ((hbeyond i).1 hb)
  · rw [he, hn]
    exact h.ahead i (hd ▸ hi) (mt (hbeyond i).2 hb)
  · rw [hd]
    exact h.range i (he ▸ hi)
  · rw [hd] at hi
    rw [he]
    exact h.decided i d hi

theorem Counted.decide {i : Nat} {d : Decision} (hv : l.visit = .evaluating i)
    (hi : i < l.decisions.length) : Counted (l.decide i d) := by
  have hlength : (l.decide i d).decisions.length = l.decisions.length := length_set
  have hbeyond : ∀ j, (l.decide i d).beyond j ↔ j ≤ i := by
    intro j
    unfold Life.beyond Life.decide
    by_cases hd : d = .sampled
    · simp [hd]
    · simp only [hd, if_false]
      exact Nat.lt_succ_iff
  have hbeyond' : ∀ j, l.beyond j ↔ j < i := by
    intro j
    rw [Life.beyond, hv]
  have hcount : ∀ j, (l.decide i d).evaluated.count j =
      l.evaluated.count j + if i = j then 1 else 0 := by
    intro j
    simp [Life.decide, count_append, count_singleton]
  refine ⟨fun j hj hb => ?_, fun j hj hb => ?_, fun j hj => ?_, fun j d' hj hd' => ?_⟩
  · rw [hbeyond] at hb
    rw [hlength] at hj
    rw [hcount]
    by_cases hij : i = j
    · subst hij
      rw [if_pos rfl]
      exact h.ahead i hi (by rw [hbeyond']; omega)
    · rw [if_neg hij]
      exact h.beyond j hj ((hbeyond' j).2 (by omega))
  · rw [hbeyond] at hb
    rw [hlength] at hj
    rw [hcount, if_neg (by omega)]
    exact h.ahead j hj (by rw [hbeyond']; omega)
  · rw [hlength]
    rcases mem_append.1 hj with hj | hj
    · exact h.range j hj
    · obtain rfl := mem_singleton.1 hj
      exact hi
  · rw [Life.decide, getElem?_set_decisions hi] at hj
    by_cases hij : i = j
    · subst hij
      exact mem_append_right _ (mem_singleton.2 rfl)
    · rw [if_neg hij] at hj
      exact mem_append_left _ (h.decided j d' hj hd')

theorem Counted.moved (hmv : Moved l mv l') : Counted l' := by
  cases hmv with
  | visit hv ha =>
    have hbeyond : ∀ i, l.beyond i := by
      intro i
      rw [Life.beyond, hv]
      trivial
    refine ⟨fun i _ hb => absurd hb (Nat.not_lt_zero i), fun i hi _ => ?_, h.range, h.decided⟩
    exact congrArg (· + 1) (h.beyond i hi (hbeyond i))
  | decide hv hi => exact h.decide hv hi
  | read hv =>
    rename_i k
    have hbeyond : ∀ i, i < k + 1 ↔ l.beyond i := by
      intro i
      rw [Life.beyond, hv]
      exact Nat.lt_succ_iff
    exact ⟨fun i hi hb => h.beyond i hi ((hbeyond i).1 hb),
      fun i hi hb => h.ahead i hi (mt (hbeyond i).2 hb), h.range, h.decided⟩
  | finish hv =>
    refine ⟨fun i hi _ => h.beyond i hi ?_, fun i _ hb => absurd trivial hb, h.range, h.decided⟩
    rw [Life.beyond, hv]
    exact hi
  | stay | arrive | leave | store | late | skip => exact h.congr rfl rfl rfl rfl

theorem Counted.count_le (i : Nat) : l.evaluated.count i ≤ l.visits := by
  by_cases hi : i < l.decisions.length
  · by_cases hb : l.beyond i
    · exact (h.beyond i hi hb).le
    · have := h.ahead i hi hb
      omega
  · rw [count_eq_zero.2 fun hmem => hi (h.range i hmem)]
    exact Nat.zero_le _

theorem Counted.stable (hn : l.visits ≤ 1) (mv : Move) : Stable l mv := by
  cases mv with
  | decide d =>
    intro i old hv hold
    by_cases hp : old = .pending
    · exact .inl hp
    · have hi := (List.getElem?_eq_some_iff.1 hold).1
      have hmem := count_pos_iff.2 (h.decided i old hold hp)
      have hahead := h.ahead i hi (by rw [Life.beyond, hv]; exact Nat.lt_irrefl i)
      omega
  | _ => trivial

/-- A decision stays, or the policy is evaluated once more. -/
theorem final_moved (hmv : Moved l mv l') {i : Nat} {d : Decision}
    (hd : d ≠ .pending) (hl : l.decisions[i]? = some d ∨ 2 ≤ l.evaluated.count i) :
    l'.decisions[i]? = some d ∨ 2 ≤ l'.evaluated.count i := by
  cases hmv with
  | decide hv hi =>
    rename_i k d'
    have hcount : (l.decide k d').evaluated.count i =
        l.evaluated.count i + if k = i then 1 else 0 := by
      simp [Life.decide, count_append, count_singleton]
    rcases hl with hl | hl
    · by_cases hki : k = i
      · right
        have hpos := count_pos_iff.2 (h.decided i d hl hd)
        rw [hcount, if_pos hki]
        omega
      · left
        rw [Life.decide, getElem?_set_decisions hi, if_neg hki, hl]
    · right
      omega
  | _ => exact hl

end Life

end Collector.TailSampling
