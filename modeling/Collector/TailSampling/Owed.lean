import Collector.TailSampling.Life

/-!
# Once and once only

How often the deliveries of a stored trace are passed on. `owed` counts how often a delivery is, or
is bound to be, passed on for a policy that samples. Under final decisions it never falls, and it
grows only where a delivery is stored between decision and reading (`owed_moved`). So a run delivers
once where its moves are clean, and, once everything has come to rest, only then.
-/

namespace Collector.TailSampling.Life

open Lib List

/-- No second policy decides to sample, and nothing is stored between such a decision and the
reading of the store. -/
def Clean (l : Life) : Move → Prop
  | .decide d => d = .sampled → ∀ i, l.visit = .evaluating i →
    ∀ j, l.decisions[j]? = some .sampled → j = i
  | .check _ j => l.decisions[j]? = some .pending → ∀ i, l.visit ≠ .reading i
  | _ => True

def timesPassed (l : Life) (m : Nat) : Nat := l.passed.countP fun p => p.1 = m

/-- **Every delivery is passed on at most once**, and exactly once when it has been through the
policies, one of them has decided to sample, and the first visit is over. -/
structure Once (l : Life) : Prop where
  atMost : ∀ m, l.timesPassed m ≤ 1
  exactly : .sampled ∈ l.decisions → l.visit = .away ∨ 2 ≤ l.visits →
    ∀ m ∈ l.arrived, (∀ i, (m, i) ∉ l.transit) → l.timesPassed m = 1

/-! ## Invariants -/

/-- The first `k` policies have decided and the others have not. -/
def DecidedTo (l : Life) (k : Nat) : Prop :=
  ∀ i d, l.decisions[i]? = some d → (d = .pending ↔ k ≤ i)

/-- All policies have decided, and the store was emptied. -/
def Over (l : Life) : Prop := .pending ∉ l.decisions ∧ l.stored = []

def VisitMatches (l : Life) : Prop :=
  match l.visit with
  | .away => l.DecidedTo 0 ∨ l.Over
  | .evaluating i => i ≤ l.decisions.length ∧ (l.DecidedTo i ∨ l.Over)
  | .reading i => l.decisions[i]? = some .sampled ∧ (l.DecidedTo (i + 1) ∨ l.Over)

/-- After the first visit there is nothing left to decide or to read. -/
def Reviewed (l : Life) : Prop := l.visit = .away ∧ 1 ≤ l.visits ∨ 2 ≤ l.visits → l.Over

structure Sound (l : Life) : Prop where
  visit : l.VisitMatches
  transit : ∀ p ∈ l.transit, p.1 ∈ l.arrived ∧ ∀ i, i < p.2 → l.decisions[i]? ≠ some .pending
  stored : ∀ m ∈ l.stored, m ∈ l.arrived
  passed : ∀ p ∈ l.passed, p.1 ∈ l.arrived ∧ l.decisions[p.2]? = some .sampled
  /-- While a decision is missing, a delivery is on its way or stored. -/
  held : .pending ∈ l.decisions → ∀ m ∈ l.arrived,
    l.transit.countP (fun p => p.1 = m) + l.stored.count m = 1
  visited : l.visit ≠ .away → l.arrived ≠ []

/-- How often a delivery was, or will be, passed on for policy `i`, once it samples. -/
def owed (l : Life) (m i : Nat) : Nat :=
  l.passed.count (m, i) + l.transit.countP (fun p => p.1 = m ∧ p.2 ≤ i) +
    if l.visit = .reading i then l.stored.count m else 0

variable {l l' : Life} {mv : Move}

/-! ## The decisions along a visit -/

variable {k i j m : Nat} {d : Decision} {rest : Multiset (Nat × Nat)}

theorem pending_of_decidedTo (h : l.DecidedTo k) (hk : k < l.decisions.length) :
    l.decisions[k]? = some .pending := by
  have hd := getElem?_eq_getElem hk
  rw [hd, (h k _ hd).2 (le_refl k)]

theorem no_pending_of_decidedTo (h : l.DecidedTo l.decisions.length) : .pending ∉ l.decisions := by
  intro hmem
  obtain ⟨i, hi, hd⟩ := getElem_of_mem hmem
  have := (h i _ (getElem?_eq_getElem hi)).1 hd
  omega

theorem DecidedTo.decide (h : l.DecidedTo i) (hi : i < l.decisions.length) (hd : d ≠ .pending) :
    (l.decide i d).DecidedTo (i + 1) := by
  intro j d' hj
  rw [Life.decide, getElem?_set_decisions hi] at hj
  by_cases hij : i = j
  · rw [if_pos hij] at hj
    cases hj
    exact iff_of_false hd (by omega)
  · rw [if_neg hij] at hj
    rw [h j d' hj]
    omega

theorem Over.decide (h : l.Over) (hd : d ≠ .pending) : (l.decide i d).Over := by
  refine ⟨fun hmem => ?_, h.2⟩
  rcases mem_or_eq_of_mem_set hmem with hmem | heq
  · exact h.1 hmem
  · exact hd heq.symm

theorem Settles.ne_pending (h : Settles l (.decide d)) : d ≠ .pending := by
  rcases h with rfl | rfl <;> simp

theorem stable_decide {d' : Decision} (hv : l.visit = .evaluating i) (hi : i < l.decisions.length)
    (hstable : Stable l (.decide d)) (hj : l.decisions[j]? = some d') (hd' : d' ≠ .pending) :
    (l.decide i d).decisions[j]? = some d' := by
  rw [Life.decide, getElem?_set_decisions hi]
  by_cases hij : i = j
  · subst hij
    rw [if_pos rfl, (hstable i d' hv hj).resolve_left hd']
  · rw [if_neg hij, hj]

theorem decide_ne_pending (hi : i < l.decisions.length) (hd : d ≠ .pending)
    (hj : l.decisions[j]? ≠ some .pending) : (l.decide i d).decisions[j]? ≠ some .pending := by
  rw [Life.decide, getElem?_set_decisions hi]
  by_cases hij : i = j
  · rw [if_pos hij]
    simpa using hd
  · rwa [if_neg hij]

theorem pending_mem (h : l.decisions[i]? = some .pending) : .pending ∈ l.decisions :=
  mem_of_getElem? h

theorem VisitMatches.store (h : l.VisitMatches) (hp : .pending ∈ l.decisions) :
    VisitMatches { l with transit := rest, stored := l.stored ++ [m] } := by
  have hover : ¬ l.Over := fun h => h.1 hp
  unfold VisitMatches at h ⊢
  cases hv : l.visit with
  | away =>
    rw [hv] at h
    exact .inl (h.resolve_right hover)
  | evaluating | reading =>
    rw [hv] at h
    exact ⟨h.1, .inl (h.2.resolve_right hover)⟩

theorem VisitMatches.decide (h : l.VisitMatches) (hv : l.visit = .evaluating i)
    (hi : i < l.decisions.length) (hd : d ≠ .pending) : (l.decide i d).VisitMatches := by
  rw [VisitMatches, hv] at h
  have hdecided : (l.decide i d).DecidedTo (i + 1) ∨ (l.decide i d).Over :=
    h.2.imp (fun h => h.decide hi hd) fun h => h.decide hd
  unfold VisitMatches
  by_cases hs : d = .sampled
  · have hvisit : (l.decide i d).visit = .reading i := if_pos hs
    rw [hvisit]
    refine ⟨?_, hdecided⟩
    rw [Life.decide, getElem?_set_decisions hi, if_pos rfl, hs]
  · have hvisit : (l.decide i d).visit = .evaluating (i + 1) := if_neg hs
    rw [hvisit]
    refine ⟨?_, hdecided⟩
    rw [Life.decide, length_set]
    exact hi

theorem VisitMatches.finished (h : l.VisitMatches)
    (hv : l.visit = .evaluating l.decisions.length) : .pending ∉ l.decisions := by
  rw [VisitMatches, hv] at h
  rcases h.2 with h | h
  · exact no_pending_of_decidedTo h
  · exact h.1

namespace Sound

theorem new (n : Nat) : Sound (new n) where
  visit := by
    refine .inl fun i d hd => ?_
    obtain ⟨-, rfl⟩ := mem_replicate.1 (mem_of_getElem? hd)
    simp
  transit := by simp [Life.new]
  stored := by simp [Life.new]
  passed := by simp [Life.new]
  held := by simp [Life.new]
  visited := by simp [Life.new]

theorem countP_transit_eq_zero (h : Sound l) (hm : m ∉ l.arrived) :
    l.transit.countP (fun p => p.1 = m) = 0 := by
  refine Multiset.countP_eq_zero.2 fun p hp heq => hm ?_
  rw [← heq]
  exact (h.transit p hp).1

theorem arrive (h : Sound l) (hm : m ∉ l.arrived) :
    Sound { l with transit := (m, 0) ::ₘ l.transit, arrived := l.arrived ++ [m] } where
  visit := h.visit
  transit p hp := by
    rcases Multiset.mem_cons.1 hp with rfl | hp
    · exact ⟨by simp, by simp⟩
    · exact ⟨mem_append_left _ (h.transit p hp).1, (h.transit p hp).2⟩
  stored m' hm' := mem_append_left _ (h.stored m' hm')
  passed p hp := ⟨mem_append_left _ (h.passed p hp).1, (h.passed p hp).2⟩
  held hp m' hm' := by
    have hstored : l.stored.count m = 0 := count_eq_zero.2 fun hmem => hm (h.stored m hmem)
    rcases mem_append.1 hm' with hm' | hm'
    · have hne : m ≠ m' := fun heq => hm (heq ▸ hm')
      simpa [hne] using h.held hp m' hm'
    · obtain rfl := mem_singleton.1 hm'
      simp [h.countP_transit_eq_zero hm, hstored]
  visited _ := by simp

theorem advance (h : Sound l) {passed : List (Nat × Nat)}
    (ht : l.transit = (m, i) ::ₘ rest) (hd : l.decisions[i]? ≠ some .pending)
    (hpassed : ∀ p ∈ passed, p.1 ∈ l.arrived ∧ l.decisions[p.2]? = some .sampled) :
    Sound { l with transit := (m, i + 1) ::ₘ rest, passed } where
  __ := h
  transit p hp := by
    have hold := h.transit (m, i) (ht ▸ Multiset.mem_cons_self _ _)
    rcases Multiset.mem_cons.1 hp with rfl | hp
    · refine ⟨hold.1, fun j hj => ?_⟩
      rcases Nat.lt_succ_iff_lt_or_eq.1 hj with hj | rfl
      · exact hold.2 j hj
      · exact hd
    · exact h.transit p (ht ▸ Multiset.mem_cons_of_mem hp)
  passed := hpassed
  held hp m' hm' := by
    have hheld := h.held hp m' hm'
    rw [ht] at hheld
    simpa [Multiset.countP_cons] using hheld

theorem lt_of_pending (h : Sound l) (hi : l.decisions[i]? = some .sampled)
    (hj : l.decisions[j]? = some .pending) : i < j := by
  have hover : ¬ l.Over := fun h => h.1 (pending_mem hj)
  have hto : ∃ k, l.DecidedTo k := by
    have hvisit := h.visit
    unfold VisitMatches at hvisit
    cases hv : l.visit with
    | away =>
      rw [hv] at hvisit
      exact ⟨_, hvisit.resolve_right hover⟩
    | evaluating k | reading k =>
      rw [hv] at hvisit
      exact ⟨_, hvisit.2.resolve_right hover⟩
  obtain ⟨k, hk⟩ := hto
  have hkj := (hk j _ hj).1 rfl
  have hki : ¬ k ≤ i := fun hle => by simpa using (hk i _ hi).2 hle
  omega

theorem moved (h : Sound l) (hmv : Moved l mv l') (hsettles : Settles l mv)
    (hstable : Stable l mv) : Sound l' := by
  cases hmv with
  | stay => exact h
  | arrive hm => exact h.arrive hm
  | leave ht hd =>
    rename_i m i rest
    refine ⟨h.visit, fun p hp => h.transit p (ht ▸ Multiset.mem_cons_of_mem hp), h.stored, h.passed,
      fun hp => ?_, h.visited⟩
    -- the delivery was past the last policy, so none of them is pending
    obtain ⟨k, hk, hdk⟩ := getElem_of_mem hp
    have hle : l.decisions.length ≤ i := List.getElem?_eq_none_iff.1 hd
    have hlt : k < i := lt_of_lt_of_le hk hle
    have hpast := (h.transit (m, i) (ht ▸ Multiset.mem_cons_self _ _)).2 k hlt
    exact absurd (by rw [getElem?_eq_getElem hk, hdk]) hpast
  | store ht hd =>
    rename_i m i rest
    refine ⟨h.visit.store (pending_mem hd),
      fun p hp => h.transit p (ht ▸ Multiset.mem_cons_of_mem hp), fun m' hm' => ?_, h.passed,
      fun hp m' hm' => ?_, h.visited⟩
    · rcases mem_append.1 hm' with hm' | hm'
      · exact h.stored m' hm'
      · obtain rfl := mem_singleton.1 hm'
        exact (h.transit (m', i) (ht ▸ Multiset.mem_cons_self _ _)).1
    · have hheld := h.held hp m' hm'
      rw [ht, Multiset.countP_cons] at hheld
      refine Eq.trans ?_ hheld
      rw [count_append]
      by_cases hm : m = m'
      · subst hm
        rw [count_singleton_self, if_pos rfl]
        dsimp only
        omega
      · simp [hm]
  | late ht hd =>
    rename_i m i rest
    refine h.advance ht (by simp [hd]) fun p hp => ?_
    rcases mem_append.1 hp with hp | hp
    · exact h.passed p hp
    · obtain rfl := mem_singleton.1 hp
      exact ⟨(h.transit (m, i) (ht ▸ Multiset.mem_cons_self _ _)).1, hd⟩
  | skip ht hd hp hs => exact h.advance ht (by rw [hd]; simpa using hp) h.passed
  | visit hv ha =>
    have hvisit := h.visit
    rw [VisitMatches, hv] at hvisit
    exact ⟨⟨Nat.zero_le _, hvisit⟩, h.transit, h.stored, h.passed, h.held, fun _ => ha⟩
  | decide hv hi =>
    rename_i i d
    have hd := hsettles.ne_pending
    refine ⟨h.visit.decide hv hi hd, fun p hp => ⟨(h.transit p hp).1, fun j hj => ?_⟩, h.stored,
      fun p hp => ⟨(h.passed p hp).1, ?_⟩, fun hp => h.held ?_, fun _ => h.visited (by simp [hv])⟩
    · exact decide_ne_pending hi hd ((h.transit p hp).2 j hj)
    · exact stable_decide hv hi hstable (h.passed p hp).2 (by simp)
    · rcases mem_or_eq_of_mem_set hp with hp | heq
      · exact hp
      · exact absurd heq.symm hd
  | read hv =>
    rename_i i
    have hvisit := h.visit
    rw [VisitMatches, hv] at hvisit
    have hlt : i < l.decisions.length := (List.getElem?_eq_some_iff.1 hvisit.1).1
    refine ⟨⟨hlt, hvisit.2⟩, h.transit, h.stored, fun p hp => ?_, h.held,
      fun _ => h.visited (by simp [hv])⟩
    rcases mem_append.1 hp with hp | hp
    · exact h.passed p hp
    · obtain ⟨m, hm, rfl⟩ := mem_map.1 hp
      exact ⟨h.stored m hm, hvisit.1⟩
  | finish hv =>
    have hno := h.visit.finished hv
    exact ⟨.inr ⟨hno, rfl⟩, h.transit, by simp, h.passed, fun hp => absurd hp hno,
      fun hne => absurd rfl hne⟩

end Sound

theorem Reviewed.moved (h : Sound l) (hmv : Moved l mv l') (hsettles : Settles l mv)
    (hl : l.Reviewed) : l'.Reviewed := by
  cases hmv with
  | stay | arrive | leave | late | skip => exact hl
  | store ht hd =>
    intro hover
    exact absurd (pending_mem hd) (hl hover).1
  | visit hv ha =>
    rintro (⟨haway, -⟩ | htwo)
    · cases haway
    · exact hl (.inl ⟨hv, Nat.le_of_succ_le_succ htwo⟩)
  | decide hv hi =>
    rename_i i d
    rintro (⟨haway, -⟩ | htwo)
    · by_cases hs : d = .sampled <;> simp [Life.decide, hs] at haway
    · exact (hl (.inr htwo)).decide hsettles.ne_pending
  | read hv =>
    rintro (⟨haway, -⟩ | htwo)
    · cases haway
    · exact hl (.inr htwo)
  | finish hv => exact fun _ => ⟨h.visit.finished hv, rfl⟩

/-! ## What is owed -/

theorem owed_decide (h : Sound l) (hp : l.decisions[i]? = some .pending) (hm : m ∈ l.arrived) :
    (l.decide i .sampled).owed m i = 1 := by
  have hpassed : l.passed.count (m, i) = 0 := by
    refine count_eq_zero.2 fun hmem => ?_
    have hs := (h.passed _ hmem).2
    rw [hp] at hs
    cases hs
  -- no delivery can have gone past this policy
  have htransit : l.transit.countP (fun p => p.1 = m ∧ p.2 ≤ i) =
      l.transit.countP (fun p => p.1 = m) := by
    refine Multiset.countP_congr rfl fun p hp' => ?_
    refine propext (and_iff_left (Nat.le_of_not_lt fun hlt => ?_))
    exact (h.transit p hp').2 i hlt hp
  have hheld := h.held (pending_mem hp) m hm
  unfold owed Life.decide
  rw [if_pos (if_pos rfl), hpassed, htransit]
  dsimp only
  omega

theorem owed_store (h : Sound l) (ht : l.transit = (m, j) ::ₘ rest)
    (hj : l.decisions[j]? = some .pending) (hv : l.visit = .reading i) :
    owed { l with transit := rest, stored := l.stored ++ [m] } m i = l.owed m i + 1 := by
  have hvisit := h.visit
  rw [VisitMatches, hv] at hvisit
  have hlt : ¬ j ≤ i := Nat.not_le_of_lt (h.lt_of_pending hvisit.1 hj)
  unfold owed
  simp only [hv, ht, if_true, count_append, Multiset.countP_cons, count_singleton_self]
  rw [if_neg fun h => hlt h.2]
  omega

theorem owed_store_other (h : Sound l) {m' : Nat} (ht : l.transit = (m', j) ::ₘ rest)
    (hi : l.decisions[i]? = some .sampled) (hj : l.decisions[j]? = some .pending)
    (hother : ¬ (l.visit = .reading i ∧ m' = m)) :
    owed { l with transit := rest, stored := l.stored ++ [m'] } m i = l.owed m i := by
  have hlt : ¬ j ≤ i := Nat.not_le_of_lt (h.lt_of_pending hi hj)
  simp only [owed, ht, Multiset.countP_cons, hlt, and_false, if_false, Nat.add_zero,
    count_append]
  by_cases hv : l.visit = .reading i
  · have hne : m' ≠ m := fun heq => hother ⟨hv, heq⟩
    simp [hv, hne]
  · simp [hv]

theorem owed_late {m' : Nat} (ht : l.transit = (m', j) ::ₘ rest) :
    owed { l with transit := (m', j + 1) ::ₘ rest, passed := l.passed ++ [(m', j)] } m i =
      l.owed m i := by
  simp only [owed, ht, Multiset.countP_cons, count_append]
  by_cases hm' : m' = m
  · subst hm'
    rcases Nat.lt_trichotomy j i with hj | rfl | hj
    · simp [Nat.ne_of_lt hj, Nat.succ_le_of_lt hj, Nat.le_of_lt hj]
    · simp only [Nat.not_succ_le_self, count_singleton_self, and_false, if_false, true_and,
        le_refl, if_true]
      omega
    · have hj' : ¬ j + 1 ≤ i := by omega
      simp [Nat.ne_of_gt hj, Nat.not_le_of_lt hj, hj']
  · simp [hm']

theorem owed_decided (h : Sound l) (hv : l.visit = .evaluating k) (hk : k < l.decisions.length)
    (hi : l.decisions[i]? = some .sampled) : (l.decide k d).owed m i = l.owed m i := by
  by_cases hread : d = .sampled ∧ k = i
  · obtain ⟨rfl, rfl⟩ := hread
    -- the policy decides again, so the store is empty
    have hvisit := h.visit
    rw [VisitMatches, hv] at hvisit
    have hover : l.Over := by
      refine hvisit.2.resolve_left fun hto => ?_
      have hpending := pending_of_decidedTo hto hk
      rw [hi] at hpending
      cases hpending
    simp [owed, Life.decide, hv, hover.2]
  · have hvisit : (l.decide k d).visit ≠ .reading i := by
      unfold Life.decide
      by_cases hd : d = .sampled
      · simpa [hd] using fun heq => hread ⟨hd, heq⟩
      · simp [hd]
    unfold owed
    rw [if_neg hvisit, if_neg (by simp [hv])]
    rfl

theorem owed_read (hv : l.visit = .reading k) :
    owed { l with
      passed := l.passed ++ l.stored.map fun m => (m, k)
      visit := .evaluating (k + 1) } m i = l.owed m i := by
  simp only [owed, hv, count_append]
  by_cases hki : k = i
  · subst hki
    have hcount : (l.stored.map fun m => (m, k)).count (m, k) = l.stored.count m :=
      count_map_of_injective l.stored (fun m => (m, k)) (fun a b hab => by simpa using hab) m
    simp
    omega
  · have hcount : (l.stored.map fun m => (m, k)).count (m, i) = 0 := by
      refine count_eq_zero.2 fun hmem => hki ?_
      obtain ⟨m', -, heq⟩ := mem_map.1 hmem
      exact (Prod.mk.inj heq).2
    simp [hcount, hki]

/-- **What is owed changes only where a delivery is stored between decision and reading.** -/
theorem owed_moved (h : Sound l) (hmv : Moved l mv l') (hi : l.decisions[i]? = some .sampled)
    (hm : m ∈ l.arrived) :
    l'.owed m i = l.owed m i ∨ l'.owed m i = l.owed m i + 1 ∧ l.visit = .reading i ∧
      ∃ j, mv = .check m j ∧ l.decisions[j]? = some .pending := by
  cases hmv with
  | stay => exact .inl rfl
  | arrive hm' =>
    rename_i m'
    have hne : m' ≠ m := fun heq => hm' (heq ▸ hm)
    left
    simp [owed, hne]
  | leave ht hd =>
    rename_i m' j rest
    have hlt : ¬ j ≤ i := by
      have := List.getElem?_eq_none_iff.1 hd
      have := (List.getElem?_eq_some_iff.1 hi).1
      omega
    left
    simp [owed, ht, hlt]
  | store ht hd =>
    rename_i m' j rest
    by_cases hdouble : l.visit = .reading i ∧ m' = m
    · obtain ⟨hv, rfl⟩ := hdouble
      exact .inr ⟨owed_store h ht hd hv, hv, j, rfl, hd⟩
    · exact .inl (owed_store_other h ht hi hd hdouble)
  | late ht hd => exact .inl (owed_late ht)
  | skip ht hd hp hs =>
    rename_i m' j rest d
    have hne : j ≠ i := by
      rintro rfl
      rw [hi] at hd
      exact hs (Option.some.inj hd).symm
    have hle : j + 1 ≤ i ↔ j ≤ i := by omega
    left
    simp only [owed, ht, Multiset.countP_cons, hle]
  | decide hv hk => exact .inl (owed_decided h hv hk hi)
  | read hv => exact .inl (owed_read hv)
  | visit hv | finish hv =>
    left
    simp [owed, hv]

theorem owed_arrive (h : Sound l) (hm : m ∉ l.arrived) (i : Nat) :
    owed { l with transit := (m, 0) ::ₘ l.transit, arrived := l.arrived ++ [m] } m i = 1 := by
  have hpassed : l.passed.count (m, i) = 0 :=
    count_eq_zero.2 fun hmem => hm (h.passed _ hmem).1
  have hstored : l.stored.count m = 0 := count_eq_zero.2 fun hmem => hm (h.stored m hmem)
  have htransit : l.transit.countP (fun p => p.1 = m ∧ p.2 ≤ i) = 0 := by
    refine Multiset.countP_eq_zero.2 fun p hp heq => hm ?_
    rw [← heq.1]
    exact (h.transit p hp).1
  simp [owed, hpassed, hstored, htransit]

theorem sampled_moved (hmv : Moved l mv l') (hstable : Stable l mv)
    (hi : l.decisions[i]? = some .sampled) : l'.decisions[i]? = some .sampled := by
  cases hmv with
  | decide hv hi' => exact stable_decide hv hi' hstable hi (by simp)
  | _ => exact hi

theorem arrived_moved (hmv : Moved l mv l') (hm : m ∈ l.arrived) : m ∈ l'.arrived := by
  cases hmv with
  | arrive => exact mem_append_left _ hm
  | _ => exact hm

section

variable (h : Sound l) (hmv : Moved l mv l') (hstable : Stable l mv)

include h hmv hstable

theorem owed_cases (hi : l'.decisions[i]? = some .sampled) (hm : m ∈ l'.arrived) :
    (l.decisions[i]? = some .sampled ∧ m ∈ l.arrived) ∨ l'.owed m i = 1 := by
  cases hmv with
  | arrive hm' =>
    rename_i m'
    rcases mem_append.1 hm with hm | hm
    · exact .inl ⟨hi, hm⟩
    · obtain rfl := mem_singleton.1 hm
      exact .inr (owed_arrive h hm' i)
  | decide hv hi' =>
    rename_i i' d
    by_cases hii : i' = i
    · subst hii
      have hd : d = .sampled := by
        rw [Life.decide, getElem?_set_decisions hi', if_pos rfl] at hi
        exact Option.some.inj hi
      subst hd
      obtain ⟨old, hold⟩ : ∃ old, l.decisions[i']? = some old :=
        ⟨_, getElem?_eq_getElem hi'⟩
      rcases hstable i' old hv hold with rfl | rfl
      · exact .inr (owed_decide h hold hm)
      · exact .inl ⟨hold, hm⟩
    · rw [Life.decide, getElem?_set_decisions hi', if_neg hii] at hi
      exact .inl ⟨hi, hm⟩
  | _ => exact .inl ⟨hi, hm⟩

/-! ## Runs -/

/-- Every delivery is owed at least once by every policy that samples. -/
def AtLeastOnce (l : Life) : Prop :=
  ∀ i, l.decisions[i]? = some .sampled → ∀ m ∈ l.arrived, 1 ≤ l.owed m i

/-- One policy samples, and owes every delivery once. -/
structure Tidy (l : Life) : Prop where
  once : ∀ i, l.decisions[i]? = some .sampled → ∀ m ∈ l.arrived, l.owed m i = 1
  single : ∀ i j : Nat, l.decisions[i]? = some .sampled → l.decisions[j]? = some .sampled → i = j

/-- Two policies sample, or one owes a delivery twice. -/
def Doomed (l : Life) : Prop :=
  (l.arrived ≠ [] ∧ ∃ i j : Nat, i ≠ j ∧ l.decisions[i]? = some .sampled ∧
    l.decisions[j]? = some .sampled) ∨
  ∃ m ∈ l.arrived, ∃ i : Nat, l.decisions[i]? = some .sampled ∧ 2 ≤ l.owed m i

theorem AtLeastOnce.moved (hl : l.AtLeastOnce) : l'.AtLeastOnce := by
  intro i hi m hm
  rcases owed_cases h hmv hstable hi hm with ⟨hi, hm⟩ | howed
  · have hle := hl i hi m hm
    rcases owed_moved h hmv hi hm with heq | ⟨heq, -⟩ <;> omega
  · omega

theorem Tidy.moved (hclean : Clean l mv) (hl : l.Tidy) : l'.Tidy := by
  refine ⟨fun i hi m hm => ?_, fun i j hi hj => ?_⟩
  · rcases owed_cases h hmv hstable hi hm with ⟨hi, hm⟩ | howed
    · rcases owed_moved h hmv hi hm with heq | ⟨-, hv, j, rfl, hj⟩
      · exact heq.trans (hl.once i hi m hm)
      · exact absurd hv (hclean hj i)
    · exact howed
  · cases hmv with
    | decide hv hi' =>
      rename_i k d
      rw [Life.decide, getElem?_set_decisions hi'] at hi hj
      by_cases hki : k = i <;> by_cases hkj : k = j
      · exact hki.symm.trans hkj
      · rw [if_pos hki] at hi
        rw [if_neg hkj] at hj
        exact absurd (hclean (Option.some.inj hi) k hv j hj).symm hkj
      · rw [if_neg hki] at hi
        rw [if_pos hkj] at hj
        exact absurd (hclean (Option.some.inj hj) k hv i hi).symm hki
      · rw [if_neg hki] at hi
        rw [if_neg hkj] at hj
        exact hl.single i j hi hj
    | _ => exact hl.single i j hi hj

theorem Doomed.moved (hl : l.Doomed) : l'.Doomed := by
  rcases hl with ⟨hne, i, j, hij, hi, hj⟩ | ⟨m, hm, i, hi, howed⟩
  · obtain ⟨m, hm⟩ := exists_mem_of_ne_nil _ hne
    exact .inl ⟨ne_nil_of_mem (arrived_moved hmv hm), i, j, hij, sampled_moved hmv hstable hi,
      sampled_moved hmv hstable hj⟩
  · refine .inr ⟨m, arrived_moved hmv hm, i, sampled_moved hmv hstable hi, ?_⟩
    rcases owed_moved h hmv hi hm with heq | ⟨heq, -⟩ <;> omega

/-- A move that is not clean cannot be made good. -/
theorem doomed_of_not_clean (hl : l.AtLeastOnce) (hclean : ¬ Clean l mv) : l'.Doomed := by
  cases hmv with
  | decide hv hi =>
    rename_i i d
    refine .inl ?_
    simp only [Clean, Classical.not_imp, not_forall] at hclean
    obtain ⟨rfl, k, hk, j, hj, hne⟩ := hclean
    obtain rfl : i = k := by simpa using hv.symm.trans hk
    refine ⟨h.visited (by simp [hv]), i, j, Ne.symm hne, ?_, ?_⟩
    · rw [Life.decide, getElem?_set_decisions hi, if_pos rfl]
    · exact stable_decide hv hi hstable hj (by simp)
  | store ht hd =>
    rename_i m j rest
    refine .inr ?_
    simp only [Clean, Classical.not_imp, not_forall, not_not] at hclean
    obtain ⟨-, i, hv⟩ := hclean
    have hvisit := h.visit
    rw [VisitMatches, hv] at hvisit
    have hm := (h.transit (m, j) (ht ▸ Multiset.mem_cons_self _ _)).1
    refine ⟨m, hm, i, hvisit.1, ?_⟩
    have hle := hl i hvisit.1 m hm
    rw [owed_store h ht hd hv]
    omega
  | leave ht hd | late ht hd | skip ht hd hp hs =>
    exact absurd (fun hpending => by rw [hd] at hpending; simp_all) hclean
  | stay | arrive | visit | read | finish => exact absurd trivial hclean

end

theorem Tidy.passed_eq (h : Sound l) (hl : l.Tidy) (hi : l.decisions[i]? = some .sampled)
    (m : Nat) : l.timesPassed m = l.passed.count (m, i) := by
  refine countP_congr fun p hp => ?_
  have hpi := hl.single p.2 i (h.passed p hp).2 hi
  obtain ⟨m', i'⟩ := p
  simp only at hpi
  simp [hpi]

theorem Tidy.atMost (h : Sound l) (hl : l.Tidy) (m : Nat) : l.timesPassed m ≤ 1 := by
  by_cases hempty : ∃ p ∈ l.passed, p.1 = m
  · obtain ⟨p, hp, rfl⟩ := hempty
    obtain ⟨hm, hi⟩ := h.passed p hp
    have howed := hl.once p.2 hi p.1 hm
    rw [hl.passed_eq h hi]
    unfold owed at howed
    omega
  · have hzero : l.timesPassed m = 0 := by
      refine countP_eq_zero.2 fun p hp heq => hempty ⟨p, hp, ?_⟩
      simpa using heq
    omega

theorem Tidy.toOnce (h : Sound l) (hl : l.Tidy) (hreviewed : l.Reviewed) : l.Once where
  atMost := hl.atMost h
  exactly hs hv m hm hout := by
    have hread : ∀ i, (if l.visit = .reading i then l.stored.count m else 0) = 0 := by
      intro i
      rcases hv with hv | htwo
      · exact if_neg (by simp [hv])
      · simp [(hreviewed (.inr htwo)).2]
    obtain ⟨i, hi, hd⟩ := getElem_of_mem hs
    have hdi : l.decisions[i]? = some .sampled := by rw [getElem?_eq_getElem hi, hd]
    have howed := hl.once i hdi m hm
    have htransit : l.transit.countP (fun p => p.1 = m ∧ p.2 ≤ i) = 0 :=
      Multiset.countP_eq_zero.2 fun p hp heq => hout p.2 (heq.1 ▸ hp)
    rw [owed, htransit, hread] at howed
    rw [hl.passed_eq h hdi]
    omega

/-- At rest, what is owed was passed on. -/
theorem not_doomed_of_once (hl : l.AtLeastOnce) (honce : l.Once) (hv : l.visit = .away)
    (ht : l.transit = 0) : ¬ l.Doomed := by
  have howed : ∀ m i, l.owed m i = l.passed.count (m, i) := by
    intro m i
    simp [owed, ht, hv]
  have hle : ∀ m i, l.passed.count (m, i) ≤ l.timesPassed m := by
    intro m i
    refine countP_mono_left fun p _ heq => ?_
    simp [eq_of_beq heq]
  rintro (⟨hne, i, j, hij, hi, hj⟩ | ⟨m, hm, i, hi, htwo⟩)
  · obtain ⟨m, hm⟩ := exists_mem_of_ne_nil _ hne
    have hpi := hl i hi m hm
    have hpj := hl j hj m hm
    rw [howed] at hpi hpj
    -- the two entries are different
    have hmi : (m, i) ∈ l.passed.filter (fun p => p.1 = m) :=
      mem_filter.2 ⟨count_pos_iff.1 hpi, by simp⟩
    have hmj : (m, j) ∈ l.passed.filter (fun p => p.1 = m) :=
      mem_filter.2 ⟨count_pos_iff.1 hpj, by simp⟩
    have hmost := honce.atMost m
    rw [timesPassed, countP_eq_length_filter] at hmost
    rcases hf : l.passed.filter (fun p => p.1 = m) with _ | ⟨p, _ | ⟨q, rest⟩⟩
    · rw [hf] at hmi
      cases hmi
    · rw [hf, mem_singleton] at hmi hmj
      exact hij (Prod.mk.inj (hmi.trans hmj.symm)).2
    · rw [hf] at hmost
      simp at hmost
  · have hmost := honce.atMost m
    have := hle m i
    rw [howed] at htwo
    omega

section

variable {n : Nat} {mvs : List Move} (hrun : runFrom step (new n) mvs = some l)
  (hsettles : Meets step Settles (new n) mvs) (hstable : Meets step Stable (new n) mvs)

include hrun hsettles hstable

/-- **A run delivers once** where its moves are clean; at rest, only then. -/
theorem once_of_clean (hclean : Meets step Clean (new n) mvs) : l.Once := by
  have hnew : Tidy (new n) := by
    refine ⟨by simp [Life.new], fun i j hi => ?_⟩
    have := mem_of_getElem? hi
    simp [Life.new] at this
  have hI : Sound l ∧ l.Tidy ∧ l.Reviewed := ((hsettles.and hstable).and hclean).invariant
    (I := fun l => Sound l ∧ l.Tidy ∧ l.Reviewed)
    (fun l mv l' hP hstep hl => by
      have hmv := moved_of_step hstep
      exact ⟨hl.1.moved hmv hP.1.1 hP.1.2, hl.2.1.moved hl.1 hmv hP.1.2 hP.2,
        hl.2.2.moved hl.1 hmv hP.1.1⟩)
    hrun ⟨Sound.new n, hnew, by simp [Reviewed, Life.new]⟩
  exact hI.2.1.toOnce hI.1 hI.2.2

theorem clean_of_once (hv : l.visit = .away) (ht : l.transit = 0) (honce : l.Once) :
    Meets step Clean (new n) mvs := by
  have hA := hsettles.and hstable
  have hkept : ∀ l mv l', Settles l mv ∧ Stable l mv → step l mv = some l' →
      Sound l ∧ l.AtLeastOnce → Sound l' ∧ l'.AtLeastOnce := by
    intro l mv l' hP hstep hl
    have hmv := moved_of_step hstep
    exact ⟨hl.1.moved hmv hP.1 hP.2, hl.2.moved hl.1 hmv hP.2⟩
  have hnew : Sound (new n) ∧ (new n).AtLeastOnce := ⟨Sound.new n, by simp [AtLeastOnce, Life.new]⟩
  have hend := hA.invariant (I := fun l => Sound l ∧ l.AtLeastOnce) hkept hrun hnew
  refine Meets.of_run (I := fun l => Sound l ∧ l.AtLeastOnce) (G := fun _ => True) hkept
    (fun _ _ _ _ _ _ _ _ => trivial)
    (fun l mv l' hP hstep hl _ hn =>
      doomed_of_not_clean hl.1 (moved_of_step hstep) hP.2 hl.2 hn)
    (fun l mv l' hP hstep hl hD => hD.moved hl.1 (moved_of_step hstep) hP.2)
    hA hrun hnew trivial (not_doomed_of_once hend.2 honce hv ht)

end

end Collector.TailSampling.Life
