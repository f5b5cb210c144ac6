import Mathlib.Algebra.Order.Group.Multiset
import Mathlib.Tactic.Abel

/-!
# Handing over by copy and removal

Items arrive, are stored, and leave the store in two steps that do not happen at once: a copy of
the whole store is taken and handed over, and later the store is emptied. `Depot` is what there is
at one moment, `Move` what can happen, with the condition under which it does no harm. While a
removal is owed nothing may be stored, as the removal would take it away, and no second copy may be
taken, as both would be handed over.

`Depot.Sound` is what harmless moves keep: every item is somewhere and none is handed over twice. A
move that does harm leaves the depot `Doomed`, and no later move mends that.
-/

namespace Collector.Lib

open Multiset

variable {E : Type}

@[ext]
structure Depot (E : Type) where
  /-- Everything that has arrived. -/
  received : Multiset E
  /-- What has arrived and is about to be stored. -/
  inHand : Multiset E
  stored : Multiset E
  /-- Copies of the store that are not handed over yet. -/
  held : Multiset E
  sent : Multiset E
  /-- The removals that are still to come. -/
  owed : Nat

namespace Depot

/-- What can happen, and when it does no harm. -/
inductive Move : Prop → Depot E → Depot E → Prop where
  | stay {c : Depot E} : Move True c c
  | arrive {c : Depot E} (m : Multiset E) :
    Move True c { c with received := c.received + m, inHand := c.inHand + m }
  /-- Items arrive that nobody takes in hand. -/
  | miss {c : Depot E} (m : Multiset E) : Move (m = 0) c { c with received := c.received + m }
  /-- What is in hand will not be stored any more. -/
  | lose {c : Depot E} : Move (c.inHand = 0) c { c with inHand := 0 }
  | store {c : Depot E} (m rest : Multiset E) (h : c.inHand = rest + m) :
    Move (c.owed = 0 ∨ m = 0) c { c with inHand := rest, stored := c.stored + m }
  | copy {c : Depot E} (h : c.stored ≠ 0) :
    Move (c.owed = 0) c { c with held := c.held + c.stored, owed := c.owed + 1 }
  | hand {c : Depot E} (m rest : Multiset E) (h : c.held = rest + m) :
    Move True c { c with held := rest, sent := c.sent + m }
  /-- A removal comes after the copy was handed over. -/
  | remove {c : Depot E} (n : Nat) (h : c.owed = n + 1) (hlast : n = 0 → c.held = 0) :
    Move True c { c with stored := 0, owed := n }

variable {p : Prop} {c c' : Depot E}

theorem Move.iff {q : Prop} (h : p ↔ q) (hmove : Move p c c') : Move q c c' :=
  propext h ▸ hmove

theorem Move.to {c'' : Depot E} (h : Move p c c') (heq : c'' = c') : Move p c c'' := heq ▸ h

/-! ## Harmless moves -/

structure Sound (c : Depot E) : Prop where
  owed_le : c.owed ≤ 1
  idle : c.owed = 0 → c.held = 0 ∧ c.received = c.inHand + c.stored + c.sent
  busy : c.owed = 1 → c.received = c.inHand + (c.held + c.sent) ∧ c.held ≤ c.stored ∧
    c.stored ≤ c.held + c.sent ∧ c.stored ≠ 0

theorem Sound.owed_eq (h : c.Sound) : c.owed = 0 ∨ c.owed = 1 := by
  have := h.owed_le
  omega

theorem Sound.move (h : c.Sound) (hmove : Move p c c') (hp : p) : c'.Sound := by
  cases hmove with
  | stay => exact h
  | arrive m =>
    refine ⟨h.owed_le, fun hzero => ?_, fun hone => ?_⟩
    · obtain ⟨hheld, hall⟩ := h.idle hzero
      refine ⟨hheld, ?_⟩
      dsimp only
      rw [hall]
      abel
    · obtain ⟨hall, hrest⟩ := h.busy hone
      refine ⟨?_, hrest⟩
      dsimp only
      rw [hall]
      abel
  | miss m =>
    rw [hp, add_zero]
    exact h
  | lose =>
    rw [← hp]
    exact h
  | store m rest hhand =>
    refine ⟨h.owed_le, fun hzero => ?_, fun hone => ?_⟩
    · obtain ⟨hheld, hall⟩ := h.idle hzero
      refine ⟨hheld, ?_⟩
      dsimp only
      rw [hall, hhand]
      abel
    · have hm : m = 0 := hp.resolve_left fun hzero => by
        rw [hzero] at hone
        cases hone
      rw [hm, add_zero] at hhand ⊢
      rw [← hhand]
      exact h.busy hone
  | copy hne =>
    obtain ⟨hheld, hall⟩ := h.idle hp
    refine ⟨by dsimp only; omega, fun hzero => (by cases hzero), fun _ => ?_⟩
    rw [hheld, zero_add]
    exact ⟨by rw [hall, add_assoc], le_refl _, le_add_of_nonneg_right (zero_le _), hne⟩
  | hand m rest hhold =>
    refine ⟨h.owed_le, fun hzero => ?_, fun hone => ?_⟩
    · obtain ⟨hheld, hall⟩ := h.idle hzero
      rw [hhold] at hheld
      have hrest : rest = 0 := le_zero.1 (hheld ▸ le_add_right rest m)
      have hm : m = 0 := le_zero.1 (hheld ▸ le_add_left m rest)
      exact ⟨hrest, by dsimp only; rw [hm, add_zero]; exact hall⟩
    · obtain ⟨hall, hle, hsub, hne⟩ := h.busy hone
      have hsum : rest + (c.sent + m) = c.held + c.sent := by
        rw [hhold]
        abel
      refine ⟨?_, ?_, ?_, hne⟩
      · rw [hsum]
        exact hall
      · exact le_trans (by rw [hhold]; exact le_add_of_nonneg_right (zero_le _)) hle
      · rw [hsum]
        exact hsub
  | remove n howed hlast =>
    have hle := h.owed_le
    have hn : n = 0 := by omega
    obtain ⟨hall, -⟩ := h.busy (by omega)
    refine ⟨by dsimp only; omega, fun _ => ⟨hlast hn, ?_⟩, fun hone => absurd hn (by
      dsimp only at hone; omega)⟩
    rw [hall, hlast hn, zero_add, add_zero]

/-- **In a sound depot every item is somewhere, and none is handed over twice.** -/
theorem Sound.covered (h : c.Sound) :
    c.received ≤ c.inHand + c.stored + c.sent ∧ c.held + c.sent ≤ c.received := by
  rcases h.owed_eq with hzero | hone
  · obtain ⟨hheld, hall⟩ := h.idle hzero
    refine ⟨le_of_eq hall, ?_⟩
    rw [hheld, hall, zero_add]
    exact le_add_of_nonneg_left (zero_le _)
  · obtain ⟨hall, hle, -, -⟩ := h.busy hone
    rw [hall]
    refine ⟨?_, le_add_of_nonneg_left (zero_le _)⟩
    rw [add_assoc]
    exact add_le_add_right (add_le_add_left hle _) _

/-! ## Harm -/

/-- The item has left the hand, and no copy has it. -/
def Uncopied (c : Depot E) (x : E) : Prop := x ∈ c.received ∧ x ∉ c.inHand ∧ x ∉ c.held + c.sent

/-- An item will be missing or handed over twice, unless equal items have arrived: an item that was
not copied waits for a removal together with one that was, an item was copied twice, or one that
was not copied is not stored either. -/
def Doomed (c : Depot E) : Prop :=
  ¬ c.received.Nodup ∨
    (0 < c.owed ∧ (∃ x ∈ c.stored, c.Uncopied x) ∧ ∃ y ∈ c.stored, y ∈ c.held + c.sent) ∨
    ¬ (c.held + c.sent).Nodup ∨
    ∃ x, c.Uncopied x ∧ x ∉ c.stored

theorem Move.received_le (h : Move p c c') : c.received ≤ c'.received := by
  cases h with
  | arrive | miss => exact le_add_right _ _
  | stay | lose | store | copy | hand | remove => exact le_refl _

theorem hand_copies {m rest : Multiset E} (h : c.held = rest + m) :
    rest + (c.sent + m) = c.held + c.sent := by
  rw [h]
  abel

theorem Move.copies_le (h : Move p c c') : c.held + c.sent ≤ c'.held + c'.sent := by
  cases h with
  | hand _ _ hhold => exact le_of_eq (hand_copies hhold).symm
  | copy => exact add_le_add_left (le_add_right _ _) _
  | stay | arrive | miss | lose | store | remove => exact le_refl _

theorem Uncopied.move {x : E} (h : c.Uncopied x) (hmove : Move p c c') (hnodup : c'.received.Nodup)
    (hcopy : x ∈ c.stored → c'.owed ≤ c.owed) : c'.Uncopied x := by
  obtain ⟨hx, hhand, hcopies⟩ := h
  cases hmove with
  | stay | remove => exact ⟨hx, hhand, hcopies⟩
  | arrive m =>
    have hm : x ∉ m := fun hm => disjoint_left.1 (nodup_add.1 hnodup).2.2 hx hm
    refine ⟨mem_add.2 (.inl hx), fun hmem => ?_, hcopies⟩
    exact (mem_add.1 hmem).elim hhand hm
  | miss => exact ⟨mem_add.2 (.inl hx), hhand, hcopies⟩
  | lose => exact ⟨hx, notMem_zero x, hcopies⟩
  | store m rest hrest =>
    refine ⟨hx, fun hmem => hhand ?_, hcopies⟩
    rw [hrest]
    exact mem_add.2 (.inl hmem)
  | copy =>
    have hstored : x ∉ c.stored := fun hmem => Nat.not_succ_le_self _ (hcopy hmem)
    refine ⟨hx, hhand, fun hmem => ?_⟩
    simp only [mem_add] at hmem hcopies
    tauto
  | hand m rest hhold =>
    refine ⟨hx, hhand, ?_⟩
    rw [hand_copies hhold]
    exact hcopies

theorem not_nodup_of_copied {y : E} (hy : y ∈ c.stored) (hycopied : y ∈ c.held + c.sent) :
    ¬ (c.held + c.stored + c.sent).Nodup := by
  have hsplit : c.held + c.stored + c.sent = c.held + c.sent + c.stored := by abel
  rw [hsplit]
  exact fun hcopies => disjoint_left.1 (nodup_add.1 hcopies).2.2 hycopied hy

theorem Doomed.move (h : c.Doomed) (hmove : Move p c c') : c'.Doomed := by
  by_cases hnodup : c'.received.Nodup
  swap
  · exact .inl hnodup
  rcases h with hdup | ⟨howed, ⟨x, hx, huncopied⟩, y, hy, hycopied⟩ | htwice | ⟨x, huncopied, hx⟩
  · exact .inl fun h => hdup (nodup_of_le hmove.received_le h)
  · by_cases hless : c'.owed ≤ c.owed
    · have hstays := huncopied.move hmove hnodup fun _ => hless
      have hycopied' := mem_of_le hmove.copies_le hycopied
      cases hmove with
      | store m => exact .inr (.inl ⟨howed, ⟨x, mem_add.2 (.inl hx), hstays⟩, y,
          mem_add.2 (.inl hy), hycopied'⟩)
      | remove => exact .inr (.inr (.inr ⟨x, hstays, notMem_zero x⟩))
      | copy => exact absurd hless (Nat.not_succ_le_self _)
      | stay | arrive | miss | lose | hand =>
        exact .inr (.inl ⟨howed, ⟨x, hx, hstays⟩, y, hy, hycopied'⟩)
    · -- the second copy
      cases hmove with
      | copy =>
        exact .inr (.inr (.inl (not_nodup_of_copied hy hycopied)))
      | remove n hn =>
        dsimp only at hless
        omega
      | stay | arrive | miss | lose | store | hand => exact absurd (le_refl _) hless
  · exact .inr (.inr (.inl fun h => htwice (nodup_of_le hmove.copies_le h)))
  · have hstays := huncopied.move hmove hnodup fun h => absurd h hx
    refine .inr (.inr (.inr ⟨x, hstays, fun hmem => hx ?_⟩))
    cases hmove with
    | store m rest hrest =>
      refine (mem_add.1 hmem).resolve_right fun hm => huncopied.2.1 ?_
      rw [hrest]
      exact mem_add.2 (.inr hm)
    | remove => exact absurd hmem (notMem_zero x)
    | stay | arrive | miss | lose | copy | hand => exact hmem

theorem Sound.le_received (h : c.Sound) : c.inHand ≤ c.received ∧ c.stored ≤ c.received := by
  rcases h.owed_eq with hzero | hone
  · obtain ⟨-, hall⟩ := h.idle hzero
    rw [hall, add_assoc]
    exact ⟨le_add_right _ _,
      le_trans (le_add_right _ _) (le_add_left _ _)⟩
  · obtain ⟨hall, -, hsub, -⟩ := h.busy hone
    rw [hall]
    exact ⟨le_add_right _ _, le_trans hsub (le_add_left _ _)⟩

theorem Sound.disjoint_inHand (h : c.Sound) (hnodup : c.received.Nodup) :
    c.inHand.Nodup ∧ Disjoint c.inHand (c.held + c.sent) ∧ Disjoint c.inHand c.stored := by
  rcases h.owed_eq with hzero | hone
  · obtain ⟨hheld, hall⟩ := h.idle hzero
    rw [hall, add_assoc] at hnodup
    obtain ⟨hhand, -, hdisjoint⟩ := nodup_add.1 hnodup
    rw [hheld, zero_add]
    obtain ⟨hstored, hsent⟩ := disjoint_add_right.1 hdisjoint
    exact ⟨hhand, hsent, hstored⟩
  · obtain ⟨hall, -, hsub, -⟩ := h.busy hone
    rw [hall] at hnodup
    obtain ⟨hhand, -, hdisjoint⟩ := nodup_add.1 hnodup
    exact ⟨hhand, hdisjoint, hdisjoint.mono_right hsub⟩

theorem Sound.doomed (h : c.Sound) (hmove : Move p c c') (hp : ¬ p) : c'.Doomed := by
  by_cases hnodup : c'.received.Nodup
  swap
  · exact .inl hnodup
  obtain ⟨hhand, hcopies, hstored⟩ :=
    h.disjoint_inHand (nodup_of_le hmove.received_le hnodup)
  obtain ⟨hhandle, hstoredle⟩ := h.le_received
  -- a copy is owed a removal, and the store is what was copied
  have hbusy : c.owed ≠ 0 → c.stored ≤ c.held + c.sent ∧ ∃ y, y ∈ c.stored := fun hne => by
    obtain ⟨-, -, hsub, hy⟩ := h.busy (h.owed_eq.resolve_left hne)
    exact ⟨hsub, exists_mem_of_ne_zero hy⟩
  cases hmove with
  | stay | arrive | hand | remove => exact absurd trivial hp
  | miss m =>
    obtain ⟨x, hx⟩ := exists_mem_of_ne_zero hp
    have hnew : x ∉ c.received := fun hmem =>
      disjoint_left.1 (nodup_add.1 hnodup).2.2 hmem hx
    refine .inr (.inr (.inr ⟨x, ⟨mem_add.2 (.inr hx), ?_, ?_⟩, ?_⟩))
    · exact fun hmem => hnew (mem_of_le hhandle hmem)
    · exact fun hmem => hnew (mem_of_le h.covered.2 hmem)
    · exact fun hmem => hnew (mem_of_le hstoredle hmem)
  | lose =>
    obtain ⟨x, hx⟩ := exists_mem_of_ne_zero hp
    exact .inr (.inr (.inr ⟨x, ⟨mem_of_le hhandle hx, notMem_zero x,
      disjoint_left.1 hcopies hx⟩, disjoint_left.1 hstored hx⟩))
  | store m rest hrest =>
    obtain ⟨howed, hm⟩ := not_or.1 hp
    obtain ⟨x, hx⟩ := exists_mem_of_ne_zero hm
    obtain ⟨hsub, y, hy⟩ := hbusy howed
    have hxhand : x ∈ c.inHand := by
      rw [hrest]
      exact mem_add.2 (.inr hx)
    rw [hrest] at hhand
    refine .inr (.inl ⟨Nat.pos_of_ne_zero howed, ⟨x, mem_add.2 (.inr hx),
      mem_of_le hhandle hxhand, ?_, disjoint_left.1 hcopies hxhand⟩,
      y, mem_add.2 (.inl hy), mem_of_le hsub hy⟩)
    exact fun hmem => disjoint_left.1 (nodup_add.1 hhand).2.2 hmem hx
  | copy =>
    obtain ⟨hsub, y, hy⟩ := hbusy hp
    exact .inr (.inr (.inl (not_nodup_of_copied hy (mem_of_le hsub hy))))

theorem Doomed.at_rest (h : c.Doomed) (howed : c.owed = 0) (hheld : c.held = 0)
    (hnodup : c.received.Nodup) :
    ¬ (c.received ≤ c.inHand + c.stored + c.sent ∧ c.sent ≤ c.received) := by
  rintro ⟨hcovered, hsent⟩
  rcases h with hdup | ⟨hpos, -⟩ | htwice | ⟨x, ⟨hx, hhand, hcopies⟩, hstored⟩
  · exact hdup hnodup
  · omega
  · rw [hheld, zero_add] at htwice
    exact htwice (nodup_of_le hsent hnodup)
  · rw [hheld, zero_add] at hcopies
    have hmem := mem_of_le hcovered hx
    simp only [mem_add] at hmem
    tauto

end Depot

end Collector.Lib
