import Mathlib.Data.List.AList

/-!
# Filling a table

A loop that enters one value for each element of a list, and its version that
may fail. What the table holds afterwards does not depend on the order of the
list as long as the keys are distinct.
-/

namespace Collector.Lib

open List

variable {α K V ε : Type} [DecidableEq K]

/-- The table after a value was entered for each element. -/
def enter (k : α → K) (v : α → V) (m : AList fun _ : K => V) (l : List α) :
    AList fun _ : K => V :=
  l.foldl (fun m a => m.insert (k a) (v a)) m

variable {k : α → K} {l : List α}

theorem lookup_enter_of_notMem (v : α → V) (m : AList fun _ : K => V) {key : K}
    (h : key ∉ l.map k) :
    (enter k v m l).lookup key = m.lookup key := by
  induction l generalizing m with
  | nil => rfl
  | cons a l ih =>
    rw [map_cons, mem_cons, not_or] at h
    show (enter k v (m.insert (k a) (v a)) l).lookup key = _
    rw [ih _ h.2, AList.lookup_insert_ne h.1]

theorem lookup_enter_of_mem (v : α → V) (m : AList fun _ : K => V) {a : α} (hn : (l.map k).Nodup)
    (ha : a ∈ l) : (enter k v m l).lookup (k a) = some (v a) := by
  induction l generalizing m with
  | nil => cases ha
  | cons b l ih =>
    rw [map_cons, nodup_cons] at hn
    show (enter k v (m.insert (k b) (v b)) l).lookup (k a) = _
    rcases mem_cons.1 ha with rfl | ha
    · rw [lookup_enter_of_notMem v _ hn.1, AList.lookup_insert]
    · exact ih _ hn.2 ha

/-- **Reading the whole table**: it holds what was entered, and what it held before. -/
theorem entries_enter_perm (v : α → V) {m : AList fun _ : K => V} (hn : (l.map k).Nodup)
    (hm : ∀ a ∈ l, k a ∉ m) :
    (enter k v m l).entries.Perm (m.entries ++ l.map fun a => ⟨k a, v a⟩) := by
  induction l generalizing m with
  | nil => rw [map_nil, append_nil]; rfl
  | cons a l ih =>
    rw [map_cons, nodup_cons] at hn
    obtain ⟨ha, hl⟩ := forall_mem_cons.1 hm
    have hfresh : ∀ b ∈ l, k b ∉ m.insert (k a) (v a) := by
      intro b hb hmem
      rcases AList.mem_insert m |>.1 hmem with heq | hmem
      · exact hn.1 (heq ▸ mem_map_of_mem hb)
      · exact hl b hb hmem
    refine (ih hn.2 hfresh).trans ?_
    rw [AList.entries_insert_of_notMem ha]
    exact perm_middle.symm

theorem lookup_enter_self (v : K → V) {l : List K} (hn : l.Nodup) (key : K) :
    (enter id v ∅ l).lookup key = if key ∈ l then some (v key) else none := by
  rw [← map_id l] at hn
  by_cases h : key ∈ l
  · rw [if_pos h]
    exact lookup_enter_of_mem v ∅ hn h
  · rw [if_neg h, lookup_enter_of_notMem v ∅ (by rwa [map_id])]
    rfl

theorem foldlM_enter {v : α → V} {f : α → Except ε V} (h : ∀ a ∈ l, f a = .ok (v a))
    (m : AList fun _ : K => V) :
    l.foldlM (fun m a => do let b ← f a; return m.insert (k a) b) m = .ok (enter k v m l) := by
  induction l generalizing m with
  | nil => rfl
  | cons a l ih =>
    rw [foldlM_cons, h a mem_cons_self]
    exact ih (fun b hb => h b (mem_cons_of_mem _ hb)) _

end Collector.Lib
