import Mathlib.Data.List.Basic
import Mathlib.Order.Lattice

/-!
# Binary search

The search for the first index from which on a property holds, and the insertion
into a sorted list at the index it finds.
-/

namespace Collector.Lib

open List

/-- The loop on `[i, j)`; a length of the interval is fuel enough. -/
def searchLoop (f : Nat → Bool) : Nat → Nat → Nat → Nat
  | 0, i, _ => i
  | fuel + 1, i, j =>
    if i < j then
      if f ((i + j) / 2) then searchLoop f fuel i ((i + j) / 2)
      else searchLoop f fuel ((i + j) / 2 + 1) j
    else i

def search (n : Nat) (f : Nat → Bool) : Nat := searchLoop f n 0 n

/-- `r` is where `f` turns from false to true below `n`. -/
structure Turns (f : Nat → Bool) (n r : Nat) : Prop where
  le : r ≤ n
  below : ∀ a < r, f a = false
  above : ∀ a < n, r ≤ a → f a = true

theorem turns_searchLoop {f : Nat → Bool} {n : Nat}
    (hmono : ∀ a b, a ≤ b → b < n → f a = true → f b = true) {fuel i j : Nat} (hij : i ≤ j)
    (hfuel : j ≤ i + fuel) (hj : j ≤ n) (hbelow : ∀ a < i, f a = false)
    (habove : ∀ a < n, j ≤ a → f a = true) : Turns f n (searchLoop f fuel i j) := by
  induction fuel generalizing i j with
  | zero =>
    have hji : j = i := by omega
    subst hji
    exact ⟨hj, hbelow, habove⟩
  | succ fuel ih =>
    unfold searchLoop
    split
    · rename_i hlt
      split
      · rename_i hf
        refine ih (by omega) (by omega) (by omega) hbelow fun a ha hle => ?_
        exact hmono _ a hle ha hf
      · rename_i hf
        refine ih (by omega) (by omega) hj (fun a ha => ?_) habove
        by_contra hn
        exact hf (hmono a _ (by omega) (by omega) (by simpa using hn))
    · have hji : j = i := by omega
      subst hji
      exact ⟨hj, hbelow, habove⟩

theorem turns_search {f : Nat → Bool} {n : Nat}
    (hmono : ∀ a b, a ≤ b → b < n → f a = true → f b = true) : Turns f n (search n f) :=
  turns_searchLoop hmono (Nat.zero_le n) (by omega) (Nat.le_refl n)
    (fun a ha => absurd ha (Nat.not_lt_zero a)) fun a ha hle => absurd ha (by omega)

/-! ## Sorted lists -/

section Sorted

variable {α : Type} [LinearOrder α]

/-- The index of the first element that is not less than `x`. -/
def searchList (l : List α) (x : α) : Nat := search l.length fun i => l[i]?.any (x ≤ ·)

variable {l : List α}

theorem turns_searchList (h : l.Pairwise (· < ·)) (x : α) :
    Turns (fun i => l[i]?.any (x ≤ ·)) l.length (searchList l x) := by
  refine turns_search fun a b hab hb hx => ?_
  have ha : a < l.length := by omega
  rw [getElem?_eq_getElem ha] at hx
  rw [getElem?_eq_getElem hb]
  simp only [Option.any_some, decide_eq_true_eq] at hx ⊢
  rcases Nat.lt_or_eq_of_le hab with hlt | rfl
  · exact le_of_lt (lt_of_le_of_lt hx (pairwise_iff_getElem.1 h a b ha hb hlt))
  · exact hx

variable {x a : α}

theorem lt_of_mem_take_searchList (h : l.Pairwise (· < ·)) (ha : a ∈ l.take (searchList l x)) :
    a < x := by
  obtain ⟨hle, hbelow, -⟩ := turns_searchList h x
  obtain ⟨i, hi, rfl⟩ := getElem_of_mem ha
  rw [length_take] at hi
  have hx := hbelow i (by omega)
  rw [getElem?_eq_getElem (by omega)] at hx
  simpa using hx

theorem le_of_mem_drop_searchList (h : l.Pairwise (· < ·)) (ha : a ∈ l.drop (searchList l x)) :
    x ≤ a := by
  obtain ⟨hle, -, habove⟩ := turns_searchList h x
  obtain ⟨i, hi, rfl⟩ := getElem_of_mem ha
  rw [length_drop] at hi
  have hx := habove (searchList l x + i) (by omega) (Nat.le_add_right _ _)
  rw [getElem?_eq_getElem (by omega)] at hx
  simpa using hx

/-- The list with `x` at the index that the search finds. -/
def insertSorted (l : List α) (x : α) : List α :=
  l.take (searchList l x) ++ x :: l.drop (searchList l x)

theorem mem_insertSorted : a ∈ insertSorted l x ↔ a = x ∨ a ∈ l := by
  have hsplit : a ∈ l ↔ a ∈ l.take (searchList l x) ∨ a ∈ l.drop (searchList l x) := by
    rw [← mem_append, take_append_drop]
  rw [insertSorted, mem_append, mem_cons, hsplit]
  tauto

/-- **Inserting where the search says keeps a list sorted.** -/
theorem pairwise_insertSorted (h : l.Pairwise (· < ·)) (hx : x ∉ l) :
    (insertSorted l x).Pairwise (· < ·) := by
  have hdrop : ∀ b ∈ l.drop (searchList l x), x < b := by
    intro b hb
    refine lt_of_le_of_ne (le_of_mem_drop_searchList h hb) fun he => hx ?_
    rw [he]
    exact mem_of_mem_drop hb
  refine pairwise_append.2 ⟨h.sublist (take_sublist _ _), ?_, fun a ha b hb => ?_⟩
  · exact pairwise_cons.2 ⟨hdrop, h.sublist (drop_sublist _ _)⟩
  · have hax := lt_of_mem_take_searchList h ha
    rcases mem_cons.1 hb with rfl | hb
    · exact hax
    · exact lt_trans hax (hdrop b hb)

end Sorted

end Collector.Lib
