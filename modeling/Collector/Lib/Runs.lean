import Mathlib.Data.List.Chain

/-!
# Runs of equal keys

A list cut where the key changes. Neighbouring runs have different keys, and where the list is
sorted by its keys, all of them have.
-/

namespace Collector.Lib

open List

/-- A run: elements with one key, of which there is a first. -/
structure KeyRun (α K : Type) where
  key : K
  first : α
  rest : List α

variable {α K : Type}

def KeyRun.members (r : KeyRun α K) : List α := r.first :: r.rest

variable [DecidableEq K] (key : α → K)

def keyRuns : List α → List (KeyRun α K)
  | [] => []
  | a :: l =>
    match keyRuns l with
    | [] => [⟨key a, a, []⟩]
    | r :: rs => if r.key = key a then ⟨r.key, a, r.members⟩ :: rs else ⟨key a, a, []⟩ :: r :: rs

theorem keyRuns_cons_cases (a : α) (l : List α) :
    (keyRuns key (a :: l) = ⟨key a, a, []⟩ :: keyRuns key l ∧
      ∀ r ∈ (keyRuns key l).head?, r.key ≠ key a) ∨
    ∃ r rs, keyRuns key l = r :: rs ∧ r.key = key a ∧
      keyRuns key (a :: l) = ⟨r.key, a, r.members⟩ :: rs := by
  cases hruns : keyRuns key l with
  | nil => exact .inl ⟨by rw [keyRuns, hruns], by simp⟩
  | cons r rs =>
    by_cases hkey : r.key = key a
    · exact .inr ⟨r, rs, rfl, hkey, by rw [keyRuns, hruns]; exact if_pos hkey⟩
    · refine .inl ⟨by rw [keyRuns, hruns]; exact if_neg hkey, fun r' hr' => ?_⟩
      cases hr'
      exact hkey

theorem flatMap_members_keyRuns (l : List α) : (keyRuns key l).flatMap KeyRun.members = l := by
  induction l with
  | nil => rfl
  | cons a l ih =>
    rcases keyRuns_cons_cases key a l with ⟨heq, -⟩ | ⟨r, rs, hl, -, heq⟩
    · rw [heq, flatMap_cons, ih]
      rfl
    · rw [hl, flatMap_cons] at ih
      rw [heq, flatMap_cons, ← ih]
      rfl

variable {key} {l : List α}

theorem key_of_mem_keyRuns {r : KeyRun α K} (hr : r ∈ keyRuns key l) {a : α}
    (ha : a ∈ r.members) : key a = r.key := by
  induction l generalizing r a with
  | nil => cases hr
  | cons b l ih =>
    rcases keyRuns_cons_cases key b l with ⟨heq, -⟩ | ⟨r', rs, hl, hkey, heq⟩
    · rw [heq] at hr
      rcases mem_cons.1 hr with rfl | hr
      · rw [mem_singleton.1 ha]
      · exact ih hr ha
    · rw [heq] at hr
      rcases mem_cons.1 hr with rfl | hr
      · rcases mem_cons.1 ha with rfl | ha
        · exact hkey.symm
        · exact ih (r := r') (hl ▸ mem_cons_self) ha
      · exact ih (hl ▸ mem_cons_of_mem _ hr) ha

theorem mem_of_mem_keyRuns {r : KeyRun α K} (hr : r ∈ keyRuns key l) {a : α}
    (ha : a ∈ r.members) : a ∈ l := by
  rw [← flatMap_members_keyRuns key l]
  exact mem_flatMap.2 ⟨r, hr, ha⟩

theorem keyRuns_eq_nil : keyRuns key l = [] ↔ l = [] := by
  constructor
  · intro h
    rw [← flatMap_members_keyRuns key l, h]
    rfl
  · rintro rfl
    rfl

theorem isChain_keyRuns (key : α → K) (l : List α) :
    (keyRuns key l).IsChain fun r r' => r.key ≠ r'.key := by
  induction l with
  | nil => exact .nil
  | cons a l ih =>
    rcases keyRuns_cons_cases key a l with ⟨heq, hne⟩ | ⟨r, rs, hl, -, heq⟩
    · rw [heq, isChain_cons]
      exact ⟨fun r hr => (hne r hr).symm, ih⟩
    · rw [hl, isChain_cons] at ih
      rw [heq, isChain_cons]
      exact ih

theorem pairwise_keyRuns [PartialOrder K] (h : l.Pairwise fun a b => key a ≤ key b) :
    (keyRuns key l).Pairwise fun r r' => r.key < r'.key := by
  induction l with
  | nil => exact .nil
  | cons a l ih =>
    obtain ⟨ha, hl⟩ := pairwise_cons.1 h
    have hruns := ih hl
    -- a run is never before its own members
    have hle : ∀ r ∈ keyRuns key l, key a ≤ r.key := by
      intro r hr
      rw [← key_of_mem_keyRuns hr mem_cons_self]
      exact ha _ (mem_of_mem_keyRuns hr mem_cons_self)
    rcases keyRuns_cons_cases key a l with ⟨heq, hne⟩ | ⟨r, rs, hrs, -, heq⟩
    · rw [heq, pairwise_cons]
      refine ⟨fun r hr => ?_, hruns⟩
      cases hl : keyRuns key l with
      | nil =>
        rw [hl] at hr
        cases hr
      | cons r' rs =>
        rw [hl] at hr hle hne hruns
        have hlt : key a < r'.key :=
          lt_of_le_of_ne (hle r' mem_cons_self) (hne r' rfl).symm
        rcases mem_cons.1 hr with rfl | hr
        · exact hlt
        · exact hlt.trans ((pairwise_cons.1 hruns).1 r hr)
    · rw [hrs] at hruns
      rw [heq, pairwise_cons]
      exact pairwise_cons.1 hruns

theorem nodup_keys_keyRuns [PartialOrder K]
    (h : l.Pairwise fun a b => key a ≤ key b) : ((keyRuns key l).map KeyRun.key).Nodup := by
  rw [List.Nodup, pairwise_map]
  exact (pairwise_keyRuns h).imp fun hlt => hlt.ne

end Collector.Lib
