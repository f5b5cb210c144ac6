import Mathlib.Data.List.AList
import Mathlib.Data.List.Induction

/-!
# Collating by a key

One pass over a list that keeps a table of piles: an item joins the pile of
its key, or opens it. `lookup_collateAll` reads the table back (the pile of a
key is what a filter of the list leaves) and `contents_collateAll` counts it
(the piles hold every item of the list once). `mapValues` views the piles
through a function, `firstSeen` lists keys in the order in which they come up, and
`Positions` says that a table holds the places of the keys in a list.
-/

namespace Collector.Lib

open List

variable {α K V W : Type}

def mapEntry (f : V → W) (e : (_ : K) × V) : (_ : K) × W := ⟨e.1, f e.2⟩

def mapValues (f : V → W) (m : AList fun _ : K => V) : AList fun _ : K => W where
  entries := m.entries.map (mapEntry f)
  nodupKeys := by
    have hk : (m.entries.map (mapEntry f)).keys = m.entries.keys := by
      simp [List.keys, Function.comp_def, mapEntry]
    rw [List.NodupKeys, hk]
    exact m.nodupKeys

theorem mapValues_mapValues {U : Type} (g : W → U) (f : V → W) (m : AList fun _ : K => V) :
    mapValues g (mapValues f m) = mapValues (g ∘ f) m := by
  apply AList.ext
  simp [mapValues, mapEntry, Function.comp_def]

variable [DecidableEq K]

theorem lookup_insert_new {m : AList fun _ : K => V} {k : K} (hk : m.lookup k = none) {v v' : V}
    {k' : K} : (m.insert k v).lookup k' = some v' ↔ (k' = k ∧ v = v') ∨ m.lookup k' = some v' := by
  by_cases hkey : k' = k
  · subst hkey
    simp [AList.lookup_insert, hk]
  · simp [AList.lookup_insert_ne hkey, hkey]

theorem lookup_erase_iff {m : AList fun _ : K => V} {k k' : K} {v : V} :
    (m.erase k).lookup k' = some v ↔ k' ≠ k ∧ m.lookup k' = some v := by
  by_cases hkey : k' = k
  · subst hkey
    simp [AList.lookup_erase]
  · simp [AList.lookup_erase_ne hkey, hkey]

theorem lookup_mapValues (f : V → W) (m : AList fun _ : K => V) (k : K) :
    (mapValues f m).lookup k = (m.lookup k).map f := by
  obtain ⟨l, h⟩ := m
  simp only [AList.lookup, mapValues]
  clear h
  induction l with
  | nil => rfl
  | cons e l ih =>
    obtain ⟨k', v⟩ := e
    by_cases hk : k = k'
    · subst hk; simp [mapEntry]
    · rw [map_cons, dlookup_cons_ne l ⟨k', v⟩ hk, ← ih]
      exact dlookup_cons_ne _ (mapEntry f ⟨k', v⟩) hk

theorem mapValues_insert (f : V → W) (m : AList fun _ : K => V) (k : K) (v : V) :
    mapValues f (m.insert k v) = (mapValues f m).insert k (f v) := by
  apply AList.ext
  show mapEntry f ⟨k, v⟩ :: (m.entries.kerase k).map (mapEntry f) =
    ⟨k, f v⟩ :: (m.entries.map (mapEntry f)).kerase k
  refine congrArg (List.cons _) ?_
  induction m.entries with
  | nil => rfl
  | cons e l ih =>
    by_cases hk : k = e.1
    · rw [kerase_cons_eq hk, map_cons]
      exact (kerase_cons_eq (s := mapEntry f e) hk).symm
    · rw [kerase_cons_ne hk, map_cons, map_cons, ih]
      exact (kerase_cons_ne (s := mapEntry f e) hk).symm

theorem perm_of_lookup {m : AList fun _ : K => V} {k : K} {v : V} (h : m.lookup k = some v) :
    m.entries.Perm (⟨k, v⟩ :: m.entries.kerase k) := by
  have hk : k ∈ m.entries.keys := AList.lookup_isSome.1 (by rw [h]; rfl)
  obtain ⟨w, l₁, l₂, -, he, hr⟩ := exists_of_kerase hk
  have hw : w = v := by
    have hmem : (⟨k, w⟩ : (_ : K) × V) ∈ m.entries := by rw [he]; simp
    have hw := AList.mem_lookup_iff.2 hmem
    rw [h] at hw
    exact (Option.some.inj hw).symm
  rw [hr, he, hw]
  exact perm_middle

/-! ## Piles -/

/-- What is in a pile: the item that opened it and those that joined. -/
abbrev Pile (α : Type) := α × List α

def Pile.items (b : Pile α) : List α := b.1 :: b.2

def collate (key : α → K) (m : AList fun _ : K => Pile α) (a : α) : AList fun _ : K => Pile α :=
  match m.lookup (key a) with
  | some b => m.insert (key a) (b.1, b.2 ++ [a])
  | none => m.insert (key a) (a, [])

def collateAll (key : α → K) (l : List α) : AList fun _ : K => Pile α := l.foldl (collate key) ∅

def contents (m : AList fun _ : K => Pile α) : List α := m.entries.flatMap fun e => e.2.items

def Pile.ofList : List α → Option (Pile α)
  | [] => none
  | a :: l => some (a, l)

theorem Pile.ofList_append (l : List α) (a : α) :
    Pile.ofList (l ++ [a]) = some ((Pile.ofList l).elim (a, []) fun b => (b.1, b.2 ++ [a])) := by
  cases l <;> rfl

theorem Pile.ofList_eq_some {l : List α} {b : Pile α} (h : Pile.ofList l = some b) :
    b.items = l := by
  cases l with
  | nil => cases h
  | cons a l => cases h; rfl

variable (key : α → K)

theorem lookup_collate (m : AList fun _ : K => Pile α) (a : α) (k : K) :
    (collate key m a).lookup k =
      if key a = k then some ((m.lookup k).elim (a, []) fun b => (b.1, b.2 ++ [a]))
      else m.lookup k := by
  unfold collate
  by_cases hk : key a = k
  · subst hk
    cases m.lookup (key a) <;> simp
  · have hk' : k ≠ key a := fun h => hk h.symm
    cases m.lookup (key a) <;> simp [hk, AList.lookup_insert_ne hk']

theorem lookup_collateAll (l : List α) (k : K) :
    (collateAll key l).lookup k = Pile.ofList (l.filter fun a => key a = k) := by
  induction l using List.reverseRecOn with
  | nil => rfl
  | append_singleton l a ih =>
    rw [collateAll, foldl_append]
    show (collate key (collateAll key l) a).lookup k = _
    rw [lookup_collate, ih, filter_append]
    by_cases hk : key a = k
    · simp [hk, Pile.ofList_append]
    · simp [hk]

theorem contents_collate (m : AList fun _ : K => Pile α) (a : α) :
    (contents (collate key m a)).Perm (a :: contents m) := by
  unfold collate contents
  cases h : m.lookup (key a) with
  | none =>
    have hk : key a ∉ m.entries.keys := AList.lookup_eq_none.1 h
    simp only [AList.entries_insert, kerase_of_notMem_keys hk, flatMap_cons]
    exact List.Perm.refl _
  | some b =>
    have hp := (perm_of_lookup h).flatMap_right fun e => e.2.items
    simp only [AList.entries_insert, flatMap_cons] at hp ⊢
    have hb : Pile.items (b.1, b.2 ++ [a]) = b.items ++ [a] := rfl
    rw [hb, append_assoc]
    exact perm_middle.trans ((List.Perm.cons a hp).symm)

theorem contents_collateAll (l : List α) : (contents (collateAll key l)).Perm l := by
  induction l using List.reverseRecOn with
  | nil => exact List.Perm.refl _
  | append_singleton l a ih =>
    rw [collateAll, foldl_append]
    show (contents (collate key (collateAll key l) a)).Perm _
    exact (contents_collate key _ a).trans ((ih.cons a).trans (perm_append_singleton a l).symm)

/-! ## Keys in order -/

/-- The keys of a list, each where it comes up first. -/
def firstSeen (ks : List K) : List K := ks.foldl (fun l k => if k ∈ l then l else l ++ [k]) []

theorem firstSeen_snoc (ks : List K) (k : K) :
    firstSeen (ks ++ [k]) = if k ∈ firstSeen ks then firstSeen ks else firstSeen ks ++ [k] := by
  rw [firstSeen, foldl_append]
  rfl

theorem mem_firstSeen {ks : List K} {k : K} : k ∈ firstSeen ks ↔ k ∈ ks := by
  induction ks using List.reverseRecOn with
  | nil => exact Iff.rfl
  | append_singleton ks k' ih =>
    rw [firstSeen_snoc, mem_append, ← ih, mem_singleton]
    split
    · rename_i hmem
      refine ⟨.inl, fun h => ?_⟩
      rcases h with h | rfl
      · exact h
      · exact hmem
    · rw [mem_append, mem_singleton]

theorem nodup_firstSeen (ks : List K) : (firstSeen ks).Nodup := by
  induction ks using List.reverseRecOn with
  | nil => exact nodup_nil
  | append_singleton ks k ih =>
    rw [firstSeen_snoc]
    split
    · exact ih
    · rename_i hmem
      refine nodup_append.2 ⟨ih, nodup_singleton k, fun a ha b hb he => hmem ?_⟩
      rw [← mem_singleton.1 hb, ← he]
      exact ha

/-- The table holds the position of each key in the list. -/
structure Positions (m : AList fun _ : K => Nat) (l : List K) : Prop where
  lookup : ∀ k i, m.lookup k = some i ↔ l[i]? = some k
  size : m.entries.length = l.length

theorem Positions.empty : Positions ∅ ([] : List K) := ⟨by simp, rfl⟩

theorem Positions.snoc {m : AList fun _ : K => Nat} {l : List K} (h : Positions m l) {k : K}
    (hk : k ∉ l) : Positions (m.insert k m.entries.length) (l ++ [k]) := by
  have hnew : k ∉ m := by
    intro hmem
    obtain ⟨i, hi⟩ := Option.isSome_iff_exists.1 (AList.lookup_isSome.2 hmem)
    exact hk (mem_of_getElem? ((h.lookup k i).1 hi))
  refine ⟨fun k' i => ?_, ?_⟩
  · rw [lookup_insert_new (AList.lookup_eq_none.2 hnew), h.lookup, h.size, getElem?_append]
    split
    case isTrue hi => exact or_iff_right fun he => Nat.ne_of_gt hi he.2
    case isFalse hi =>
      have hle := Nat.not_lt.1 hi
      rw [getElem?_eq_none hle, getElem?_singleton]
      by_cases he : l.length = i
      · simp [he, eq_comm]
      · have hsub : i - l.length ≠ 0 := by omega
        simp [he, hsub]
  · rw [AList.entries_insert_of_notMem hnew, length_cons, length_append, h.size,
      length_singleton]

end Collector.Lib
