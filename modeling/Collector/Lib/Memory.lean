import Mathlib.Data.List.Infix
import Mathlib.Data.List.Perm.Basic
import Mathlib.Data.List.Nodup

/-!
# Memory and footprints

Objects of several kinds, each at a place of its own. A structure in memory comes with
its footprint, the list of places it is made of. `Changes A` says that nothing but the
objects of `A` has changed, and `Rebuilds m A m' A'` that in the new memory the
footprint `A` has become `A'`: it keeps places of `A` and takes new ones, so that it
stays apart from all that it was apart from (`Rebuilds.disjoint`). Rebuilding one part
of a structure after another rebuilds the whole (`Rebuilds.frame`, `Rebuilds.trans`).
-/

namespace Collector.Lib

open List
open Function (update update_of_ne update_self)

/-- Where an object is: its kind and its number among those. -/
structure Place (K : Type) where
  kind : K
  index : Nat
  deriving DecidableEq, Repr

abbrev Memory {K : Type} (C : K → Type) := (k : K) → List (C k)

namespace Memory

variable {K : Type} {C : K → Type}

def read (m : Memory C) (x : Place K) : Option (C x.kind) := (m x.kind)[x.index]?

def Has (m : Memory C) (x : Place K) : Prop := x.index < (m x.kind).length

variable {x : Place K}

theorem has_of_read {m : Memory C} {c : C x.kind} (h : m.read x = some c) : m.Has x :=
  (List.getElem?_eq_some_iff.1 h).1

section Update

variable [DecidableEq K]

def alloc (m : Memory C) (k : K) (c : C k) : Memory C × Nat :=
  (Function.update m k (m k ++ [c]), (m k).length)

def write (m : Memory C) (x : Place K) (c : C x.kind) : Memory C :=
  Function.update m x.kind ((m x.kind).set x.index c)

theorem alloc_region (m : Memory C) (k : K) (c : C k) (k' : K) :
    m k' <+: (m.alloc k c).1 k' := by
  show m k' <+: update m k (m k ++ [c]) k'
  by_cases hk : k' = k
  · subst hk
    rw [update_self]
    exact prefix_append _ _
  · rw [update_of_ne hk]

theorem read_alloc_self (m : Memory C) (k : K) (c : C k) :
    (m.alloc k c).1.read ⟨k, (m.alloc k c).2⟩ = some c := by
  simp [read, alloc]

theorem read_alloc_eq {m m' : Memory C} {k : K} {c : C k} {i : Nat} (h : m.alloc k c = (m', i)) :
    m'.read ⟨k, i⟩ = some c := by
  have hread := read_alloc_self m k c
  rw [h] at hread
  exact hread

theorem not_has_alloc (m : Memory C) (k : K) (c : C k) : ¬ m.Has ⟨k, (m.alloc k c).2⟩ :=
  Nat.lt_irrefl _

theorem read_write_self {m : Memory C} (h : m.Has x) (c : C x.kind) :
    (m.write x c).read x = some c := by
  unfold read write
  rw [update_self, getElem?_set_self h]

theorem read_write_ne (m : Memory C) {y : Place K} (h : y ≠ x) (c : C x.kind) :
    (m.write x c).read y = m.read y := by
  obtain ⟨k, i⟩ := x
  obtain ⟨k', j⟩ := y
  unfold read write
  by_cases hk : k' = k
  · subst hk
    have hij : i ≠ j := by
      rintro rfl
      exact h rfl
    show (update m k' ((m k').set i c) k')[j]? = _
    rw [update_self, getElem?_set_ne hij]
  · show (update m k ((m k).set i c) k')[j]? = _
    rw [update_of_ne hk]

theorem has_write {m : Memory C} {y : Place K} (c : C x.kind) : (m.write x c).Has y ↔ m.Has y := by
  unfold Has write
  by_cases hk : y.kind = x.kind
  · rw [hk, update_self, length_set]
  · rw [update_of_ne hk]

end Update

/-! ## What stays as it was -/

/-- From `m` to `m'` no object has changed but those of `A`; new ones may have come. -/
structure Changes (A : List (Place K)) (m m' : Memory C) : Prop where
  has : ∀ x, m.Has x → m'.Has x
  read : ∀ x, m.Has x → x ∉ A → m'.read x = m.read x

variable {m m' m'' : Memory C} {A A' A'' B B' S : List (Place K)}

theorem Changes.refl (A : List (Place K)) (m : Memory C) : Changes A m m :=
  ⟨fun _ h => h, fun _ _ _ => rfl⟩

/-- The second change may go to objects that the first one has made. -/
theorem Changes.trans (h : Changes A m m') (h' : Changes A' m' m'')
    (hA : ∀ x ∈ A', x ∈ A ∨ ¬ m.Has x) : Changes A m m'' where
  has x hx := h'.has x (h.has x hx)
  read x hx hxA := by
    have hx' : x ∉ A' := fun hmem => (hA x hmem).elim hxA (· hx)
    rw [h'.read x (h.has x hx) hx', h.read x hx hxA]

theorem Changes.mono (h : Changes A m m') (hAB : A ⊆ B) : Changes B m m' :=
  ⟨h.has, fun x hx hxB => h.read x hx fun hxA => hxB (hAB hxA)⟩

theorem Changes.read_of_disjoint (h : Changes A m m') (hS : ∀ x ∈ S, m.Has x)
    (hd : S.Disjoint A) : ∀ x ∈ S, m'.read x = m.read x :=
  fun x hx => h.read x (hS x hx) fun hxA => hd hx hxA

/-- From `m` to `m'` the structure with the footprint `A` has become one with the footprint `A'`,
and nothing else has changed. -/
structure Rebuilds (m : Memory C) (A : List (Place K)) (m' : Memory C) (A' : List (Place K)) :
    Prop where
  changes : Changes A m m'
  origin : ∀ x ∈ A', x ∈ A ∨ ¬ m.Has x
  has : ∀ x ∈ A', m'.Has x
  nodup : A'.Nodup

namespace Rebuilds

theorem refl (hA : A.Nodup) (hm : ∀ x ∈ A, m.Has x) : Rebuilds m A m A :=
  ⟨.refl A m, fun _ hx => .inl hx, hm, hA⟩

section

variable (h : Rebuilds m A m' A')

include h

theorem trans (h' : Rebuilds m' A' m'' A'') : Rebuilds m A m'' A'' where
  changes := h.changes.trans h'.changes h.origin
  origin x hx := by
    rcases h'.origin x hx with hx | hx
    · exact h.origin x hx
    · exact .inr fun hm => hx (h.changes.has x hm)
  has := h'.has
  nodup := h'.nodup

theorem disjoint (hS : ∀ x ∈ S, m.Has x) (hd : S.Disjoint A) : S.Disjoint A' := by
  intro x hxS hxA
  rcases h.origin x hxA with hx | hx
  · exact hd hxS hx
  · exact hx (hS x hxS)

theorem frame (hB : ∀ x ∈ B, m.Has x) (hAB : (A ++ B).Nodup) :
    Rebuilds m (A ++ B) m' (A' ++ B) where
  changes := h.changes.mono (subset_append_left A B)
  origin x hx := by
    rcases mem_append.1 hx with hx | hx
    · exact (h.origin x hx).imp_left (mem_append_left B)
    · exact .inl (mem_append_right A hx)
  has x hx := by
    rcases mem_append.1 hx with hx | hx
    · exact h.has x hx
    · exact h.changes.has x (hB x hx)
  nodup := by
    obtain ⟨-, hB', hd⟩ := nodup_append'.1 hAB
    have hd' := h.disjoint hB (List.disjoint_comm.1 hd)
    exact nodup_append'.2 ⟨h.nodup, hB', List.disjoint_comm.1 hd'⟩

theorem perm (hA : A.Perm B) (hA' : A'.Perm B') : Rebuilds m B m' B' where
  changes := h.changes.mono hA.subset
  origin x hx := (h.origin x (hA'.mem_iff.2 hx)).imp_left hA.mem_iff.1
  has x hx := h.has x (hA'.mem_iff.2 hx)
  nodup := hA'.nodup_iff.1 h.nodup

theorem frame_left (hB : ∀ x ∈ B, m.Has x) (hBA : (B ++ A).Nodup) :
    Rebuilds m (B ++ A) m' (B ++ A') := by
  have hswap : (B ++ A).Perm (A ++ B) := perm_append_comm
  exact (h.frame hB (hswap.nodup_iff.1 hBA)).perm hswap.symm perm_append_comm

theorem drop (hA : A''.Sublist A') : Rebuilds m A m' A'' :=
  ⟨h.changes, fun x hx => h.origin x (hA.subset hx), fun x hx => h.has x (hA.subset hx),
    h.nodup.sublist hA⟩

theorem grow (hAB : A ⊆ B) : Rebuilds m B m' A' :=
  ⟨h.changes.mono hAB, fun x hx => (h.origin x hx).imp_left fun hx => hAB hx, h.has, h.nodup⟩

theorem append (h' : Rebuilds m' B m'' B') (hB : ∀ x ∈ B, m.Has x)
    (hAB : (A ++ B).Nodup) : Rebuilds m (A ++ B) m'' (A' ++ B') := by
  have hframe := h.frame hB hAB
  exact hframe.trans (h'.frame_left h.has hframe.nodup)

end

theorem alloc [DecidableEq K] (m : Memory C) (k : K) (c : C k) :
    Rebuilds m [] (m.alloc k c).1 [⟨k, (m.alloc k c).2⟩] where
  changes := by
    refine ⟨fun x hx => Nat.lt_of_lt_of_le hx (alloc_region m k c x.kind).length_le,
      fun x hx _ => ?_⟩
    obtain ⟨rest, hrest⟩ := alloc_region m k c x.kind
    unfold Memory.read
    rw [← hrest, getElem?_append_left hx]
  origin x hx := by
    obtain rfl := mem_singleton.1 hx
    exact .inr (not_has_alloc m k c)
  has x hx := by
    obtain rfl := mem_singleton.1 hx
    exact has_of_read (read_alloc_self m k c)
  nodup := nodup_singleton _

theorem alloc_eq [DecidableEq K] {k : K} {c : C k} {i : Nat} (h : m.alloc k c = (m', i)) :
    Rebuilds m [] m' [⟨k, i⟩] := by
  have hb := alloc m k c
  rw [h] at hb
  exact hb

theorem alloc_trans [DecidableEq K] {k : K} {c : C k} {i : Nat} (hm' : m.alloc k c = (m', i))
    (h : Rebuilds m' A m'' A') (hA : A.Nodup) (hm : ∀ x ∈ A, m.Has x) : Rebuilds m A m'' A' :=
  (((alloc_eq hm').frame hm hA).drop (sublist_append_right _ A)).trans h

theorem write [DecidableEq K] (hx : m.Has x) (c : C x.kind) : Rebuilds m [x] (m.write x c) [x] where
  changes := ⟨fun y hy => (has_write c).2 hy, fun y _ hy =>
    read_write_ne m (fun he => hy (mem_singleton.2 he)) c⟩
  origin _ hy := .inl hy
  has y hy := by
    obtain rfl := mem_singleton.1 hy
    exact (has_write c).2 hx
  nodup := nodup_singleton x

theorem write_frame [DecidableEq K] (c : C x.kind) (hA : (x :: A).Nodup)
    (hm : ∀ y ∈ x :: A, m.Has y) : Rebuilds m (x :: A) (m.write x c) (x :: A) :=
  (write (hm x mem_cons_self) c).frame (fun y hy => hm y (mem_cons_of_mem x hy)) hA

theorem replace [DecidableEq K] (h : Rebuilds m [] m' A') (hx : m.Has x) (c : C x.kind) :
    Rebuilds m [x] (m'.write x c) (x :: A') := by
  have hframe : Rebuilds m [x] m' (x :: A') :=
    h.frame_left (forall_mem_singleton.2 hx) (nodup_singleton x)
  exact hframe.trans (write_frame c hframe.nodup hframe.has)

end Rebuilds

theorem read_write_of_nodup [DecidableEq K] (h : (x :: A).Nodup) (c : C x.kind) :
    ∀ y ∈ A, (m.write x c).read y = m.read y := by
  intro y hy
  refine read_write_ne m ?_ c
  rintro rfl
  exact (nodup_cons.1 h).1 hy

theorem Rebuilds.replace_kept [DecidableEq K] (h : Rebuilds m [] m' A') (hx : m.Has x)
    (c : C x.kind) : Rebuilds m [x] (m'.write x c) (x :: A') ∧
      (m'.write x c).read x = some c ∧ ∀ y ∈ A', (m'.write x c).read y = m'.read y :=
  ⟨h.replace hx c, read_write_self (h.changes.has x hx) c,
    read_write_of_nodup (h.replace hx c).nodup c⟩

end Memory

end Collector.Lib
