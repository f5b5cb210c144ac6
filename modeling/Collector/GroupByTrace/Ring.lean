import Mathlib.Data.Nat.ModEq
import Collector.GroupByTrace.Storage
import Collector.Lib.Collate

/-!
# The ring buffer over its history

What the ring buffer holds is told by the calls that were made, the last one first: the put with
the number `p` goes to the slot `p % size`, so an id is overwritten by the put that comes `size`
puts after its own.
-/

namespace Collector.GroupByTrace.RingBuffer

open Lib List

variable {K : Type} [DecidableEq K]

inductive Call (K : Type) where
  | put (id : K)
  | delete (id : K)

/-- The puts since the last one of the id, which was not deleted after it. -/
def age (id : K) : List (Call K) → Option Nat
  | [] => none
  | .put id' :: calls => if id' = id then some 0 else (age id calls).map (· + 1)
  | .delete id' :: calls => if id' = id then none else age id calls

def puts : List (Call K) → Nat
  | [] => 0
  | .put _ :: calls => puts calls + 1
  | .delete _ :: calls => puts calls

/-- The buffer after these calls, which put only ids that it did not contain. -/
inductive Reached (size : Nat) : List (Call K) → RingBuffer K → Prop where
  | new : Reached size [] (newRingBuffer size)
  | put {calls : List (Call K)} {r r' : RingBuffer K} {id : K} {evicted : Option K}
    (h : Reached size calls r) (hnew : r.contains id = false)
    (hput : r.put id = .ok (r', evicted)) : Reached size (.put id :: calls) r'
  | delete {calls : List (Call K)} {r : RingBuffer K} (h : Reached size calls r) (id : K) :
    Reached size (.delete id :: calls) (r.delete id).1

/-- The map and the slots hold the same ids at the same places. -/
def Linked (r : RingBuffer K) : Prop :=
  ∀ id i, r.idToIndex.lookup id = some i ↔ r.ids[i]? = some (some id)

structure Consistent (size : Nat) (calls : List (Call K)) (r : RingBuffer K) : Prop where
  size_eq : r.size = size
  length : r.ids.length = size
  index : (r.index + 1).toNat % size = puts calls % size
  linked : r.Linked
  slot : ∀ id (i : Nat), r.ids[i]? = some (some id) ↔
    ∃ n < size, age id calls = some n ∧ ∃ p, p + (n + 1) = puts calls ∧ p % size = i

variable {size : Nat} {calls : List (Call K)} {r : RingBuffer K} {id : K}

theorem age_put : age id (.put id :: calls) = some 0 := if_pos rfl

theorem age_put_ne {k : K} (h : id ≠ k) : age k (.put id :: calls) = (age k calls).map (· + 1) :=
  if_neg h

theorem exists_of_age {n : Nat} (h : age id calls = some n) : ∃ p, p + (n + 1) = puts calls := by
  induction calls generalizing n with
  | nil => cases h
  | cons call calls ih =>
    cases call with
    | put id' =>
      by_cases hid : id' = id
      · subst hid
        cases age_put.symm.trans h
        exact ⟨puts calls, rfl⟩
      · rw [age_put_ne hid] at h
        obtain ⟨n, hn, rfl⟩ := Option.map_eq_some_iff.1 h
        obtain ⟨p, hp⟩ := ih hn
        exact ⟨p, congrArg (· + 1) hp⟩
    | delete id' => exact ih (Option.ite_none_left_eq_some.1 h).2

theorem mod_eq_iff {p n : Nat} (hn : n < size) :
    p % size = (p + (n + 1)) % size ↔ n + 1 = size := by
  constructor
  · intro h
    have hdvd := (Nat.modEq_iff_dvd' (Nat.le_add_right p (n + 1))).1 h
    rw [Nat.add_sub_cancel_left] at hdvd
    exact le_antisymm hn (Nat.le_of_dvd n.succ_pos hdvd)
  · rintro rfl
    exact (Nat.add_mod_right _ _).symm

theorem Linked.contains_iff (h : r.Linked) :
    r.contains id = true ↔ ∃ i : Nat, r.ids[i]? = some (some id) := by
  simp [contains, Option.isSome_iff_exists, h id]

theorem Linked.eq_iff {k : K} {i j : Nat} (h : r.Linked) (hi : r.ids[i]? = some (some id))
    (hj : r.ids[j]? = some (some k)) : k = id ↔ j = i := by
  constructor
  · rintro rfl
    exact Option.some.inj (((h k j).2 hj).symm.trans ((h k i).2 hi))
  · rintro rfl
    exact Option.some.inj (Option.some.inj (hj.symm.trans hi))

theorem Linked.delete (h : r.Linked) (id : K) : (r.delete id).1.Linked ∧
    ∀ k (j : Nat), (r.delete id).1.ids[j]? = some (some k) ↔
      k ≠ id ∧ r.ids[j]? = some (some k) := by
  unfold RingBuffer.delete
  split
  case h_1 hnone =>
    refine ⟨h, fun k j => ⟨fun hj => ⟨?_, hj⟩, And.right⟩⟩
    rintro rfl
    cases hnone.symm.trans ((h k j).2 hj)
  case h_2 i hi =>
    have hslot : ∀ k (j : Nat), (r.ids.set i none)[j]? = some (some k) ↔
        k ≠ id ∧ r.ids[j]? = some (some k) := by
      intro k j
      have hij := h.eq_iff (k := k) (j := j) ((h id i).1 hi)
      rw [getElem?_set]
      split <;> grind
    refine ⟨fun k j => ?_, hslot⟩
    rw [lookup_erase_iff, h k j]
    exact (hslot k j).symm

theorem Linked.put_eq (h : r.Linked) (hsize : 0 < r.size) (hlen : r.ids.length = r.size) (id : K) :
    ∃ (i : Nat) (evicted : Option K) (m : GoMap K Nat), i = (r.index + 1).toNat % r.size ∧
      r.ids[i]? = some evicted ∧
      (∀ k j, m.lookup k = some j ↔ j ≠ i ∧ r.idToIndex.lookup k = some j) ∧
      r.put id = .ok (⟨i, r.size, r.ids.set i (some id), m.insert id i⟩, evicted) := by
  let i := (r.index + 1).toNat % r.size
  obtain ⟨evicted, he⟩ : ∃ evicted, r.ids[i]? = some evicted :=
    ⟨_, getElem?_eq_getElem (hlen ▸ Nat.mod_lt _ hsize)⟩
  unfold RingBuffer.put
  rw [if_neg hsize.ne']
  cases evicted with
  | none =>
    refine ⟨i, none, r.idToIndex, rfl, he, fun k j => ?_, by simp [i, he]⟩
    refine ⟨fun hk => ⟨?_, hk⟩, And.right⟩
    rintro rfl
    cases he.symm.trans ((h k i).1 hk)
  | some old =>
    have hold := (h old i).2 he
    refine ⟨i, some old, r.idToIndex.erase old, rfl, he, fun k j => ?_, ?_⟩
    · rw [lookup_erase_iff]
      exact and_congr_left fun hk => not_congr (h.eq_iff he ((h k j).1 hk))
    · simp [i, he, RingBuffer.delete, hold, set_set]

theorem Consistent.put (h : Consistent size calls r) (hsize : 0 < size)
    (hnew : r.contains id = false) :
    ∃ (i : Nat) (r' : RingBuffer K) (evicted : Option K), r.put id = .ok (r', evicted) ∧
      Consistent size (.put id :: calls) r' ∧
      r.ids[i]? = some evicted ∧ r'.ids = r.ids.set i (some id) := by
  obtain ⟨i, evicted, m, hi, hevicted, hm, hput⟩ :=
    h.linked.put_eq (h.size_eq ▸ hsize) (h.length.trans h.size_eq.symm) id
  rw [h.size_eq, h.index] at hi
  have hilt : i < r.ids.length := (List.getElem?_eq_some_iff.1 hevicted).1
  have hid : ∀ j : Nat, r.ids[j]? ≠ some (some id) := by
    intro j hj
    rw [h.linked.contains_iff.2 ⟨j, hj⟩] at hnew
    cases hnew
  have hmid : m.lookup id = none := by
    rw [Option.eq_none_iff_forall_ne_some]
    exact fun j hj => hid j ((h.linked id j).1 ((hm id j).1 hj).2)
  have hset : ∀ k (j : Nat), (r.ids.set i (some id))[j]? = some (some k) ↔
      (k = id ∧ i = j) ∨ (j ≠ i ∧ r.ids[j]? = some (some k)) := by
    intro k j
    rw [getElem?_set]
    by_cases hij : i = j
    · subst hij
      simp [hilt, eq_comm]
    · simp [hij, Ne.symm hij]
  have hover : ∀ {n p : Nat}, n < size → p + (n + 1) = puts calls →
      (p % size = i ↔ n + 1 = size) := by
    intro n p hn hp
    rw [hi, ← hp, mod_eq_iff hn]
  refine ⟨i, _, evicted, hput, ⟨h.size_eq, ?_, ?_, ?_, ?_⟩, hevicted, rfl⟩
  · rw [length_set, h.length]
  · show ((i : Int) + 1).toNat % size = (puts calls + 1) % size
    rw [hi, Int.toNat_natCast_add_one, Nat.mod_add_mod]
  · intro k j
    show (m.insert id i).lookup k = some j ↔ _
    rw [lookup_insert_new hmid, hm, h.linked k j, hset]
  · intro k j
    rw [hset]
    by_cases hk : k = id
    · subst hk
      simp only [age_put, hid j, and_false, or_false, true_and]
      constructor
      · rintro rfl
        exact ⟨0, hsize, rfl, puts calls, rfl, hi.symm⟩
      · rintro ⟨n, -, hn, p, hp, rfl⟩
        cases hn
        cases hp
        exact hi
    · rw [h.slot, age_put_ne (Ne.symm hk)]
      constructor
      · rintro (⟨hid', -⟩ | ⟨hj, n, hn, hage, p, hp, rfl⟩)
        · exact absurd hid' hk
        · have hlast := mt (hover hn hp).2 hj
          exact ⟨n + 1, by omega, by rw [hage]; rfl, p, congrArg (· + 1) hp, rfl⟩
      · rintro ⟨m, hm, hage, p, hp, rfl⟩
        obtain ⟨n, hn, rfl⟩ := Option.map_eq_some_iff.1 hage
        have hp' : p + (n + 1) = puts calls := Nat.succ.inj hp
        have hlt : n < size := Nat.lt_of_succ_lt hm
        exact .inr ⟨mt (hover hlt hp').1 hm.ne, n, hlt, hn, p, hp', rfl⟩

theorem Reached.consistent (hsize : 0 < size) (h : Reached size calls r) :
    Consistent size calls r := by
  induction h with
  | new =>
    constructor <;> simp [newRingBuffer, Linked, age, puts, getElem?_replicate]
  | put _ hnew hput ih =>
    obtain ⟨i, r', evicted, heq, hr, -⟩ := ih.put hsize hnew
    rw [hput] at heq
    cases heq
    exact hr
  | @delete calls r _ id ih =>
    obtain ⟨hlinked, hslot⟩ := ih.linked.delete id
    have hrest : (r.delete id).1.size = r.size ∧ (r.delete id).1.index = r.index ∧
        (r.delete id).1.ids.length = r.ids.length := by
      unfold RingBuffer.delete
      split <;> simp
    refine ⟨hrest.1.trans ih.size_eq, hrest.2.2.trans ih.length, ?_, hlinked, fun k i => ?_⟩
    · rw [hrest.2.1]
      exact ih.index
    · rw [hslot, ih.slot]
      grind [age, puts]

/-- An id is contained while fewer than `size` puts came after its own and no delete. A put gives
back what the slot that it overwrites held, and the map gives the slot of each id. -/
theorem ring_consistent (hsize : 0 < size) (hr : Reached size calls r) :
    (∀ id, r.contains id = true ↔ ∃ n < size, age id calls = some n) ∧
    (∀ id, r.contains id = false →
      ∃ (i : Nat) (r' : RingBuffer K) (evicted : Option K), r.put id = .ok (r', evicted) ∧
        r.ids[i]? = some evicted ∧ r'.ids = r.ids.set i (some id)) ∧
    r.Linked := by
  have h := hr.consistent hsize
  refine ⟨fun id => ?_, fun id hnew => ?_, h.linked⟩
  · rw [h.linked.contains_iff]
    constructor
    · rintro ⟨i, hi⟩
      obtain ⟨n, hn, hage, -⟩ := (h.slot id i).1 hi
      exact ⟨n, hn, hage⟩
    · rintro ⟨n, hn, hage⟩
      obtain ⟨p, hp⟩ := exists_of_age hage
      exact ⟨p % size, (h.slot id _).2 ⟨n, hn, hage, p, hp, rfl⟩⟩
  · obtain ⟨i, r', evicted, hput, -, hrest⟩ := h.put hsize hnew
    exact ⟨i, r', evicted, hput, hrest⟩

theorem ring_consistent_again : ∃ r : RingBuffer Nat,
    Reached 2 [.put 1, .delete 1, .put 2, .put 1] r ∧
      ∃ n < 2, age 2 [.put 1, .delete 1, .put 2, .put 1] = some n :=
  have hr := (((Reached.new.put rfl rfl).put rfl rfl).delete 1).put rfl rfl
  ⟨_, hr, ((ring_consistent Nat.two_pos hr).1 2).1 rfl⟩

end Collector.GroupByTrace.RingBuffer
