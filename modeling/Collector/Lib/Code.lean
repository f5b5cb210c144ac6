import Mathlib.Algebra.Ring.Nat
import Mathlib.Data.List.Induction

/-!
# Codes

A code is readable if what a text begins with tells which symbol was written and
where the rest starts. A sequence of symbols up to an end mark is readable too,
provided that no symbol begins with the mark. `BigEndian` has the numbers of a
fixed number of bytes, the most significant byte first.
-/

namespace Collector.Lib

open List

variable {α β : Type}

/-- The front of a text determines the symbol and the rest. -/
def Readable (f : α → List β) : Prop := ∀ a b s t, f a ++ s = f b ++ t → a = b ∧ s = t

/-- No symbol begins with the mark. -/
def Avoids (f : α → List β) (mark : β) : Prop := ∀ a, ∃ b s, f a = b :: s ∧ b ≠ mark

variable {f : α → List β} {mark : β}

/-- **A sequence of symbols is readable up to the mark.** -/
theorem Readable.flatMap (h : Readable f) (hm : Avoids f mark) :
    Readable fun l : List α => l.flatMap f ++ [mark] := by
  intro l l' s t heq
  simp only [append_assoc, singleton_append] at heq
  induction l generalizing l' with
  | nil =>
    cases l' with
    | nil =>
      simp only [flatMap_nil, nil_append, List.cons.injEq, true_and] at heq
      exact ⟨rfl, heq⟩
    | cons b l' =>
      obtain ⟨c, u, hb, hne⟩ := hm b
      rw [flatMap_nil, flatMap_cons, hb] at heq
      simp only [nil_append, cons_append, List.cons.injEq] at heq
      exact absurd heq.1.symm hne
  | cons a l ih =>
    cases l' with
    | nil =>
      obtain ⟨c, u, ha, hne⟩ := hm a
      rw [flatMap_nil, flatMap_cons, ha] at heq
      simp only [nil_append, cons_append, List.cons.injEq] at heq
      exact absurd heq.1 hne
    | cons b l' =>
      rw [flatMap_cons, flatMap_cons, append_assoc, append_assoc] at heq
      obtain ⟨rfl, hrest⟩ := h _ _ _ _ heq
      obtain ⟨rfl, hst⟩ := ih _ hrest
      exact ⟨rfl, hst⟩

theorem Readable.append_left (h : Readable f) (p : List β) : Readable fun a => p ++ f a := by
  intro a b s t heq
  rw [append_assoc, append_assoc] at heq
  exact h a b s t (append_cancel_left heq)

theorem intercalate_cons (sep a : List β) (l : List (List β)) :
    sep.intercalate (a :: l) = a ++ l.flatMap (sep ++ ·) := by
  induction l generalizing a with
  | nil => simp
  | cons b l ih =>
    rw [intercalate_cons_cons, ih, flatMap_cons, append_assoc, append_assoc]

/-- **So is a sequence with separators**, of which the mark is none. -/
theorem Readable.intercalate {c : β} {sep : List β} (h : Readable f) (hm : Avoids f mark)
    (hne : c ≠ mark) : Readable fun l : List α => (c :: sep).intercalate (l.map f) ++ [mark] := by
  have hrest : Readable fun l : List α => l.flatMap (fun a => c :: sep ++ f a) ++ [mark] :=
    (h.append_left (c :: sep)).flatMap fun a => ⟨c, sep ++ f a, rfl, hne⟩
  intro l l' s t heq
  cases l with
  | nil =>
    cases l' with
    | nil => exact ⟨rfl, append_cancel_left heq⟩
    | cons b l' =>
      obtain ⟨d, u, hb, hd⟩ := hm b
      simp only [map_nil, map_cons, intercalate_cons, hb] at heq
      exact absurd (List.cons.inj heq).1.symm hd
  | cons a l =>
    cases l' with
    | nil =>
      obtain ⟨d, u, ha, hd⟩ := hm a
      simp only [map_nil, map_cons, intercalate_cons, ha] at heq
      exact absurd (List.cons.inj heq).1 hd
    | cons b l' =>
      simp only [map_cons, intercalate_cons, flatMap_map, append_assoc] at heq
      obtain ⟨rfl, heq⟩ := h _ _ _ _ heq
      obtain ⟨rfl, hst⟩ := hrest l l' s t (by simpa using heq)
      exact ⟨rfl, hst⟩

theorem append_mark_inj {u v s t : List β} (hu : mark ∉ u) (hv : mark ∉ v)
    (h : u ++ mark :: s = v ++ mark :: t) : u = v ∧ s = t := by
  induction u generalizing v with
  | nil =>
    cases v with
    | nil => exact ⟨rfl, (List.cons.inj h).2⟩
    | cons b v => exact absurd ((List.cons.inj h).1 ▸ mem_cons_self) hv
  | cons a u ih =>
    cases v with
    | nil => exact absurd ((List.cons.inj h).1 ▸ mem_cons_self) hu
    | cons b v =>
      obtain ⟨rfl, hrest⟩ := List.cons.inj h
      obtain ⟨rfl, hst⟩ := ih (fun hm => hu (mem_cons_of_mem _ hm))
        (fun hm => hv (mem_cons_of_mem _ hm)) hrest
      exact ⟨rfl, hst⟩

theorem map_inj_of_mem {f : α → β} {l l' : List α}
    (hf : ∀ a ∈ l, ∀ b ∈ l', f a = f b → a = b) (h : l.map f = l'.map f) : l = l' := by
  induction l generalizing l' with
  | nil => exact (map_eq_nil_iff.1 h.symm).symm
  | cons a l ih =>
    cases l' with
    | nil => cases h
    | cons b l' =>
      obtain ⟨hab, hrest⟩ := List.cons.inj h
      rw [hf a mem_cons_self b mem_cons_self hab,
        ih (fun x hx y hy => hf x (mem_cons_of_mem _ hx) y (mem_cons_of_mem _ hy)) hrest]

theorem Readable.injective (h : Readable f) : Function.Injective f :=
  fun a b heq => (h a b [] [] (by rw [heq])).1

/-! ## Big-endian numbers -/

namespace BigEndian

def decode (bytes : List UInt8) : Nat := bytes.foldl (fun n b => n * 256 + b.toNat) 0

/-- The last `k` bytes of a number. -/
def encode : Nat → Nat → List UInt8
  | 0, _ => []
  | k + 1, n => encode k (n / 256) ++ [.ofNat n]

variable (bytes : List UInt8)

theorem decode_append (b : UInt8) :
    decode (bytes ++ [b]) = decode bytes * 256 + b.toNat := by
  rw [decode, List.foldl_append]
  rfl

theorem decode_lt : decode bytes < 256 ^ bytes.length := by
  induction bytes using List.reverseRecOn with
  | nil => decide
  | append_singleton bytes b ih =>
    have hb := b.toNat_lt
    rw [decode_append, List.length_append, List.length_singleton, Nat.pow_succ]
    omega

theorem encode_decode : encode bytes.length (decode bytes) = bytes := by
  induction bytes using List.reverseRecOn with
  | nil => rfl
  | append_singleton bytes b ih =>
    have hb := b.toNat_lt
    have hdiv : (decode bytes * 256 + b.toNat) / 256 = decode bytes := by omega
    have hlast : UInt8.ofNat (decode bytes * 256 + b.toNat) = b := by
      refine UInt8.toNat_inj.1 ?_
      rw [UInt8.toNat_ofNat']
      omega
    rw [decode_append, List.length_append, List.length_singleton, encode, hdiv, ih, hlast]

theorem decode_eq_zero_iff {bytes : List UInt8} : decode bytes = 0 ↔ ∀ b ∈ bytes, b = 0 := by
  induction bytes using List.reverseRecOn with
  | nil => exact iff_of_true rfl fun b hb => by cases hb
  | append_singleton bytes b ih =>
    have hb : b.toNat = 0 ↔ b = 0 := UInt8.toNat_inj (b := 0)
    rw [decode_append, List.forall_mem_append, ← ih, List.forall_mem_singleton, ← hb]
    omega

end BigEndian

end Collector.Lib
