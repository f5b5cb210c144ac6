import Mathlib.Data.List.ReduceOption

/-!
# Loops that fail on their elements

A loop body `f : σ → α → Except ε σ` is guarded by `ok` when the element alone
decides whether it fails: on elements with `ok a` it returns `g s a`, on the
others it fails, whatever the state. `Guarded f ok g` says so. Guarded bodies
nest: a loop over a guarded body is guarded by "every element is ok"
(`Guarded.foldlM`), also when it passes over nil elements
(`Guarded.foldlM_skipNil`).
-/

namespace Collector.Lib

open List

variable {α β σ ε : Type}

/-- The loop body that passes over nil elements. -/
def skipNil (f : σ → α → Except ε σ) (s : σ) : Option α → Except ε σ
  | none => .ok s
  | some a => f s a

theorem foldl_elim_reduceOption (f : β → α → β) (l : List (Option α)) (b : β) :
    l.foldl (fun b a => a.elim b (f b)) b = l.reduceOption.foldl f b := by
  induction l generalizing b with
  | nil => rfl
  | cons a l ih =>
    cases a with
    | none => rw [reduceOption_cons_of_none]; exact ih b
    | some a => rw [reduceOption_cons_of_some]; exact ih (f b a)

theorem forall_some_iff {l : List (Option α)} {p : α → Prop} :
    (∀ a ∈ l, ∃ x, a = some x ∧ p x) ↔ none ∉ l ∧ ∀ x ∈ l.reduceOption, p x := by
  constructor
  · intro h
    refine ⟨fun hn => ?_, fun x hx => ?_⟩
    · obtain ⟨x, hx, -⟩ := h none hn
      cases hx
    · obtain ⟨y, hy, hp⟩ := h (some x) (reduceOption_mem_iff.1 hx)
      cases hy
      exact hp
  · rintro ⟨hn, hp⟩ a ha
    cases a with
    | none => exact absurd ha hn
    | some x => exact ⟨x, rfl, hp x (reduceOption_mem_iff.2 ha)⟩

theorem map_some_reduceOption {l : List (Option α)} (h : none ∉ l) :
    l.reduceOption.map some = l := by
  induction l with
  | nil => rfl
  | cons a l ih =>
    cases a with
    | none => exact absurd mem_cons_self h
    | some a =>
      rw [reduceOption_cons_of_some, map_cons,
        ih fun hl => h (mem_cons_of_mem _ hl)]

theorem foldlM_skipNil_eq (f : σ → α → Except ε σ) (l : List (Option α)) (s : σ) :
    l.foldlM (skipNil f) s = l.reduceOption.foldlM f s := by
  induction l generalizing s with
  | nil => rfl
  | cons a l ih =>
    cases a with
    | none => rw [reduceOption_cons_of_none]; exact ih s
    | some a =>
      exact bind_congr fun s => ih s

theorem foldlM_flatMap (g : β → List α) (f : σ → α → Except ε σ) (l : List β) (s : σ) :
    (l.flatMap g).foldlM f s = l.foldlM (fun s b => (g b).foldlM f s) s := by
  induction l generalizing s with
  | nil => rfl
  | cons b l ih =>
    rw [flatMap_cons, foldlM_append, foldlM_cons]
    exact bind_congr fun s => ih s

@[simp] theorem ok_bind (a : α) (f : α → Except ε β) : (Except.ok a >>= f) = f a := rfl

variable {l : List α}

theorem foldlM_ok {f : σ → α → Except ε σ} {g : σ → α → σ}
    (h : ∀ a ∈ l, ∀ s, f s a = .ok (g s a)) (s : σ) : l.foldlM f s = .ok (l.foldl g s) := by
  induction l generalizing s with
  | nil => rfl
  | cons a l ih =>
    rw [foldlM_cons, h a mem_cons_self]
    exact ih (fun b hb => h b (mem_cons_of_mem _ hb)) (g s a)

theorem foldrM_ok {f : α → σ → Except ε σ} {g : α → σ → σ}
    (h : ∀ a ∈ l, ∀ s, f a s = .ok (g a s)) (s : σ) : l.foldrM f s = .ok (l.foldr g s) := by
  induction l with
  | nil => rfl
  | cons a l ih =>
    rw [foldrM_cons, ih fun b hb => h b (mem_cons_of_mem _ hb)]
    exact h a mem_cons_self _

theorem mapM_ok {f : α → Except ε β} {g : α → β} (h : ∀ a ∈ l, f a = .ok (g a)) :
    l.mapM f = .ok (l.map g) := by
  induction l with
  | nil => rfl
  | cons a l ih =>
    rw [mapM_cons, h a mem_cons_self, ih fun b hb => h b (mem_cons_of_mem _ hb)]
    rfl

theorem mapM_fail {f : α → Except ε β} {a : α} (ha : a ∈ l)
    (h : ∃ e, f a = .error e) : ∃ e, l.mapM f = .error e := by
  induction l with
  | nil => cases ha
  | cons b l ih =>
    rw [mapM_cons]
    cases hb : f b with
    | error e => exact ⟨e, rfl⟩
    | ok c =>
      rcases mem_cons.1 ha with rfl | ha
      · obtain ⟨e, he⟩ := h
        rw [hb] at he
        cases he
      · obtain ⟨e, he⟩ := ih ha
        exact ⟨e, by rw [he]; rfl⟩

/-- `f` fails exactly on the elements without `ok` and computes `g` on the others. -/
structure Guarded (f : σ → α → Except ε σ) (ok : α → Prop) (g : σ → α → σ) : Prop where
  run : ∀ s a, ok a → f s a = .ok (g s a)
  fail : ∀ s a, ¬ ok a → ∃ e, f s a = .error e

namespace Guarded

variable {f : σ → α → Except ε σ} {ok : α → Prop} {g : σ → α → σ} (h : Guarded f ok g)

include h

theorem congr {ok' : α → Prop} {g' : σ → α → σ} (e : ∀ a, ok' a ↔ ok a)
    (eg : ∀ s a, g' s a = g s a) : Guarded f ok' g' where
  run s a ha := by rw [h.run s a ((e a).1 ha), eg]
  fail s a ha := h.fail s a fun hn => ha ((e a).2 hn)

theorem comap (p : β → α) :
    Guarded (fun s b => f s (p b)) (fun b => ok (p b)) (fun s b => g s (p b)) where
  run s b hb := h.run s (p b) hb
  fail s b hb := h.fail s (p b) hb

theorem skipNil :
    Guarded (skipNil f) (fun a => ∀ x, a = some x → ok x) (fun s a => a.elim s (g s)) where
  run s a ha := by
    cases a with
    | none => rfl
    | some a => exact h.run s a (ha a rfl)
  fail s a ha := by
    cases a with
    | none => exact absurd (fun _ hx => nomatch hx) ha
    | some a => exact h.fail s a fun hn => ha fun x hx => by cases hx; exact hn

theorem foldlM : Guarded (fun s (l : List α) => l.foldlM f s) (fun l => ∀ a ∈ l, ok a)
      (fun s l => l.foldl g s) where
  run s l hl := by
    induction l generalizing s with
    | nil => rfl
    | cons a l ih =>
      rw [foldlM_cons, h.run s a (hl a mem_cons_self)]
      exact ih _ fun b hb => hl b (mem_cons_of_mem _ hb)
  fail s l hl := by
    induction l generalizing s with
    | nil => exact absurd (fun _ hb => nomatch hb) hl
    | cons a l ih =>
      rw [foldlM_cons]
      by_cases ha : ok a
      · rw [h.run s a ha]
        refine ih _ fun hn => hl fun b hb => ?_
        rcases mem_cons.mp hb with rfl | hb
        · exact ha
        · exact hn b hb
      · obtain ⟨e, he⟩ := h.fail s a ha
        exact ⟨e, by rw [he]; rfl⟩

theorem foldlM_skipNil : Guarded (fun s (l : List (Option α)) => l.foldlM (Lib.skipNil f) s)
      (fun l => ∀ a ∈ l.reduceOption, ok a) (fun s l => l.reduceOption.foldl g s) where
  run s l hl := by
    rw [h.skipNil.foldlM.run s l fun a ha x hx =>
      hl x (reduceOption_mem_iff.2 (hx ▸ ha)), foldl_elim_reduceOption]
  fail s l hl := by
    refine h.skipNil.foldlM.fail s l fun hn => hl fun a ha => ?_
    exact hn (some a) (reduceOption_mem_iff.1 ha) a rfl

end Guarded

end Collector.Lib
