import Mathlib.Data.List.Basic

/-!
# Computations that keep a journal

A journal records what a computation does, and keeps it when the computation
fails later. `Writes m l a` says that `m` returns `a` and adds `l` to the journal;
its rules follow the program. `Precedes l x y` is the order of entries: nowhere in
`l` does `y` stand without an `x` before it.
-/

namespace Collector.Lib

open List

variable {ε ω α β : Type}

/-- A computation with a journal of entries `ω` and failures `ε`. -/
abbrev Journal (ε ω α : Type) := ExceptT ε (StateM (List ω)) α

def note (w : ω) : Journal ε ω Unit := modify (· ++ [w])

def Journal.exec (m : Journal ε ω α) : Except ε α × List ω := m.run.run []

/-- `m` returns `a` and adds `l`. -/
def Writes (m : Journal ε ω α) (l : List ω) (a : α) : Prop := ∀ s, m.run.run s = (.ok a, s ++ l)

theorem Writes.exec_eq {m : Journal ε ω α} {l : List ω} {a : α} (h : Writes m l a) :
    m.exec = (.ok a, l) := h []

theorem writes_note (w : ω) : Writes (note w : Journal ε ω Unit) [w] () := fun _ => rfl

theorem writes_pure (a : α) : Writes (pure a : Journal ε ω α) [] a := by
  intro s
  rw [append_nil]
  rfl

theorem Writes.bind {m : Journal ε ω α} {f : α → Journal ε ω β} {l l' : List ω} {a : α} {b : β}
    (hm : Writes m l a) (hf : Writes (f a) l' b) : Writes (m >>= f) (l ++ l') b := by
  intro s
  rw [← append_assoc, ← hf (s ++ l)]
  rw [ExceptT.run_bind, StateT.run_bind, hm s]
  rfl

theorem writes_mapM {f : α → Journal ε ω β} {w : α → List ω} {v : α → β} {l : List α}
    (h : ∀ a ∈ l, Writes (f a) (w a) (v a)) : Writes (l.mapM f) (l.flatMap w) (l.map v) := by
  induction l with
  | nil => exact writes_pure []
  | cons a l ih =>
    rw [mapM_cons, flatMap_cons, map_cons, ← append_nil (l.flatMap w)]
    exact (h a mem_cons_self).bind
      ((ih fun b hb => h b (mem_cons_of_mem _ hb)).bind (writes_pure _))

/-- A loop that stops at the first result that is not nil. -/
def firstSome (f : α → Journal ε ω (Option β)) : List α → Journal ε ω (Option β)
  | [] => return none
  | a :: l => do
    match ← f a with
    | some b => return some b
    | none => firstSome f l

theorem writes_firstSome {f : α → Journal ε ω (Option β)} {w : α → List ω} {l : List α}
    (h : ∀ a ∈ l, Writes (f a) (w a) none) : Writes (firstSome f l) (l.flatMap w) none := by
  induction l with
  | nil => exact writes_pure none
  | cons a l ih =>
    exact (h a mem_cons_self).bind (ih fun b hb => h b (mem_cons_of_mem _ hb))

/-! ## The order of entries -/

/-- Every `y` in `l` has an `x` before it. -/
def Precedes (l : List ω) (x y : ω) : Prop := ∀ l₁ l₂, l = l₁ ++ y :: l₂ → x ∈ l₁

theorem precedes_of_pairwise {R : ω → ω → Prop} {l : List ω} {x y : ω} (h : l.Pairwise R)
    (hx : x ∈ l) (hne : x ≠ y) (hn : ¬ R y x) : Precedes l x y := by
  rintro l₁ l₂ rfl
  rcases mem_append.1 hx with hx | hx
  · exact hx
  · rcases mem_cons.1 hx with rfl | hx
    · exact absurd rfl hne
    · have hy := (pairwise_cons.1 (pairwise_append.1 h).2.1).1 x hx
      exact absurd hy hn

/-- Where the entries can be told apart, their order is that of what they stand for. -/
theorem Precedes.map {f : ω → α} {l : List ω} {x y : ω} (h : Precedes l x y)
    (hinj : ∀ z ∈ l, f z = f y → z = y) : Precedes (l.map f) (f x) (f y) := by
  intro l₁ l₂ hl
  obtain ⟨m₁, rest, rfl, rfl, hrest⟩ := map_eq_append_iff.1 hl
  obtain ⟨z, m₂, rfl, hz, -⟩ := map_eq_cons_iff.1 hrest
  obtain rfl := hinj z (mem_append_right _ mem_cons_self) hz
  exact mem_map_of_mem (h m₁ m₂ rfl)

end Collector.Lib
