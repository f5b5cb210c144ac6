import Mathlib.Data.List.Basic

/-!
# Computations that return

`Returns x`: the computation `x` ends with a result. A sequence returns when its first
part does and the second one does on its result (`returns_bind`); a loop over
a list returns when its body does on every element (`returns_mapM`). `Computes f ok g`: the
function `f` returns exactly on the arguments with `ok`, and computes `g` there. `Matches P x y`:
the two computations fail in the same way, or both return and `P` relates their results.
-/

namespace Collector.Lib

open List

variable {ε α β : Type}

def Returns (x : Except ε α) : Prop := ∃ a, x = .ok a

theorem returns_ok (a : α) : Returns (.ok a : Except ε α) := ⟨a, rfl⟩

theorem not_returns_error (e : ε) : ¬ Returns (.error e : Except ε α) := nofun

variable {f : α → Except ε β} {l : List α} {bs : List β}

theorem bind_eq_ok {x : Except ε α} {b : β} : x >>= f = .ok b ↔ ∃ a, x = .ok a ∧ f a = .ok b := by
  cases x with
  | error e => exact iff_of_false nofun nofun
  | ok a =>
    constructor
    · intro h
      exact ⟨a, rfl, h⟩
    · rintro ⟨a', ha, h⟩
      cases ha
      exact h

theorem returns_bind {x : Except ε α} : Returns (x >>= f) ↔ ∃ a, x = .ok a ∧ Returns (f a) := by
  unfold Returns
  simp only [bind_eq_ok]
  exact ⟨fun ⟨b, a, ha, hb⟩ => ⟨a, ha, b, hb⟩, fun ⟨a, ha, b, hb⟩ => ⟨b, a, ha, hb⟩⟩

theorem returns_bind_pure {x : Except ε α} {g : α → β} :
    Returns (x >>= fun a => pure (g a)) ↔ Returns x := by
  rw [returns_bind]
  exact exists_congr fun a => and_iff_left (returns_ok (g a))

theorem returns_mapM : Returns (l.mapM f) ↔ ∀ a ∈ l, Returns (f a) := by
  induction l with
  | nil => exact iff_of_true (returns_ok []) nofun
  | cons a l ih =>
    rw [mapM_cons, returns_bind, forall_mem_cons, ← ih]
    constructor
    · rintro ⟨b, hb, hrest⟩
      exact ⟨⟨b, hb⟩, returns_bind_pure.1 hrest⟩
    · rintro ⟨⟨b, hb⟩, hrest⟩
      exact ⟨b, hb, returns_bind_pure.2 hrest⟩

theorem returns_foldlM {σ : Type} {f : σ → α → Except ε σ} {P : α → Prop}
    (h : ∀ s a, Returns (f s a) ↔ P a) {s : σ} : Returns (l.foldlM f s) ↔ ∀ a ∈ l, P a := by
  induction l generalizing s with
  | nil => exact iff_of_true (returns_ok s) (by simp)
  | cons a l ih =>
    rw [foldlM_cons, returns_bind, forall_mem_cons, ← h s a]
    constructor
    · rintro ⟨s', hs', hl⟩
      exact ⟨⟨s', hs'⟩, ih.1 hl⟩
    · rintro ⟨⟨s', hs'⟩, hl⟩
      exact ⟨s', hs', ih.2 hl⟩

theorem mem_of_mapM (h : l.mapM f = .ok bs) : ∀ b ∈ bs, ∃ a ∈ l, f a = .ok b := by
  induction l generalizing bs with
  | nil => cases h; nofun
  | cons a l ih =>
    rw [mapM_cons, bind_eq_ok] at h
    obtain ⟨b, hb, h⟩ := h
    obtain ⟨rest, hrest, h⟩ := bind_eq_ok.1 h
    cases h
    rw [forall_mem_cons]
    refine ⟨⟨a, mem_cons_self, hb⟩, fun c hc => ?_⟩
    obtain ⟨a', ha', hc⟩ := ih hrest c hc
    exact ⟨a', mem_cons_of_mem _ ha', hc⟩

theorem mapM_pure_forall₂ {m : Type → Type} [Monad m] [LawfulMonad m] {f : α → m β}
    {P : α → β → Prop} (h : ∀ a ∈ l, ∃ b, f a = pure b ∧ P a b) :
    ∃ bs, l.mapM f = pure bs ∧ List.Forall₂ P l bs := by
  induction l with
  | nil => exact ⟨[], rfl, .nil⟩
  | cons a l ih =>
    obtain ⟨b, hb, hP⟩ := h a mem_cons_self
    obtain ⟨bs, hbs, hl⟩ := ih fun a ha => h a (mem_cons_of_mem _ ha)
    refine ⟨b :: bs, ?_, .cons hP hl⟩
    rw [mapM_cons, hb, pure_bind, hbs, pure_bind]

theorem mapM_forall₂ {P : α → β → Prop} (h : ∀ a ∈ l, ∃ b, f a = .ok b ∧ P a b) :
    ∃ bs, l.mapM f = .ok bs ∧ List.Forall₂ P l bs :=
  mapM_pure_forall₂ h

theorem forall₂_of_mapM (h : l.mapM f = .ok bs) : List.Forall₂ (fun a b => f a = .ok b) l bs := by
  induction l generalizing bs with
  | nil =>
    cases h
    exact .nil
  | cons a l ih =>
    rw [mapM_cons] at h
    obtain ⟨b, hb, h⟩ := bind_eq_ok.1 h
    obtain ⟨rest, hrest, h⟩ := bind_eq_ok.1 h
    cases h
    exact .cons hb (ih hrest)

theorem forall_mem_right_of_forall₂ {R : α → β → Prop} {P : β → Prop} (hP : ∀ a b, R a b → P b)
    (h : List.Forall₂ R l bs) : ∀ b ∈ bs, P b := by
  induction h with
  | nil => simp
  | cons hab _ ih => exact forall_mem_cons.2 ⟨hP _ _ hab, ih⟩

theorem forall₂_comp {γ : Type} {R : α → β → Prop} {S : β → γ → Prop} {T : α → γ → Prop}
    (hT : ∀ a b c, R a b → S b c → T a c) (h : List.Forall₂ R l bs) {cs : List γ}
    (h' : List.Forall₂ S bs cs) : List.Forall₂ T l cs := by
  induction h generalizing cs with
  | nil =>
    cases h'
    exact .nil
  | cons hab _ ih =>
    obtain _ | ⟨hbc, hcs⟩ := h'
    exact .cons (hT _ _ _ hab hbc) (ih hcs)

/-! ## Functions that return on some arguments -/

structure Computes (f : α → Except ε β) (ok : α → Prop) (g : α → β) : Prop where
  iff : ∀ a b, f a = .ok b ↔ ok a ∧ g a = b

namespace Computes

variable {ok : α → Prop} {g : α → β} (h : Computes f ok g)

include h

theorem run {a : α} (ha : ok a) : f a = .ok (g a) := (h.iff a _).2 ⟨ha, rfl⟩

theorem mapM : Computes (fun l : List α => l.mapM f) (fun l => ∀ a ∈ l, ok a) (List.map g) where
  iff l bs := by
    induction l generalizing bs with
    | nil => simp [pure, Except.pure]
    | cons a l ih =>
      simp only [mapM_cons, forall_mem_cons, map_cons, bind_eq_ok, h.iff, ih, pure, Except.pure,
        Except.ok.injEq]
      constructor
      · rintro ⟨_, ⟨ha, rfl⟩, _, ⟨hl, rfl⟩, rfl⟩
        exact ⟨⟨ha, hl⟩, rfl⟩
      · rintro ⟨⟨ha, hl⟩, rfl⟩
        exact ⟨_, ⟨ha, rfl⟩, _, ⟨hl, rfl⟩, rfl⟩

theorem option : Computes (Option.mapM f) (fun o => ∀ a, o = some a → ok a) (Option.map g) where
  iff o b := by
    cases o with
    | none => simp [pure, Except.pure]
    | some a => simp [map_eq_pure_bind, bind_eq_ok, h.iff, pure, Except.pure, and_assoc]

/-- A slice of pointers, element by element. -/
theorem pointers : Computes (fun l : List (Option α) => l.mapM (Option.mapM f))
      (fun l => ∀ a, some a ∈ l → ok a) (List.map (Option.map g)) where
  iff l bs := by
    rw [h.option.mapM.iff]
    refine and_congr_left fun _ => ⟨fun hl a ha => hl _ ha a rfl, ?_⟩
    rintro hl _ ha a rfl
    exact hl a ha

end Computes

section Fixed

variable {f : α → Except ε α} {g : β → α} (h : ∀ b, f (g b) = .ok (g b))

include h

theorem option_mapM_fixed (o : Option β) : (o.map g).mapM f = .ok (o.map g) := by
  cases o with
  | none => rfl
  | some b =>
    rw [Option.map_some, Option.mapM_some, h b]
    rfl

theorem mapM_fixed (l : List (Option β)) :
    (l.map (Option.map g)).mapM (Option.mapM f) = .ok (l.map (Option.map g)) := by
  induction l with
  | nil => rfl
  | cons b l ih =>
    rw [map_cons, mapM_cons, option_mapM_fixed h, ih]
    rfl

end Fixed

/-! ## Computations with an ordinary failure -/

section Ends

variable {δ : Type} {x : ExceptT δ (Except ε) α}

/-- The computation ends, with an ordinary failure or with a result. -/
inductive Ends (x : ExceptT δ (Except ε) α) (P : α → Prop) : Prop where
  | refused (e : δ) (h : x.run = .ok (.error e))
  | done (a : α) (h : x.run = .ok (.ok a)) (hP : P a)

theorem run_bind_ok {a : α} (h : x.run = .ok (.ok a)) (f : α → ExceptT δ (Except ε) β) :
    (x >>= f).run = (f a).run := by
  rw [ExceptT.run_bind, h]
  rfl

theorem run_bind_refused {e : δ} (h : x.run = .ok (.error e)) (f : α → ExceptT δ (Except ε) β) :
    (x >>= f).run = .ok (.error e) := by
  rw [ExceptT.run_bind, h]
  rfl

theorem run_bind_eq_ok {f : α → ExceptT δ (Except ε) β} {b : β}
    (h : (x >>= f).run = .ok (.ok b)) : ∃ a, x.run = .ok (.ok a) ∧ (f a).run = .ok (.ok b) := by
  obtain ⟨r, hr, h⟩ := bind_eq_ok.1 h
  cases r with
  | error e => cases h
  | ok a => exact ⟨a, hr, h⟩

theorem returns_of_run_bind {f : α → ExceptT δ (Except ε) β} (h : Returns (x >>= f).run) :
    Returns x.run := by
  obtain ⟨r, hr, -⟩ := returns_bind.1 h
  exact ⟨r, hr⟩

end Ends

/-- Two computations that end alike, with related results. -/
inductive Matches {γ : Type} (P : α → γ → Prop) : Except ε α → Except ε γ → Prop where
  | error (e : ε) : Matches P (.error e) (.error e)
  | ok {a : α} {c : γ} (h : P a c) : Matches P (.ok a) (.ok c)

namespace Matches

variable {γ δ : Type} {P : α → γ → Prop} {x : Except ε α} {y : Except ε γ} (h : Matches P x y)

include h

theorem bind {Q : β → δ → Prop} {g : γ → Except ε δ}
    (hfg : ∀ a c, P a c → Matches Q (f a) (g c)) : Matches Q (x >>= f) (y >>= g) := by
  cases h with
  | error e => exact .error e
  | ok h => exact hfg _ _ h

theorem bind_left {Q : β → γ → Prop}
    (hf : ∀ a c, P a c → Matches Q (f a) (.ok c)) : Matches Q (x >>= f) y := by
  cases h with
  | error e => exact .error e
  | ok h => exact hf _ _ h

theorem bind_right {Q : α → δ → Prop} {g : γ → Except ε δ}
    (hg : ∀ a c, P a c → Matches Q (.ok a) (g c)) : Matches Q x (y >>= g) := by
  cases h with
  | error e => exact .error e
  | ok h => exact hg _ _ h

theorem and_right {Q : γ → Prop} (hQ : ∀ c, y = .ok c → Q c) :
    Matches (fun a c => P a c ∧ Q c) x y := by
  cases h with
  | error e => exact .error e
  | ok h => exact .ok ⟨h, hQ _ rfl⟩

theorem of_ok {c : γ} (hy : y = .ok c) : ∃ a, x = .ok a ∧ P a c := by
  cases h with
  | error e => cases hy
  | ok h =>
    cases hy
    exact ⟨_, rfl, h⟩

theorem ok_of {a : α} (hx : x = .ok a) : ∃ c, y = .ok c ∧ P a c := by
  cases h with
  | error e => cases hx
  | ok h =>
    cases hx
    exact ⟨_, rfl, h⟩

theorem returns_iff : Returns x ↔ Returns y := by
  cases h with
  | error e => exact iff_of_false (not_returns_error e) (not_returns_error e)
  | ok h => exact iff_of_true (returns_ok _) (returns_ok _)

theorem mono {Q : α → γ → Prop} (hPQ : ∀ a c, P a c → Q a c) : Matches Q x y := by
  cases h with
  | error e => exact .error e
  | ok h => exact .ok (hPQ _ _ h)

end Matches

end Collector.Lib
