import Collector.Lib.Returns

/-!
# Loops with a state and a list of results

`accumulate f s l` runs `f` over the list `l`, passing a state from one element to the next and
collecting what each of them gives. It returns when every step does in the state it meets
(`returns_accumulate`). What depends on a part of the state that only some elements change is
told by those elements alone (`accumulate_project`).
-/

namespace Collector.Lib

variable {ε S A B : Type}

def accumulate (f : S → A → Except ε (S × B)) : S → List A → Except ε (S × List B)
  | s, [] => .ok (s, [])
  | s, a :: l => do
    let x ← f s a
    let y ← accumulate f x.1 l
    return (y.1, x.2 :: y.2)

variable {f : S → A → Except ε (S × B)} {s s' : S} {l : List A} {bs : List B}

theorem accumulate_cons_ok {a : A} :
    accumulate f s (a :: l) = .ok (s', bs) ↔ ∃ s₁ b bs', f s a = .ok (s₁, b) ∧
      accumulate f s₁ l = .ok (s', bs') ∧ bs = b :: bs' := by
  simp only [accumulate, bind_eq_ok]
  constructor
  · rintro ⟨x, hfa, y, hl, h⟩
    cases h
    exact ⟨x.1, x.2, y.2, hfa, hl, rfl⟩
  · rintro ⟨s₁, b, bs', hfa, hl, rfl⟩
    exact ⟨(s₁, b), hfa, (s', bs'), hl, rfl⟩

theorem accumulate_append (s : S) (l l' : List A) :
    accumulate f s (l ++ l') = (do
      let x ← accumulate f s l
      let y ← accumulate f x.1 l'
      return (y.1, x.2 ++ y.2)) := by
  induction l generalizing s with
  | nil => exact (bind_pure _).symm
  | cons a l ih => simp only [List.cons_append, accumulate, ih, bind_assoc, pure_bind]

theorem accumulate_append_ok {l' : List A} :
    accumulate f s (l ++ l') = .ok (s', bs) ↔ ∃ s₁ bs₁ bs₂, accumulate f s l = .ok (s₁, bs₁) ∧
      accumulate f s₁ l' = .ok (s', bs₂) ∧ bs = bs₁ ++ bs₂ := by
  simp only [accumulate_append, bind_eq_ok]
  constructor
  · rintro ⟨x, hl, y, hl', h⟩
    cases h
    exact ⟨x.1, x.2, y.2, hl, hl', rfl⟩
  · rintro ⟨s₁, bs₁, bs₂, hl, hl', rfl⟩
    exact ⟨(s₁, bs₁), hl, (s', bs₂), hl', rfl⟩

theorem length_accumulate (h : accumulate f s l = .ok (s', bs)) : bs.length = l.length := by
  induction l generalizing s bs with
  | nil => cases h; rfl
  | cons a l ih =>
    obtain ⟨s₁, b, bs', -, hl, rfl⟩ := accumulate_cons_ok.1 h
    rw [List.length_cons, List.length_cons, ih hl]

theorem returns_accumulate :
    Returns (accumulate f s l) ↔ ∀ pre a post s' bs, l = pre ++ a :: post →
      accumulate f s pre = .ok (s', bs) → Returns (f s' a) := by
  constructor
  · rintro ⟨⟨s'', bs''⟩, h⟩ pre a post s' bs rfl hpre
    obtain ⟨s₁, bs₁, bs₂, hpre', hrest, -⟩ := accumulate_append_ok.1 h
    rw [hpre] at hpre'
    cases hpre'
    obtain ⟨s₂, b, -, hfa, -⟩ := accumulate_cons_ok.1 hrest
    exact ⟨(s₂, b), hfa⟩
  · intro hsteps
    induction l generalizing s with
    | nil => exact returns_ok _
    | cons a l ih =>
      obtain ⟨⟨s₁, b⟩, hfa⟩ := hsteps [] a l s [] rfl rfl
      have hrest : Returns (accumulate f s₁ l) := by
        refine ih fun pre a' post s' bs hl hpre => ?_
        refine hsteps (a :: pre) a' post s' (b :: bs) (by rw [hl]; rfl) ?_
        exact accumulate_cons_ok.2 ⟨s₁, b, bs, hfa, hpre, rfl⟩
      obtain ⟨⟨s', bs⟩, hl⟩ := hrest
      exact ⟨_, accumulate_cons_ok.2 ⟨s₁, b, bs, hfa, hl, rfl⟩⟩

theorem accumulate_flatten {ls : List (List A)} {bss : List (List B)}
    (h : accumulate (accumulate f) s ls = .ok (s', bss)) :
    accumulate f s ls.flatten = .ok (s', bss.flatten) := by
  induction ls generalizing s bss with
  | nil => cases h; rfl
  | cons l ls ih =>
    obtain ⟨s₁, bs, bss', hl, hls, rfl⟩ := accumulate_cons_ok.1 h
    exact accumulate_append_ok.2 ⟨s₁, bs, bss'.flatten, hl, ih hls, rfl⟩

theorem accumulate_matches {T : Type} {R : S → T → Prop} {g : T → A → Except ε (T × B)}
    (hstep : ∀ s t a, R s t → Matches (fun x y => R x.1 y.1 ∧ x.2 = y.2) (f s a) (g t a)) {t : T}
    (h : R s t) (l : List A) :
    Matches (fun x y => R x.1 y.1 ∧ x.2 = y.2) (accumulate f s l) (accumulate g t l) := by
  induction l generalizing s t with
  | nil => exact .ok ⟨h, rfl⟩
  | cons a l ih =>
    refine (hstep s t a h).bind fun x y hxy => (ih hxy.1).bind fun x' y' hxy' => ?_
    exact .ok ⟨hxy'.1, by rw [hxy.2, hxy'.2]⟩

section Project

variable {T : Type} {g : T → A → Except ε (T × B)} {view : S → T} {p : A → Bool}

/-- A part of the state that only the elements with `p` change. -/
structure Projects (f : S → A → Except ε (S × B)) (g : T → A → Except ε (T × B)) (view : S → T)
    (p : A → Bool) : Prop where
  step : ∀ s a s' b, p a = true → f s a = .ok (s', b) → g (view s) a = .ok (view s', b)
  frame : ∀ s a s' b, p a = false → f s a = .ok (s', b) → view s' = view s

theorem accumulate_project (h : Projects f g view p)
    (hrun : accumulate f s l = .ok (s', bs)) :
    accumulate g (view s) (l.filter p) =
      .ok (view s', ((l.zip bs).filter fun x => p x.1).map Prod.snd) := by
  induction l generalizing s bs with
  | nil => cases hrun; rfl
  | cons a l ih =>
    obtain ⟨s₁, b, bs', hfa, hl, rfl⟩ := accumulate_cons_ok.1 hrun
    have hrest := ih hl
    cases hp : p a with
    | true =>
      rw [List.filter_cons_of_pos hp]
      refine accumulate_cons_ok.2 ⟨_, b, _, h.step s a s₁ b hp hfa, hrest, ?_⟩
      simp [hp]
    | false =>
      rw [List.filter_cons_of_neg (by rw [hp]; decide), ← h.frame s a s₁ b hp hfa, hrest]
      simp [hp]

end Project

end Collector.Lib
