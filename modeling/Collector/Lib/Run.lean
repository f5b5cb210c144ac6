import Mathlib.Data.List.Basic
import Mathlib.Data.List.Induction

/-!
# Runs of a guarded machine

A machine is a step function that refuses the events it has no transition for.
A run is a list of events none of which is refused, so a statement about every
run is one about every interleaving of whoever sends the events. `runFrom_invariant`
is the induction: what every step keeps, every run keeps; `runFrom_history` is the same for what is
said of the events as well. `Meets` says that every step of a run is taken under a condition, and
`Meets.invariant` is the induction for such runs.
`Meets.of_run` is a converse: a step against the condition leaves a trace that no later step undoes.
`Views` says that a machine, seen through a function of its states, is another machine.
-/

namespace Collector.Lib

variable {S E : Type} {step : S → E → Option S} {s s' : S} {e : E} {es : List E}
  {P Q : S → E → Prop} {I : S → Prop}

def runFrom (step : S → E → Option S) (s : S) (es : List E) : Option S := es.foldlM step s

theorem runFrom_cons (s : S) (e : E) (es : List E) :
    runFrom step s (e :: es) = (step s e).bind fun s => runFrom step s es := by
  simp [runFrom]

theorem runFrom_cons_eq_some :
    runFrom step s (e :: es) = some s' ↔ ∃ t, step s e = some t ∧ runFrom step t es = some s' := by
  exact Option.bind_eq_some_iff

/-- **What every step keeps, every run keeps.** -/
theorem runFrom_invariant {I : S → Prop} (hstep : ∀ s e s', step s e = some s' → I s → I s')
    {s s' : S} {es : List E} (h : runFrom step s es = some s') (hs : I s) : I s' := by
  induction es generalizing s with
  | nil => cases h; exact hs
  | cons e es ih =>
    obtain ⟨t, ht, hrest⟩ := runFrom_cons_eq_some.1 h
    exact ih hrest (hstep s e t ht hs)

theorem runFrom_append (s : S) (es es' : List E) :
    runFrom step s (es ++ es') = (runFrom step s es).bind fun s => runFrom step s es' := by
  simp [runFrom, List.foldlM_append]

theorem runFrom_snoc (s : S) (es : List E) (e : E) :
    runFrom step s (es ++ [e]) = (runFrom step s es).bind fun s => step s e := by
  simp [runFrom, List.foldlM_append]

/-- **What every step keeps of the events so far and the state, every run has.** -/
theorem runFrom_history {I : List E → S → Prop}
    (hstep : ∀ es s e s', step s e = some s' → I es s → I (es ++ [e]) s')
    (h : runFrom step s es = some s') (hs : I [] s) : I es s' := by
  induction es using List.reverseRecOn generalizing s' with
  | nil => cases h; exact hs
  | append_singleton es e ih =>
    rw [runFrom_snoc] at h
    obtain ⟨t, ht, hlast⟩ := Option.bind_eq_some_iff.1 h
    exact hstep es t e s' hlast (ih ht)

/-- Every event finds the state to be as the condition asks. -/
def Meets (step : S → E → Option S) (P : S → E → Prop) : S → List E → Prop
  | _, [] => True
  | s, e :: es => P s e ∧ ∀ s', step s e = some s' → Meets step P s' es

theorem meets_of_forall (h : ∀ e ∈ es, ∀ s, P s e) (s : S) : Meets step P s es := by
  induction es generalizing s with
  | nil => trivial
  | cons e es ih =>
    obtain ⟨he, hes⟩ := List.forall_mem_cons.1 h
    exact ⟨he s, fun s' _ => ih hes s'⟩

theorem Meets.and (h : Meets step P s es) (h' : Meets step Q s es) :
    Meets step (fun s e => P s e ∧ Q s e) s es := by
  induction es generalizing s with
  | nil => trivial
  | cons e es ih => exact ⟨⟨h.1, h'.1⟩, fun t ht => ih (h.2 t ht) (h'.2 t ht)⟩

theorem Meets.snoc (h : Meets step P s es)
    (he : ∀ s', runFrom step s es = some s' → P s' e) : Meets step P s (es ++ [e]) := by
  induction es generalizing s with
  | nil => exact ⟨he s rfl, fun _ _ => trivial⟩
  | cons e' es ih =>
    refine ⟨h.1, fun s' hs' => ih (h.2 s' hs') fun s'' hs'' => he s'' ?_⟩
    rw [runFrom_cons, hs']
    exact hs''

/-- **What every step under a condition keeps, every run under it keeps.** -/
theorem Meets.invariant (hstep : ∀ s e s', P s e → step s e = some s' → I s → I s')
    (hmeets : Meets step P s es) (h : runFrom step s es = some s') (hs : I s) : I s' := by
  induction es generalizing s with
  | nil => cases h; exact hs
  | cons e es ih =>
    obtain ⟨t, ht, hrest⟩ := runFrom_cons_eq_some.1 h
    exact ih (hmeets.2 t ht) hrest (hstep s e t hmeets.1 ht hs)

/-- A condition that follows from another one in the states that it leads to. -/
theorem Meets.imp (hstep : ∀ s e s', P s e → step s e = some s' → I s → I s')
    (himp : ∀ s e, P s e → I s → Q s e) (h : Meets step P s es) (hs : I s) :
    Meets step Q s es := by
  induction es generalizing s with
  | nil => trivial
  | cons e es ih =>
    exact ⟨himp s e h.1 hs, fun s' hs' => ih (h.2 s' hs') (hstep s e s' h.1 hs' hs)⟩

instance Meets.decidable [∀ s e, Decidable (P s e)] :
    ∀ (s : S) (es : List E), Decidable (Meets step P s es)
  | _, [] => isTrue trivial
  | s, e :: es =>
    match h : step s e with
    | none => decidable_of_iff (P s e)
        ⟨fun hP => ⟨hP, fun s' hs' => by rw [h] at hs'; cases hs'⟩, And.left⟩
    | some t =>
      haveI : Decidable (Meets step P t es) := Meets.decidable t es
      decidable_of_iff (P s e ∧ Meets step P t es)
        ⟨fun ⟨hP, hrest⟩ => ⟨hP, fun s' hs' => by rw [h] at hs'; cases hs'; exact hrest⟩,
          fun ⟨hP, hrest⟩ => ⟨hP, hrest t h⟩⟩

/-- **Where every step against a condition dooms the run, a run that ends well meets it.** All this
among the runs that meet another condition `A`; `I` is what they all keep, and `G` what those keep
that meet the condition so far. -/
theorem Meets.of_run {A : S → E → Prop} {G D : S → Prop}
    (hkept : ∀ s e s', A s e → step s e = some s' → I s → I s')
    (hgood : ∀ s e s', A s e → step s e = some s' → I s → P s e → G s → G s')
    (hdoomed : ∀ s e s', A s e → step s e = some s' → I s → G s → ¬ P s e → D s')
    (hstays : ∀ s e s', A s e → step s e = some s' → I s → D s → D s')
    (hA : Meets step A s es) (h : runFrom step s es = some s') (hI : I s) (hG : G s)
    (hwell : ¬ D s') : Meets step P s es := by
  induction es generalizing s with
  | nil => trivial
  | cons e es ih =>
    obtain ⟨t, ht, hrest⟩ := runFrom_cons_eq_some.1 h
    have hIt := hkept s e t hA.1 ht hI
    have hP : P s e := by
      by_contra hP
      have hend : I s' ∧ D s' := (hA.2 t ht).invariant (I := fun s => I s ∧ D s)
        (fun s e s' hA hstep h => ⟨hkept s e s' hA hstep h.1, hstays s e s' hA hstep h.1 h.2⟩)
        hrest ⟨hIt, hdoomed s e t hA.1 ht hI hG hP⟩
      exact hwell hend.2
    refine ⟨hP, fun t' ht' => ?_⟩
    cases ht.symm.trans ht'
    exact ih (hA.2 t ht) hrest hIt (hgood s e t hA.1 ht hI hP hG)

/-! ## A machine seen through another one -/

section View

variable {T F : Type} {step' : T → F → Option T} {view : S → T} {label : S → E → F}

def labels (step : S → E → Option S) (label : S → E → F) : S → List E → List F
  | _, [] => []
  | s, e :: es =>
    label s e ::
      match step s e with
      | some s' => labels step label s' es
      | none => []

theorem labels_cons (h : step s e = some s') (es : List E) :
    labels step label s (e :: es) = label s e :: labels step label s' es := by
  simp [labels, h]

/-- Every step from a state with `I` is a step of the other machine. -/
structure Views (step : S → E → Option S) (step' : T → F → Option T) (view : S → T)
    (label : S → E → F) (I : S → Prop) : Prop where
  kept : ∀ s e s', step s e = some s' → I s → I s'
  moves : ∀ s e s', step s e = some s' → I s → step' (view s) (label s e) = some (view s')

theorem Views.run (h : Views step step' view label I)
    (hrun : runFrom step s es = some s') (hs : I s) :
    runFrom step' (view s) (labels step label s es) = some (view s') := by
  induction es generalizing s with
  | nil => cases hrun; rfl
  | cons e es ih =>
    obtain ⟨t, ht, hrest⟩ := runFrom_cons_eq_some.1 hrun
    rw [labels_cons ht, runFrom_cons, h.moves s e t ht hs]
    exact ih hrest (h.kept s e t ht hs)

theorem Views.meets (h : Views step step' view label I) {P : T → F → Prop}
    (hrun : runFrom step s es = some s') (hs : I s) :
    Meets step' P (view s) (labels step label s es) ↔
      Meets step (fun s e => P (view s) (label s e)) s es := by
  induction es generalizing s with
  | nil => exact Iff.rfl
  | cons e es ih =>
    obtain ⟨t, ht, hrest⟩ := runFrom_cons_eq_some.1 hrun
    have hmoves := h.moves s e t ht hs
    refine and_congr_right fun _ => ?_
    simp only [hmoves, ht, Option.some.injEq, forall_eq']
    exact ih hrest (h.kept s e t ht hs)

end View

end Collector.Lib
