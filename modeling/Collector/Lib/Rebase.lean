import Mathlib.Order.Basic

/-!
# Sequences measured from their last restart

`rebase Below since l` goes through the sequence `l`. An element that is below the one before it,
like the first one, starts anew and gives nothing; any other is given relative to the element
where the sequence last started (`rebase_spec`). Between restarts nothing falls
(`le_of_not_restarts`).
-/

namespace Collector.Lib

open List

variable {A B : Type}

def Restarts (Below : A → A → Prop) (r : List A) (k : Nat) : Prop :=
  k = 0 ∨ ∃ a last, r[k]? = some a ∧ r[k - 1]? = some last ∧ Below a last

/-- The index where the sequence last started, seen from `k`. -/
structure LastRestart (Below : A → A → Prop) (r : List A) (b k : Nat) : Prop where
  le : b ≤ k
  restarts : Restarts Below r b
  steady : ∀ j, b < j → j ≤ k → ¬ Restarts Below r j

section

variable (Below : A → A → Prop) [DecidableRel Below] (since : A → A → B)

/-- One more element; the state is where the sequence last started, and the last element. -/
def rebaseStep : Option (A × A) → A → (A × A) × Option B
  | none, a => ((a, a), none)
  | some (base, last), a =>
    if Below a last then ((a, a), none) else ((base, a), some (since a base))

def rebaseFrom : Option (A × A) → List A → List (Option B)
  | _, [] => []
  | s, a :: l =>
    let x := rebaseStep Below since s a
    x.2 :: rebaseFrom (some x.1) l

def rebase (l : List A) : List (Option B) := rebaseFrom Below since none l

end

variable {Below : A → A → Prop} {since : A → A → B} {pre r : List A} {k b : Nat} {a : A}

theorem restarts_append (l : List A) (hk : k < pre.length) :
    Restarts Below (pre ++ l) k ↔ Restarts Below pre k := by
  unfold Restarts
  rw [getElem?_append_left hk, getElem?_append_left (by omega)]

theorem restarts_length {l : List A} {last : A} (hlast : pre.getLast? = some last) :
    Restarts Below (pre ++ a :: l) pre.length ↔ Below a last := by
  have hpos : 0 < pre.length := by
    rcases pre with _ | ⟨x, pre⟩
    · cases hlast
    · exact Nat.succ_pos _
  have hprev : (pre ++ a :: l)[pre.length - 1]? = some last := by
    rw [getElem?_append_left (by omega), ← getLast?_eq_getElem?, hlast]
  unfold Restarts
  rw [hprev, getElem?_append_right (Nat.le_refl _), Nat.sub_self]
  constructor
  · rintro (h | ⟨a', last', ha', hlast', h⟩)
    · omega
    · cases ha'
      cases hlast'
      exact h
  · intro h
    exact .inr ⟨a, last, rfl, rfl, h⟩

/-- What the state says of the elements so far. -/
def Tracks (Below : A → A → Prop) (pre : List A) : Option (A × A) → Prop
  | none => pre = []
  | some (base, last) => pre.getLast? = some last ∧
      ∃ b, LastRestart Below pre b (pre.length - 1) ∧ pre[b]? = some base

/-- What is given for the element `a` at index `k`. -/
def Rebased (Below : A → A → Prop) (since : A → A → B) (r : List A) (k : Nat) (a : A)
    (out : Option B) : Prop :=
  (Restarts Below r k ∧ out = none) ∨
    (¬ Restarts Below r k ∧
      ∃ b base, LastRestart Below r b k ∧ r[b]? = some base ∧ out = some (since a base))

theorem lastRestart_self (h : Restarts Below r k) : LastRestart Below r k k :=
  ⟨Nat.le_refl k, h, fun j hlt hle => by omega⟩

theorem LastRestart.extend {l : List A} {last : A} (h : LastRestart Below pre b (pre.length - 1))
    (hlast : pre.getLast? = some last) (ha : ¬ Below a last) :
    LastRestart Below (pre ++ a :: l) b pre.length := by
  have hpos : 0 < pre.length := by
    rcases pre with _ | ⟨x, pre⟩
    · cases hlast
    · exact Nat.succ_pos _
  have hle := h.le
  refine ⟨by omega, (restarts_append _ (by omega)).2 h.restarts, fun j hlt hj => ?_⟩
  rcases Nat.lt_or_eq_of_le hj with hj | rfl
  · rw [restarts_append _ hj]
    exact h.steady j hlt (by omega)
  · rwa [restarts_length hlast]

theorem LastRestart.unique {b' : Nat} (h : LastRestart Below r b k)
    (h' : LastRestart Below r b' k) :
    b = b' := by
  rcases Nat.lt_trichotomy b b' with hlt | heq | hgt
  · exact absurd h'.restarts (h.steady b' hlt h'.le)
  · exact heq
  · exact absurd h.restarts (h'.steady b hgt h.le)

theorem LastRestart.later {j : Nat} (h : LastRestart Below r b j) (hjk : j ≤ k)
    (hno : ∀ i, j < i → i ≤ k → ¬ Restarts Below r i) : LastRestart Below r b k := by
  have hle := h.le
  refine ⟨by omega, h.restarts, fun i hlt hi => ?_⟩
  by_cases hij : i ≤ j
  · exact h.steady i hlt hij
  · exact hno i (by omega) hi

variable [DecidableRel Below] (since)

/-- **One step**: what is given for the next element, and what the state says afterwards. -/
theorem rebaseStep_spec {s : Option (A × A)} (hs : Tracks Below pre s) (a : A) (l : List A) :
    Rebased Below since (pre ++ a :: l) pre.length a (rebaseStep Below since s a).2 ∧
      Tracks Below (pre ++ [a]) (some (rebaseStep Below since s a).1) := by
  have hget : ∀ l, (pre ++ a :: l)[pre.length]? = some a := fun l => by simp
  have hlen : (pre ++ [a]).length - 1 = pre.length := by simp
  -- an element that starts anew
  have hrestart : (∀ l, Restarts Below (pre ++ a :: l) pre.length) →
      Rebased Below since (pre ++ a :: l) pre.length a none ∧
        Tracks Below (pre ++ [a]) (some (a, a)) := by
    intro h
    refine ⟨.inl ⟨h l, rfl⟩, by simp, pre.length, ?_, hget []⟩
    rw [hlen]
    exact lastRestart_self (h [])
  match s, hs with
  | none, hs =>
    obtain rfl : pre = [] := hs
    exact hrestart fun _ => .inl rfl
  | some (base, last), ⟨hlast, b, hb, hbase⟩ =>
    by_cases hbelow : Below a last
    · simp only [rebaseStep, if_pos hbelow]
      exact hrestart fun l => (restarts_length hlast).2 hbelow
    · simp only [rebaseStep, if_neg hbelow]
      have hblt : b < pre.length := (List.getElem?_eq_some_iff.1 hbase).1
      have hbase' : ∀ l, (pre ++ a :: l)[b]? = some base := fun l => by
        rw [getElem?_append_left hblt, hbase]
      refine ⟨.inr ⟨mt (restarts_length hlast).1 hbelow, b, base, hb.extend hlast hbelow,
        hbase' l, rfl⟩, by simp, b, ?_, hbase' []⟩
      rw [hlen]
      exact hb.extend hlast hbelow

theorem rebaseFrom_spec {s : Option (A × A)} (hs : Tracks Below pre s) (l : List A)
    (hk : l[k]? = some a) :
    ∃ out, (rebaseFrom Below since s l)[k]? = some out ∧
      Rebased Below since (pre ++ l) (pre.length + k) a out := by
  -- the elements so far grow by one with each step of the loop
  induction l generalizing pre s k with
  | nil => cases hk
  | cons x l ih =>
    obtain ⟨hout, hnext⟩ := rebaseStep_spec since hs x l
    cases k with
    | zero =>
      cases hk
      exact ⟨_, rfl, hout⟩
    | succ k =>
      obtain ⟨out, hget, hrest⟩ := ih hnext hk
      refine ⟨out, hget, ?_⟩
      rw [append_assoc, length_append, length_singleton] at hrest
      rwa [Nat.add_comm k 1, ← Nat.add_assoc]

variable (Below)

theorem rebase_spec (hk : r[k]? = some a) :
    ∃ out, (rebase Below since r)[k]? = some out ∧ Rebased Below since r k a out := by
  have hnone : Tracks Below [] none := rfl
  have h := rebaseFrom_spec since hnone r hk
  rwa [nil_append, length_nil, Nat.zero_add] at h

theorem length_rebaseFrom (s : Option (A × A)) (l : List A) :
    (rebaseFrom Below since s l).length = l.length := by
  induction l generalizing s with
  | nil => rfl
  | cons a l ih => exact congrArg Nat.succ (ih _)

variable {Below}

omit [DecidableRel Below] in
/-- **Between restarts nothing falls**, measured by anything that does not fall without one. -/
theorem le_of_not_restarts {M : Type} [Preorder M] {m : A → M}
    (hm : ∀ a ∈ r, ∀ last ∈ r, ¬ Below a last → m last ≤ m a) {j : Nat} {x y : A} (hjk : j ≤ k)
    (hno : ∀ i, j < i → i ≤ k → ¬ Restarts Below r i) (hx : r[j]? = some x) (hy : r[k]? = some y) :
    m x ≤ m y := by
  induction k generalizing y with
  | zero =>
    obtain rfl : j = 0 := by omega
    rw [hx] at hy
    cases hy
    exact le_rfl
  | succ k ih =>
    rcases Nat.lt_or_eq_of_le hjk with hlt | rfl
    · have hklt : k < r.length := by
        have := (List.getElem?_eq_some_iff.1 hy).1
        omega
      have hlast : r[k]? = some r[k] := getElem?_eq_getElem hklt
      refine (ih (by omega) (fun i hi hle => hno i hi (by omega)) hlast).trans
        (hm _ (mem_of_getElem? hy) _ (mem_of_getElem? hlast) ?_)
      intro hbelow
      exact hno (k + 1) hlt (Nat.le_refl _) (.inr ⟨y, r[k], hy, hlast, hbelow⟩)
    · rw [hx] at hy
      cases hy
      exact le_rfl

end Collector.Lib
