import Mathlib.Data.List.Forall2

/-!
# A heap of several owners

Cells hold a label and pointers. Every owner allocates in a region of their own,
so that what one owner allocates has the same addresses whatever the others do.
`look` is what is seen at the end of a path of pointers, and `Reach` are the cells
on such paths. `Copied` says that a pointer is a deep copy of another one: it looks
the same along every path and reaches nothing but new cells. Deep copies of the
pointers in a cell make a deep copy of the cell (`copied_alloc`).
-/

namespace Collector.Lib

open List

structure Addr (O : Type) where
  owner : O
  index : Nat
  deriving DecidableEq, Repr

/-- A cell; a pointer in it may be nil. -/
structure Cell (O L : Type) where
  label : L
  children : List (Option (Addr O))
  deriving DecidableEq, Repr

abbrev Heap (O L : Type) := O → List (Cell O L)

namespace Heap

variable {O L : Type}

def read (h : Heap O L) (a : Addr O) : Option (Cell O L) := (h a.owner)[a.index]?

theorem read_isSome {h : Heap O L} {a : Addr O} :
    (h.read a).isSome ↔ a.index < (h a.owner).length := by
  simp [read]

theorem lt_of_read {h : Heap O L} {a : Addr O} {c : Cell O L} (hc : h.read a = some c) :
    a.index < (h a.owner).length :=
  read_isSome.1 (by rw [hc]; rfl)

theorem read_eq_of_region {h h' : Heap O L} {a : Addr O} (he : h' a.owner = h a.owner) :
    h'.read a = h.read a := by
  unfold read
  rw [he]

section Update

variable [DecidableEq O]

def alloc (h : Heap O L) (o : O) (c : Cell O L) : Heap O L × Addr O :=
  (Function.update h o (h o ++ [c]), ⟨o, (h o).length⟩)

def write (h : Heap O L) (a : Addr O) (c : Cell O L) : Heap O L :=
  Function.update h a.owner ((h a.owner).set a.index c)

theorem alloc_same (h : Heap O L) (o : O) (c : Cell O L) : (h.alloc o c).1 o = h o ++ [c] := by
  simp [alloc]

theorem alloc_other (h : Heap O L) {o o' : O} (c : Cell O L) (ho : o' ≠ o) :
    (h.alloc o c).1 o' = h o' := by
  simp [alloc, ho]

theorem read_alloc_self (h : Heap O L) (o : O) (c : Cell O L) :
    (h.alloc o c).1.read (h.alloc o c).2 = some c := by
  simp [read, alloc]

theorem read_alloc (h : Heap O L) (o : O) (c : Cell O L) (b : Addr O) :
    (h.alloc o c).1.read b = if b = ⟨o, (h o).length⟩ then some c else h.read b := by
  obtain ⟨bo, bi⟩ := b
  unfold read alloc
  by_cases ho : bo = o
  · subst ho
    simp only [Function.update_self, Addr.mk.injEq, true_and]
    rw [getElem?_append]
    rcases Nat.lt_trichotomy bi (h bo).length with hlt | heq | hgt
    · rw [if_pos hlt, if_neg (by omega)]
    · rw [if_neg (by omega), if_pos heq, heq]
      simp
    · rw [if_neg (by omega), if_neg (by omega), getElem?_eq_none (by simpa using by omega),
        getElem?_eq_none (by omega)]
  · simp [ho]

theorem read_write (h : Heap O L) (a : Addr O) (c : Cell O L) (b : Addr O) :
    (h.write a c).read b = if b = a then (h.read a).map fun _ => c else h.read b := by
  obtain ⟨bo, bi⟩ := b
  obtain ⟨ao, ai⟩ := a
  unfold read write
  by_cases ho : bo = ao
  · subst ho
    simp only [Function.update_self, Addr.mk.injEq, true_and, getElem?_set]
    by_cases hi : bi = ai
    · subst hi
      by_cases hlt : bi < (h bo).length <;> simp [hlt]
    · rw [if_neg (Ne.symm hi), if_neg hi]
  · simp [ho]

theorem length_write (h : Heap O L) (a : Addr O) (c : Cell O L) (o : O) :
    ((h.write a c) o).length = (h o).length := by
  unfold write
  by_cases ho : o = a.owner
  · subst ho
    simp
  · simp [ho]

end Update

/-! ## Growth -/

/-- From `h` to `h'` the owner has only allocated. -/
structure Grows (o : O) (h h' : Heap O L) : Prop where
  same : h o <+: h' o
  other : ∀ o', o' ≠ o → h' o' = h o'

variable {o : O} {h h' h'' : Heap O L} {a : Addr O} {c : Cell O L} {p p' : Option (Addr O)}

theorem Grows.refl (o : O) (h : Heap O L) : Grows o h h := ⟨prefix_rfl, fun _ _ => rfl⟩

theorem Grows.trans (g : Grows o h h') (g' : Grows o h' h'') : Grows o h h'' :=
  ⟨g.same.trans g'.same, fun o' ho => (g'.other o' ho).trans (g.other o' ho)⟩

theorem grows_alloc [DecidableEq O] (h : Heap O L) (o : O) (c : Cell O L) :
    Grows o h (h.alloc o c).1 where
  same := by
    rw [alloc_same]
    exact prefix_append _ _
  other o' ho := alloc_other h c ho

theorem Grows.length_le (g : Grows o h h') : (h o).length ≤ (h' o).length := g.same.length_le

theorem Grows.read (g : Grows o h h') (hc : h.read a = some c) : h'.read a = some c := by
  unfold Heap.read at hc ⊢
  by_cases ho : a.owner = o
  · subst ho
    obtain ⟨t, ht⟩ := g.same
    rw [← ht]
    rw [getElem?_append_left (List.getElem?_eq_some_iff.1 hc).1]
    exact hc
  · rw [g.other _ ho]
    exact hc

/-! ## What is seen -/

/-- What stands at the end of a path: a label and which pointers are nil. -/
def look (h : Heap O L) : Option (Addr O) → List Nat → Option (L × List Bool)
  | none, _ => none
  | some a, [] => (h.read a).map fun c => (c.label, c.children.map Option.isSome)
  | some a, i :: path => (h.read a).bind fun c => h.look (c.children[i]?.join) path

@[simp] theorem look_none (h : Heap O L) (path : List Nat) : h.look none path = none := by
  cases path <;> rfl

/-- The addresses on the paths from a pointer. -/
inductive Reach (h : Heap O L) (p : Option (Addr O)) : Addr O → Prop where
  | root {a : Addr O} : p = some a → Reach h p a
  | child {a b : Addr O} {c : Cell O L} : Reach h p a → h.read a = some c →
      some b ∈ c.children → Reach h p b

/-- `T` holds every pointer of its cells. -/
def Closed (h : Heap O L) (T : Addr O → Prop) : Prop :=
  ∀ a c, T a → h.read a = some c → ∀ b, some b ∈ c.children → T b

theorem closed_reach (h : Heap O L) (p : Option (Addr O)) : Closed h (Reach h p) :=
  fun _ _ ha hc _ hb => ha.child hc hb

variable {T : Addr O → Prop} {ps ps' : List (Option (Addr O))}

theorem Reach.mem_closed (hr : Reach h p a) (hT : Closed h T) (hp : ∀ a, p = some a → T a) :
    T a := by
  induction hr with
  | root he => exact hp _ he
  | child _ hc hb ih => exact hT _ _ ih hc _ hb

theorem look_congr (hread : ∀ a, T a → h'.read a = h.read a) (hT : Closed h T)
    (hp : ∀ a, p = some a → T a) (path : List Nat) : h'.look p path = h.look p path := by
  induction path generalizing p with
  | nil =>
    cases p with
    | none => rfl
    | some a =>
      unfold look
      rw [hread a (hp a rfl)]
  | cons i path ih =>
    cases p with
    | none => rfl
    | some a =>
      unfold look
      rw [hread a (hp a rfl)]
      cases hc : h.read a with
      | none => rfl
      | some c =>
        refine ih fun b hb => hT a c (hp a rfl) hc b ?_
        cases hi : c.children[i]? with
        | none =>
          rw [hi] at hb
          cases hb
        | some q =>
          rw [hi] at hb
          obtain rfl : q = some b := hb
          exact mem_of_getElem? hi

theorem reach_congr (hread : ∀ a, T a → h'.read a = h.read a) (hT : Closed h T)
    (hp : ∀ a, p = some a → T a) (hr : Reach h' p a) : T a := by
  refine hr.mem_closed (fun b c hb hc q hq => ?_) hp
  rw [hread b hb] at hc
  exact hT b c hb hc q hq

/-! ## Deep copies -/

/-- Everything under the pointer is an existing cell of the owner. -/
def Within (o : O) (h : Heap O L) (p : Option (Addr O)) : Prop :=
  ∀ a, Reach h p a → a.owner = o ∧ a.index < (h o).length

/-- From `h` to `h'`, the owner has made the deep copy `p'` of `p`. -/
structure Copied (o : O) (h : Heap O L) (p : Option (Addr O)) (h' : Heap O L)
    (p' : Option (Addr O)) : Prop where
  grows : Grows o h h'
  isSome : p'.isSome = p.isSome
  look : ∀ path, h'.look p' path = h.look p path
  fresh : ∀ a, Reach h' p' a → a.owner = o ∧ (h o).length ≤ a.index ∧ a.index < (h' o).length

theorem Within.read_grows (hw : Within o h p) (g : Grows o h h') (ha : Reach h p a) :
    h'.read a = h.read a := by
  obtain ⟨rfl, hlt⟩ := hw a ha
  have hsome : (h.read a).isSome := read_isSome.2 hlt
  obtain ⟨c, hc⟩ := Option.isSome_iff_exists.1 hsome
  rw [hc, g.read hc]

theorem Within.look_grows (hw : Within o h p) (g : Grows o h h') (path : List Nat) :
    h'.look p path = h.look p path :=
  look_congr (fun _ ha => hw.read_grows g ha) (closed_reach h p) (fun _ he => .root he) path

theorem Within.reach_grows (hw : Within o h p) (g : Grows o h h') (hr : Reach h' p a) :
    Reach h p a :=
  reach_congr (fun _ ha => hw.read_grows g ha) (closed_reach h p) (fun _ he => .root he) hr

theorem Within.grows (hw : Within o h p) (g : Grows o h h') : Within o h' p := by
  intro a ha
  obtain ⟨ho, hlt⟩ := hw a (hw.reach_grows g ha)
  exact ⟨ho, Nat.lt_of_lt_of_le hlt g.length_le⟩

theorem Within.child (hw : Within o h (some a)) (hc : h.read a = some c)
    (hp : p ∈ c.children) : Within o h p := by
  intro b hb
  refine hw b (hb.mem_closed (closed_reach h (some a)) ?_)
  rintro b rfl
  exact (Reach.root rfl).child hc hp

theorem Copied.within (hc : Copied o h p h' p') : Within o h' p' := fun a ha =>
  ⟨(hc.fresh a ha).1, (hc.fresh a ha).2.2⟩

theorem Copied.grows_right (hc : Copied o h p h' p') (g : Grows o h' h'') :
    Copied o h p h'' p' where
  grows := hc.grows.trans g
  isSome := hc.isSome
  look path := (hc.within.look_grows g path).trans (hc.look path)
  fresh a ha := by
    obtain ⟨ho, hlo, hhi⟩ := hc.fresh a (hc.within.reach_grows g ha)
    exact ⟨ho, hlo, Nat.lt_of_lt_of_le hhi g.length_le⟩

theorem Copied.grows_left (hw : Within o h p) (g : Grows o h h') (hc : Copied o h' p h'' p') :
    Copied o h p h'' p' where
  grows := g.trans hc.grows
  isSome := hc.isSome
  look path := (hc.look path).trans (hw.look_grows g path)
  fresh a ha := by
    obtain ⟨ho, hlo, hhi⟩ := hc.fresh a ha
    exact ⟨ho, Nat.le_trans g.length_le hlo, hhi⟩

theorem copied_none (o : O) (h : Heap O L) : Copied o h none h none where
  grows := .refl o h
  isSome := rfl
  look _ := rfl
  fresh a ha := by
    refine absurd (ha.mem_closed (T := fun _ => False) ?_ nofun) id
    intro _ _ hf
    exact hf.elim

section

variable (hps : List.Forall₂ (fun p p' => Copied o h p h' p') ps ps')

include hps

theorem map_isSome_of_copied : ps'.map Option.isSome = ps.map Option.isSome := by
  induction hps with
  | nil => rfl
  | cons hc _ ih => rw [map_cons, map_cons, hc.isSome, ih]

theorem look_getElem_of_copied
    (i : Nat) (path : List Nat) : h'.look (ps'[i]?.join) path = h.look (ps[i]?.join) path := by
  induction hps generalizing i with
  | nil => simp
  | cons hc _ ih =>
    cases i with
    | zero => exact hc.look path
    | succ i => exact ih i

theorem fresh_of_mem_copied (hp : p' ∈ ps') (ha : Reach h' p' a) :
    a.owner = o ∧ (h o).length ≤ a.index ∧ a.index < (h' o).length := by
  induction hps with
  | nil => cases hp
  | cons hc _ ih =>
    rcases mem_cons.1 hp with rfl | hp
    · exact hc.fresh a ha
    · exact ih hp

end

/-- **A cell over deep copies** of the pointers of another cell is a deep copy of it. -/
theorem copied_alloc [DecidableEq O] (hc : h.read a = some c) (g : Grows o h h')
    (hps : List.Forall₂ (fun p p' => Copied o h p h' p') c.children ps') :
    Copied o h (some a) (h'.alloc o ⟨c.label, ps'⟩).1 (some (h'.alloc o ⟨c.label, ps'⟩).2) := by
  have ga := grows_alloc h' o ⟨c.label, ps'⟩
  have hself := read_alloc_self h' o ⟨c.label, ps'⟩
  have hps2 : List.Forall₂ (fun p p' => Copied o h p (h'.alloc o ⟨c.label, ps'⟩).1 p')
      c.children ps' := hps.imp fun _ _ hcp => hcp.grows_right ga
  refine ⟨g.trans ga, rfl, fun path => ?_, fun b hb => ?_⟩
  · cases path with
    | nil =>
      unfold look
      rw [hself, hc]
      exact congrArg (fun l => some (c.label, l)) (map_isSome_of_copied hps)
    | cons i path =>
      unfold look
      rw [hself, hc]
      exact look_getElem_of_copied hps2 i path
  · have hT : Closed (h'.alloc o ⟨c.label, ps'⟩).1 fun b => b = (h'.alloc o ⟨c.label, ps'⟩).2 ∨
        ∃ p' ∈ ps', Reach (h'.alloc o ⟨c.label, ps'⟩).1 p' b := by
      rintro b cell (rfl | ⟨p', hp', hr⟩) hread q hq
      · obtain rfl := Option.some.inj (hself.symm.trans hread)
        exact .inr ⟨some q, hq, .root rfl⟩
      · exact .inr ⟨p', hp', hr.child hread hq⟩
    rcases hb.mem_closed hT (fun b he => .inl (Option.some.inj he).symm) with rfl | ⟨p', hp', hr⟩
    · refine ⟨rfl, g.length_le, ?_⟩
      rw [alloc_same, length_append]
      exact Nat.lt_succ_self _
    · exact fresh_of_mem_copied hps2 hp' hr

/-! ## A deep copy -/

section CopyRegion

/-- Move an address of the owner behind the first `n`. -/
def shift [DecidableEq O] (o : O) (n : Nat) (a : Addr O) : Addr O :=
  if a.owner = o then ⟨o, n + a.index⟩ else a

def copyRegion [DecidableEq O] (o : O) (h : Heap O L) (p : Option (Addr O)) :
    Heap O L × Option (Addr O) :=
  let move := Option.map (shift o (h o).length)
  (Function.update h o (h o ++ (h o).map fun c => ⟨c.label, c.children.map move⟩), move p)

variable [DecidableEq O]

theorem read_copyRegion (h : Heap O L) (p : Option (Addr O)) (ha : a.owner = o) :
    (copyRegion o h p).1.read (shift o (h o).length a) =
      (h.read a).map fun c => ⟨c.label, c.children.map (Option.map (shift o (h o).length))⟩ := by
  subst ha
  simp [copyRegion, read, shift, getElem?_append_right]

theorem look_copyRegion (hw : Within o h p) (q : Option (Addr O)) (path : List Nat) :
    (copyRegion o h q).1.look (p.map (shift o (h o).length)) path = h.look p path := by
  induction path generalizing p with
  | nil =>
    cases p with
    | none => rfl
    | some a =>
      rw [Option.map_some]
      unfold look
      rw [read_copyRegion h q (hw a (.root rfl)).1]
      cases h.read a with
      | none => rfl
      | some c => simp [Function.comp_def]
  | cons i path ih =>
    cases p with
    | none => rfl
    | some a =>
      rw [Option.map_some]
      unfold look
      rw [read_copyRegion h q (hw a (.root rfl)).1]
      cases hc : h.read a with
      | none => rfl
      | some c =>
        have hchild : (c.children.map (Option.map (shift o (h o).length)))[i]?.join =
            (c.children[i]?.join).map (shift o (h o).length) := by
          rw [getElem?_map]
          cases c.children[i]? <;> rfl
        rw [Option.map_some, Option.bind_some, Option.bind_some, hchild]
        refine ih fun b hb => ?_
        cases hi : c.children[i]? with
        | none =>
          rw [hi] at hb
          exact (copied_none o h).within b hb
        | some r =>
          rw [hi] at hb
          exact hw.child hc (mem_of_getElem? hi) b hb

/-- **Copying the region is a deep copy** of everything within it. -/
theorem copied_copyRegion (hw : Within o h p) :
    Copied o h p (copyRegion o h p).1 (copyRegion o h p).2 where
  grows := by
    constructor
    · simp [copyRegion]
    · intro o' ho
      simp [copyRegion, ho]
  isSome := by simp [copyRegion]
  look path := look_copyRegion hw p path
  fresh b hb := by
    have hT : Closed (copyRegion o h p).1 fun b => ∃ a, Reach h p a ∧
        b = shift o (h o).length a := by
      rintro b c ⟨a, ha, rfl⟩ hread q hq
      rw [read_copyRegion h p (hw a ha).1] at hread
      obtain ⟨c', hc', rfl⟩ := Option.map_eq_some_iff.1 hread
      obtain ⟨r, hr, hqr⟩ := mem_map.1 hq
      obtain ⟨a', rfl, rfl⟩ := Option.map_eq_some_iff.1 hqr
      exact ⟨a', ha.child hc' hr, rfl⟩
    obtain ⟨a, ha, rfl⟩ := hb.mem_closed hT fun b he => by
      obtain ⟨a, rfl, rfl⟩ := Option.map_eq_some_iff.1 he
      exact ⟨a, .root rfl, rfl⟩
    obtain ⟨ho, hlt⟩ := hw a ha
    have hs : shift o (h o).length a = ⟨o, (h o).length + a.index⟩ := if_pos ho
    rw [hs]
    refine ⟨rfl, Nat.le_add_right _ _, ?_⟩
    simp [copyRegion, hlt]

end CopyRegion

end Heap

end Collector.Lib
