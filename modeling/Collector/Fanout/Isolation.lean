import Collector.Fanout.Clone
import Collector.Service.Builder

/-!
# Pipelines that share a receiver

The consumer that the builder puts in front of several pipelines hands the data over
to them one after the other: the data itself or a clone. Each pipeline then works on
what it was given, in the call and at any later time, while the connector goes on. A run
is an interleaving of hand-overs and actions of pipelines. A pipeline knows the cells it
can reach and those it allocates; only one with `MutatesConsumedData` writes to the cells it
was given. `ownRun` applies the actions of one pipeline alone. That a clone is one
step makes no difference: until the last hand-over the data stays as it was sent
(`Inv.same`).
-/

namespace Collector.Fanout

open Lib Lib.Heap Service List

/-! ## Hand-overs -/

inductive Mode where
  | original
  | clone
  deriving DecidableEq, Repr

/-- The calls of a connector. The cloning one keeps the data itself for the last consumer. -/
def handOvers : Consumer → List (Consumer × Mode)
  | .fanOut cs => cs.map fun c => (c, .original)
  | .cloningFanOut cs => cs.dropLast.map (fun c => (c, .clone)) ++
      cs.getLast?.toList.map fun c => (c, .original)
  | c => [(c, .original)]

/-- What the pipelines of a receiver are given; a single one is called without a connector. -/
def modes (ty : DataType) : List BuiltPipeline → List Mode
  | [_] => [.original]
  | bps => (handOvers (pipelinesJunction ty bps)).map Prod.snd

section Modes

variable {ty : DataType} {bps : List BuiltPipeline}

theorem modes_cloningFanOut (c : Consumer) (cs : List Consumer) :
    (handOvers (.cloningFanOut (c :: cs))).map Prod.snd =
      List.replicate cs.length .clone ++ [.original] := by
  have hclone : (Prod.snd ∘ fun c : Consumer => (c, Mode.clone)) = Function.const _ .clone := rfl
  rw [handOvers, map_append, map_map, hclone, map_const, length_dropLast]
  rfl

theorem modes_fanOut (cs : List Consumer) :
    (handOvers (.fanOut cs)).map Prod.snd = List.replicate cs.length .original := by
  have horiginal : (Prod.snd ∘ fun c : Consumer => (c, Mode.original)) =
    Function.const _ .original := rfl
  rw [handOvers, map_map, horiginal, map_const]

theorem modes_of_mutates (h : bps.any BuiltPipeline.mutatesConsumedData) :
    modes ty bps = List.replicate (bps.length - 1) .clone ++ [.original] := by
  match bps, h with
  | [bp], _ => rfl
  | bp :: bp' :: bps, h =>
    show (handOvers (pipelinesJunction ty (bp :: bp' :: bps))).map Prod.snd = _
    rw [pipelinesJunction_eq, if_pos h]
    refine (modes_cloningFanOut _ _).trans ?_
    rw [length_map]
    rfl

theorem modes_of_not_mutates (h : bps.any BuiltPipeline.mutatesConsumedData = false) :
    modes ty bps = List.replicate bps.length .original := by
  match bps, h with
  | [], _ => cases ty <;> rfl
  | [bp], _ => rfl
  | bp :: bp' :: bps, h =>
    show (handOvers (pipelinesJunction ty (bp :: bp' :: bps))).map Prod.snd = _
    rw [pipelinesJunction_eq, if_neg (by rw [h]; exact Bool.false_ne_true)]
    refine (modes_fanOut _).trans ?_
    rw [length_cons, length_map]
    rfl

theorem length_modes (ty : DataType) (bps : List BuiltPipeline) :
    (modes ty bps).length = bps.length := by
  cases h : bps.any BuiltPipeline.mutatesConsumedData with
  | true =>
    rw [modes_of_mutates h]
    have hpos : 0 < bps.length := by
      cases bps with
      | nil => cases h
      | cons => exact Nat.succ_pos _
    simp only [length_append, length_replicate, length_singleton]
    omega
  | false => rw [modes_of_not_mutates h, length_replicate]

theorem last_of_original (h : bps.any BuiltPipeline.mutatesConsumedData) {i : Nat}
    (hi : (modes ty bps)[i]? = some .original) : i + 1 = bps.length := by
  rw [modes_of_mutates h, getElem?_append] at hi
  split at hi
  · rw [getElem?_replicate] at hi
    split at hi <;> cases hi
  · have hlt := (List.getElem?_eq_some_iff.1 hi).1
    simp only [length_replicate, length_singleton] at hlt
    have hpos : 0 < bps.length := by
      cases bps with
      | nil => cases h
      | cons => exact Nat.succ_pos _
    rename_i hge
    simp only [length_replicate] at hge
    omega

end Modes

/-! ## Runs -/

section Machine

variable {M : Type}

/-- Data sent by a receiver, all of it allocated there. -/
structure Sent (M : Type) where
  heap : Memory M
  data : Data
  shaped : data.Shaped heap
  within : Within .sender heap data.root
  empty : ∀ i, heap (.pipeline i) = []

/-- What a pipeline was given, with the heap at that moment. -/
structure Given (M : Type) where
  heap : Memory M
  data : Data

/-- The cells under the data that the pipeline was given. -/
def Given.Holds (g : Given M) (a : Addr Owner) : Prop := Reach g.heap g.data.root a

/-- The cells that pipeline `i` can get at. -/
def Given.Knows (g : Given M) (i : Nat) (a : Addr Owner) : Prop :=
  g.Holds a ∨ a.owner = .pipeline i

structure State (M : Type) where
  heap : Memory M
  handed : List (Given M)

inductive Event (M : Type) where
  | hand
  | alloc (i : Nat) (c : Cell Owner (Label M))
  | write (i : Nat) (a : Addr Owner) (c : Cell Owner (Label M))

def Event.actor : Event M → Option Nat
  | hand => none
  | alloc i _ => some i
  | write i _ _ => some i

def Event.apply (h : Memory M) : Event M → Memory M
  | hand => h
  | alloc i c => (h.alloc (.pipeline i) c).1
  | write _ a c => h.write a c

/-- The heap after the actions of pipeline `i` alone. -/
def ownRun (i : Nat) (es : List (Event M)) (h : Memory M) : Memory M :=
  es.foldl (fun h e => if e.actor = some i then e.apply h else h) h

variable (K : ProtoClone M) (bps : List BuiltPipeline) (sent : Sent M)

def mutates (i : Nat) : Bool := bps[i]?.any BuiltPipeline.mutatesConsumedData

inductive Step (s : State M) : Event M → State M → Prop where
  | original : (modes sent.data.type bps)[s.handed.length]? = some .original →
      Step s .hand ⟨s.heap, s.handed ++ [⟨s.heap, sent.data⟩]⟩
  | clone {h : Memory M} {data : Data} :
      (modes sent.data.type bps)[s.handed.length]? = some .clone →
      sent.data.clone K s.heap = .ok (h, data) →
      Step s .hand ⟨h, s.handed ++ [⟨h, data⟩]⟩
  | alloc {i : Nat} {g : Given M} {c : Cell Owner (Label M)} : s.handed[i]? = some g →
      (∀ b, some b ∈ c.children → g.Knows i b) →
      Step s (.alloc i c) ⟨(s.heap.alloc (.pipeline i) c).1, s.handed⟩
  | write {i : Nat} {g : Given M} {a : Addr Owner} {c : Cell Owner (Label M)} :
      s.handed[i]? = some g → g.Knows i a → (∀ b, some b ∈ c.children → g.Knows i b) →
      (mutates bps i ∨ a.owner = .pipeline i) →
      Step s (.write i a c) ⟨s.heap.write a c, s.handed⟩

inductive Run : List (Event M) → State M → Prop where
  | start : Run [] ⟨sent.heap, []⟩
  | step {es : List (Event M)} {s s' : State M} {e : Event M} : Run es s →
      Step K bps sent s e s' → Run (es ++ [e]) s'

end Machine

/-! ## What a pipeline sees -/

section Sees

variable {M : Type} {es : List (Event M)} {e : Event M} {h h' : Memory M} {i : Nat} {g : Given M}

/-- In `h`, the cells known to the pipeline are as it made them. -/
structure Sees (es : List (Event M)) (h : Memory M) (i : Nat) (g : Given M) : Prop where
  view : ∀ a, g.Knows i a → h.read a = (ownRun i es g.heap).read a
  closed : Closed h (g.Knows i)

theorem ownRun_snoc_other (he : e.actor ≠ some i) : ownRun i (es ++ [e]) h = ownRun i es h := by
  simp [ownRun, he]

theorem ownRun_snoc_self (he : e.actor = some i) :
    ownRun i (es ++ [e]) h = e.apply (ownRun i es h) := by
  simp [ownRun, he]

variable (hs : Sees es h i g)

include hs

theorem Sees.frame (he : e.actor ≠ some i)
    (hread : ∀ a, g.Knows i a → h'.read a = h.read a) : Sees (es ++ [e]) h' i g where
  view a ha := by rw [hread a ha, ownRun_snoc_other he, hs.view a ha]
  closed a c ha hc := by
    rw [hread a ha] at hc
    exact hs.closed a c ha hc

theorem Sees.region : h (.pipeline i) = ownRun i es g.heap (.pipeline i) :=
  ext_getElem? fun n => hs.view ⟨.pipeline i, n⟩ (.inr rfl)

theorem Sees.alloc {c : Cell Owner (Label M)} (hc : ∀ b, some b ∈ c.children → g.Knows i b) :
    Sees (es ++ [.alloc i c]) (h.alloc (.pipeline i) c).1 i g where
  view a ha := by
    rw [ownRun_snoc_self rfl]
    show _ = Heap.read (Heap.alloc _ _ _).1 a
    rw [read_alloc, read_alloc, hs.region, hs.view a ha]
  closed a c' ha hread := by
    rw [read_alloc] at hread
    split at hread
    · cases hread
      exact hc
    · exact hs.closed a c' ha hread

theorem Sees.write {a : Addr Owner} {c : Cell Owner (Label M)}
    (ha : g.Knows i a) (hc : ∀ b, some b ∈ c.children → g.Knows i b) :
    Sees (es ++ [.write i a c]) (h.write a c) i g where
  view b hb := by
    rw [ownRun_snoc_self rfl]
    show _ = Heap.read (Heap.write _ _ _) b
    rw [read_write, read_write, hs.view a ha, hs.view b hb]
  closed b c' hb hread := by
    rw [read_write] at hread
    split at hread
    · obtain ⟨-, -, rfl⟩ := Option.map_eq_some_iff.1 hread
      exact hc
    · exact hs.closed b c' hb hread

theorem Sees.look {a : Addr Owner} (ha : g.Knows i a) (path : List Nat) :
    h.look (some a) path = (ownRun i es g.heap).look (some a) path := by
  refine (look_congr (fun b hb => (hs.view b hb).symm) hs.closed ?_ path).symm
  rintro b ⟨⟩
  exact ha

end Sees

/-! ## The invariant -/

section Invariant

variable {M : Type} {K : ProtoClone M} {bps : List BuiltPipeline} {sent : Sent M}
  {es : List (Event M)} {e : Event M} {s s' : State M}

/-- The facts about what was handed over, none of which an action of a pipeline changes. -/
structure HandedWell (bps : List BuiltPipeline) (sent : Sent M) (size : Nat)
    (handed : List (Given M)) : Prop where
  count : handed.length ≤ bps.length
  size_le : (sent.heap .sender).length ≤ size
  held : ∀ (i : Nat) (g : Given M), handed[i]? = some g →
    ∀ a, g.Holds a → a.owner = .sender ∧ a.index < size
  fresh : ∀ (i : Nat) (g : Given M), handed[i]? = some g →
    (modes sent.data.type bps)[i]? = some .clone → ∀ a, g.Holds a →
    (sent.heap .sender).length ≤ a.index
  apart : ∀ (i j : Nat) (g g' : Given M), i ≠ j → handed[i]? = some g →
    handed[j]? = some g' → (modes sent.data.type bps)[i]? = some .clone →
    ∀ a, g.Holds a → ¬ g'.Holds a
  atCall : ∀ (i : Nat) (g : Given M), handed[i]? = some g → ∀ path,
    g.heap.look g.data.root path = sent.heap.look sent.data.root path

structure Inv (bps : List BuiltPipeline) (sent : Sent M) (es : List (Event M)) (s : State M) :
    Prop where
  handed : HandedWell bps sent (s.heap .sender).length s.handed
  sees : ∀ (i : Nat) (g : Given M), s.handed[i]? = some g → Sees es s.heap i g
  quiet : ∀ e ∈ es, ∀ i, e.actor = some i → i < s.handed.length
  empty : ∀ i, s.handed.length ≤ i → s.heap (.pipeline i) = []
  same : s.handed.length < bps.length → ∀ a, Reach sent.heap sent.data.root a →
    s.heap.read a = sent.heap.read a

variable {i : Nat} {g g' : Given M} {a : Addr Owner}

theorem mode_cases (ty : DataType) (hi : i < bps.length) :
    (modes ty bps)[i]? = some .original ∨ (modes ty bps)[i]? = some .clone := by
  have hlt : i < (modes ty bps).length := by rwa [length_modes]
  rw [getElem?_eq_getElem hlt]
  cases (modes ty bps)[i] with
  | original => exact .inl rfl
  | clone => exact .inr rfl

theorem any_of_mutates (h : mutates bps i) : bps.any BuiltPipeline.mutatesConsumedData := by
  unfold mutates at h
  cases hb : bps[i]? with
  | none =>
    rw [hb] at h
    cases h
  | some bp =>
    rw [hb] at h
    exact any_eq_true.2 ⟨bp, mem_of_getElem? hb, h⟩

theorem HandedWell.not_holds {size : Nat} {handed : List (Given M)}
    (hw : HandedWell bps sent size handed) {j : Nat} (hij : i ≠ j) (hi : handed[i]? = some g)
    (hj : handed[j]? = some g') (hm : mutates bps i) (ha : g.Holds a) : ¬ g'.Holds a := by
  have hlen := hw.count
  have hil := (List.getElem?_eq_some_iff.1 hi).1
  have hjl := (List.getElem?_eq_some_iff.1 hj).1
  rcases mode_cases sent.data.type (show i < bps.length by omega) with hmode | hmode
  · -- the pipeline is the last one, and the others were given clones
    have hlast := last_of_original (any_of_mutates hm) hmode
    rcases mode_cases sent.data.type (show j < bps.length by omega) with hmode' | hmode'
    · have hlast' := last_of_original (any_of_mutates hm) hmode'
      exact absurd (show i = j by omega) hij
    · exact fun ha' => hw.apart j i g' g hij.symm hj hi hmode' a ha' ha
  · exact hw.apart i j g g' hij hi hj hmode a ha

/-- While a hand-over is to come, no pipeline may write to the data itself. -/
theorem HandedWell.not_reach {size : Nat} {handed : List (Given M)}
    (hw : HandedWell bps sent size handed) (hpending : handed.length < bps.length)
    (hi : handed[i]? = some g) (hm : mutates bps i) (ha : g.Holds a) :
    ¬ Reach sent.heap sent.data.root a := by
  have hil := (List.getElem?_eq_some_iff.1 hi).1
  intro hr
  rcases mode_cases sent.data.type (show i < bps.length by omega) with hmode | hmode
  · have hlast := last_of_original (any_of_mutates hm) hmode
    omega
  · have hlo := hw.fresh i g hi hmode a ha
    have hhi := (sent.within a hr).2
    omega

theorem inv_start : Inv bps sent [] ⟨sent.heap, []⟩ where
  handed := ⟨Nat.zero_le _, Nat.le_refl _, nofun, nofun, nofun, nofun⟩
  sees := nofun
  quiet := nofun
  empty i _ := sent.empty i
  same _ _ _ := rfl

theorem Inv.act (hinv : Inv bps sent es s) {h' : Memory M} (hactor : e.actor = some i)
    (hi : s.handed[i]? = some g) (hown : Sees (es ++ [e]) h' i g)
    (hsize : (h' .sender).length = (s.heap .sender).length)
    (hother : ∀ j, i ≠ j → h' (.pipeline j) = s.heap (.pipeline j))
    (hheld : ∀ (j : Nat) (g' : Given M), i ≠ j → s.handed[j]? = some g' →
      ∀ a, g'.Holds a → h'.read a = s.heap.read a)
    (hsent : s.handed.length < bps.length → ∀ a, Reach sent.heap sent.data.root a →
      h'.read a = s.heap.read a) : Inv bps sent (es ++ [e]) ⟨h', s.handed⟩ where
  handed := by
    rw [hsize]
    exact hinv.handed
  sees j g' hj := by
    by_cases hij : i = j
    · subst hij
      obtain rfl := Option.some.inj (hi.symm.trans hj)
      exact hown
    · refine (hinv.sees j g' hj).frame ?_ fun a ha => ?_
      · rw [hactor]
        exact fun h => hij (Option.some.inj h)
      · rcases ha with ha | ha
        · exact hheld j g' hij hj a ha
        · exact read_eq_of_region (ha ▸ hother j hij)
  quiet e' he' j hj := by
    rcases mem_append.1 he' with he' | he'
    · exact hinv.quiet e' he' j hj
    · obtain rfl := mem_singleton.1 he'
      obtain rfl := Option.some.inj (hactor.symm.trans hj)
      exact (List.getElem?_eq_some_iff.1 hi).1
  empty j hj := by
    have hil := (List.getElem?_eq_some_iff.1 hi).1
    have hij : i ≠ j := fun h => absurd hj (Nat.not_le.2 (h ▸ hil))
    exact (hother j hij).trans (hinv.empty j hj)
  same hp a ha := (hsent hp a ha).trans (hinv.same hp a ha)

theorem getElem?_snoc {l : List (Given M)} (h : (l ++ [g])[i]? = some g') :
    l[i]? = some g' ∨ i = l.length ∧ g' = g := by
  rcases Nat.lt_trichotomy i l.length with hlt | rfl | hgt
  · rw [getElem?_append_left hlt] at h
    exact .inl h
  · rw [getElem?_concat_length] at h
    exact .inr ⟨rfl, (Option.some.inj h).symm⟩
  · rw [getElem?_eq_none (by rw [length_append]; exact hgt)] at h
    cases h

theorem ownRun_of_quiet (hq : ∀ e ∈ es, e.actor ≠ some i) (h : Memory M) : ownRun i es h = h := by
  unfold ownRun
  induction es with
  | nil => rfl
  | cons e es ih =>
    rw [foldl_cons, if_neg (hq e mem_cons_self)]
    exact ih fun e' he' => hq e' (mem_cons_of_mem _ he')

/-- The next pipeline is given cells that are new, or the data as it was sent. -/
structure HandsWell (bps : List BuiltPipeline) (sent : Sent M) (s : State M) (g : Given M) :
    Prop where
  pending : s.handed.length < bps.length
  grows : Grows .sender s.heap g.heap
  held : ∀ a, g.Holds a → a.owner = .sender ∧ a.index < (g.heap .sender).length
  fresh : (modes sent.data.type bps)[s.handed.length]? = some .clone →
    ∀ a, g.Holds a → (s.heap .sender).length ≤ a.index
  original : (modes sent.data.type bps)[s.handed.length]? = some .original →
    ∀ a, g.Holds a → Reach sent.heap sent.data.root a
  atCall : ∀ path, g.heap.look g.data.root path = sent.heap.look sent.data.root path

theorem HandsWell.not_holds (hg : HandsWell bps sent s g)
    (hw : HandedWell bps sent (s.heap .sender).length s.handed) (hi : s.handed[i]? = some g')
    (hmode : (modes sent.data.type bps)[i]? = some .clone) (ha : g'.Holds a) : ¬ g.Holds a := by
  intro hga
  rcases mode_cases sent.data.type hg.pending with hk | hk
  · have hlt := (sent.within a (hg.original hk a hga)).2
    have hle := hw.fresh i g' hi hmode a ha
    omega
  · have hle := hg.fresh hk a hga
    have hlt := (hw.held i g' hi a ha).2
    omega

theorem HandsWell.handedWell (hg : HandsWell bps sent s g)
    (hw : HandedWell bps sent (s.heap .sender).length s.handed) :
    HandedWell bps sent (g.heap .sender).length (s.handed ++ [g]) where
  count := by
    rw [length_append]
    exact hg.pending
  size_le := Nat.le_trans hw.size_le hg.grows.length_le
  held i g' hi a ha := by
    rcases getElem?_snoc hi with hi | ⟨rfl, rfl⟩
    · obtain ⟨ho, hlt⟩ := hw.held i g' hi a ha
      exact ⟨ho, Nat.lt_of_lt_of_le hlt hg.grows.length_le⟩
    · exact hg.held a ha
  fresh i g' hi hmode a ha := by
    rcases getElem?_snoc hi with hi | ⟨rfl, rfl⟩
    · exact hw.fresh i g' hi hmode a ha
    · exact Nat.le_trans hw.size_le (hg.fresh hmode a ha)
  apart i j g₁ g₂ hij hi hj hmode a ha ha' := by
    rcases getElem?_snoc hi with hi' | ⟨rfl, rfl⟩
    · rcases getElem?_snoc hj with hj' | ⟨rfl, rfl⟩
      · exact hw.apart i j g₁ g₂ hij hi' hj' hmode a ha ha'
      · exact hg.not_holds hw hi' hmode ha ha'
    · rcases getElem?_snoc hj with hj' | ⟨rfl, -⟩
      · have hle := hg.fresh hmode a ha
        have hlt := (hw.held j g₂ hj' a ha').2
        omega
      · exact hij rfl
  atCall i g' hi path := by
    rcases getElem?_snoc hi with hi | ⟨rfl, rfl⟩
    · exact hw.atCall i g' hi path
    · exact hg.atCall path

theorem sees_of_quiet (hq : ∀ e ∈ es, e.actor ≠ some i) (hempty : g.heap (.pipeline i) = []) :
    Sees es g.heap i g where
  view a _ := by rw [ownRun_of_quiet hq]
  closed a c ha hc b hb := by
    rcases ha with ha | ha
    · exact .inl (ha.child hc hb)
    · have hlt := lt_of_read hc
      rw [ha, hempty] at hlt
      cases hlt

theorem Inv.hand (hinv : Inv bps sent es s) (hg : HandsWell bps sent s g) :
    Inv bps sent (es ++ [.hand]) ⟨g.heap, s.handed ++ [g]⟩ := by
  have hw := hinv.handed
  have hread : ∀ a, a.owner = .sender → a.index < (s.heap .sender).length →
      g.heap.read a = s.heap.read a := by
    intro a ho hlt
    obtain ⟨c, hc⟩ := Option.isSome_iff_exists.1 (read_isSome.2 (ho ▸ hlt) : (s.heap.read a).isSome)
    rw [hc, hg.grows.read hc]
  have hregion : ∀ i, g.heap (.pipeline i) = s.heap (.pipeline i) := fun i =>
    hg.grows.other _ nofun
  have hquiet : ∀ e ∈ es ++ [Event.hand], ∀ i, e.actor = some i → i < s.handed.length := by
    intro e he i hactor
    rcases mem_append.1 he with he | he
    · exact hinv.quiet e he i hactor
    · obtain rfl := mem_singleton.1 he
      cases hactor
  refine ⟨hg.handedWell hw, fun i g' hi => ?_, fun e he i hactor => ?_, fun i hi => ?_,
    fun _ a ha => ?_⟩
  · rcases getElem?_snoc hi with hi | ⟨rfl, rfl⟩
    · refine (hinv.sees i g' hi).frame nofun fun a ha => ?_
      rcases ha with ha | ha
      · obtain ⟨ho, hlt⟩ := hw.held i g' hi a ha
        exact hread a ho hlt
      · exact read_eq_of_region (ha ▸ hregion i)
    · refine sees_of_quiet (fun e he hactor => Nat.lt_irrefl _ (hquiet e he _ hactor)) ?_
      exact (hregion _).trans (hinv.empty _ (Nat.le_refl _))
  · rw [length_append]
    exact Nat.lt_of_lt_of_le (hquiet e he i hactor) (Nat.le_add_right _ _)
  · rw [length_append] at hi
    exact (hregion i).trans (hinv.empty i (Nat.le_trans (Nat.le_add_right _ _) hi))
  · obtain ⟨ho, hlt⟩ := sent.within a ha
    rw [hread a ho (Nat.lt_of_lt_of_le hlt hw.size_le)]
    exact hinv.same hg.pending a ha

theorem Inv.sent_within (hinv : Inv bps sent es s) (hpending : s.handed.length < bps.length) :
    Within .sender s.heap sent.data.root ∧ sent.data.Shaped s.heap ∧
      (∀ a, Reach s.heap sent.data.root a → Reach sent.heap sent.data.root a) ∧
      ∀ path, s.heap.look sent.data.root path = sent.heap.look sent.data.root path := by
  have hsame := hinv.same hpending
  have hreach : ∀ a, Reach s.heap sent.data.root a → Reach sent.heap sent.data.root a :=
    fun a ha => reach_congr hsame (closed_reach _ _) (fun _ he => .root he) ha
  refine ⟨fun a ha => ?_, sent.shaped.congr hsame, hreach, fun path => ?_⟩
  · obtain ⟨ho, hlt⟩ := sent.within a (hreach a ha)
    exact ⟨ho, Nat.lt_of_lt_of_le hlt hinv.handed.size_le⟩
  · exact look_congr hsame (closed_reach _ _) (fun _ he => .root he) path

theorem Inv.step (hinv : Inv bps sent es s) (hstep : Step K bps sent s e s') :
    Inv bps sent (es ++ [e]) s' := by
  have hlt : ∀ {m : Mode}, (modes sent.data.type bps)[s.handed.length]? = some m →
      s.handed.length < bps.length := by
    intro m hm
    rw [← length_modes sent.data.type bps]
    exact (List.getElem?_eq_some_iff.1 hm).1
  cases hstep with
  | original hmode =>
    obtain ⟨hwithin, -, hreach, hlook⟩ := hinv.sent_within (hlt hmode)
    refine hinv.hand (g := ⟨s.heap, sent.data⟩)
      ⟨hlt hmode, .refl _ _, hwithin, fun h => ?_, fun _ => hreach, hlook⟩
    rw [hmode] at h
    cases h
  | @clone h data hmode hclone =>
    obtain ⟨hwithin, hshaped, -, hlook⟩ := hinv.sent_within (hlt hmode)
    obtain ⟨h', data', hclone', hcopied⟩ := clone_copied K hwithin hshaped
    rw [hclone] at hclone'
    cases hclone'
    refine hinv.hand (g := ⟨h, data⟩) ⟨hlt hmode, hcopied.grows, hcopied.within,
      fun _ a ha => (hcopied.fresh a ha).2.1, fun h => ?_, fun path => ?_⟩
    · rw [hmode] at h
      cases h
    · exact (hcopied.look path).trans (hlook path)
  | @alloc i g c hi hc =>
    refine hinv.act rfl hi ((hinv.sees i g hi).alloc hc) ?_ (fun j hij => ?_)
      (fun j g' hij hj a ha => ?_) fun _ a ha => ?_
    · rw [alloc_other _ _ (show Owner.sender ≠ .pipeline i from nofun)]
    · exact alloc_other _ _ fun h => hij (Owner.pipeline.inj h).symm
    · refine read_eq_of_region (alloc_other _ _ ?_)
      rw [(hinv.handed.held j g' hj a ha).1]
      nofun
    · refine read_eq_of_region (alloc_other _ _ ?_)
      rw [(sent.within a ha).1]
      nofun
  | @write i g a c hi ha hc hmay =>
    -- a cell that the pipeline may write is its own or under the data it was given
    have hkept : ∀ b, b.owner = .sender → (mutates bps i → g.Holds a → a ≠ b) →
        (s.heap.write a c).read b = s.heap.read b := by
      intro b ho hb
      rw [read_write, if_neg]
      rintro rfl
      rcases hmay with hm | hm
      · rcases ha with ha | ha
        · exact hb hm ha rfl
        · rw [ho] at ha
          cases ha
      · rw [ho] at hm
        cases hm
    refine hinv.act rfl hi ((hinv.sees i g hi).write ha hc) (length_write _ _ _ _)
      (fun j hij => ?_) (fun j g' hij hj b hb => ?_) fun hp b hb => ?_
    · refine Function.update_of_ne (fun h => ?_) _ _
      rcases ha with ha | ha
      · rw [(hinv.handed.held i g hi a ha).1] at h
        cases h
      · rw [ha] at h
        exact hij (Owner.pipeline.inj h).symm
    · refine hkept b (hinv.handed.held j g' hj b hb).1 fun hm ha' he => ?_
      exact hinv.handed.not_holds hij hi hj hm ha' (he ▸ hb)
    · refine hkept b (sent.within b hb).1 fun hm ha' he => ?_
      exact hinv.handed.not_reach hp hi hm ha' (he ▸ hb)

theorem Run.inv (hrun : Run K bps sent es s) : Inv bps sent es s := by
  induction hrun with
  | start => exact inv_start
  | step _ hstep ih => exact ih.step hstep

end Invariant

/-! ## Isolation -/

section Isolation

variable {M : Type} {K : ProtoClone M} {bps : List BuiltPipeline} {sent : Sent M}
  {es : List (Event M)} {s : State M}

/-- What pipeline `i` observes is the data that was sent, changed by the pipeline alone. -/
structure Isolated (sent : Sent M) (es : List (Event M)) (s : State M) (i : Nat) (g : Given M) :
    Prop where
  atCall : ∀ path, g.heap.look g.data.root path = sent.heap.look sent.data.root path
  later : ∀ path, s.heap.look g.data.root path =
    (ownRun i es g.heap).look g.data.root path
  known : ∀ a, g.Knows i a → ∀ path, s.heap.look (some a) path =
    (ownRun i es g.heap).look (some a) path

/-- **Isolation.** At every moment of every run, each pipeline that was given the data observes
it as it was sent, changed by the pipeline alone; and the next pipeline can be given it. -/
theorem isolation (hrun : Run K bps sent es s) :
    (∀ (i : Nat) (g : Given M), s.handed[i]? = some g → Isolated sent es s i g) ∧
      (s.handed.length < bps.length → ∃ s', Step K bps sent s .hand s') := by
  have hinv := hrun.inv
  refine ⟨fun i g hi => ⟨hinv.handed.atCall i g hi, fun path => ?_, fun a ha path => ?_⟩,
    fun hpending => ?_⟩
  · cases hroot : g.data.root with
    | none => rw [look_none, look_none]
    | some a => exact (hinv.sees i g hi).look (.inl (.root hroot)) path
  · exact (hinv.sees i g hi).look ha path
  · obtain ⟨hwithin, hshaped, -⟩ := hinv.sent_within hpending
    rcases mode_cases sent.data.type hpending with hmode | hmode
    · exact ⟨_, .original hmode⟩
    · obtain ⟨h', data', hclone, -⟩ := clone_copied K hwithin hshaped
      exact ⟨_, .clone hmode hclone⟩

end Isolation

section Example

/-- Cloning by a copy of all cells of the receiver. -/
def regionClone (M : Type) : ProtoClone M where
  clone := copyRegion .sender
  deep _ _ hw := copied_copyRegion hw

/-- A batch of one message, sent to two pipelines of which the first mutates it. -/
def oneMessage : Sent Nat where
  heap
    | .sender => [⟨.slice, [some ⟨.sender, 1⟩]⟩, ⟨.message 7, []⟩]
    | .pipeline _ => []
  data := .traces (some ⟨.sender, 0⟩)
  shaped := ⟨_, _, rfl, rfl⟩
  within a ha := by
    refine ha.mem_closed (T := fun a => a.owner = .sender ∧ a.index < 2) ?_ ?_
    · rintro ⟨o, n⟩ c ⟨rfl, hn⟩ hc b hb
      match n, hn with
      | 0, _ =>
        cases hc
        obtain rfl := Option.some.inj (List.mem_singleton.1 hb)
        exact ⟨rfl, by decide⟩
      | 1, _ =>
        cases hc
        cases hb
    · rintro a ⟨⟩
      exact ⟨rfl, by decide⟩
  empty _ := rfl

def firstMutates : List BuiltPipeline := [⟨.const .nil, true, []⟩, ⟨.const .nil, false, []⟩]

/-- The first pipeline overwrites its message before the second is called. -/
def overwriting : List (Event Nat) := [.hand, .write 0 ⟨.sender, 3⟩ ⟨.message 8, []⟩, .hand]

theorem run_overwriting : ∃ s, Run (regionClone Nat) firstMutates oneMessage overwriting s ∧
    s.heap.look (some ⟨.sender, 4⟩) [0] = some (.message 8, []) ∧
    s.heap.look (some ⟨.sender, 0⟩) [0] = some (.message 7, []) := by
  have h₁ : Run (regionClone Nat) firstMutates oneMessage [] ⟨oneMessage.heap, []⟩ := .start
  have h₂ := h₁.step (.clone rfl rfl)
  have h₃ := h₂.step (.write (i := 0) (a := ⟨.sender, 3⟩) (c := ⟨.message 8, []⟩) rfl
    (.inl ((Reach.root rfl).child rfl (mem_singleton.2 rfl))) nofun (.inl rfl))
  exact ⟨_, h₃.step (.original rfl), rfl, rfl⟩

/-- Each of the two pipelines observes its own message. -/
theorem isolation_overwriting :
    ∃ s, Run (regionClone Nat) firstMutates oneMessage overwriting s ∧
      (∀ (i : Nat) (g : Given Nat), s.handed[i]? = some g →
        Isolated oneMessage overwriting s i g) ∧
      s.heap.look (some ⟨.sender, 4⟩) [0] = some (.message 8, []) ∧
      s.heap.look (some ⟨.sender, 0⟩) [0] = some (.message 7, []) := by
  obtain ⟨s, hrun, hfirst, hsecond⟩ := run_overwriting
  exact ⟨s, hrun, (isolation hrun).1, hfirst, hsecond⟩

end Example

end Collector.Fanout
