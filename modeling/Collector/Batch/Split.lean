import Collector.Go.Runtime
import Collector.Lib.Guarded
import Collector.Lib.Returns
import Collector.Pdata.Traces

/-!
# Splitting a trace

What `processor/batchprocessor/splittraces.go` does to a trace, over any types of resources,
libraries and spans: from the back, spans move to a new trace until there are enough, with the
libraries and resources that hold them. The indices and the copies are left to
`Batch.SplitLoops`, where the loops of the source are shown to do this.
-/

namespace Collector.Batch

open Lib Pdata.Scoped List

variable {R L X : Type}

/-- What the loop over the libraries of a resource leaves. -/
structure LibrarySplit (L X : Type) where
  /-- The libraries of the new resource, from the last one on. -/
  moved : List (Option (LibrarySpans L X))
  /-- The libraries that stay, from the last one on. -/
  kept : List (Option (LibrarySpans L X))
  /-- `size - copiedSpans`. -/
  left : Nat
  /-- Enough has moved, and `splitTrace` returns. -/
  done : Bool

/-- The loop over the libraries of a resource, which are given from the last one on, with `left`
spans still to move. -/
def splitLibraries : Nat → List (Option (LibrarySpans L X)) → Go (LibrarySplit L X)
  | left, [] => .ok ⟨[], [], left, false⟩
  | left, ils :: ilss => do
    let instSpans ← deref ils
    let moved := instSpans.spans.reverse.take left
    let spans := (instSpans.spans.reverse.drop left).reverse
    let kept := if spans.length = 0 then ilss else some { instSpans with spans } :: ilss
    let destInstSpans := some { instSpans with spans := moved }
    if left - moved.length = 0 then return ⟨[destInstSpans], kept, 0, true⟩
    else do
      -- the spans of this library did not suffice, and it is gone
      let rest ← splitLibraries (left - moved.length) ilss
      return { rest with moved := destInstSpans :: rest.moved }

/-- The loop over the resources, which are given from the last one on: the new ones, and those that
stay, from the last one on. -/
def splitResources : Nat → Traces R L X → Go (Traces R L X × Traces R L X)
  | _, [] => .ok ([], [])
  | left, rs :: rss => do
    let rs ← deref rs
    let split ← splitLibraries left rs.libraries.reverse
    let destRs := some { rs with libraries := split.moved }
    if split.done then
      return ([destRs], some { rs with libraries := split.kept.reverse } :: rss)
    else do
      -- all its libraries are gone, and so is the resource
      let (dest, kept) ← splitResources split.left rss
      return (destRs :: dest, kept)

/-- `splitTrace`: the new trace, and what is left in the one that was split. A trace that is small
enough is returned itself, and nothing is left apart from it. -/
def splitTrace (size : Nat) (toSplit : Traces R L X) :
    Go (Traces R L X × Option (Traces R L X)) :=
  if spanCount toSplit ≤ size then .ok (toSplit, none)
  else do
    let (result, kept) ← splitResources size toSplit.reverse
    return (result, some kept.reverse)

/-! ## What moves

From the last span on: the new trace gets the first spans in this order, and the others stay. -/

theorem take_append_past {xs ys : List X} {n : Nat} (h : xs.length ≤ n) :
    (xs ++ ys).take n = xs ++ ys.take (n - xs.length) := by
  rw [take_append, take_of_length_le h]

theorem drop_append_past {xs ys : List X} {n : Nat} (h : xs.length ≤ n) :
    (xs ++ ys).drop n = ys.drop (n - xs.length) := by
  rw [drop_append, drop_of_length_le h, nil_append]

def librariesBackwards (ilss : List (Option (LibrarySpans L X))) : List (L × X) :=
  (librarySpans ilss.reverse).reverse

def backwards (rss : Traces R L X) : List (R × L × X) := (spansOf rss.reverse).reverse

theorem librariesBackwards_cons (ils : LibrarySpans L X)
    (ilss : List (Option (LibrarySpans L X))) :
    librariesBackwards (some ils :: ilss) =
      (ils.spans.reverse.map fun span => (ils.library, span)) ++ librariesBackwards ilss := by
  simp [librariesBackwards, librarySpans]

theorem backwards_cons (rs : ResourceSpans R L X) (rss : Traces R L X) :
    backwards (some rs :: rss) =
      ((librariesBackwards rs.libraries.reverse).map fun span => (rs.resource, span)) ++
        backwards rss := by
  simp [backwards, spansOf, resourceSpans, librariesBackwards]

theorem librariesBackwards_drop_empty (ils : LibrarySpans L X)
    (ilss : List (Option (LibrarySpans L X))) :
    librariesBackwards (if ils.spans.length = 0 then ilss else some ils :: ilss) =
      librariesBackwards (some ils :: ilss) := by
  split
  case isTrue hempty =>
    rw [librariesBackwards_cons, length_eq_zero_iff.1 hempty]
    rfl
  case isFalse => rfl

structure LibrarySplit.Sound (split : LibrarySplit L X) (left : Nat)
    (ilss : List (Option (LibrarySpans L X))) : Prop where
  moved : librarySpans split.moved = (librariesBackwards ilss).take left
  kept : librariesBackwards split.kept = (librariesBackwards ilss).drop left
  remaining : split.left = left - (librariesBackwards ilss).length
  done : split.done = true → left ≤ (librariesBackwards ilss).length
  rest : split.done = false → split.kept = []

theorem splitLibraries_sound {left : Nat} {ilss : List (Option (LibrarySpans L X))}
    {split : LibrarySplit L X} (h : splitLibraries left ilss = .ok split) :
    split.Sound left ilss := by
  induction ilss generalizing left split with
  | nil =>
    cases h
    exact ⟨take_nil.symm, drop_nil.symm, rfl, nofun, fun _ => rfl⟩
  | cons ils ilss ih =>
    cases ils with
    | none => cases h
    | some instSpans =>
      simp only [splitLibraries, deref_some, ok_bind] at h
      split at h
      case isTrue hdone =>
        cases h
        have hle : left ≤ (instSpans.spans.reverse.map fun span =>
            (instSpans.library, span)).length := by
          rw [length_take, length_reverse] at hdone
          rw [length_map, length_reverse]
          omega
        refine ⟨?_, ?_, ?_, fun _ => ?_, nofun⟩
        · rw [librariesBackwards_cons, take_append_of_le_length hle, ← map_take]
          exact append_nil _
        · have hkept := librariesBackwards_drop_empty
            { instSpans with spans := (instSpans.spans.reverse.drop left).reverse } ilss
          rw [hkept, librariesBackwards_cons, librariesBackwards_cons, drop_append_of_le_length hle,
            ← map_drop, reverse_reverse]
        · rw [librariesBackwards_cons, length_append]
          exact (Nat.sub_eq_zero_of_le (Nat.le_add_right_of_le hle)).symm
        · rw [librariesBackwards_cons, length_append]
          exact Nat.le_add_right_of_le hle
      case isFalse hmore =>
        obtain ⟨rest, hrest, h⟩ := bind_eq_ok.1 h
        cases h
        rw [length_take, length_reverse] at hmore hrest
        have hall : instSpans.spans.length ≤ left := by omega
        rw [Nat.min_eq_right hall] at hrest
        have hsound := ih hrest
        have hlength : (instSpans.spans.reverse.map fun span =>
            (instSpans.library, span)).length = instSpans.spans.length := by simp
        have hreverse : instSpans.spans.reverse.take left = instSpans.spans.reverse :=
          take_of_length_le (by simpa using hall)
        rw [← hlength] at hall hsound
        refine ⟨?_, ?_, ?_, fun hdone => ?_, hsound.rest⟩
        · rw [librariesBackwards_cons, take_append_past hall, ← hsound.moved, librarySpans_cons]
          dsimp only
          rw [hreverse]
        · rw [librariesBackwards_cons, drop_append_past hall]
          exact hsound.kept
        · rw [librariesBackwards_cons, length_append, Nat.sub_add_eq]
          exact hsound.remaining
        · have hdone := hsound.done hdone
          rw [librariesBackwards_cons, length_append]
          omega

variable {rss : Traces R L X}

/-- **A split moves the last spans**, as many as it is asked to, each with its resource and
library. -/
theorem splitResources_sound {left : Nat} {dest kept : Traces R L X}
    (h : splitResources left rss = .ok (dest, kept)) :
    spansOf dest = (backwards rss).take left ∧ backwards kept = (backwards rss).drop left := by
  induction rss generalizing left dest kept with
  | nil =>
    cases h
    exact ⟨take_nil.symm, drop_nil.symm⟩
  | cons rs rss ih =>
    cases rs with
    | none => cases h
    | some rs =>
      simp only [splitResources, deref_some, ok_bind] at h
      obtain ⟨split, hsplit, h⟩ := bind_eq_ok.1 h
      have hsound := splitLibraries_sound hsplit
      have hlength : ((librariesBackwards rs.libraries.reverse).map fun span =>
          (rs.resource, span)).length = (librariesBackwards rs.libraries.reverse).length :=
        length_map _
      split at h
      case isTrue hdone =>
        cases h
        have hle := hlength.symm ▸ hsound.done hdone
        constructor
        · rw [backwards_cons, take_append_of_le_length hle, ← map_take, ← hsound.moved]
          exact append_nil _
        · rw [backwards_cons, backwards_cons, reverse_reverse, hsound.kept, map_drop,
            drop_append_of_le_length hle]
      case isFalse hdone =>
        obtain ⟨⟨dest', kept'⟩, hrest, h⟩ := bind_eq_ok.1 h
        cases h
        have hkept := hsound.kept
        rw [hsound.rest (by simpa using hdone)] at hkept
        have hall := drop_eq_nil_iff.1 hkept.symm
        have hmoved : librarySpans split.moved = librariesBackwards rs.libraries.reverse :=
          hsound.moved.trans (take_of_length_le hall)
        obtain ⟨hdest, hrest⟩ := ih hrest
        rw [hsound.remaining, ← hlength] at hdest hrest
        rw [← hlength] at hall
        constructor
        · rw [backwards_cons, take_append_past hall, ← hdest, spansOf_cons, resourceSpans, hmoved]
        · rw [backwards_cons, drop_append_past hall]
          exact hrest

/-- What a split makes of a trace: the last spans, and the others. -/
structure Parts (size : Nat) (td part kept : Traces R L X) : Prop where
  large : size < spanCount td
  moved : spansOf part = (spansOf td).reverse.take size
  kept : (spansOf kept).reverse = (spansOf td).reverse.drop size

theorem splitTrace_cases {size : Nat} {td part : Traces R L X} {left : Option (Traces R L X)}
    (h : splitTrace size td = .ok (part, left)) :
    (spanCount td ≤ size ∧ part = td ∧ left = none) ∨
      ∃ kept, left = some kept ∧ Parts size td part kept := by
  unfold splitTrace at h
  split at h
  case isTrue hsmall =>
    cases h
    exact .inl ⟨hsmall, rfl, rfl⟩
  case isFalse hlarge =>
    obtain ⟨⟨result, kept⟩, hsplit, h⟩ := bind_eq_ok.1 h
    cases h
    obtain ⟨hmoved, hkept⟩ := splitResources_sound hsplit
    have hback : backwards td.reverse = (spansOf td).reverse := by rw [backwards, reverse_reverse]
    rw [hback] at hmoved hkept
    exact .inr ⟨kept.reverse, rfl, Nat.lt_of_not_le hlarge, hmoved, hkept⟩

namespace Parts

variable {size : Nat} {td part kept : Traces R L X} (h : Parts size td part kept)

include h

theorem count : spanCount part = size := by
  rw [← length_spansOf, h.moved, length_take, length_reverse, length_spansOf]
  exact Nat.min_eq_left (Nat.le_of_lt h.large)

/-- **A split moves spans and loses none**, each with its resource and library. -/
theorem perm : (spansOf part ++ spansOf kept).Perm (spansOf td) :=
  calc
    (spansOf part ++ spansOf kept).Perm (spansOf part ++ (spansOf kept).reverse) :=
      (reverse_perm _).symm.append_left _
    _ = (spansOf td).reverse := by rw [h.moved, h.kept, take_append_drop]
    List.Perm _ (spansOf td) := reverse_perm _

end Parts

/-! ## Traces without nil elements -/

def NoNil (td : Traces R L X) : Prop := ∀ rs ∈ td, ∃ r, rs = some r ∧ none ∉ r.libraries

theorem returns_splitLibraries {ilss : List (Option (LibrarySpans L X))} (h : none ∉ ilss)
    (left : Nat) : Returns (splitLibraries left ilss) := by
  induction ilss generalizing left with
  | nil => exact returns_ok _
  | cons ils ilss ih =>
    obtain ⟨hne, hrest⟩ := not_or.1 (mt mem_cons.2 h)
    obtain ⟨ils, rfl⟩ := Option.ne_none_iff_exists'.1 (Ne.symm hne)
    simp only [splitLibraries, deref_some, ok_bind]
    split
    case isTrue => exact returns_ok _
    case isFalse => exact returns_bind_pure.2 (ih hrest _)

theorem returns_splitResources (h : NoNil rss) (left : Nat) :
    Returns (splitResources left rss) := by
  induction rss generalizing left with
  | nil => exact returns_ok _
  | cons rs rss ih =>
    obtain ⟨⟨rs, rfl, hlibs⟩, hrest⟩ := forall_mem_cons.1 h
    obtain ⟨split, hsplit⟩ := returns_splitLibraries (mt mem_reverse.1 hlibs) left
    simp only [splitResources, deref_some, ok_bind, hsplit]
    split
    case isTrue => exact returns_ok _
    case isFalse => exact returns_bind_pure.2 (ih hrest _)

/-- A trace that is too large is split. -/
theorem splitTrace_parts {size : Nat} {td : Traces R L X} (hnil : NoNil td)
    (hlarge : size < spanCount td) :
    ∃ part kept, splitTrace size td = .ok (part, some kept) ∧ Parts size td part kept := by
  have hreverse : NoNil td.reverse := fun rs hrs => hnil rs (mem_reverse.1 hrs)
  obtain ⟨⟨part, kept⟩, hsplit⟩ := returns_splitResources hreverse size
  have hrun : splitTrace size td = .ok (part, some kept.reverse) := by
    rw [splitTrace, if_neg (Nat.not_le.2 hlarge), hsplit]
    rfl
  obtain ⟨hsmall, -⟩ | ⟨_, ⟨rfl⟩, hparts⟩ := splitTrace_cases hrun
  · exact absurd hlarge (Nat.not_lt.2 hsmall)
  · exact ⟨part, kept.reverse, hrun, hparts⟩

end Collector.Batch
