import Collector.Pdata.Attributes

/-!
# Copies of maps, on trees

`AttributeMap.CopyTo` of `consumer/pdata/common.go` on the trees of `Pdata.Attributes`. The
entries of the destination are reused where there are enough of them, and so are the
elements of an array that a value of it holds. What is there before matters in one
place: a nil element that is copied onto a nil element (`AnyValue.Fits`).
-/

namespace Collector.Pdata

open List

variable {F : Type}

/-- The message of an entry into which another one is copied. -/
def AnyValue.orNull : AnyValue F → AnyValue F
  | .nil => .null
  | w => w

/-- The loop of `AttributeMap.CopyTo` that reuses the entries of the destination, on trees. -/
def copyEntries : List (KeyValue F) → List (KeyValue F) → Go (List (KeyValue F))
  | [], _ => .ok []
  | .mk k v :: kvs, .mk _ w :: ds => do
    let copied ← v.copyTo w.orNull
    let rest ← copyEntries kvs ds
    return .mk k copied :: rest
  | _ :: _, _ => .error .nilDereference

/-- `AttributeMap.CopyTo` on trees. -/
def AttributeMap.copyTo (kvs ds : List (KeyValue F)) : Go (List (KeyValue F)) :=
  if kvs.length ≤ ds.length then copyEntries kvs (ds.take kvs.length) else initFromAttributeMap kvs

/-! ## What fits -/

mutual
/-- No nil element is copied onto a nil element of an array that is reused. -/
def AnyValue.Fits : AnyValue F → AnyValue F → Prop
  | .array vs, .array ws => vs.length ≤ ws.length → ElementsFit vs ws
  | _, _ => True

def ElementsFit : List (AnyValue F) → List (AnyValue F) → Prop
  | v :: vs, w :: ws => ¬ (v = .nil ∧ w = .nil) ∧ v.Fits w ∧ ElementsFit vs ws
  | _, _ => True
end

def EntriesFit : List (KeyValue F) → List (KeyValue F) → Prop
  | .mk _ v :: kvs, .mk _ w :: ds => v.Fits w ∧ EntriesFit kvs ds
  | _, _ => True

def MapFits (kvs ds : List (KeyValue F)) : Prop := kvs.length ≤ ds.length → EntriesFit kvs ds

theorem AnyValue.fits_of_ne_array (v : AnyValue F) {w : AnyValue F} (h : ∀ ws, w ≠ .array ws) :
    v.Fits w := by
  cases v with
  | array vs =>
    cases w with
    | array ws => exact absurd rfl (h ws)
    | _ => simp [AnyValue.Fits]
  | _ => simp [AnyValue.Fits]

theorem elementsFit_replicate (vs : List (AnyValue F)) (n : Nat) :
    ElementsFit vs (List.replicate n .null) := by
  induction vs generalizing n with
  | nil => simp [ElementsFit]
  | cons v vs ih =>
    cases n with
    | zero => simp [ElementsFit]
    | succ n =>
      exact ⟨by simp, v.fits_of_ne_array (by simp), ih n⟩

theorem elementsFit_take {vs ws : List (AnyValue F)} :
    ElementsFit vs (ws.take vs.length) ↔ ElementsFit vs ws := by
  induction vs generalizing ws with
  | nil => simp [ElementsFit]
  | cons v vs ih =>
    cases ws with
    | nil => simp
    | cons w ws => rw [length_cons, take_succ_cons, ElementsFit, ElementsFit, ih]

theorem elementsFit_room {vs : List (AnyValue F)} (w : AnyValue F) :
    ElementsFit vs (w.room vs.length) ↔ (AnyValue.array vs).Fits w := by
  cases w with
  | array ws =>
    rw [AnyValue.room, AnyValue.Fits]
    by_cases h : vs.length ≤ ws.length
    · rw [if_pos h, elementsFit_take]
      exact ⟨fun hfit _ => hfit, fun hfit => hfit h⟩
    · rw [if_neg h]
      exact iff_of_true (elementsFit_replicate vs _) fun hle => absurd hle h
  | _ => exact iff_of_true (elementsFit_replicate vs _) (AnyValue.fits_of_ne_array _ (by simp))

theorem elementsFit_cons {v : AnyValue F} {vs ws : List (AnyValue F)} :
    ElementsFit (v :: vs) ws ↔ ¬ (v = .nil ∧ ws.headD .null = .nil) ∧ v.Fits (ws.headD .null) ∧
      ElementsFit vs ws.tail := by
  cases ws with
  | nil =>
    refine iff_of_true (by simp [ElementsFit]) ⟨by simp, v.fits_of_ne_array (by simp), ?_⟩
    exact elementsFit_replicate vs 0
  | cons w ws => rw [ElementsFit, headD_cons, tail_cons]

theorem AnyValue.fits_ready (v w : AnyValue F) : v.Fits (v.ready w) ↔ v.Fits w := by
  cases v <;> cases w <;> simp [AnyValue.ready, AnyValue.Fits]

theorem AnyValue.ready_eq_nil {v w : AnyValue F} : v.ready w = .nil ↔ v = .nil ∧ w = .nil := by
  cases v <;> cases w <;> simp [AnyValue.ready]

mutual
/-- **Copies onto a message** fail on nil entries, and where nil meets nil. -/
theorem AnyValue.copyTo_iff : ∀ {v w r : AnyValue F}, w ≠ .nil →
    (v.copyTo w = .ok r ↔ v.EntriesPresent ∧ v.Fits w ∧ v.norm = r)
  | .kvlist kvs, w, r, hw => by
    have hfits : (AnyValue.kvlist kvs).Fits w := by simp [AnyValue.Fits]
    rw [AnyValue.copyTo, Lib.bind_eq_ok, AnyValue.EntriesPresent, AnyValue.norm]
    simp [initFromAttributeMap_iff, AnyValue.replace_ok hw, pure, Except.pure, hfits]
  | .array vs, w, r, hw => by
    rw [AnyValue.copyTo, Lib.bind_eq_ok, AnyValue.EntriesPresent, AnyValue.norm]
    simp [copyElements_fit_iff, elementsFit_room, AnyValue.replace_ok hw, pure, Except.pure,
      and_assoc]
  | .nil, w, r, hw | .null, w, r, hw | .string _, w, r, hw | .bool _, w, r, hw
  | .int _, w, r, hw | .double _, w, r, hw | .kvlistNil, w, r, hw | .arrayNil, w, r, hw => by
    simp [AnyValue.copyTo, AnyValue.assign_ok hw, AnyValue.replace_ok hw, AnyValue.EntriesPresent,
      AnyValue.norm, AnyValue.Fits]

theorem copyElements_fit_iff : ∀ {vs ws rs : List (AnyValue F)},
    copyElements vs ws = .ok rs ↔ ElementsPresent vs ∧ ElementsFit vs ws ∧ normElements vs = rs
  | [], ws, rs => by simp [copyElements, ElementsPresent, ElementsFit, normElements]
  | v :: vs, ws, rs => by
    rw [copyElements, elementsFit_cons, ElementsPresent, normElements]
    by_cases hnil : v = .nil ∧ ws.headD .null = .nil
    · obtain ⟨rfl, hw⟩ := hnil
      rw [hw]
      exact iff_of_false (fun h => by cases h) fun h => h.2.1.1 ⟨rfl, rfl⟩
    · have hready : v.ready (ws.headD .null) ≠ .nil := fun h => hnil (AnyValue.ready_eq_nil.1 h)
      simp only [Lib.bind_eq_ok, AnyValue.copyTo_iff hready, copyElements_fit_iff,
        AnyValue.fits_ready, pure, Except.pure, Except.ok.injEq, hnil, not_false_eq_true, true_and]
      constructor
      · rintro ⟨r, ⟨hv, hfit, rfl⟩, rs', ⟨hvs, hfits, rfl⟩, rfl⟩
        exact ⟨⟨hv, hvs⟩, ⟨hfit, hfits⟩, rfl⟩
      · rintro ⟨⟨hv, hvs⟩, ⟨hfit, hfits⟩, rfl⟩
        exact ⟨_, ⟨hv, hfit, rfl⟩, _, ⟨hvs, hfits, rfl⟩, rfl⟩
end

theorem AnyValue.orNull_ne_nil (w : AnyValue F) : w.orNull ≠ .nil := by
  cases w <;> simp [AnyValue.orNull]

theorem AnyValue.fits_orNull (v w : AnyValue F) : v.Fits w.orNull ↔ v.Fits w := by
  cases v <;> cases w <;> simp [AnyValue.orNull, AnyValue.Fits]

theorem copyEntries_iff {kvs ds rs : List (KeyValue F)} (hlen : kvs.length ≤ ds.length)
    (hds : KeyValue.nil ∉ ds) :
    copyEntries kvs ds = .ok rs ↔ MapPresent kvs ∧ EntriesFit kvs ds ∧ normEntries kvs = rs := by
  induction kvs generalizing ds rs with
  | nil => simp [copyEntries, MapPresent, EntriesFit, normEntries]
  | cons kv kvs ih =>
    cases ds with
    | nil => exact absurd hlen (Nat.not_succ_le_zero _)
    | cons d ds =>
      rw [mem_cons, not_or] at hds
      cases kv with
      | nil =>
        exact iff_of_false (fun h => by cases h) fun h => h.1
      | mk k v =>
        cases d with
        | nil => exact absurd rfl hds.1
        | mk k' w =>
          rw [copyEntries, MapPresent, EntriesFit, normEntries]
          simp only [Lib.bind_eq_ok, AnyValue.copyTo_iff w.orNull_ne_nil, AnyValue.fits_orNull,
            ih (Nat.le_of_succ_le_succ hlen) hds.2, pure, Except.pure, Except.ok.injEq]
          constructor
          · rintro ⟨r, ⟨hv, hfit, rfl⟩, rs', ⟨hkvs, hfits, rfl⟩, rfl⟩
            exact ⟨⟨hv, hkvs⟩, ⟨hfit, hfits⟩, rfl⟩
          · rintro ⟨⟨hv, hkvs⟩, ⟨hfit, hfits⟩, rfl⟩
            exact ⟨_, ⟨hv, hfit, rfl⟩, _, ⟨hkvs, hfits, rfl⟩, rfl⟩

theorem entriesFit_take {kvs ds : List (KeyValue F)} :
    EntriesFit kvs (ds.take kvs.length) ↔ EntriesFit kvs ds := by
  induction kvs generalizing ds with
  | nil => simp [EntriesFit]
  | cons kv kvs ih =>
    cases ds with
    | nil => simp
    | cons d ds =>
      rw [length_cons, take_succ_cons]
      cases kv with
      | nil => simp [EntriesFit]
      | mk k v =>
        cases d with
        | nil => simp [EntriesFit]
        | mk k' w => rw [EntriesFit, EntriesFit, ih]

theorem AttributeMap.copyTo_iff {kvs ds rs : List (KeyValue F)} (hds : KeyValue.nil ∉ ds) :
    AttributeMap.copyTo kvs ds = .ok rs ↔
      MapPresent kvs ∧ MapFits kvs ds ∧ normEntries kvs = rs := by
  unfold AttributeMap.copyTo MapFits
  by_cases hle : kvs.length ≤ ds.length
  · have hlen : kvs.length ≤ (ds.take kvs.length).length := by
      rw [length_take]
      omega
    rw [if_pos hle, copyEntries_iff hlen fun h => hds (mem_of_mem_take h), entriesFit_take]
    simp only [hle, true_imp_iff]
  · rw [if_neg hle, initFromAttributeMap_iff]
    simp only [hle, false_imp_iff, true_and]

end Collector.Pdata
