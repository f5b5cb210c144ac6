import Mathlib.Data.Finmap
import Collector.Pdata.Attributes

/-!
# An attribute map is a finite map

A map whose entries are there, with distinct keys (`IsMap`), stands for the finite map from keys
to values (`denote`). Each operation is characterised by what `Get` returns afterwards, so that the
operations on the slice and those on finite maps agree key by key. Inserts and
updates that copy a value come down to those that set one (`insert_ok`, `update_ok`,
`upsert_ok`), since a copy holds the value that was copied. Values are trees here: the
value that is copied is none of the map's own.
-/

namespace Collector.Pdata.AttributeMap

open List
open KeyValue (hasKey)

variable {F : Type}

/-! ## Keys -/

def keys (am : AttributeMap F) : List String :=
  am.filterMap fun
    | .nil => none
    | .mk k _ => some k

/-- Every entry is there, and no key is there twice. -/
structure IsMap (am : AttributeMap F) : Prop where
  present : ∀ kv ∈ am, kv ≠ .nil
  nodup : am.keys.Nodup

theorem keys_cons_mk (am : AttributeMap F) (k : String) (v : AnyValue F) :
    keys (.mk k v :: am) = k :: keys am := rfl

theorem keys_append (am am' : AttributeMap F) : keys (am ++ am') = keys am ++ keys am' :=
  filterMap_append

variable {am : AttributeMap F} {k : String} {v : AnyValue F}

theorem IsMap.length_keys (h : IsMap am) : am.keys.length = am.length := by
  refine filterMap_length_eq_length.2 fun kv hkv => ?_
  cases kv with
  | nil => exact absurd rfl (h.present _ hkv)
  | mk k v => rfl

theorem length_valuesAt (am : AttributeMap F) (k : String) :
    (am.valuesAt k).length = am.keys.count k := by
  induction am using induct with
  | nil => rfl
  | absent am ih => exact ih
  | entry k' v am ih =>
    rw [valuesAt_cons, keys_cons_mk, count_cons]
    by_cases h : k' = k
    · simp [h, ih]
    · simp [h, ih]

theorem mem_keys_iff : k ∈ am.keys ↔ am.get k ≠ none := by
  rw [get_eq_head?, Ne, head?_eq_none_iff, ← length_eq_zero_iff, length_valuesAt,
    count_eq_zero]
  exact not_not.symm

theorem IsMap.valuesAt_eq (h : IsMap am) (k : String) : am.valuesAt k = (am.get k).toList := by
  have hlen : (am.valuesAt k).length ≤ 1 := by
    rw [length_valuesAt]
    exact nodup_iff_count_le_one.1 h.nodup k
  rw [get_eq_head?]
  match am.valuesAt k, hlen with
  | [], _ => rfl
  | [_], _ => rfl

/-! ## Lookups after an operation -/

theorem get_append (am : AttributeMap F) (k key : String) (v : AnyValue F) :
    get (am ++ [.mk k v]) key = (am.get key).or (if k = key then some v else none) := by
  rw [get_eq_head?, get_eq_head?, valuesAt_append, head?_append, valuesAt_cons]
  by_cases h : k = key <;> simp [h]

theorem get_put (hk : am.get k ≠ none) (v : AnyValue F) (key : String) :
    (am.put k v).get key = if key = k then some v else am.get key := by
  rw [get_eq_head?]
  by_cases h : key = k
  · subst h
    rw [valuesAt_put, if_pos rfl]
    rw [get_eq_head?] at hk
    cases hv : am.valuesAt key with
    | nil => rw [hv] at hk; exact absurd rfl hk
    | cons w ws => rfl
  · rw [valuesAt_put_ne _ h, if_neg h, get_eq_head?]

theorem get_insertNew (am : AttributeMap F) (k key : String) (v : AnyValue F) :
    (am.insertNew k v).get key = (am.get key).or (if k = key then some v else none) := by
  unfold insertNew
  cases hk : am.get k with
  | none => exact get_append am k key v
  | some w =>
    by_cases h : k = key
    · subst h
      simp [hk]
    · simp [h]

theorem get_upsertTo (am : AttributeMap F) (k key : String) (v : AnyValue F) :
    (am.upsertTo k v).get key = if key = k then some v else am.get key := by
  unfold upsertTo
  cases hk : am.get k with
  | some w => exact get_put (by rw [hk]; simp) v key
  | none =>
    rw [get_append]
    by_cases h : key = k
    · subst h
      simp [hk]
    · simp [h, Ne.symm h]

theorem keys_put (am : AttributeMap F) (k : String) (v : AnyValue F) :
    (am.put k v).keys = am.keys := by
  induction am using induct with
  | nil => rfl
  | absent am ih => exact ih
  | entry k' w am ih =>
    rw [put]
    by_cases h : k' = k
    · rw [if_pos h, keys_cons_mk, keys_cons_mk]
    · rw [if_neg h, keys_cons_mk, keys_cons_mk, ih]

theorem mem_put {kv : KeyValue F} (h : kv ∈ am.put k v) : kv ∈ am ∨ kv = .mk k v := by
  induction am with
  | nil => cases h
  | cons kv' am ih =>
    cases kv' with
    | nil =>
      rcases mem_cons.1 h with rfl | h
      · exact .inl mem_cons_self
      · exact (ih h).imp_left (mem_cons_of_mem _)
    | mk k' w =>
      rw [put] at h
      by_cases hk : k' = k
      · rw [if_pos hk, hk] at h
        exact (mem_cons.1 h).symm.imp_left (mem_cons_of_mem _)
      · rw [if_neg hk] at h
        rcases mem_cons.1 h with rfl | h
        · exact .inl mem_cons_self
        · exact (ih h).imp_left (mem_cons_of_mem _)

theorem valuesAt_eraseP (am : AttributeMap F) (k key : String) :
    valuesAt (am.eraseP (hasKey k)) key =
      if key = k then (am.valuesAt key).tail else am.valuesAt key := by
  induction am using induct with
  | nil => by_cases h : key = k <;> simp [h]
  | absent am ih => exact ih
  | entry k' v am ih =>
    by_cases hk : k' = k
    · have hp : hasKey k (.mk k' v) = true := by simp [hasKey, hk]
      rw [eraseP_cons_of_pos hp, valuesAt_cons]
      by_cases h : key = k
      · simp [h, hk]
      · have hne : k' ≠ key := fun e => h (e.symm.trans hk)
        simp [h, hne]
    · have hp : ¬ hasKey k (.mk k' v) = true := by simp [hasKey, hk]
      rw [eraseP_cons_of_neg hp, valuesAt_cons, valuesAt_cons, ih]
      by_cases h : key = k
      · have hne : k' ≠ key := fun e => hk (e.trans h)
        simp [h, h ▸ hne]
      · simp [h]

theorem valuesAt_delete_perm (am : AttributeMap F) (k key : String) :
    (valuesAt (am.delete k).1 key).Perm
      (if key = k then (am.valuesAt key).tail else am.valuesAt key) := by
  rw [← valuesAt_eraseP]
  exact (am.delete_perm k).filterMap _

theorem IsMap.get_delete (h : IsMap am) (k key : String) :
    get (am.delete k).1 key = if key = k then none else am.get key := by
  have hperm := valuesAt_delete_perm am k key
  rw [h.valuesAt_eq] at hperm
  rw [get_eq_head?]
  by_cases hk : key = k
  · rw [if_pos hk] at hperm ⊢
    have hnil : ((am.get key).toList.tail : List (AnyValue F)) = [] := by cases am.get key <;> rfl
    rw [hnil] at hperm
    rw [hperm.eq_nil]
    rfl
  · rw [if_neg hk] at hperm ⊢
    cases hg : am.get key with
    | none =>
      rw [hg] at hperm
      rw [hperm.eq_nil]
      rfl
    | some v =>
      rw [hg] at hperm
      rw [perm_singleton.1 hperm]
      rfl

/-! ## Maps stay maps -/

theorem IsMap.append (h : IsMap am) (hk : am.get k = none) (v : AnyValue F) :
    IsMap (am ++ [.mk k v]) := by
  refine ⟨fun kv hkv => ?_, ?_⟩
  · rcases mem_append.1 hkv with hkv | hkv
    · exact h.present kv hkv
    · rw [mem_singleton.1 hkv]
      nofun
  · rw [keys_append]
    refine nodup_append.2 ⟨h.nodup, nodup_singleton k, fun a ha b hb => ?_⟩
    rw [mem_singleton.1 hb]
    rintro rfl
    exact mem_keys_iff.1 ha hk

theorem IsMap.put (h : IsMap am) (k : String) (v : AnyValue F) : IsMap (am.put k v) := by
  refine ⟨fun kv hkv => ?_, by rw [keys_put]; exact h.nodup⟩
  rcases mem_put hkv with hkv | rfl
  · exact h.present kv hkv
  · nofun

theorem mem_of_mem_delete {kv : KeyValue F} (h : kv ∈ (am.delete k).1) : kv ∈ am :=
  mem_of_mem_eraseP ((am.delete_perm k).mem_iff.1 h)

theorem IsMap.delete (h : IsMap am) (k : String) : IsMap (am.delete k).1 := by
  refine ⟨fun kv hkv => h.present kv (mem_of_mem_delete hkv), ?_⟩
  have hperm : (keys (am.delete k).1).Perm (keys (am.eraseP (hasKey k))) :=
    (am.delete_perm k).filterMap _
  exact hperm.nodup_iff.2 (h.nodup.sublist (eraseP_sublist.filterMap _))

/-! ## The finite map -/

/-- The finite map that the entries make, the first one of a key before the others. -/
def denote (am : AttributeMap F) : Finmap fun _ : String => AnyValue F :=
  (am.filterMap fun
    | .nil => none
    | .mk k v => some (⟨k, v.norm⟩ : Sigma fun _ : String => AnyValue F)).toFinmap

theorem lookup_denote (am : AttributeMap F) (k : String) :
    am.denote.lookup k = (am.get k).map AnyValue.norm := by
  rw [denote, Finmap.dlookup_list_toFinmap]
  induction am using induct with
  | nil => rfl
  | absent am ih => exact ih
  | entry k' v am ih =>
    rw [get]
    by_cases h : k' = k
    · subst h
      simp
    · rw [if_neg h, ← ih]
      exact dlookup_cons_ne _ _ (Ne.symm h)

theorem mem_denote : k ∈ am.denote ↔ am.get k ≠ none := by
  rw [← Finmap.lookup_isSome, lookup_denote]
  cases am.get k <;> simp

theorem IsMap.length_eq (h : IsMap am) : am.length = am.denote.keys.card := by
  have hkeys : am.denote.keys = am.keys.toFinset := by
    ext k
    rw [Finmap.mem_keys, mem_denote, mem_toFinset, mem_keys_iff]
  rw [hkeys, toFinset_card_of_nodup h.nodup, h.length_keys]

def insertAbsent (m : Finmap fun _ : String => AnyValue F) (k : String) (v : AnyValue F) :
    Finmap fun _ : String => AnyValue F :=
  if k ∈ m then m else m.insert k v

def updatePresent (m : Finmap fun _ : String => AnyValue F) (k : String) (v : AnyValue F) :
    Finmap fun _ : String => AnyValue F :=
  if k ∈ m then m.insert k v else m

theorem denote_append (hk : am.get k = none) (v : AnyValue F) :
    denote (am ++ [.mk k v]) = am.denote.insert k v.norm := by
  refine Finmap.ext_lookup fun key => ?_
  rw [lookup_denote, get_append]
  by_cases h : key = k
  · subst h
    rw [hk, Finmap.lookup_insert, if_pos rfl]
    rfl
  · rw [Finmap.lookup_insert_of_ne _ h, lookup_denote, if_neg (Ne.symm h), Option.or_none]

theorem denote_put (hk : am.get k ≠ none) (v : AnyValue F) :
    (am.put k v).denote = am.denote.insert k v.norm := by
  refine Finmap.ext_lookup fun key => ?_
  rw [lookup_denote, get_put hk]
  by_cases h : key = k
  · subst h
    rw [if_pos rfl, Finmap.lookup_insert]
    rfl
  · rw [if_neg h, Finmap.lookup_insert_of_ne _ h, lookup_denote]

theorem IsMap.denote_delete (h : IsMap am) (k : String) :
    (am.delete k).1.denote = am.denote.erase k := by
  refine Finmap.ext_lookup fun key => ?_
  rw [lookup_denote, h.get_delete]
  by_cases hk : key = k
  · subst hk
    rw [if_pos rfl, Finmap.lookup_erase]
    rfl
  · rw [if_neg hk, Finmap.lookup_erase_ne hk, lookup_denote]

theorem denote_insertNew (am : AttributeMap F) (k : String) (v : AnyValue F) :
    (am.insertNew k v).denote = insertAbsent am.denote k v.norm := by
  unfold insertNew insertAbsent
  cases hk : am.get k with
  | none => rw [if_neg (by rw [mem_denote, hk]; simp), denote_append hk]
  | some w => rw [if_pos (by rw [mem_denote, hk]; simp)]

theorem denote_updateTo (am : AttributeMap F) (k : String) (v : AnyValue F) :
    (am.updateTo k v).denote = updatePresent am.denote k v.norm := by
  unfold updateTo updatePresent
  cases hk : am.get k with
  | none => rw [if_neg (by rw [mem_denote, hk]; simp)]
  | some w => rw [if_pos (by rw [mem_denote, hk]; simp), denote_put (by rw [hk]; simp)]

theorem denote_upsertTo (am : AttributeMap F) (k : String) (v : AnyValue F) :
    (am.upsertTo k v).denote = am.denote.insert k v.norm := by
  unfold upsertTo
  cases hk : am.get k with
  | none => exact denote_append hk v
  | some w => exact denote_put (by rw [hk]; simp) v

theorem IsMap.insertNew (h : IsMap am) (k : String) (v : AnyValue F) :
    IsMap (am.insertNew k v) := by
  unfold AttributeMap.insertNew
  split
  · exact h
  · exact h.append ‹_› v

theorem IsMap.updateTo (h : IsMap am) (k : String) (v : AnyValue F) : IsMap (am.updateTo k v) := by
  unfold AttributeMap.updateTo
  split
  · exact h.put k v
  · exact h

theorem IsMap.upsertTo (h : IsMap am) (k : String) (v : AnyValue F) : IsMap (am.upsertTo k v) := by
  unfold AttributeMap.upsertTo
  split
  · exact h.put k v
  · exact h.append ‹_› v

/-! ## What holds of every value -/

def AllValues (P : AnyValue F → Prop) (am : AttributeMap F) : Prop :=
  ∀ k v, KeyValue.mk k v ∈ am → P v

theorem mem_of_get (h : am.get k = some v) : KeyValue.mk k v ∈ am := by
  induction am using induct with
  | nil => cases h
  | absent am ih => exact mem_cons_of_mem _ (ih h)
  | entry k' w am ih =>
    rw [get] at h
    by_cases hk : k' = k
    · rw [if_pos hk] at h
      cases h
      rw [hk]
      exact mem_cons_self
    · rw [if_neg hk] at h
      exact mem_cons_of_mem _ (ih h)

namespace AllValues

variable {P : AnyValue F → Prop} (h : AllValues P am)

include h

theorem of_get (hk : am.get k = some v) : P v :=
  h k v (mem_of_get hk)

theorem append (k : String) (hv : P v) : AllValues P (am ++ [.mk k v]) := by
  intro k' v' hmem
  rcases mem_append.1 hmem with hmem | hmem
  · exact h k' v' hmem
  · cases mem_singleton.1 hmem
    exact hv

theorem put (k : String) (hv : P v) : AllValues P (am.put k v) := by
  intro k' v' hmem
  rcases mem_put hmem with hmem | heq
  · exact h k' v' hmem
  · cases heq
    exact hv

theorem insertNew (k : String) (hv : P v) : AllValues P (am.insertNew k v) := by
  unfold AttributeMap.insertNew
  split
  · exact h
  · exact h.append k hv

theorem updateTo (k : String) (hv : P v) : AllValues P (am.updateTo k v) := by
  unfold AttributeMap.updateTo
  split
  · exact h.put k hv
  · exact h

theorem upsertTo (k : String) (hv : P v) : AllValues P (am.upsertTo k v) := by
  unfold AttributeMap.upsertTo
  split
  · exact h.put k hv
  · exact h.append k hv

theorem delete (k : String) : AllValues P (am.delete k).1 :=
  fun k' v' hmem => h k' v' (mem_of_mem_delete hmem)

end AllValues

/-! ## Scalars -/

/-- The values that every format has. -/
def Scalar : AnyValue F → Prop
  | .string _ | .bool _ | .int _ | .double _ => True
  | _ => False

/-- Attributes with scalar values under distinct keys. -/
structure ScalarMap (am : AttributeMap F) : Prop extends am.IsMap where
  scalar : am.AllValues Scalar

theorem scalarMap_of_forall (h : ∀ kv ∈ am, ∃ k v, kv = .mk k v ∧ Scalar v) (hn : am.keys.Nodup) :
    ScalarMap am where
  present kv hkv := by
    obtain ⟨k, v, rfl, -⟩ := h kv hkv
    intro h
    cases h
  nodup := hn
  scalar k v hmem := by
    obtain ⟨k', v', heq, hv⟩ := h _ hmem
    cases heq
    exact hv

/-! ## Entries -/

/-- The entries that `ForEach` visits. -/
def entries (am : AttributeMap F) : List (String × AnyValue F) :=
  am.filterMap fun
    | .nil => none
    | .mk k v => some (k, v)

theorem map_fst_entries (am : AttributeMap F) : am.entries.map Prod.fst = am.keys := by
  induction am using induct with
  | nil => rfl
  | absent am ih => exact ih
  | entry k v am ih => exact congrArg (k :: ·) ih

theorem mem_entries : (k, v) ∈ am.entries ↔ .mk k v ∈ am := by
  constructor
  · intro h
    obtain ⟨kv, hmem, heq⟩ := mem_filterMap.1 h
    cases kv with
    | nil => cases heq
    | mk k' v' =>
      cases heq
      exact hmem
  · intro h
    exact mem_filterMap.2 ⟨_, h, rfl⟩

theorem IsMap.map_entries (h : IsMap am) : am.entries.map (fun p => KeyValue.mk p.1 p.2) = am := by
  have hpresent := h.present
  clear h
  induction am using induct with
  | nil => rfl
  | absent am => exact absurd rfl (hpresent _ mem_cons_self)
  | entry k v am ih => exact congrArg (KeyValue.mk k v :: ·) (ih (forall_mem_cons.1 hpresent).2)

theorem foldl_entries {β : Type} (f : β → String → AnyValue F → β) (b : β) (am : AttributeMap F) :
    am.foldl (fun b kv =>
      match kv with
      | .nil => b
      | .mk k v => f b k v) b = am.entries.foldl (fun b p => f b p.1 p.2) b := by
  induction am using induct generalizing b with
  | nil => rfl
  | absent am ih => exact ih b
  | entry k v am ih => exact ih (f b k v)

theorem get_eq_none_of_notMem (h : k ∉ am.keys) : am.get k = none :=
  not_not.1 fun hk => h (mem_keys_iff.2 hk)

theorem get_append_of_notMem (h : k ∉ am.keys) (am' : AttributeMap F) :
    get (am ++ am') k = am'.get k := by
  induction am using induct with
  | nil => rfl
  | absent am ih => exact ih h
  | entry k' v am ih =>
    rw [keys_cons_mk, mem_cons, not_or] at h
    rw [cons_append, get, if_neg (Ne.symm h.1), ih h.2]

theorem delete_append_of_notMem (h : k ∉ am.keys) (am' : AttributeMap F) :
    (delete (am ++ am') k).1 = am ++ (am'.delete k).1 := by
  have hnone : am.findIdx? (hasKey k) = none := by
    rw [findIdx?_eq_none_iff]
    intro kv hkv
    cases kv with
    | nil => rfl
    | mk k' v =>
      rw [hasKey, beq_eq_false_iff_ne]
      rintro rfl
      rw [← map_fst_entries] at h
      exact h (mem_map.2 ⟨(k', v), mem_entries.2 hkv, rfl⟩)
  unfold delete
  rw [findIdx?_append, hnone, Option.none_or]
  cases hi : am'.findIdx? (hasKey k) with
  | none => rfl
  | some i =>
    -- an entry was found, so the last one is in the same part
    have hne : am' ≠ [] := by
      rintro rfl
      cases hi
    obtain ⟨last, hlast⟩ := Option.isSome_iff_exists.1 (getLast?_isSome.2 hne)
    have hlast' : (am ++ am').getLast? = some last := by
      rw [getLast?_append, hlast, Option.some_or]
    simp only [Option.map_some, hlast, hlast']
    rw [Nat.add_comm i, set_append_right _ _ (Nat.le_add_right _ _), Nat.add_sub_cancel_left,
      dropLast_append_of_ne_nil (by rwa [Ne, set_eq_nil_iff])]

theorem IsMap.perm {am' : AttributeMap F} (h : IsMap am) (hp : am'.Perm am) : IsMap am' where
  present kv hkv := h.present kv (hp.mem_iff.1 hkv)
  nodup := (hp.filterMap _).nodup_iff.2 h.nodup

theorem get_of_mem (hnodup : am.keys.Nodup) (hmem : .mk k v ∈ am) : am.get k = some v := by
  induction am using induct with
  | nil => cases hmem
  | absent am ih => exact ih hnodup (by simpa using hmem)
  | entry k' v' am ih =>
    rw [keys_cons_mk, nodup_cons] at hnodup
    rcases mem_cons.1 hmem with heq | hmem
    · cases heq
      exact if_pos rfl
    · have hne : k' ≠ k := by
        rintro rfl
        rw [← map_fst_entries] at hnodup
        exact hnodup.1 (mem_map.2 ⟨(k', v), mem_entries.2 hmem, rfl⟩)
      exact (if_neg hne).trans (ih hnodup.2 hmem)

theorem IsMap.get_of_mem (h : IsMap am) (hmem : .mk k v ∈ am) : am.get k = some v :=
  AttributeMap.get_of_mem h.nodup hmem

theorem put_of_get (h : am.get k = some v) : am.put k v = am := by
  induction am using induct with
  | nil => rfl
  | absent am ih => exact congrArg (KeyValue.nil :: ·) (ih h)
  | entry k' v' am ih =>
    unfold get at h
    unfold put
    split at h
    case isTrue heq =>
      cases h
      exact if_pos heq
    case isFalse hne => rw [if_neg hne, ih h]

theorem foldl_upsertTo {l : List (String × AnyValue F)} (hn : (l.map Prod.fst).Nodup)
    (hnew : ∀ p ∈ l, p.1 ∉ am.keys) :
    l.foldl (fun am p => am.upsertTo p.1 p.2) am = am ++ l.map fun p => .mk p.1 p.2 := by
  induction l generalizing am with
  | nil => rw [map_nil, append_nil, foldl_nil]
  | cons p l ih =>
    rw [map_cons, nodup_cons] at hn
    obtain ⟨hp, hl⟩ := forall_mem_cons.1 hnew
    have hstep : am.upsertTo p.1 p.2 = am ++ [.mk p.1 p.2] := by
      simp only [upsertTo, get_eq_none_of_notMem hp]
    have hnext : ∀ q ∈ l, q.1 ∉ keys (am ++ [.mk p.1 p.2]) := by
      intro q hq hmem
      rw [keys_append, mem_append] at hmem
      rcases hmem with hmem | hmem
      · exact hl q hq hmem
      · have heq : q.1 = p.1 := mem_singleton.1 hmem
        exact hn.1 (heq ▸ mem_map_of_mem hq)
    rw [foldl_cons, hstep, ih hn.2 hnext, append_assoc]
    rfl

/-! ## Sequences of operations -/

/-- A map whose entries all have their value message. -/
structure WellFormed (am : AttributeMap F) : Prop extends IsMap am where
  valued : AllValues (· ≠ .nil) am

theorem insert_ok (am : AttributeMap F) (k : String) (hv : v.Whole) :
    am.insert k v = .ok (am.insertNew k v.norm) := by
  have hnull : (AnyValue.null : AnyValue F) ≠ .nil := by simp
  unfold AttributeMap.insert AttributeMap.insertNew
  cases am.get k with
  | some w => rfl
  | none => simp only [AnyValue.copyTo_ok hv hnull]; rfl

theorem update_ok (hk : am.get k ≠ some .nil) (hv : v.Whole) :
    am.update k v = .ok (am.updateTo k v.norm) := by
  unfold AttributeMap.update AttributeMap.updateTo
  cases hg : am.get k with
  | some w =>
    have hw : w ≠ .nil := fun e => hk (by rw [hg, e])
    simp only [AnyValue.copyTo_ok hv hw]
    rfl
  | none => rfl

theorem upsert_ok (hk : am.get k ≠ some .nil) (hv : v.Whole) :
    am.upsert k v = .ok (am.upsertTo k v.norm) := by
  have hnull : (AnyValue.null : AnyValue F) ≠ .nil := by simp
  unfold AttributeMap.upsert AttributeMap.upsertTo
  cases hg : am.get k with
  | some w =>
    have hw : w ≠ .nil := fun e => hk (by rw [hg, e])
    simp only [AnyValue.copyTo_ok hv hw]
    rfl
  | none => simp only [AnyValue.copyTo_ok hv hnull]; rfl

inductive Op (F : Type) where
  | insert (k : String) (v : AnyValue F)
  | insertNull (k : String)
  | insertString (k : String) (v : String)
  | insertInt (k : String) (v : Int64)
  | insertDouble (k : String) (v : F)
  | insertBool (k : String) (v : Bool)
  | update (k : String) (v : AnyValue F)
  | updateString (k : String) (v : String)
  | updateInt (k : String) (v : Int64)
  | updateDouble (k : String) (v : F)
  | updateBool (k : String) (v : Bool)
  | upsert (k : String) (v : AnyValue F)
  | upsertString (k : String) (v : String)
  | upsertInt (k : String) (v : Int64)
  | upsertDouble (k : String) (v : F)
  | upsertBool (k : String) (v : Bool)
  | delete (k : String)

def Op.apply (am : AttributeMap F) : Op F → Go (AttributeMap F)
  | .insert k v => am.insert k v
  | .insertNull k => .ok (am.insertNull k)
  | .insertString k v => .ok (am.insertString k v)
  | .insertInt k v => .ok (am.insertInt k v)
  | .insertDouble k v => .ok (am.insertDouble k v)
  | .insertBool k v => .ok (am.insertBool k v)
  | .update k v => am.update k v
  | .updateString k v => .ok (am.updateString k v)
  | .updateInt k v => .ok (am.updateInt k v)
  | .updateDouble k v => .ok (am.updateDouble k v)
  | .updateBool k v => .ok (am.updateBool k v)
  | .upsert k v => am.upsert k v
  | .upsertString k v => .ok (am.upsertString k v)
  | .upsertInt k v => .ok (am.upsertInt k v)
  | .upsertDouble k v => .ok (am.upsertDouble k v)
  | .upsertBool k v => .ok (am.upsertBool k v)
  | .delete k => .ok (am.delete k).1

/-- The operation on finite maps: insert only if absent, update only if present, upsert always,
and delete. -/
def Op.act (m : Finmap fun _ : String => AnyValue F) : Op F → Finmap fun _ : String => AnyValue F
  | .insert k v => insertAbsent m k v.norm
  | .insertNull k => insertAbsent m k .null
  | .insertString k v => insertAbsent m k (.string v)
  | .insertInt k v => insertAbsent m k (.int v)
  | .insertDouble k v => insertAbsent m k (.double v)
  | .insertBool k v => insertAbsent m k (.bool v)
  | .update k v => updatePresent m k v.norm
  | .updateString k v => updatePresent m k (.string v)
  | .updateInt k v => updatePresent m k (.int v)
  | .updateDouble k v => updatePresent m k (.double v)
  | .updateBool k v => updatePresent m k (.bool v)
  | .upsert k v => m.insert k v.norm
  | .upsertString k v => m.insert k (.string v)
  | .upsertInt k v => m.insert k (.int v)
  | .upsertDouble k v => m.insert k (.double v)
  | .upsertBool k v => m.insert k (.bool v)
  | .delete k => m.erase k

def Op.Whole : Op F → Prop
  | .insert _ v | .update _ v | .upsert _ v => v.Whole
  | _ => True

def Op.operand : Op F → Option (AnyValue F)
  | .insert _ v | .update _ v | .upsert _ v => some v
  | _ => none

/-- **One operation** keeps a map well formed and does to it what it does to the finite map. -/
theorem WellFormed.apply (h : WellFormed am) {op : Op F} (hop : op.Whole) :
    ∃ am', op.apply am = .ok am' ∧ WellFormed am' ∧ am'.denote = op.act am.denote := by
  have hget : ∀ k, am.get k ≠ some .nil := fun k hk => h.valued.of_get hk rfl
  have hins : ∀ k v, v ≠ .nil → WellFormed (am.insertNew k v) ∧
      (am.insertNew k v).denote = insertAbsent am.denote k v.norm :=
    fun k v hv => ⟨⟨h.toIsMap.insertNew k v, h.valued.insertNew k hv⟩, denote_insertNew am k v⟩
  have hupd : ∀ k v, v ≠ .nil → WellFormed (am.updateTo k v) ∧
      (am.updateTo k v).denote = updatePresent am.denote k v.norm :=
    fun k v hv => ⟨⟨h.toIsMap.updateTo k v, h.valued.updateTo k hv⟩, denote_updateTo am k v⟩
  have hups : ∀ k v, v ≠ .nil → WellFormed (am.upsertTo k v) ∧
      (am.upsertTo k v).denote = am.denote.insert k v.norm :=
    fun k v hv => ⟨⟨h.toIsMap.upsertTo k v, h.valued.upsertTo k hv⟩, denote_upsertTo am k v⟩
  cases op with
  | insert k v =>
    have hres := hins k v.norm v.norm_ne_nil
    rw [v.norm_norm] at hres
    exact ⟨_, insert_ok am k hop, hres⟩
  | update k v =>
    have hres := hupd k v.norm v.norm_ne_nil
    rw [v.norm_norm] at hres
    exact ⟨_, update_ok (hget k) hop, hres⟩
  | upsert k v =>
    have hres := hups k v.norm v.norm_ne_nil
    rw [v.norm_norm] at hres
    exact ⟨_, upsert_ok (hget k) hop, hres⟩
  | delete k =>
    exact ⟨_, rfl, ⟨h.toIsMap.delete k, h.valued.delete k⟩, h.toIsMap.denote_delete k⟩
  | insertNull k => exact ⟨_, rfl, hins k _ (by simp)⟩
  | insertString k v | insertInt k v | insertDouble k v | insertBool k v =>
    exact ⟨_, rfl, hins k _ (by simp)⟩
  | updateString k v | updateInt k v | updateDouble k v | updateBool k v =>
    exact ⟨_, rfl, hupd k _ (by simp)⟩
  | upsertString k v | upsertInt k v | upsertDouble k v | upsertBool k v =>
    exact ⟨_, rfl, hups k _ (by simp)⟩

/-- **A sequence of operations** on a map is one on the finite map. -/
theorem WellFormed.run (h : WellFormed am) {ops : List (Op F)}
    (hops : ∀ op ∈ ops, op.Whole) : ∃ am', ops.foldlM Op.apply am = .ok am' ∧ WellFormed am' ∧
      am'.denote = ops.foldl Op.act am.denote := by
  induction ops generalizing am with
  | nil => exact ⟨am, rfl, h, rfl⟩
  | cons op ops ih =>
    obtain ⟨hop, hrest⟩ := forall_mem_cons.1 hops
    obtain ⟨am₁, happly, hwf, hden⟩ := h.apply hop
    obtain ⟨am', hfold, hwf', hden'⟩ := ih hwf hrest
    refine ⟨am', ?_, hwf', ?_⟩
    · rw [foldlM_cons, happly]
      exact hfold
    · rw [hden', hden, foldl_cons]

end Collector.Pdata.AttributeMap
