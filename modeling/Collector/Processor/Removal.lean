import Collector.Pdata.FiniteMap
import Collector.Processor.AttrProc

/-!
# Removed attributes

A list of attributes may hold a key more than once, and every action goes to the
first entry under its key. What `DELETE` and `HASH` leave under the key is
therefore told by all the values under it (`valuesAt`): the actions that follow keep
them, up to their order, where they do not write the key (`Touches`).
-/

namespace Collector.Processor

open Pdata Pdata.AttributeMap List
open Lib (bind_eq_ok)

variable {F : Type} {lib : Library F}

def AttributeAction.Touches (a : AttributeAction F) (k : String) : Prop :=
  match a.action with
  | .extract => k ∈ a.attrNames.tail
  | _ => a.key = k

/-! ## Setting one key -/

/-- The functions that set a key set its first entry or add one. -/
inductive SetsAt (key : String) (am : AttributeMap F) : AttributeMap F → Prop where
  | same : SetsAt key am am
  | put (v : AnyValue F) : SetsAt key am (am.put key v)
  | append (v : AnyValue F) (habsent : am.get key = none) : SetsAt key am (am ++ [.mk key v])

variable {am am' : AttributeMap F} {key k : String} {v : AnyValue F} {names : List String}
  {a : AttributeAction F}

theorem insert_setsAt (h : am.insert key v = .ok am') : SetsAt key am am' := by
  unfold AttributeMap.insert at h
  split at h
  case h_1 => cases h; exact .same
  case h_2 hg =>
    obtain ⟨copied, -, h⟩ := bind_eq_ok.1 h
    cases h
    exact .append copied hg

theorem update_setsAt (h : am.update key v = .ok am') : SetsAt key am am' := by
  unfold AttributeMap.update at h
  split at h
  case h_1 =>
    obtain ⟨copied, -, h⟩ := bind_eq_ok.1 h
    cases h
    exact .put copied
  case h_2 => cases h; exact .same

theorem upsert_setsAt (h : am.upsert key v = .ok am') : SetsAt key am am' := by
  unfold AttributeMap.upsert at h
  split at h
  case h_1 =>
    obtain ⟨copied, -, h⟩ := bind_eq_ok.1 h
    cases h
    exact .put copied
  case h_2 hg =>
    obtain ⟨copied, -, h⟩ := bind_eq_ok.1 h
    cases h
    exact .append copied hg

theorem upsertTo_setsAt (am : AttributeMap F) (key : String) (v : AnyValue F) :
    SetsAt key am (am.upsertTo key v) := by
  unfold upsertTo
  cases hg : am.get key with
  | none => exact .append v hg
  | some w => exact .put v

theorem hashAttribute_setsAt (a : AttributeAction F) (am : AttributeMap F) :
    SetsAt a.key am (hashAttribute lib a am) := by
  unfold hashAttribute
  cases am.get a.key with
  | none => exact .same
  | some v => exact .put _

theorem SetsAt.valuesAt_ne (h : SetsAt key am am') (hne : key ≠ k) :
    am'.valuesAt k = am.valuesAt k := by
  cases h with
  | same => rfl
  | put v => exact valuesAt_put_ne am (Ne.symm hne) v
  | append v => rw [valuesAt_append, valuesAt_cons, if_neg hne, valuesAt_nil, append_nil]

theorem SetsAt.length_le (h : SetsAt key am am') (k : String) :
    (am'.valuesAt k).length ≤ max 1 (am.valuesAt k).length := by
  by_cases hk : key = k
  · subst hk
    cases h with
    | same => exact le_max_right _ _
    | put v =>
      rw [valuesAt_put, length_modifyHead]
      exact le_max_right _ _
    | append v habsent =>
      rw [get_eq_head?, head?_eq_none_iff] at habsent
      rw [valuesAt_append, habsent, valuesAt_cons, if_pos rfl, valuesAt_nil]
      exact le_max_left _ _
  · rw [h.valuesAt_ne hk]
    exact le_max_right _ _

/-! ## One action -/

/-- One key after the other is set, each of them one of `names`. -/
abbrev SetsAmong (names : List String) : AttributeMap F → AttributeMap F → Prop :=
  Relation.ReflTransGen fun am am' => ∃ name ∈ names, SetsAt name am am'

theorem upsertMatches_setsAmong {ms : List String} (h : upsertMatches names ms am = .ok am') :
    SetsAmong names am am' := by
  induction names generalizing ms am with
  | nil =>
    cases ms with
    | nil => cases h; exact .refl
    | cons m ms => cases h
  | cons name names ih =>
    cases ms with
    | nil => cases h; exact .refl
    | cons m ms =>
      have hrest : SetsAmong (name :: names) (am.upsertString name m) am' :=
        (ih h).lift id fun _ _ ⟨n, hn, hset⟩ => ⟨n, mem_cons_of_mem _ hn, hset⟩
      exact .head ⟨name, mem_cons_self, upsertTo_setsAt am name (.string m)⟩ hrest

theorem extractAttributes_setsAmong (h : extractAttributes a am = .ok am') :
    SetsAmong a.attrNames.tail am am' := by
  unfold extractAttributes at h
  split at h
  · cases hre : a.regex with
    | none => rw [hre] at h; cases h
    | some re =>
      simp only [hre, deref_some, bind, Except.bind] at h
      split at h
      · cases h; exact .refl
      · exact upsertMatches_setsAmong h
  · cases h; exact .refl

/-- **What an action does to the list**: it deletes under its key, sets its key, or sets the keys
that it extracts. -/
theorem apply_cases (h : a.apply lib am = .ok am') :
    (a.action = .delete ∧ am' = (am.delete a.key).1) ∨
    (a.action ≠ .delete ∧ a.action ≠ .extract ∧ SetsAt a.key am am') ∨
    (a.action = .extract ∧ SetsAmong a.attrNames.tail am am') := by
  unfold AttributeAction.apply at h
  cases hact : a.action <;> simp only [hact] at h
  case delete => cases h; exact .inl ⟨rfl, rfl⟩
  case extract => exact .inr (.inr ⟨rfl, extractAttributes_setsAmong h⟩)
  case hash =>
    cases h
    exact .inr (.inl ⟨by decide, by decide, hashAttribute_setsAt a am⟩)
  -- inserts, updates and upserts, which do nothing without a value
  all_goals
    refine .inr (.inl ⟨by decide, by decide, ?_⟩)
    split at h
    case h_1 => cases h; exact .same
  · exact insert_setsAt h
  · exact update_setsAt h
  · exact upsert_setsAt h

theorem SetsAmong.valuesAt_eq (hk : k ∉ names) (h : SetsAmong names am am') :
    am'.valuesAt k = am.valuesAt k := by
  induction h with
  | refl => rfl
  | tail _ hstep ih =>
    obtain ⟨name, hname, hset⟩ := hstep
    have hne : name ≠ k := fun e => hk (e ▸ hname)
    rw [hset.valuesAt_ne hne, ih]

theorem SetsAmong.length_le (h : SetsAmong names am am') (k : String) :
    (am'.valuesAt k).length ≤ max 1 (am.valuesAt k).length := by
  induction h with
  | refl => exact le_max_right _ _
  | tail _ hstep ih =>
    obtain ⟨name, -, hset⟩ := hstep
    have hle := hset.length_le k
    omega

theorem apply_valuesAt_perm (hk : ¬ a.Touches k) (h : a.apply lib am = .ok am') :
    (am'.valuesAt k).Perm (am.valuesAt k) := by
  unfold AttributeAction.Touches at hk
  rcases apply_cases h with ⟨hact, rfl⟩ | ⟨-, hnot, hset⟩ | ⟨hact, hsets⟩
  · simp only [hact] at hk
    have hperm := valuesAt_delete_perm am a.key k
    rwa [if_neg (Ne.symm hk)] at hperm
  · have hne : a.key ≠ k := by
      split at hk
      · exact absurd ‹_› hnot
      · exact hk
    rw [hset.valuesAt_ne hne]
  · simp only [hact] at hk
    rw [hsets.valuesAt_eq hk]

theorem apply_length_le (h : a.apply lib am = .ok am') (k : String) :
    (am'.valuesAt k).length ≤ max 1 (am.valuesAt k).length := by
  rcases apply_cases h with ⟨-, rfl⟩ | ⟨-, -, hset⟩ | ⟨-, hsets⟩
  · rw [(valuesAt_delete_perm am a.key k).length_eq]
    split
    · rw [length_tail]
      omega
    · exact le_max_right _ _
  · exact hset.length_le k
  · exact hsets.length_le k

theorem delete_valuesAt_perm (hact : a.action = .delete) (h : a.apply lib am = .ok am') :
    (am'.valuesAt a.key).Perm (am.valuesAt a.key).tail := by
  simp only [AttributeAction.apply, hact] at h
  cases h
  have hperm := valuesAt_delete_perm am a.key a.key
  rwa [if_pos rfl] at hperm

theorem hash_valuesAt (hact : a.action = .hash) (h : a.apply lib am = .ok am') :
    am'.valuesAt a.key = (am.valuesAt a.key).modifyHead (sha1Hasher lib) := by
  simp only [AttributeAction.apply, hact] at h
  cases h
  unfold hashAttribute
  rw [get_eq_head?]
  cases hvs : am.valuesAt a.key with
  | nil => exact hvs
  | cons v vs =>
    show (am.put a.key (sha1Hasher lib v)).valuesAt a.key = _
    rw [valuesAt_put, hvs]
    rfl

/-! ## Lists of actions -/

theorem process_valuesAt_perm {actions : List (AttributeAction F)}
    (hk : ∀ b ∈ actions, ¬ b.Touches k) (h : AttrProc.process lib ⟨actions⟩ am = .ok am') :
    (am'.valuesAt k).Perm (am.valuesAt k) := by
  induction actions generalizing am with
  | nil => cases h; exact .refl _
  | cons b actions ih =>
    obtain ⟨hb, hrest⟩ := forall_mem_cons.1 hk
    obtain ⟨am₁, happly, hrun⟩ := process_cons_ok h
    exact (ih hrest hrun).trans (apply_valuesAt_perm hb happly)

theorem process_length_le {actions : List (AttributeAction F)}
    (h : AttrProc.process lib ⟨actions⟩ am = .ok am') (k : String) :
    (am'.valuesAt k).length ≤ max 1 (am.valuesAt k).length := by
  induction actions generalizing am with
  | nil => cases h; exact le_max_right _ _
  | cons b actions ih =>
    obtain ⟨am₁, happly, hrun⟩ := process_cons_ok h
    have hfirst := apply_length_le happly k
    have hlast := ih hrun
    omega

section

variable {pre post : List (AttributeAction F)} {am₁ : AttributeMap F}

section Shared

variable (hpre : AttrProc.process lib ⟨pre⟩ am = .ok am₁)
  (hrun : AttrProc.process lib ⟨pre ++ a :: post⟩ am = .ok am')
  (hpost : ∀ b ∈ post, ¬ b.Touches a.key)

include hpre hrun hpost

theorem deleted_iff (hact : a.action = .delete) :
    am'.valuesAt a.key = [] ↔ (am₁.valuesAt a.key).length ≤ 1 := by
  rw [process_append hpre] at hrun
  obtain ⟨am₂, happly, hlast⟩ := process_cons_ok hrun
  have hperm := (process_valuesAt_perm hpost hlast).trans (delete_valuesAt_perm hact happly)
  rw [← length_eq_zero_iff, hperm.length_eq, length_tail]
  omega

theorem hashed_iff (hact : a.action = .hash) :
    (am'.valuesAt a.key).Perm ((am₁.valuesAt a.key).map (sha1Hasher lib)) ↔
      (am₁.valuesAt a.key).tail.Perm ((am₁.valuesAt a.key).tail.map (sha1Hasher lib)) := by
  rw [process_append hpre] at hrun
  obtain ⟨am₂, happly, hlast⟩ := process_cons_ok hrun
  have hkept := process_valuesAt_perm hpost hlast
  rw [hash_valuesAt hact happly] at hkept
  cases hvs : am₁.valuesAt a.key with
  | nil =>
    rw [hvs] at hkept
    exact iff_of_true hkept (.refl _)
  | cons v vs =>
    rw [hvs] at hkept
    exact (hkept.congr_left _).trans (perm_cons _)

/-- A key that is received once is removed. -/
theorem removed_of_received_once (honce : (am.valuesAt a.key).length ≤ 1) :
    (a.action = .delete → am'.valuesAt a.key = []) ∧
    (a.action = .hash →
      (am'.valuesAt a.key).Perm ((am₁.valuesAt a.key).map (sha1Hasher lib))) := by
  have hle : (am₁.valuesAt a.key).length ≤ 1 := by
    have hbound := process_length_le hpre a.key
    omega
  refine ⟨fun hact => (deleted_iff hpre hrun hpost hact).2 hle, fun hact => ?_⟩
  refine (hashed_iff hpre hrun hpost hact).2 ?_
  have hnone : (am₁.valuesAt a.key).tail = [] := by
    rw [← length_eq_zero_iff, length_tail]
    omega
  rw [hnone]
  exact .refl _

end Shared

/-- **Removed attributes.** After a `DELETE`, and actions that do not touch its key, nothing is
under the key exactly when the list before it held at most one entry there. After a `HASH` all
values under the key are hashes of those before it exactly when the entries behind the first one
are, up to their order, their own hashes. -/
theorem removed_iff (hpre : AttrProc.process lib ⟨pre⟩ am = .ok am₁)
    (hrun : AttrProc.process lib ⟨pre ++ a :: post⟩ am = .ok am')
    (hpost : ∀ b ∈ post, ¬ b.Touches a.key) :
    (a.action = .delete →
      (am'.valuesAt a.key = [] ↔ (am₁.valuesAt a.key).length ≤ 1)) ∧
    (a.action = .hash →
      ((am'.valuesAt a.key).Perm ((am₁.valuesAt a.key).map (sha1Hasher lib)) ↔
        (am₁.valuesAt a.key).tail.Perm ((am₁.valuesAt a.key).tail.map (sha1Hasher lib)))) :=
  ⟨deleted_iff hpre hrun hpost, hashed_iff hpre hrun hpost⟩

end

def repeatedKey : AttributeMap Int := [.mk "k" (.string "first"), .mk "k" (.string "second")]

theorem removed_iff_deleted_twice :
    ∃ am', AttrProc.process plainLibrary
        ⟨[{ key := "k", action := .delete }, { key := "k", action := .delete }]⟩ repeatedKey =
          .ok am' ∧ am'.valuesAt "k" = [] := by
  have hpre : AttrProc.process plainLibrary ⟨[{ key := "k", action := .delete }]⟩ repeatedKey =
      .ok [.mk "k" (.string "second")] := rfl
  have hrun : AttrProc.process plainLibrary
      ⟨[{ key := "k", action := .delete }] ++ { key := "k", action := .delete } :: []⟩
        repeatedKey = .ok [] := rfl
  exact ⟨[], hrun, ((removed_iff hpre hrun nofun).1 rfl).2 (by decide)⟩

/-- The second value under a key leaves the processor although the key is deleted. -/
theorem deleted_value_leaves :
    ∃ ap, newAttrProc plainLibrary ⟨[{ key := "k", action := "delete" }]⟩ = .ok ap ∧
      ap.process plainLibrary repeatedKey = .ok [.mk "k" (.string "second")] :=
  ⟨_, rfl, rfl⟩

end Collector.Processor
