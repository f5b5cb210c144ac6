import Collector.Pdata.FiniteMap
import Collector.Processor.AttrProc

/-!
# What the actions mean

The documented meaning of an action is an operation on finite maps
(`AttributeAction.act`). On a received map an action does what it means unless it
is an `UPDATE` or `UPSERT` that finds its entry without a value message (`Lost`): copying
a primitive value there dereferences nil, and a copied map or array goes to a
message that nobody sees.
-/

namespace Collector.Processor

open Pdata Pdata.AttributeMap List

variable {F : Type}

/-! ## The meaning of an action -/

/-- The value that an action writes: a constant or the value of another attribute. -/
def AttributeAction.source (a : AttributeAction F) (m : Finmap fun _ : String => AnyValue F) :
    Option (AnyValue F) :=
  match a.attributeValue with
  | some v => some v
  | none => m.lookup a.fromAttribute

def setMatches (names ms : List String) (m : Finmap fun _ : String => AnyValue F) :
    Finmap fun _ : String => AnyValue F :=
  (names.zip ms).foldl (fun m x => m.insert x.1 (.string x.2)) m

def AttributeAction.act (lib : Library F) (m : Finmap fun _ : String => AnyValue F)
    (a : AttributeAction F) : Finmap fun _ : String => AnyValue F :=
  match a.action with
  | .insert => (a.source m).elim m (insertAbsent m a.key)
  | .update => (a.source m).elim m (updatePresent m a.key)
  | .upsert => (a.source m).elim m (m.insert a.key)
  | .delete => m.erase a.key
  | .hash => (m.lookup a.key).elim m fun v => m.insert a.key (sha1Hasher lib v)
  | .extract =>
    match m.lookup a.key with
    | some (.string s) =>
      match a.regex.bind fun re => re.findStringSubmatch s with
      | some ms => setMatches a.attrNames.tail ms.tail m
      | none => m
    | _ => m

/-! ## Received maps -/

/-- A map with distinct keys as it comes from the wire: the entries are there, and so are the
elements of the lists within their values. The value message of an entry may be missing. -/
structure Received (am : AttributeMap F) : Prop extends IsMap am where
  whole : AllValues AnyValue.Whole am

variable {am : AttributeMap F} {v : AnyValue F} {a : AttributeAction F} {lib : Library F}

theorem Received.insertNew (h : Received am) (k : String) (hv : v.Whole) :
    Received (am.insertNew k v) :=
  ⟨h.toIsMap.insertNew k v, h.whole.insertNew k hv⟩

theorem Received.updateTo (h : Received am) (k : String) (hv : v.Whole) :
    Received (am.updateTo k v) :=
  ⟨h.toIsMap.updateTo k v, h.whole.updateTo k hv⟩

theorem Received.upsertTo (h : Received am) (k : String) (hv : v.Whole) :
    Received (am.upsertTo k v) :=
  ⟨h.toIsMap.upsertTo k v, h.whole.upsertTo k hv⟩

/-! ## One action -/

theorem source_denote (ha : a.Valid) (am : AttributeMap F) :
    a.source am.denote = (getSourceAttributeValue a am).map AnyValue.norm := by
  unfold AttributeAction.source getSourceAttributeValue
  cases hv : a.attributeValue with
  | none => exact lookup_denote am a.fromAttribute
  | some v =>
    show some v = some v.norm
    rw [(ha.constant v hv).2]

theorem source_whole (ha : a.Valid) (h : Received am) (hv : getSourceAttributeValue a am = some v) :
    v.Whole := by
  unfold getSourceAttributeValue at hv
  cases hc : a.attributeValue with
  | none => rw [hc] at hv; exact h.whole.of_get hv
  | some w =>
    rw [hc] at hv
    cases hv
    exact (ha.constant v hc).1

theorem sha1Hasher_norm (lib : Library F) (v : AnyValue F) :
    sha1Hasher lib v.norm = sha1Hasher lib v := by
  cases v <;> simp [AnyValue.norm, sha1Hasher, hashedBytes]

theorem Received.upsertMatches (h : Received am) {names ms : List String}
    (hlen : ms.length = names.length) : ∃ am', upsertMatches names ms am = .ok am' ∧ Received am' ∧
      am'.denote = setMatches names ms am.denote := by
  induction names generalizing ms am with
  | nil =>
    obtain rfl := length_eq_zero_iff.1 hlen
    exact ⟨am, rfl, h, rfl⟩
  | cons name names ih =>
    obtain ⟨m, ms, rfl⟩ := exists_cons_of_length_eq_add_one hlen
    have hset : Received (am.upsertString name m) := h.upsertTo name trivial
    obtain ⟨am', hrun, hrec, hden⟩ := ih hset (Nat.succ.inj hlen)
    refine ⟨am', hrun, hrec, ?_⟩
    rw [hden, upsertString, denote_upsertTo]
    rfl

theorem extractAttributes_string {s : String} {re : Regexp} (hg : am.get a.key = some (.string s))
    (hre : a.regex = some re) :
    extractAttributes a am = (re.findStringSubmatch s).elim (.ok am)
      fun ms => upsertMatches a.attrNames.tail ms.tail am := by
  cases hms : re.findStringSubmatch s <;>
    simp [extractAttributes, hg, hre, hms, bind, Except.bind]

theorem Received.extractAttributes (lib : Library F) (h : Received am) (ha : a.Valid)
    (hact : a.action = .extract) :
    ∃ am', extractAttributes a am = .ok am' ∧ Received am' ∧
      am'.denote = a.act lib am.denote := by
  obtain ⟨re, hre, hnames⟩ := ha.compiled hact
  rw [AttributeAction.act, hact, lookup_denote]
  match hg : am.get a.key with
  | some (.string s) =>
    rw [extractAttributes_string hg hre]
    cases hms : re.findStringSubmatch s with
    | none => exact ⟨am, rfl, h, by simp [AnyValue.norm, hre, hms]⟩
    | some ms =>
      have hlen : ms.tail.length = a.attrNames.tail.length := by
        rw [length_tail, length_tail, hnames, re.length_match hms]
      obtain ⟨am', hrun, hrec, hden⟩ := h.upsertMatches hlen
      exact ⟨am', hrun, hrec, by simp [AnyValue.norm, hre, hms, hden]⟩
  | some .nil | some .null | some (.bool _) | some (.int _) | some (.double _) | some .kvlistNil
  | some (.kvlist _) | some .arrayNil | some (.array _) | none =>
    exact ⟨am, by simp [Processor.extractAttributes, hg], h, rfl⟩

theorem Received.hashAttribute (lib : Library F) (h : Received am) (hact : a.action = .hash) :
    Received (hashAttribute lib a am) ∧
      (hashAttribute lib a am).denote = a.act lib am.denote := by
  unfold Processor.hashAttribute AttributeAction.act
  simp only [hact, lookup_denote]
  cases hg : am.get a.key with
  | none => exact ⟨h, rfl⟩
  | some v =>
    refine ⟨⟨h.toIsMap.put a.key _, h.whole.put a.key trivial⟩, ?_⟩
    rw [denote_put (by rw [hg]; simp)]
    show am.denote.insert a.key (sha1Hasher lib v) = am.denote.insert a.key (sha1Hasher lib v.norm)
    rw [sha1Hasher_norm]

/-- The action is to set an entry that lacks its value message. -/
structure AttributeAction.Lost (a : AttributeAction F) (am : AttributeMap F) : Prop where
  sets : a.action = .update ∨ a.action = .upsert
  found : getSourceAttributeValue a am ≠ none
  missing : am.get a.key = some .nil

/-- An action that has no value to set does nothing, as it is meant to. -/
theorem Received.apply_of_no_source (lib : Library F) (h : Received am) (ha : a.Valid)
    (hsets : a.action = .insert ∨ a.action = .update ∨ a.action = .upsert)
    (hv : getSourceAttributeValue a am = none) :
    ∃ am', a.apply lib am = .ok am' ∧ Received am' ∧ am'.denote = a.act lib am.denote := by
  have hsrc := source_denote ha am
  refine ⟨am, ?_, h, ?_⟩ <;> rcases hsets with hact | hact | hact <;>
    simp [AttributeAction.apply, AttributeAction.act, hact, hsrc, hv]

theorem Received.apply (lib : Library F) (h : Received am) (ha : a.Valid) (hlost : ¬ a.Lost am) :
    ∃ am', a.apply lib am = .ok am' ∧ Received am' ∧ am'.denote = a.act lib am.denote := by
  have hsrc := source_denote ha am
  have hthere : (a.action = .update ∨ a.action = .upsert) → getSourceAttributeValue a am ≠ none →
      am.get a.key ≠ some .nil :=
    fun hsets hfound hmissing => hlost ⟨hsets, hfound, hmissing⟩
  cases hact : a.action with
  | delete =>
    refine ⟨(am.delete a.key).1, by rw [AttributeAction.apply, hact], ?_, ?_⟩
    · exact ⟨h.toIsMap.delete a.key, h.whole.delete a.key⟩
    · rw [AttributeAction.act, hact, h.toIsMap.denote_delete]
  | hash =>
    exact ⟨Processor.hashAttribute lib a am, by rw [AttributeAction.apply, hact],
      h.hashAttribute lib hact⟩
  | extract =>
    obtain ⟨am', hrun, hres⟩ := h.extractAttributes lib ha hact
    exact ⟨am', by rw [AttributeAction.apply, hact]; exact hrun, hres⟩
  | insert =>
    cases hv : getSourceAttributeValue a am with
    | none => exact h.apply_of_no_source lib ha (by simp [hact]) hv
    | some v =>
      have hins := insert_ok am a.key (source_whole ha h hv)
      refine ⟨am.insertNew a.key v.norm, by simp [AttributeAction.apply, hact, hv, hins],
        h.insertNew a.key (whole_norm v), ?_⟩
      simp [AttributeAction.act, hact, hsrc, hv, denote_insertNew, AnyValue.norm_norm]
  | update =>
    cases hv : getSourceAttributeValue a am with
    | none => exact h.apply_of_no_source lib ha (by simp [hact]) hv
    | some v =>
      have hget := hthere (.inl hact) (by rw [hv]; nofun)
      have hupd := update_ok hget (source_whole ha h hv)
      refine ⟨am.updateTo a.key v.norm, by simp [AttributeAction.apply, hact, hv, hupd],
        h.updateTo a.key (whole_norm v), ?_⟩
      simp [AttributeAction.act, hact, hsrc, hv, denote_updateTo, AnyValue.norm_norm]
  | upsert =>
    cases hv : getSourceAttributeValue a am with
    | none => exact h.apply_of_no_source lib ha (by simp [hact]) hv
    | some v =>
      have hget := hthere (.inr hact) (by rw [hv]; nofun)
      have hups := upsert_ok hget (source_whole ha h hv)
      refine ⟨am.upsertTo a.key v.norm, by simp [AttributeAction.apply, hact, hv, hups],
        h.upsertTo a.key (whole_norm v), ?_⟩
      simp [AttributeAction.act, hact, hsrc, hv, denote_upsertTo, AnyValue.norm_norm]

theorem copyTo_missing (hv : v.Whole) :
    v.copyTo .nil = .error .nilDereference ∨ v.copyTo .nil = .ok .nil ∧ v.norm ≠ .null := by
  cases v with
  | kvlist vs =>
    refine .inr ⟨?_, by simp [AnyValue.norm]⟩
    rw [AnyValue.copyTo, initFromAttributeMap_ok hv]
    rfl
  | array vs =>
    refine .inr ⟨?_, by simp [AnyValue.norm]⟩
    rw [AnyValue.copyTo, copyElements_ok hv]
    rfl
  | kvlistNil | arrayNil => exact .inr ⟨rfl, by simp [AnyValue.norm]⟩
  | nil | null | string _ | bool _ | int _ | double _ => exact .inl rfl

theorem AttributeAction.Lost.apply_ne {am' : AttributeMap F} (hlost : a.Lost am) (ha : a.Valid)
    (h : Received am) (hrun : a.apply lib am = .ok am') : am'.denote ≠ a.act lib am.denote := by
  obtain ⟨v, hv⟩ := Option.ne_none_iff_exists'.1 hlost.found
  have hmissing := hlost.missing
  have hget : am.get a.key ≠ none := by rw [hmissing]; nofun
  have hmem : a.key ∈ am.denote := mem_denote.2 hget
  -- both actions copy into the entry, and both mean that the value is there afterwards
  have hcopy : (do let copied ← v.copyTo .nil; return am.put a.key copied) = Except.ok am' ∧
      a.act lib am.denote = am.denote.insert a.key v.norm := by
    have hsrc := source_denote ha am
    rcases hlost.sets with hact | hact
    · refine ⟨?_, by simp [act, hact, hsrc, hv, updatePresent, hmem]⟩
      simpa only [AttributeAction.apply, hact, hv, AttributeMap.update, hmissing] using hrun
    · refine ⟨?_, by simp [act, hact, hsrc, hv]⟩
      simpa only [AttributeAction.apply, hact, hv, AttributeMap.upsert, hmissing] using hrun
  obtain ⟨hput, hmeant⟩ := hcopy
  rcases copyTo_missing (source_whole ha h hv) with hcrash | ⟨hkept, hne⟩
  · rw [hcrash] at hput
    cases hput
  · rw [hkept] at hput
    cases hput
    rw [hmeant, denote_put hget]
    intro heq
    have hlookup := congrArg (Finmap.lookup a.key) heq
    rw [Finmap.lookup_insert, Finmap.lookup_insert] at hlookup
    exact hne (Option.some.inj hlookup).symm

/-! ## Lists of actions -/

/-- `Process` returns a map, the one that the actions mean. -/
def Meant (lib : Library F) (actions : List (AttributeAction F)) (am : AttributeMap F) : Prop :=
  ∃ am', AttrProc.process lib ⟨actions⟩ am = .ok am' ∧ IsMap am' ∧
    am'.denote = actions.foldl (AttributeAction.act lib) am.denote

/-- No action is lost in the map that the actions before it leave. -/
def NoneLost (lib : Library F) (actions : List (AttributeAction F)) (am : AttributeMap F) : Prop :=
  ∀ pre a post am', actions = pre ++ a :: post → AttrProc.process lib ⟨pre⟩ am = .ok am' →
    ¬ a.Lost am'

theorem meant_cons {am₁ : AttributeMap F} (h : a.apply lib am = .ok am₁)
    (hden : am₁.denote = a.act lib am.denote) (actions : List (AttributeAction F)) :
    Meant lib (a :: actions) am ↔ Meant lib actions am₁ := by
  unfold Meant
  rw [process_cons h, foldl_cons, hden]

theorem noneLost_cons {am₁ : AttributeMap F} (h : a.apply lib am = .ok am₁) (hlost : ¬ a.Lost am)
    (actions : List (AttributeAction F)) :
    NoneLost lib (a :: actions) am ↔ NoneLost lib actions am₁ := by
  constructor
  · intro hnone pre b post am' hsplit hrun
    exact hnone (a :: pre) b post am' (by rw [hsplit]; rfl) (by rw [process_cons h, hrun])
  · intro hnone pre b post am' hsplit hrun
    cases pre with
    | nil =>
      cases hsplit
      cases hrun
      exact hlost
    | cons c pre =>
      cases hsplit
      rw [process_cons h] at hrun
      exact hnone pre b post am' rfl hrun

/-- **The actions have their documented meaning** on a received map, after each of them, exactly
when none of them is to set an entry that lacks its value message. -/
theorem process_meant_iff {lib : Library F} {settings : Settings F} {ap : AttrProc F}
    (hap : newAttrProc lib settings = .ok ap) {am : AttributeMap F} (h : Received am) :
    (∀ actions, actions <+: ap.actions → Meant lib actions am) ↔ NoneLost lib ap.actions am := by
  have hvalid := newAttrProc_valid hap
  generalize ap.actions = all at hvalid
  induction all generalizing am with
  | nil =>
    constructor
    · intro _ pre a post am' hsplit
      simp at hsplit
    · intro _ actions hpre
      rw [prefix_nil.1 hpre]
      exact ⟨am, rfl, h.toIsMap, rfl⟩
  | cons a all ih =>
    obtain ⟨ha, hall⟩ := forall_mem_cons.1 hvalid
    by_cases hlost : a.Lost am
    · refine iff_of_false (fun hmeant => ?_) (fun hnone => hnone [] a all am rfl rfl hlost)
      obtain ⟨am', hrun, -, hden⟩ := hmeant [a] (by simp)
      refine hlost.apply_ne ha h ?_ hden
      simpa [AttrProc.process] using hrun
    · obtain ⟨am₁, happly, hrec, hden⟩ := h.apply lib ha hlost
      refine Iff.trans ?_ ((ih hrec hall).trans (noneLost_cons happly hlost all).symm)
      constructor
      · intro hmeant actions hpre
        exact (meant_cons happly hden actions).1 (hmeant _ (prefix_cons_inj a |>.2 hpre))
      · intro hmeant actions hpre
        rcases prefix_cons_iff.1 hpre with rfl | ⟨rest, rfl, hrest⟩
        · exact ⟨am, rfl, h.toIsMap, rfl⟩
        · exact (meant_cons happly hden rest).2 (hmeant rest hrest)

def missingValue : AttributeMap Int := [.mk "k" .nil]

theorem received_missingValue : Received missingValue where
  present := by simp [missingValue]
  nodup := by decide
  whole := by
    intro k v hmem
    cases mem_singleton.1 hmem
    trivial

/-- An entry without its value message can be hashed. -/
theorem process_meant_iff_hash :
    ∃ ap, newAttrProc plainLibrary ⟨[{ key := "k", action := "hash" }]⟩ = .ok ap ∧
      Meant plainLibrary ap.actions missingValue := by
  have hap : newAttrProc plainLibrary ⟨[{ key := "k", action := "hash" }]⟩ =
      .ok ⟨[{ key := "k", action := .hash }]⟩ := rfl
  refine ⟨_, hap, (process_meant_iff hap received_missingValue).2 ?_ _ prefix_rfl⟩
  intro pre a post am' hsplit hrun hlost
  cases pre with
  | nil =>
    cases hsplit
    rcases hlost.sets with hact | hact <;> cases hact
  | cons b pre => simp at hsplit

/-- An `UPSERT` of a constant that is accepted, and an entry without its value message. -/
theorem upsert_missing_crashes :
    ∃ ap, newAttrProc plainLibrary
        ⟨[{ key := "k", value := some (.string "v"), action := "upsert" }]⟩ = .ok ap ∧
      Received missingValue ∧ ap.process plainLibrary missingValue = .error .nilDereference :=
  ⟨_, rfl, received_missingValue, rfl⟩

end Collector.Processor
