import Collector.RemoteWrite.Labels

/-!
# Label sets

`createLabelSet` keeps its labels in a map by their raw keys and writes sanitized names, and
`sanitize` takes different keys to one name. So the names of a label set are all different exactly
when no two of its keys are sanitized alike. The set does not depend on the order of the labels, nor
on that of the map.
-/

namespace Collector.RemoteWrite

open Otlp List

section Labels

variable [Unicode]

def extraName (k : String) : String := if isInternalLabel k then k else sanitize k

def flatten (pairs : List (String × String)) : List String := pairs.flatMap fun p => [p.1, p.2]

def lastValue (k : String) : List (String × String) → Option String
  | [] => none
  | (k', v) :: pairs => (lastValue k pairs).or (if k' = k then some v else none)

def keySet (labels : List StringKeyValue) (pairs : List (String × String)) : Set String :=
  {k | k ∈ labels.map (·.key) ∨ k ∈ pairs.map Prod.fst}

/-- The name that a key is written under, once the pairs have overwritten the labels. -/
def emittedName (pairs : List (String × String)) (k : String) : String :=
  if k ∈ pairs.map Prod.fst then extraName k else sanitize k

/-- The value of the last pair with a key is that of every label with its name. -/
def ExtrasWin (pairs : List (String × String)) (out : List Label) : Prop :=
  ∀ k v, lastValue k pairs = some v → ∀ lb ∈ out, lb.name = extraName k → lb.value = v

/-! ## The map of labels -/

variable {k : String}

omit [Unicode] in
theorem lastValue_isSome {pairs : List (String × String)} :
    (lastValue k pairs).isSome ↔ k ∈ pairs.map Prod.fst := by
  induction pairs with
  | nil => simp [lastValue]
  | cons p pairs ih =>
    obtain ⟨k', v⟩ := p
    simp only [lastValue, Option.isSome_or, Bool.or_eq_true, ih, map_cons, mem_cons]
    by_cases hk : k' = k
    · simp [hk]
    · simp [hk, Ne.symm hk]

theorem lookup_addExtras (l : GoMap String Label) (pairs : List (String × String)) (k : String) :
    (addExtras l (flatten pairs)).lookup k =
      ((lastValue k pairs).map fun v => ⟨extraName k, v⟩).or (l.lookup k) := by
  induction pairs generalizing l with
  | nil => simp [flatten, addExtras, lastValue]
  | cons p pairs ih =>
    obtain ⟨k', v⟩ := p
    have hstep : addExtras l (flatten ((k', v) :: pairs)) =
        addExtras (l.insert k' ⟨extraName k', v⟩) (flatten pairs) := rfl
    rw [hstep, ih, lastValue]
    by_cases hk : k' = k
    · subst hk
      cases lastValue k' pairs <;> simp
    · rw [AList.lookup_insert_ne (Ne.symm hk), if_neg hk, Option.or_none]

theorem lookup_foldl_addLabel {labels : List StringKeyValue} (h : (labels.map (·.key)).Nodup)
    (l : GoMap String Label) (k : String) :
    (labels.foldl addLabel l).lookup k =
      ((labels.find? (·.key = k)).map fun lb => ⟨sanitize k, lb.value⟩).or (l.lookup k) := by
  induction labels generalizing l with
  | nil => simp
  | cons lb labels ih =>
    obtain ⟨hnew, hrest⟩ := nodup_cons.1 h
    rw [foldl_cons, ih hrest]
    by_cases hk : lb.key = k
    · subst hk
      have hnone : labels.find? (fun lb' => decide (lb'.key = lb.key)) = none := by
        rw [find?_eq_none]
        intro lb' hlb' heq
        exact hnew (mem_map.2 ⟨lb', hlb', by simpa using heq⟩)
      simp [hnone, addLabel]
    · simp [hk, addLabel, AList.lookup_insert_ne (Ne.symm hk)]

/-- The map of `createLabelSet` after both loops. -/
def labelMap (labels : List StringKeyValue) (pairs : List (String × String)) :
    GoMap String Label :=
  addExtras (labels.foldl addLabel ∅) (flatten pairs)

section

variable {labels : List StringKeyValue} {pairs : List (String × String)}

section

variable (h : (labels.map (·.key)).Nodup)

include h

theorem lookup_labelMap (k : String) : (labelMap labels pairs).lookup k =
      ((lastValue k pairs).map fun v => ⟨extraName k, v⟩).or
        ((labels.find? (·.key = k)).map fun lb => ⟨sanitize k, lb.value⟩) := by
  unfold labelMap
  rw [lookup_addExtras, lookup_foldl_addLabel h, AList.lookup_empty, Option.or_none]

theorem mem_labelMap : k ∈ labelMap labels pairs ↔ k ∈ keySet labels pairs := by
  rw [← AList.lookup_isSome, lookup_labelMap h, Option.isSome_or, Option.isSome_map,
    Option.isSome_map, Bool.or_eq_true, lastValue_isSome, or_comm]
  simp [keySet]

theorem name_of_lookup {lb : Label}
    (hlookup : (labelMap labels pairs).lookup k = some lb) : lb.name = emittedName pairs k := by
  rw [lookup_labelMap h] at hlookup
  unfold emittedName
  cases hlast : lastValue k pairs with
  | some v =>
    rw [if_pos (lastValue_isSome.1 (by rw [hlast]; rfl))]
    rw [hlast] at hlookup
    cases hlookup
    rfl
  | none =>
    have hnot : k ∉ pairs.map Prod.fst := fun hmem => by
      have hsome := lastValue_isSome.2 hmem
      rw [hlast] at hsome
      cases hsome
    rw [if_neg hnot]
    rw [hlast, Option.map_none, Option.none_or] at hlookup
    obtain ⟨lb', -, rfl⟩ := Option.map_eq_some_iff.1 hlookup
    rfl

theorem names_labelMap : (labelMap labels pairs).values.map (·.name) =
      (labelMap labels pairs).keys.map (emittedName pairs) := by
  unfold GoMap.values AList.keys List.keys
  rw [map_map, map_map]
  refine map_congr_left fun e he => ?_
  exact name_of_lookup h (AList.mem_lookup_iff.2 he)

/-- **The names are different exactly when no two keys are written alike.** -/
theorem nodup_names_iff : ((labelMap labels pairs).values.map (·.name)).Nodup ↔
      Set.InjOn (emittedName pairs) (keySet labels pairs) := by
  rw [names_labelMap h, nodup_map_iff_inj_on (labelMap labels pairs).keys_nodup]
  unfold Set.InjOn
  simp only [← mem_labelMap h, AList.mem_keys]

theorem extrasWin_of_injOn (hinj : Set.InjOn (emittedName pairs) (keySet labels pairs)) :
    ExtrasWin pairs (labelMap labels pairs).values := by
  intro k v hlast lb hlb hname
  have hk : k ∈ pairs.map Prod.fst := lastValue_isSome.1 (by rw [hlast]; rfl)
  obtain ⟨k', hlookup⟩ := GoMap.mem_values.1 hlb
  have hk' : k' ∈ keySet labels pairs :=
    (mem_labelMap h).1 (AList.lookup_isSome.1 (by rw [hlookup]; rfl))
  have hsame : emittedName pairs k' = emittedName pairs k := by
    rw [← name_of_lookup h hlookup, hname, emittedName, if_pos hk]
  cases hinj hk' (.inr hk) hsame
  rw [lookup_labelMap h, hlast] at hlookup
  cases hlookup
  rfl

omit [Unicode] in
theorem find?_key {lb : StringKeyValue} :
    labels.find? (·.key = k) = some lb ↔ lb ∈ labels ∧ lb.key = k := by
  constructor
  · intro hfind
    exact ⟨mem_of_find?_eq_some hfind, by simpa using find?_some hfind⟩
  · rintro ⟨hmem, hkey⟩
    obtain ⟨lb', hfind⟩ : ∃ lb', labels.find? (·.key = k) = some lb' :=
      Option.isSome_iff_exists.1 (find?_isSome.2 ⟨lb, hmem, decide_eq_true hkey⟩)
    have hkey' : lb'.key = k := by simpa using find?_some hfind
    rw [hfind, inj_on_of_nodup_map h (mem_of_find?_eq_some hfind) hmem
      (hkey'.trans hkey.symm)]

theorem values_perm {labels' : List StringKeyValue} (hperm : labels'.Perm labels) :
    (labelMap labels' pairs).values.Perm (labelMap labels pairs).values := by
  have h' : (labels'.map (·.key)).Nodup := (hperm.map _).nodup_iff.2 h
  refine List.Perm.map _ (lookup_ext (AList.nodupKeys _) (AList.nodupKeys _) fun k lb => ?_)
  have hfind : labels'.find? (·.key = k) = labels.find? (·.key = k) := by
    refine Option.ext fun lb => ?_
    rw [find?_key h, find?_key h', hperm.mem_iff]
  have hlookup : (labelMap labels' pairs).lookup k = (labelMap labels pairs).lookup k := by
    rw [lookup_labelMap h, lookup_labelMap h', hfind]
  exact Eq.to_iff (congrArg (lb ∈ ·) hlookup)

end

theorem createLabelSet_eq (ord : MapOrder Label) (labels : List StringKeyValue)
    (pairs : List (String × String)) :
    createLabelSet ord (labels.map some) (flatten pairs) =
      .ok (ord.order (labelMap labels pairs).values) := by
  rw [createLabelSet_ok (by simp)]
  simp [labelSet, labelMap, List.reduceOption]

end

/-- **A label set has one label for each name, with the values of the extra pairs, exactly when no
two of its keys are written alike.** In any case its labels are the same whatever the order of the
labels and that of the map. -/
theorem label_set_valid_iff (ord : MapOrder Label) (labels : List StringKeyValue)
    (pairs : List (String × String)) (h : (labels.map (·.key)).Nodup) :
    ∃ out, createLabelSet ord (labels.map some) (flatten pairs) = .ok out ∧
      ((out.map (·.name)).Nodup ∧ ExtrasWin pairs out ↔
        Set.InjOn (emittedName pairs) (keySet labels pairs)) ∧
      ∀ (ord' : MapOrder Label) (labels' : List StringKeyValue), labels'.Perm labels →
        ∃ out', createLabelSet ord' (labels'.map some) (flatten pairs) = .ok out' ∧
          out'.Perm out := by
  have hout := ord.perm (labelMap labels pairs).values
  have hnames : ((ord.order (labelMap labels pairs).values).map (·.name)).Nodup ↔ _ :=
    (hout.map (·.name)).nodup_iff.trans (nodup_names_iff h)
  refine ⟨_, createLabelSet_eq ord labels pairs, ⟨?_, ?_⟩, fun ord' labels' hperm => ?_⟩
  · exact fun hvalid => hnames.1 hvalid.1
  · intro hinj
    refine ⟨hnames.2 hinj, fun k v hlast lb hlb => ?_⟩
    exact extrasWin_of_injOn h hinj k v hlast lb (hout.mem_iff.1 hlb)
  · exact ⟨_, createLabelSet_eq ord' labels' pairs,
      (ord'.perm _).trans ((values_perm h hperm).trans hout.symm)⟩

end Labels

section Sets

attribute [local instance] Unicode.latin1

/-- A metric name and a pair that overwrites one of two labels. -/
theorem overwritten_valid :
    (["a", "b"] : List String).Nodup ∧
      ∃ out, createLabelSet .stored [some ⟨"a", "1"⟩, some ⟨"b", "2"⟩]
          ["__name__", "m", "b", "3"] = .ok out ∧
        (out.map (·.name)).Nodup ∧ ExtrasWin [("__name__", "m"), ("b", "3")] out := by
  refine ⟨by decide, ?_⟩
  obtain ⟨out, hout, hiff, -⟩ := label_set_valid_iff .stored [⟨"a", "1"⟩, ⟨"b", "2"⟩]
    [("__name__", "m"), ("b", "3")] (by decide)
  refine ⟨out, hout, hiff.2 ?_⟩
  have hdistinct : ∀ x ∈ ["a", "b", "__name__"], ∀ y ∈ ["a", "b", "__name__"],
      emittedName [("__name__", "m"), ("b", "3")] x =
        emittedName [("__name__", "m"), ("b", "3")] y → x = y := by decide +kernel
  have hkeys : ∀ k ∈ keySet [⟨"a", "1"⟩, ⟨"b", "2"⟩] [("__name__", "m"), ("b", "3")],
      k ∈ ["a", "b", "__name__"] := by
    rintro k (hk | hk)
    all_goals
      simp only [map_cons, map_nil, mem_cons, not_mem_nil, or_false] at hk ⊢
      tauto
  exact fun x hx y hy => hdistinct x (hkeys x hx) y (hkeys y hy)

/-- `a.b` and `a-b` are both written `a_b`; so is `a.b` beside an extra pair with the key `a_b`. -/
theorem dots_and_dashes_collide :
    createLabelSet .stored [some ⟨"a.b", "1"⟩, some ⟨"a-b", "2"⟩] [] =
        .ok [⟨"a_b", "2"⟩, ⟨"a_b", "1"⟩] ∧
      createLabelSet .stored [some ⟨"a.b", "1"⟩] ["a_b", "3"] =
        .ok [⟨"a_b", "3"⟩, ⟨"a_b", "1"⟩] ∧
      ¬ ExtrasWin [("a_b", "3")] [⟨"a_b", "3"⟩, ⟨"a_b", "1"⟩] := by
  refine ⟨by decide +kernel, by decide +kernel, fun hwin => ?_⟩
  have hvalue := hwin "a_b" "3" rfl ⟨"a_b", "1"⟩ (by simp) (by decide +kernel)
  revert hvalue
  decide

end Sets

end Collector.RemoteWrite
