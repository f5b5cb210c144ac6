import Collector.Lib.Collate
import Collector.Prometheus.Adding
import Collector.RemoteWrite.Names

/-!
# The groups of a family

Samples go to one group exactly when they agree on their useful labels. The
signature of a sample is taken under the label keys known so far, which grow; but
a key that the sample does not have adds nothing, so the signature is that of the
useful labels alone (`labelPairs_eq_iff`) and stays the same. `ToMetric` emits the
groups in the order in which they were opened, under label values that tell them
apart.
-/

namespace Collector.Prometheus

open Lib OpenCensus
open RemoteWrite (LabelName nameStart nameChar)
open List

/-! ## Labels -/

def ValidNames {F : Type} (ss : List (Sample F)) : Prop := ∀ s ∈ ss, ∀ l ∈ s.ls, LabelName l.name

def LabelSets {F : Type} (ss : List (Sample F)) : Prop := ∀ s ∈ ss, (s.ls.map Label.name).Nodup

section Family

variable [LabelSet]

/-- Two sets of labels agree on the useful labels; a label that is not there has an empty value. -/
def Agree (mtype : MetricType) (ls ls' : List Label) : Prop :=
  ∀ k, isUsefulLabel mtype k = true → getLabel ls k = getLabel ls' k

theorem getLabel_ne_empty {ls : List Label} {k : String} (h : getLabel ls k ≠ "") :
    ∃ l ∈ ls, l.name = k := by
  by_contra hnone
  exact h (LabelSet.get_absent ls k fun l hl hname => hnone ⟨l, hl, hname⟩)

theorem lookup_labelMap {ls : List Label} (h : (ls.map Label.name).Nodup) (k : String) :
    ((labelMap ls).lookup k).getD "" = getLabel ls k := by
  by_cases hk : ∃ l ∈ ls, l.name = k
  · obtain ⟨l, hl, rfl⟩ := hk
    rw [LabelSet.get_present ls h l hl, LabelSet.map_present ls h l hl]
    rfl
  · have hnone : ∀ l ∈ ls, l.name ≠ k := fun l hl hname => hk ⟨l, hl, hname⟩
    rw [LabelSet.get_absent ls k hnone, LabelSet.map_absent ls k hnone]
    rfl

/-! ## Signatures -/

def labelPairs (keys : List String) (ls : List Label) : List (String × String) :=
  keys.filterMap fun k => if getLabel ls k = "" then none else some (k, getLabel ls k)

theorem mem_labelPairs {keys : List String} {ls : List Label} {kv : String × String} :
    kv ∈ labelPairs keys ls ↔ kv.1 ∈ keys ∧ kv.2 ≠ "" ∧ getLabel ls kv.1 = kv.2 := by
  unfold labelPairs
  rw [mem_filterMap]
  constructor
  · rintro ⟨k, hk, h⟩
    obtain ⟨hne, h⟩ := Option.ite_none_left_eq_some.1 h
    cases h
    exact ⟨hk, hne, rfl⟩
  · rintro ⟨hk, hne, h⟩
    refine ⟨kv.1, hk, ?_⟩
    rw [h, if_neg hne]

theorem pairwise_labelPairs {keys : List String} (h : keys.Pairwise (· < ·)) (ls : List Label) :
    (labelPairs keys ls).Pairwise fun a b => a.1 < b.1 := by
  unfold labelPairs
  rw [pairwise_filterMap]
  refine h.imp fun {a b} hab kv hkv kv' hkv' => ?_
  obtain ⟨-, hkv⟩ := Option.ite_none_left_eq_some.1 hkv
  obtain ⟨-, hkv'⟩ := Option.ite_none_left_eq_some.1 hkv'
  cases hkv
  cases hkv'
  exact hab

/-- The label keys under which a sample is signed: sorted, useful and valid, and its own useful ones
among them. -/
structure Covers (mtype : MetricType) (keys : List String) (ls : List Label) : Prop where
  sorted : keys.Pairwise (· < ·)
  useful : ∀ k ∈ keys, isUsefulLabel mtype k = true ∧ LabelName k
  own : ∀ l ∈ ls, isUsefulLabel mtype l.name = true → l.name ∈ keys

variable {mtype : MetricType} {keys keys' : List String} {ls ls' : List Label}

/-- What is listed does not depend on the other keys. -/
theorem Covers.mem_labelPairs (h : Covers mtype keys ls) {kv : String × String} :
    kv ∈ labelPairs keys ls ↔
      isUsefulLabel mtype kv.1 = true ∧ kv.2 ≠ "" ∧ getLabel ls kv.1 = kv.2 := by
  rw [Prometheus.mem_labelPairs]
  refine ⟨fun ⟨hk, hrest⟩ => ⟨(h.useful _ hk).1, hrest⟩, fun ⟨hk, hne, hget⟩ => ⟨?_, hne, hget⟩⟩
  obtain ⟨l, hl, hname⟩ := getLabel_ne_empty (hget ▸ hne)
  rw [← hname] at hk ⊢
  exact h.own l hl hk

/-- **Two samples list the same labels exactly when they agree**, under whatever keys each was
signed. -/
theorem labelPairs_eq_iff (h : Covers mtype keys ls) (h' : Covers mtype keys' ls') :
    labelPairs keys ls = labelPairs keys' ls' ↔ Agree mtype ls ls' := by
  constructor
  · intro heq k hk
    by_cases hv : getLabel ls k = ""
    · by_contra hn
      have hmem : (k, getLabel ls' k) ∈ labelPairs keys' ls' :=
        h'.mem_labelPairs.2 ⟨hk, fun he => hn (hv.trans he.symm), rfl⟩
      rw [← heq] at hmem
      exact hn (h.mem_labelPairs.1 hmem).2.2
    · have hmem : (k, getLabel ls k) ∈ labelPairs keys ls := h.mem_labelPairs.2 ⟨hk, hv, rfl⟩
      rw [heq] at hmem
      exact (h'.mem_labelPairs.1 hmem).2.2.symm
  · intro hagree
    have hs := pairwise_labelPairs h.sorted ls
    have hs' := pairwise_labelPairs h'.sorted ls'
    have hirrefl : ∀ {l : List (String × String)}, l.Pairwise (fun a b => a.1 < b.1) → l.Nodup := by
      intro l hl
      refine hl.imp fun {a b} hab he => ?_
      rw [he] at hab
      exact lt_irrefl _ hab
    refine List.Perm.eq_of_pairwise (fun a b _ _ hab hba => absurd hab (lt_asymm hba)) hs hs' ?_
    refine (perm_ext_iff_of_nodup (hirrefl hs) (hirrefl hs')).2 fun kv => ?_
    rw [h.mem_labelPairs, h'.mem_labelPairs]
    refine and_congr_right fun hk => ?_
    rw [hagree kv.1 hk]

omit [LabelSet] in
theorem equals_notMem {k : String} (h : LabelName k) : '=' ∉ k.toList := by
  obtain ⟨c, cs, hk, hc, hcs⟩ := h
  rw [hk]
  intro hmem
  have hnot : nameChar '=' = false := by decide
  rcases mem_cons.1 hmem with rfl | hmem
  · exact absurd (show nameChar '=' = true by rw [nameChar, hc]; rfl) (by rw [hnot]; decide)
  · rw [hcs _ hmem] at hnot
    cases hnot

def labelText (kv : String × String) : String := kv.1 ++ "=" ++ kv.2

omit [LabelSet] in
theorem labelText_inj {a b : String × String} (ha : LabelName a.1) (hb : LabelName b.1)
    (h : labelText a = labelText b) : a = b := by
  have hlist := congrArg String.toList h
  simp only [labelText, String.toList_append, append_assoc] at hlist
  obtain ⟨hk, hv⟩ := append_mark_inj (equals_notMem ha) (equals_notMem hb) hlist
  exact Prod.ext (String.toList_inj.1 hk) (String.toList_inj.1 hv)

theorem dpgSignature_eq (isPrint : Char → Bool) (keys : List String) (ls : List Label) :
    dpgSignature isPrint keys ls = goSyntax isPrint ((labelPairs keys ls).map labelText) := by
  unfold dpgSignature labelPairs
  rw [map_filterMap]
  refine congrArg (goSyntax isPrint) (filterMap_congr fun k _ => ?_)
  by_cases hv : getLabel ls k = "" <;> simp [hv, labelText]

theorem dpgSignature_eq_iff {isPrint : Char → Bool} (h : Covers mtype keys ls)
    (h' : Covers mtype keys' ls') :
    dpgSignature isPrint keys ls = dpgSignature isPrint keys' ls' ↔ Agree mtype ls ls' := by
  rw [← labelPairs_eq_iff h h', dpgSignature_eq, dpgSignature_eq, goSyntax_injective.eq_iff]
  constructor
  · intro heq
    refine map_inj_of_mem (fun a ha b hb => labelText_inj ?_ ?_) heq
    · exact (h.useful _ (Prometheus.mem_labelPairs.1 ha).1).2
    · exact (h'.useful _ (Prometheus.mem_labelPairs.1 hb).1).2
  · intro heq
    rw [heq]

/-! ## One sample -/

section Add

variable {F τ : Type} (parseFloat : String → Except (GoError τ) F) {isPrint : Char → Bool}
  {mf mf' : OpenFamily F} {s : Sample F}

/-- What a sample makes of its group, which it opens if it is the first. A sample that is refused
leaves the group as it is. -/
def addTo [Zero F] (mtype : MetricType) (mg : Option (MetricGroup F)) (s : Sample F) :
    MetricGroup F :=
  let mg := mg.getD ⟨s.t, s.ls, 0, false, 0, false, 0, []⟩
  match mg.addSample parseFloat mtype s with
  | .ok mg' => mg'
  | .error _ => mg

variable {parseFloat}

theorem addSample_ls {mg mg' : MetricGroup F}
    (h : mg.addSample parseFloat mtype s = .ok mg') : mg'.ls = mg.ls := by
  have hpart : ∀ {mtype}, mg.addPart parseFloat mtype s = .ok mg' → mg'.ls = mg.ls := by
    intro mtype h
    unfold MetricGroup.addPart at h
    split at h
    · cases h
      rfl
    · split at h
      · cases h
        rfl
      · obtain ⟨boundary, -, h⟩ := bind_eq_ok.1 h
        cases h
        rfl
  unfold MetricGroup.addSample at h
  split at h
  · exact hpart h
  · exact hpart h
  · cases h
    rfl

theorem addTo_ls [Zero F] (mtype : MetricType) (mg : Option (MetricGroup F)) :
    (addTo parseFloat mtype mg s).ls = (mg.map MetricGroup.ls).getD s.ls := by
  have hstart : (mg.getD ⟨s.t, s.ls, 0, false, 0, false, 0, []⟩).ls =
      (mg.map MetricGroup.ls).getD s.ls := by
    cases mg <;> rfl
  unfold addTo
  simp only
  split
  · rename_i mg' hmg
    exact (addSample_ls hmg).trans hstart
  · exact hstart

/-- What `Add` does to the groups: the one under the key becomes `mg`, and no other is touched. -/
structure Added (mf : OpenFamily F) (s : Sample F) (key : String) (mg : MetricGroup F)
    (mf' : OpenFamily F) : Prop where
  name : mf'.name = mf.name
  mtype : mf'.mtype = mf.mtype
  labelKeysOrdered : mf'.labelKeysOrdered = (mf.updateLabelKeys s.ls).labelKeysOrdered
  labelKeys : mf'.labelKeys = (mf.updateLabelKeys s.ls).labelKeys
  groupOrders : mf'.groupOrders = if key ∈ mf.groups then mf.groupOrders
    else mf.groupOrders.insert key mf.groupOrders.pairs.length
  group : mf'.groups.lookup key = some mg
  others : ∀ k, k ≠ key → mf'.groups.lookup k = mf.groups.lookup k

omit [LabelSet] in
theorem Added.mem_groups {key : String} {mg : MetricGroup F} (h : Added mf s key mg mf')
    {k : String} : k ∈ mf'.groups ↔ k ∈ mf.groups ∨ k = key := by
  rw [← AList.lookup_isSome]
  by_cases he : k = key
  · rw [he, h.group]
    exact iff_of_true rfl (.inr rfl)
  · rw [h.others k he, AList.lookup_isSome]
    exact (or_iff_left he).symm

omit [LabelSet] in
theorem Added.positions {key : String} {mg : MetricGroup F} (h : Added mf s key mg mf')
    {l : List String} (hl : Positions mf.groupOrders l) (hmem : ∀ k, k ∈ l ↔ k ∈ mf.groups) :
    Positions mf'.groupOrders (if key ∈ l then l else l ++ [key]) := by
  rw [h.groupOrders]
  by_cases hkey : key ∈ l
  · rw [if_pos hkey, if_pos ((hmem key).1 hkey)]
    exact hl
  · rw [if_neg hkey, if_neg (mt (hmem key).2 hkey), GoMap.pairs, length_map]
    exact hl.snoc hkey

omit [LabelSet] in
theorem added_load [Zero F] (mf : OpenFamily F) (s : Sample F) (key : String) :
    ∃ mf' mg, (mf.updateLabelKeys s.ls).loadMetricGroupOrCreate key s.ls s.t = (mf', mg) ∧
      mg = (mf.groups.lookup key).getD ⟨s.t, s.ls, 0, false, 0, false, 0, []⟩ ∧
      Added mf s key mg mf' := by
  obtain ⟨hname, hmtype, hgroups, horders⟩ := mf.sameButKeys_updateLabelKeys s.ls
  unfold OpenFamily.loadMetricGroupOrCreate
  rw [hgroups, horders]
  cases hk : mf.groups.lookup key with
  | some mg =>
    have hmem : key ∈ mf.groups := AList.lookup_isSome.1 (by rw [hk]; rfl)
    refine ⟨_, mg, rfl, rfl, hname, hmtype, rfl, rfl, ?_, by rw [hgroups, hk], fun k _ => ?_⟩
    · rw [if_pos hmem, horders]
    · rw [hgroups]
  | none =>
    have hmem : key ∉ mf.groups := AList.lookup_eq_none.1 hk
    exact ⟨_, _, rfl, rfl, hname, hmtype, rfl, rfl, (if_neg hmem).symm, AList.lookup_insert _,
      fun k hne => AList.lookup_insert_ne hne⟩

theorem added_add [Zero F] (mf : OpenFamily F) (s : Sample F) :
    Added mf s (mf.getGroupKey isPrint s.ls).2
      (addTo parseFloat mf.mtype (mf.groups.lookup (mf.getGroupKey isPrint s.ls).2) s)
      (mf.add parseFloat isPrint s).1 := by
  obtain ⟨mf', mg, hload, hmg, h⟩ := added_load mf s (mf.getGroupKey isPrint s.ls).2
  have hload' : (mf.getGroupKey isPrint s.ls).1.loadMetricGroupOrCreate
      (mf.getGroupKey isPrint s.ls).2 s.ls s.t = (mf', mg) := hload
  simp only [OpenFamily.add, hload', addTo, ← hmg, h.mtype]
  cases mg.addSample parseFloat mf.mtype s with
  | error err => exact { h with mtype := rfl }
  | ok mg' =>
    exact { h with
      mtype := rfl
      group := AList.lookup_insert _
      others := fun k hne => (AList.lookup_insert_ne hne).trans (h.others k hne) }

end Add

/-! ## A run of samples -/

section Run

variable {F τ : Type} (parseFloat : String → Except (GoError τ) F) (isPrint : Char → Bool)

/-- One `Add`, with the key of the group that the sample went to. -/
def addStep [Zero F] (st : OpenFamily F × List String) (s : Sample F) :
    OpenFamily F × List String :=
  ((st.1.add parseFloat isPrint s).1, st.2 ++ [(st.1.getGroupKey isPrint s.ls).2])

/-- The `Add` calls on a family, with the keys of the groups. -/
def addAll [Zero F] (mf : OpenFamily F) (ss : List (Sample F)) : OpenFamily F × List String :=
  ss.foldl (addStep parseFloat isPrint) (mf, [])

/-- The samples that went to the group of this key. -/
def samplesOf (k : String) (ss : List (Sample F)) (keys : List String) : List (Sample F) :=
  ((ss.zip keys).filter (·.2 = k)).map Prod.fst

/-- The group that samples make one after the other. -/
def collected [Zero F] (mtype : MetricType) (ss : List (Sample F)) : Option (MetricGroup F) :=
  ss.foldl (fun mg s => some (addTo parseFloat mtype mg s)) none

/-- The keys and the groups of what has been added: each sample is signed under keys that cover it,
and the group of a key is made by its samples. -/
structure Grouped [Zero F] (done : List (Sample F)) (st : OpenFamily F × List String) : Prop where
  keys : st.1.KeysSound (done.flatMap Sample.ls)
  signed : List.Forall₂ (fun s k => ∃ ks, Covers st.1.mtype ks s.ls ∧
    k = dpgSignature isPrint ks s.ls) done st.2
  orders : Positions st.1.groupOrders (firstSeen st.2)
  stored : ∀ k, st.1.groups.lookup k =
    collected parseFloat st.1.mtype (samplesOf k done st.2)

variable {parseFloat isPrint} [Zero F] {done ss : List (Sample F)} {st : OpenFamily F × List String}
  {s s' : Sample F} {k k' : String} {mg : MetricGroup F}

omit [LabelSet] [Zero F] in
theorem mem_samplesOf :
    s ∈ samplesOf k ss keys ↔ (s, k) ∈ ss.zip keys := by
  simp [samplesOf]

theorem ls_of_collected (h : collected parseFloat mtype ss = some mg) :
    ∃ s ∈ ss, mg.ls = s.ls := by
  induction ss using List.reverseRecOn generalizing mg with
  | nil => cases h
  | append_singleton ss s ih =>
    rw [collected, foldl_append] at h
    cases h
    rw [addTo_ls]
    cases hold : collected parseFloat mtype ss with
    | none =>
      refine ⟨s, by simp, ?_⟩
      rw [collected] at hold
      rw [hold]
      rfl
    | some old =>
      obtain ⟨s', hs', hls⟩ := ih hold
      refine ⟨s', mem_append_left _ hs', ?_⟩
      rw [collected] at hold
      rw [hold]
      exact hls

theorem isSome_collected : (collected parseFloat mtype ss).isSome ↔ ss ≠ [] := by
  induction ss using List.reverseRecOn with
  | nil => simp [collected]
  | append_singleton ss s ih => simp [collected]

theorem Grouped.opened (h : Grouped parseFloat isPrint done st)
    (hmg : st.1.groups.lookup k = some mg) :
    ∃ s, (s, k) ∈ done.zip st.2 ∧ mg.ls = s.ls := by
  rw [h.stored] at hmg
  obtain ⟨s, hs, hls⟩ := ls_of_collected hmg
  exact ⟨s, mem_samplesOf.1 hs, hls⟩

theorem Grouped.known (h : Grouped parseFloat isPrint done st) :
    k ∈ st.1.groups ↔ k ∈ st.2 := by
  rw [← AList.lookup_isSome, h.stored, isSome_collected]
  constructor
  · intro hne
    obtain ⟨s, hs⟩ := exists_mem_of_ne_nil _ hne
    exact (of_mem_zip (mem_samplesOf.1 hs)).2
  · intro hk
    obtain ⟨i, hi, rfl⟩ := mem_iff_getElem.1 hk
    have hlen := h.signed.length_eq
    exact ne_nil_of_mem (mem_samplesOf.2
      (mem_iff_getElem.2 ⟨i, by simp only [length_zip]; omega, by rw [getElem_zip]⟩))

theorem grouped_fresh (name : String) (mtype : MetricType) (metadata : MetricMetadata) :
    Grouped parseFloat isPrint [] ((OpenFamily.fresh name mtype metadata : OpenFamily F), []) where
  keys := ⟨List.Pairwise.nil, by simp [OpenFamily.fresh], fun k =>
    iff_of_false (AList.notMem_empty k) not_mem_nil⟩
  signed := List.Forall₂.nil
  orders := Positions.empty
  stored := AList.lookup_empty

theorem Grouped.covers (h : Grouped parseFloat isPrint done st)
    (hvalid : ValidNames (done ++ [s])) :
    Covers st.1.mtype (st.1.updateLabelKeys s.ls).labelKeysOrdered s.ls := by
  have hmtype := (st.1.sameButKeys_updateLabelKeys s.ls).mtype
  have hkeys := h.keys.updateLabelKeys s.ls
  refine ⟨hkeys.sorted, fun k hk => ?_, fun l hl huseful => ?_⟩
  · obtain ⟨huseful, l, hl, rfl⟩ := (hkeys.mem k).1 hk
    rw [hmtype] at huseful
    refine ⟨huseful, ?_⟩
    rcases mem_append.1 hl with hl | hl
    · obtain ⟨x, hx, hl⟩ := mem_flatMap.1 hl
      exact hvalid x (mem_append_left _ hx) l hl
    · exact hvalid s (mem_append_right _ mem_cons_self) l hl
  · refine (hkeys.mem _).2 ⟨?_, l, mem_append_right _ hl, rfl⟩
    rw [hmtype]
    exact huseful

theorem Grouped.step (h : Grouped parseFloat isPrint done st)
    (hvalid : ValidNames (done ++ [s])) :
    Grouped parseFloat isPrint (done ++ [s]) (addStep parseFloat isPrint st s) := by
  obtain ⟨mf, keys⟩ := st
  obtain ⟨key, hkey⟩ : ∃ key, (mf.getGroupKey isPrint s.ls).2 = key := ⟨_, rfl⟩
  have hadd : Added mf s key (addTo parseFloat mf.mtype (mf.groups.lookup key) s)
      (mf.add parseFloat isPrint s).1 := hkey ▸ added_add mf s
  have hzip : (done ++ [s]).zip (keys ++ [key]) = done.zip keys ++ [(s, key)] :=
    zip_append h.signed.length_eq
  unfold addStep
  rw [hkey]
  refine ⟨?_, ?_, ?_, fun k => ?_⟩
  · have hkeys := h.keys.updateLabelKeys s.ls
    have hmtype := (mf.sameButKeys_updateLabelKeys s.ls).mtype
    rw [flatMap_append, flatMap_singleton]
    refine ⟨hadd.labelKeysOrdered ▸ hkeys.sorted, fun k => ?_, fun k => ?_⟩
    · rw [hadd.labelKeysOrdered, hadd.mtype, ← hmtype]
      exact hkeys.mem k
    · rw [hadd.labelKeysOrdered, hadd.labelKeys]
      exact hkeys.known k
  · simp only [hadd.mtype]
    exact rel_append h.signed (.cons ⟨_, h.covers hvalid, hkey.symm⟩ .nil)
  · rw [firstSeen_snoc]
    exact hadd.positions h.orders fun k => mem_firstSeen.trans h.known.symm
  · rw [samplesOf, hzip, hadd.mtype]
    by_cases he : k = key
    · subst he
      have hsnoc : ((done.zip keys ++ [(s, k)]).filter (·.2 = k)).map Prod.fst =
          samplesOf k done keys ++ [s] := by
        simp [samplesOf]
      rw [hadd.group, hsnoc, collected, foldl_append, h.stored]
      rfl
    · have hsame : ((done.zip keys ++ [(s, key)]).filter (·.2 = k)).map Prod.fst =
          samplesOf k done keys := by
        simp [samplesOf, Ne.symm he]
      rw [hadd.others k he, hsame]
      exact h.stored k

theorem grouped_addAll (name : String) (mtype : MetricType) (metadata : MetricMetadata)
    (hvalid : ValidNames ss) :
    Grouped parseFloat isPrint ss (addAll parseFloat isPrint (.fresh name mtype metadata) ss) := by
  induction ss using List.reverseRecOn with
  | nil => exact grouped_fresh name mtype metadata
  | append_singleton ss s ih =>
    rw [addAll, foldl_append]
    exact (ih fun x hx => hvalid x (mem_append_left _ hx)).step hvalid

theorem mtype_addAll (mf : OpenFamily F) (ss : List (Sample F)) :
    (addAll parseFloat isPrint mf ss).1.mtype = mf.mtype := by
  induction ss using List.reverseRecOn with
  | nil => rfl
  | append_singleton ss s ih =>
    rw [addAll, foldl_append]
    exact (added_add _ s).mtype.trans ih

theorem Grouped.key_eq (h : Grouped parseFloat isPrint done st) (hs : (s, k) ∈ done.zip st.2) :
    ∃ ks, Covers st.1.mtype ks s.ls ∧ k = dpgSignature isPrint ks s.ls :=
  (forall₂_iff_zip.1 h.signed).2 hs

theorem Grouped.key_eq_iff (h : Grouped parseFloat isPrint done st) (hs : (s, k) ∈ done.zip st.2)
    (hs' : (s', k') ∈ done.zip st.2) : k = k' ↔ Agree st.1.mtype s.ls s'.ls := by
  obtain ⟨ks, hks, rfl⟩ := h.key_eq hs
  obtain ⟨ks', hks', rfl⟩ := h.key_eq hs'
  exact dpgSignature_eq_iff hks hks'

def valuesAt (keys : List String) (ls : List Label) : List LabelValue :=
  keys.map fun k => ⟨getLabel ls k, getLabel ls k ≠ ""⟩

theorem Grouped.valuesAt_eq_iff (h : Grouped parseFloat isPrint done st) (hs : s ∈ done)
    (hs' : s' ∈ done) : valuesAt st.1.labelKeysOrdered s.ls = valuesAt st.1.labelKeysOrdered s'.ls ↔
      Agree st.1.mtype s.ls s'.ls := by
  have hown : ∀ x ∈ done, ∀ k, isUsefulLabel st.1.mtype k = true → getLabel x.ls k ≠ "" →
      k ∈ st.1.labelKeysOrdered := by
    intro x hx k hk hne
    obtain ⟨l, hl, rfl⟩ := getLabel_ne_empty hne
    exact (h.keys.mem _).2 ⟨hk, l, mem_flatMap.2 ⟨x, hx, hl⟩, rfl⟩
  constructor
  · intro heq k hk
    have hat : ∀ k ∈ st.1.labelKeysOrdered, getLabel s.ls k = getLabel s'.ls k := fun k hmem =>
      congrArg LabelValue.value (map_inj_left.1 heq k hmem)
    by_contra hne
    by_cases hv : getLabel s.ls k = ""
    · exact hne (hat k (hown s' hs' k hk fun hv' => hne (hv.trans hv'.symm)))
    · exact hne (hat k (hown s hs k hk hv))
  · intro hagree
    refine map_congr_left fun k hk => ?_
    rw [hagree k ((h.keys.mem k).1 hk).1]

end Run

/-! ## Emission -/

section Emit

variable {F τ N : Type} {mf : MetricFamily F} {l : List String}

omit [LabelSet] in
theorem getGroups_eq (ord : MapOrder (String × Nat)) (h : Positions mf.groupOrders l) :
    mf.getGroups ord = .ok (l.map mf.groups.lookup) := by
  have hlen : mf.groupOrders.pairs.length = l.length := (length_map _).trans h.size
  have hat : ∀ {kv}, kv ∈ ord.order mf.groupOrders.pairs ↔ l[kv.2]? = some kv.1 :=
    (MapOrder.mem_order_pairs ord).trans (h.lookup _ _)
  have hlt : ∀ kv ∈ ord.order mf.groupOrders.pairs, kv.2 <
      (List.replicate mf.groupOrders.pairs.length (none : Option (MetricGroup F))).length := by
    intro kv hkv
    rw [length_replicate, hlen]
    exact (List.getElem?_eq_some_iff.1 (hat.1 hkv)).1
  have hne : (ord.order mf.groupOrders.pairs).Pairwise fun x y => x.2 ≠ y.2 := by
    refine (ord.pairwise_order_pairs mf.groupOrders).imp_of_mem fun {x y} hx hy hxy he => hxy ?_
    rw [hat, he] at hx
    exact Option.some.inj (hx.symm.trans (hat.1 hy))
  obtain ⟨ys, hys, hlength, hwritten, -⟩ :=
    foldlM_setIndex Prod.snd (fun kv => mf.groups.lookup kv.1) hlt hne
  rw [length_replicate, hlen] at hlength
  unfold MetricFamily.getGroups
  rw [hys]
  refine congrArg Except.ok (ext_getElem? fun i => ?_)
  rw [getElem?_map]
  cases hi : l[i]? with
  | none => exact getElem?_eq_none (hlength.trans_le (List.getElem?_eq_none_iff.1 hi))
  | some k => exact hwritten (k, i) (hat.2 hi)

variable [Sub F] [Mul F] [OfNat F 100] [LT F] [DecidableLT F]
  (sort : SliceSort (DataPoint F)) (int64 : F → N)

def MetricFamily.timeSeriesOf (mf : MetricFamily F) (mg : MetricGroup F) :
    Option (TimeSeries F N) :=
  match mf.mtype with
  | .cumulativeDistribution => toDistributionTimeSeries sort int64 mf.labelKeysOrdered mg
  | .summary => toSummaryTimeSeries sort int64 mf.labelKeysOrdered mg
  | _ => toDoubleValueTimeSeries mf.mtype mf.labelKeysOrdered mg

theorem toTimeSeries_some (mf : MetricFamily F) (mg : MetricGroup F) :
    mf.toTimeSeries sort int64 (some mg) = .ok (mf.timeSeriesOf sort int64 mg) := by
  unfold MetricFamily.toTimeSeries MetricFamily.timeSeriesOf
  cases mf.mtype <;> rfl

theorem labelValues_timeSeriesOf {mg : MetricGroup F} {ts : TimeSeries F N}
    (h : mf.timeSeriesOf sort int64 mg = some ts) :
    ts.labelValues = populateLabelValues mf.labelKeysOrdered mg.ls := by
  unfold MetricFamily.timeSeriesOf at h
  split at h
  case h_3 =>
    cases h
    rfl
  all_goals
    obtain ⟨-, h⟩ := Option.ite_none_left_eq_some.1 h
    cases h
    rfl

/-- The time series of the groups under these keys. -/
def MetricFamily.series (mf : MetricFamily F) (keys : List String) : List (TimeSeries F N) :=
  keys.filterMap fun k => (mf.groups.lookup k).bind (mf.timeSeriesOf sort int64)

theorem toMetric_series (ord : MapOrder (String × Nat)) (h : Positions mf.groupOrders l)
    (hknown : ∀ k ∈ l, k ∈ mf.groups) :
    ∃ made n, mf.toMetric sort int64 ord = .ok (made, n) ∧
      (made.map Metric.timeseries).getD [] = mf.series sort int64 l ∧
      ∀ m ∈ made, m.descriptor.labelKeys = mf.getLabelKeys := by
  have hmade : (l.map mf.groups.lookup).mapM (mf.toTimeSeries sort int64) =
      .ok (l.map fun k => (mf.groups.lookup k).bind (mf.timeSeriesOf sort int64)) := by
    clear h
    induction l with
    | nil => rfl
    | cons k l ih =>
      obtain ⟨mg, hmg⟩ := Option.isSome_iff_exists.1
        (AList.lookup_isSome.2 (hknown k mem_cons_self))
      rw [map_cons, mapM_cons, hmg, toTimeSeries_some,
        ih fun k' hk' => hknown k' (mem_cons_of_mem k hk'), map_cons, hmg]
      rfl
  have hseries : (l.map fun k => (mf.groups.lookup k).bind
      (mf.timeSeriesOf sort int64)).reduceOption = mf.series sort int64 l := by
    rw [List.reduceOption, filterMap_map]
    rfl
  unfold MetricFamily.toMetric
  rw [getGroups_eq ord h]
  simp only [bind, Except.bind, hmade, hseries]
  split
  · exact ⟨_, _, rfl, rfl, fun m hm => by cases hm; rfl⟩
  · rename_i hempty
    refine ⟨_, _, rfl, ?_, fun m hm => by cases hm⟩
    exact (length_eq_zero_iff.1 (not_not.1 hempty)).symm

/-- What `ToMetric` makes of the samples of a family: the groups in the order of their first
samples, the label values of each those of its samples, and no two alike. -/
structure Emits (ss : List (Sample F)) (st : OpenFamily F × List String)
    (made : Option (Metric (TimeSeries F N))) : Prop where
  order : (made.map Metric.timeseries).getD [] = st.1.series sort int64 (firstSeen st.2)
  labelKeys : ∀ m ∈ made, m.descriptor.labelKeys = st.1.labelKeysOrdered.map fun k => some ⟨k, ""⟩
  aligned : LabelSets ss → ∀ s k, (s, k) ∈ ss.zip st.2 → ∀ mg ts, st.1.groups.lookup k = some mg →
    st.1.timeSeriesOf sort int64 mg = some ts →
    ts.labelValues = valuesAt st.1.labelKeysOrdered s.ls
  distinct : LabelSets ss →
    (((made.map Metric.timeseries).getD []).map TimeSeries.labelValues).Nodup

variable {isPrint : Char → Bool} {ss : List (Sample F)} {st : OpenFamily F × List String}
variable {sort int64}

theorem Grouped.labelValues_eq [Zero F] (h : Grouped parseFloat isPrint ss st)
    (hsets : LabelSets ss) {s : Sample F} {k : String} (hs : (s, k) ∈ ss.zip st.2)
    {mg : MetricGroup F} {ts : TimeSeries F N}
    (hmg : st.1.groups.lookup k = some mg) (hts : st.1.timeSeriesOf sort int64 mg = some ts) :
    ts.labelValues = valuesAt st.1.labelKeysOrdered s.ls := by
  obtain ⟨s', hs', hls⟩ := h.opened hmg
  have hpopulate : populateLabelValues st.1.labelKeysOrdered s'.ls =
      valuesAt st.1.labelKeysOrdered s'.ls := by
    refine map_congr_left fun key _ => ?_
    simp only [lookup_labelMap (hsets s' (of_mem_zip hs').1)]
  rw [labelValues_timeSeriesOf sort int64 hts, hls, hpopulate]
  refine (h.valuesAt_eq_iff (of_mem_zip hs').1 (of_mem_zip hs).1).2 ?_
  exact (h.key_eq_iff hs' hs).1 rfl

theorem Grouped.nodup_labelValues [Zero F] (h : Grouped parseFloat isPrint ss st)
    (hsets : LabelSets ss) (hl : l.Nodup) :
    ((st.1.series sort int64 l).map TimeSeries.labelValues).Nodup := by
  have hof : ∀ k v, v ∈ ((st.1.groups.lookup k).bind (st.1.timeSeriesOf sort int64)).map
      TimeSeries.labelValues → ∃ s, (s, k) ∈ ss.zip st.2 ∧
        v = valuesAt st.1.labelKeysOrdered s.ls := by
    intro k v hv
    obtain ⟨ts, hts, rfl⟩ := Option.map_eq_some_iff.1 hv
    obtain ⟨mg, hmg, hts⟩ := Option.bind_eq_some_iff.1 hts
    obtain ⟨s, hs, -⟩ := h.opened hmg
    exact ⟨s, hs, h.labelValues_eq hsets hs hmg hts⟩
  unfold MetricFamily.series
  rw [map_filterMap]
  refine hl.filterMap fun k k' v hv hv' => ?_
  obtain ⟨s, hs, hvalues⟩ := hof k v hv
  obtain ⟨s', hs', hvalues'⟩ := hof k' v hv'
  refine (h.key_eq_iff hs hs').2 ?_
  exact (h.valuesAt_eq_iff (of_mem_zip hs).1 (of_mem_zip hs').1).1
    (hvalues.symm.trans hvalues')

end Emit

end Family

/-- A gauge whose label `b` comes and goes. -/
def comeAndGo : List (Sample Int) :=
  [⟨"m", [⟨"a", "1"⟩], 0, 1⟩, ⟨"m", [⟨"a", "1"⟩, ⟨"b", "2"⟩], 0, 2⟩,
    ⟨"m", [⟨"a", "1"⟩, ⟨"b", ""⟩], 0, 3⟩]

section

attribute [local instance] LabelSet.listed

end

end Collector.Prometheus
