import Collector.Lib.Guarded
import Collector.Pdata.FiniteMap
import Collector.Pdata.Traces

/-!
# Renaming spans

`span.go` of the span processor. A rule of `processToAttributes` matches the name of a span against
a regular expression, copies what the groups matched into attributes, and writes the name of a group
in place of what it matched. The source slices names at byte offsets: the characters of a string
stand for its bytes here.

The new name is built from left to right, from the end of one group to the start of the next one. A
group that took no part has the offsets -1, and a nested group starts before the end of the one
around it: both slice out of range. What a rule does right is said in `rename_iff`.
-/

namespace Collector.SpanRename

open Lib Pdata List

/-! ## Slices and matches -/

/-- `s[a:b]` within its bounds. -/
def cut (s : String) (a b : Int) : String := String.ofList ((s.toList.take b.toNat).drop a.toNat)

/-- `s[a:b]`. -/
def slice (s : String) (a b : Int) : Go String :=
  if 0 ≤ a ∧ a ≤ b ∧ b ≤ s.length then .ok (cut s a b) else .error .indexOutOfRange

/-- The offsets of a group that took no part in the match. -/
def absent : Int × Int := (-1, -1)

/-- Offsets as the engine returns them. -/
def Within (s : String) (p : Int × Int) : Prop :=
  p = absent ∨ 0 ≤ p.1 ∧ p.1 ≤ p.2 ∧ p.2 ≤ s.length

/-- `*regexp.Regexp`. Index 0 is the whole match. -/
structure Regexp where
  subexpNames : List String
  findStringSubmatchIndex : String → Option (List (Int × Int))
  length_find : ∀ {s ps}, findStringSubmatchIndex s = some ps → ps.length = subexpNames.length
  within_find : ∀ {s ps}, findStringSubmatchIndex s = some ps → ∀ p ∈ ps, Within s p

/-- An element of `FindStringSubmatch`. -/
def submatch (s : String) (p : Int × Int) : String := if 0 ≤ p.1 then cut s p.1 p.2 else ""

/-- What the loop over the submatches reads, from index 1 on: the name and the offsets. -/
def Regexp.groups (re : Regexp) (ps : List (Int × Int)) : List (String × Int × Int) :=
  (re.subexpNames.zip ps).tail

/-! ## One rule -/

/-- What is written to the `strings.Builder`. -/
inductive Piece where
  | text (s : String)
  | marker (name : String)
  deriving DecidableEq, Repr

/-- The pieces in a row, with `f name` for a marker. -/
def joinPieces (f : String → String) : List Piece → String
  | [] => ""
  | .text s :: ps => s ++ joinPieces f ps
  | .marker name :: ps => f name ++ joinPieces f ps

def render (sb : List Piece) : String := joinPieces (fun name => "\x7b" ++ name ++ "\x7d") sb

variable {F : Type}

/-- The state of the loop over the submatches. -/
structure Rewrite (F : Type) where
  attributes : AttributeMap F
  sb : List Piece
  oldNameIndex : Int

def rewriteGroup (oldName : String) (st : Rewrite F) (g : String × Int × Int) :
    Go (Rewrite F) := do
  let attributes := st.attributes.upsertString g.1 (submatch oldName g.2)
  let part ← slice oldName st.oldNameIndex g.2.1
  return ⟨attributes, st.sb ++ [.text part, .marker g.1], g.2.2⟩

def writeRemainder (oldName : String) (st : Rewrite F) : Go (Rewrite F) :=
  if st.oldNameIndex < oldName.length then do
    let rest ← slice oldName st.oldNameIndex oldName.length
    return { st with sb := st.sb ++ [.text rest] }
  else .ok st

def start (span : Span F) : Rewrite F := ⟨span.attributes, [], 0⟩

/-- The body of the loop over the rules, up to `SetName`; `none` without a match. -/
def applyRule (re : Regexp) (span : Span F) : Go (Option (Rewrite F)) :=
  match re.findStringSubmatchIndex span.name with
  | none => .ok none
  | some ps => do
    let st ← (re.groups ps).foldlM (rewriteGroup span.name) (start span)
    let st ← writeRemainder span.name st
    return some st

/-- `span.SetName(sb.String())`; the attributes were written in place. -/
def setName (span : Span F) (st : Rewrite F) : Span F :=
  { span with name := render st.sb, attributes := st.attributes }

def applyRules (breakAfterMatch : Bool) : List Regexp → Span F → Go (Span F)
  | [], span => .ok span
  | re :: rules, span => do
    match ← applyRule re span with
    | none => applyRules breakAfterMatch rules span
    | some st =>
      if breakAfterMatch then return setName span st
      else applyRules breakAfterMatch rules (setName span st)

/-! ## The processor -/

/-- `spanProcessor`, with the settings that it reads and its matchers as functions. -/
structure SpanProcessor (F : Type) where
  fromAttributes : List String
  separator : String
  /-- `ToAttributes.BreakAfterMatch`, where `ToAttributes` is not nil. -/
  breakAfterMatch : Option Bool
  toAttributeRules : List Regexp
  includeSpan : Option (Span F → String → Bool)
  excludeSpan : Option (Span F → String → Bool)

/-- The text that `processFromAttributes` writes for a value. -/
def attributeText [GoFloat F] : AnyValue F → String
  | .string s => s
  | .bool b => if b then "true" else "false"
  | .double x => GoFloat.formatFloat x
  | .int n => toString n.toInt
  | _ => "<unknown-attribute-type>"

def processFromAttributes [GoFloat F] (sp : SpanProcessor F) (span : Span F) : Span F :=
  if sp.fromAttributes.length = 0 then span
  else if span.attributes.length = 0 then span
  else match sp.fromAttributes.mapM span.attributes.get with
    | none => span
    | some values => { span with name := sp.separator.intercalate (values.map attributeText) }

def processToAttributes (sp : SpanProcessor F) (span : Span F) : Go (Span F) :=
  if span.name = "" then .ok span
  else match sp.breakAfterMatch with
    | none => .ok span
    | some breakAfterMatch => applyRules breakAfterMatch sp.toAttributeRules span

def skipSpan (sp : SpanProcessor F) (span : Span F) (serviceName : String) : Bool :=
  (match sp.includeSpan with
    | some matchSpan => !matchSpan span serviceName
    | none => false) ||
  match sp.excludeSpan with
    | some matchSpan => matchSpan span serviceName
    | none => false

def serviceNameForResource : ResourceAttributes F → String
  | none => "<nil-resource>"
  | some am => match am.get "service.name" with
    | none => "<nil-service-name>"
    | some service => service.stringVal

def processSpan [GoFloat F] (sp : SpanProcessor F) (serviceName : String) :
    Option (Span F) → Go (Option (Span F))
  | none => .ok none
  | some s =>
    if skipSpan sp s serviceName then .ok (some s)
    else do
      let s ← processToAttributes sp (processFromAttributes sp s)
      return some s

/-- `ProcessTraces`. The spans are rewritten in place. -/
def processTraces [GoFloat F] {L : Type} (sp : SpanProcessor F)
    (td : Scoped.Traces (ResourceAttributes F) L (Option (Span F))) :
    Go (Scoped.Traces (ResourceAttributes F) L (Option (Span F))) :=
  td.mapM fun
    | none => .ok none
    | some rs => do
      let libraries ← rs.libraries.mapM fun
        | none => .ok none
        | some ils => do
          let spans ← ils.spans.mapM (processSpan sp (serviceNameForResource rs.resource))
          return some { ils with spans }
      return some { rs with libraries }

/-! ## Groups in a row -/

def AllTookPart (ps : List (Int × Int)) : Prop := ∀ p ∈ ps, p ≠ absent

def DisjointGroups (ps : List (Int × Int)) : Prop := ps.Pairwise fun p q => p.2 ≤ q.1 ∨ q.2 ≤ p.1

/-- The groups took part and come one after the other. -/
structure Successive (ps : List (Int × Int)) : Prop where
  tookPart : AllTookPart ps
  inOrder : ps.Pairwise fun p q => p.2 ≤ q.1

/-- The groups as the loop meets them: each starts at or after the index `k` it stands at. -/
def Follow : Int → List (Int × Int) → Prop
  | _, [] => True
  | k, p :: ps => k ≤ p.1 ∧ Follow p.2 ps

section Groups

variable {s : String} {k : Int} {p : Int × Int} {ps : List (Int × Int)}

theorem Within.of_le (h : Within s p) (hk : 0 ≤ k) (hp : k ≤ p.1) :
    p.1 ≤ p.2 ∧ p.2 ≤ s.length := by
  rcases h with rfl | h
  · simp only [absent] at hp
    omega
  · exact h.2

theorem Within.of_ne (h : Within s p) (hp : p ≠ absent) : 0 ≤ p.1 ∧ p.1 ≤ p.2 ∧ p.2 ≤ s.length :=
  h.resolve_left hp

theorem follow_iff (hk : 0 ≤ k) (hps : ∀ p ∈ ps, Within s p) :
    Follow k ps ↔ Successive ps ∧ ∀ p ∈ ps, k ≤ p.1 := by
  induction ps generalizing k with
  | nil =>
    refine iff_of_true trivial ⟨⟨?_, .nil⟩, ?_⟩
    all_goals
      intro p hp
      cases hp
  | cons p ps ih =>
    obtain ⟨hp, hps⟩ := forall_mem_cons.1 hps
    constructor
    · rintro ⟨hkp, hfollow⟩
      have hbounds := hp.of_le hk hkp
      obtain ⟨hsucc, hle⟩ := (ih (by omega) hps).1 hfollow
      refine ⟨⟨forall_mem_cons.2 ⟨?_, hsucc.tookPart⟩, .cons hle hsucc.inOrder⟩, ?_⟩
      · rintro rfl
        simp only [absent] at hkp
        omega
      · refine forall_mem_cons.2 ⟨hkp, fun q hq => ?_⟩
        have := hle q hq
        omega
    · rintro ⟨⟨htook, horder⟩, hle⟩
      obtain ⟨hlt, horder⟩ := pairwise_cons.1 horder
      have hbounds := hp.of_ne (htook p mem_cons_self)
      refine ⟨hle p mem_cons_self, (ih (by omega) hps).2 ⟨⟨?_, horder⟩, hlt⟩⟩
      exact fun q hq => htook q (mem_cons_of_mem _ hq)

theorem follow_zero_iff (hps : ∀ p ∈ ps, Within s p) : Follow 0 ps ↔ Successive ps := by
  rw [follow_iff (le_refl 0) hps]
  refine and_iff_left_of_imp fun hsucc p hp => ?_
  exact ((hps p hp).of_ne (hsucc.tookPart p hp)).1

end Groups

/-! ## The loop over the groups -/

/-- The state after a group whose slice is within bounds. -/
def rewritten (oldName : String) (st : Rewrite F) (g : String × Int × Int) : Rewrite F :=
  ⟨st.attributes.upsertString g.1 (submatch oldName g.2),
    st.sb ++ [.text (cut oldName st.oldNameIndex g.2.1), .marker g.1], g.2.2⟩

section Loop

variable {oldName : String} {st : Rewrite F} {g : String × Int × Int}
  {gs : List (String × Int × Int)}

theorem rewriteGroup_run (hk : 0 ≤ st.oldNameIndex) (hg : Within oldName g.2)
    (hle : st.oldNameIndex ≤ g.2.1) : rewriteGroup oldName st g = .ok (rewritten oldName st g) := by
  have hbounds := hg.of_le hk hle
  have hslice : 0 ≤ st.oldNameIndex ∧ st.oldNameIndex ≤ g.2.1 ∧ g.2.1 ≤ oldName.length := by omega
  unfold rewriteGroup slice
  rw [if_pos hslice]
  rfl

theorem rewriteGroup_fail (hle : ¬ st.oldNameIndex ≤ g.2.1) :
    rewriteGroup oldName st g = .error .indexOutOfRange := by
  unfold rewriteGroup slice
  rw [if_neg fun h => hle h.2.1]
  rfl

theorem foldlM_rewriteGroup_run (hk : 0 ≤ st.oldNameIndex) (hgs : ∀ g ∈ gs, Within oldName g.2)
    (h : Follow st.oldNameIndex (gs.map Prod.snd)) :
    gs.foldlM (rewriteGroup oldName) st = .ok (gs.foldl (rewritten oldName) st) := by
  induction gs generalizing st with
  | nil => rfl
  | cons g gs ih =>
    obtain ⟨hg, hgs⟩ := forall_mem_cons.1 hgs
    have hbounds := hg.of_le hk h.1
    have hle : st.oldNameIndex ≤ g.2.1 := h.1
    rw [foldlM_cons, rewriteGroup_run hk hg hle, ok_bind]
    refine ih ?_ hgs h.2
    change 0 ≤ g.2.2
    omega

theorem foldlM_rewriteGroup_fail (hk : 0 ≤ st.oldNameIndex) (hgs : ∀ g ∈ gs, Within oldName g.2)
    (h : ¬ Follow st.oldNameIndex (gs.map Prod.snd)) :
    gs.foldlM (rewriteGroup oldName) st = .error .indexOutOfRange := by
  induction gs generalizing st with
  | nil => exact absurd trivial h
  | cons g gs ih =>
    obtain ⟨hg, hgs⟩ := forall_mem_cons.1 hgs
    rw [foldlM_cons]
    by_cases hle : st.oldNameIndex ≤ g.2.1
    · have hbounds := hg.of_le hk hle
      rw [rewriteGroup_run hk hg hle, ok_bind]
      refine ih ?_ hgs fun hfollow => h ⟨hle, hfollow⟩
      change 0 ≤ g.2.2
      omega
    · rw [rewriteGroup_fail hle]
      rfl

theorem oldNameIndex_foldl (hk : 0 ≤ st.oldNameIndex ∧ st.oldNameIndex ≤ oldName.length)
    (hgs : ∀ g ∈ gs, Within oldName g.2) (h : Follow st.oldNameIndex (gs.map Prod.snd)) :
    0 ≤ (gs.foldl (rewritten oldName) st).oldNameIndex ∧
      (gs.foldl (rewritten oldName) st).oldNameIndex ≤ oldName.length := by
  induction gs generalizing st with
  | nil => exact hk
  | cons g gs ih =>
    obtain ⟨hg, hgs⟩ := forall_mem_cons.1 hgs
    have hle : st.oldNameIndex ≤ g.2.1 := h.1
    have hbounds := hg.of_le hk.1 hle
    refine ih ?_ hgs h.2
    change 0 ≤ g.2.2 ∧ g.2.2 ≤ oldName.length
    omega

theorem attributes_foldl : (gs.foldl (rewritten oldName) st).attributes =
    gs.foldl (fun am g => am.upsertString g.1 (submatch oldName g.2)) st.attributes := by
  induction gs generalizing st with
  | nil => rfl
  | cons g gs ih => exact ih

end Loop

/-! ## The pieces of the new name -/

def remainder (oldName : String) (k : Int) : List Piece :=
  if k < oldName.length then [.text (cut oldName k oldName.length)] else []

/-- What is written from index `k` on. -/
def pieces (oldName : String) : Int → List (String × Int × Int) → List Piece
  | k, [] => remainder oldName k
  | k, g :: gs => .text (cut oldName k g.2.1) :: .marker g.1 :: pieces oldName g.2.2 gs

variable {oldName : String} {gs : List (String × Int × Int)}

theorem writeRemainder_ok {st : Rewrite F}
    (hk : 0 ≤ st.oldNameIndex ∧ st.oldNameIndex ≤ oldName.length) :
    writeRemainder oldName st =
      .ok { st with sb := st.sb ++ remainder oldName st.oldNameIndex } := by
  unfold writeRemainder remainder slice
  by_cases hlt : st.oldNameIndex < oldName.length
  · rw [if_pos hlt, if_pos hlt, if_pos ⟨hk.1, hk.2, le_refl _⟩]
    rfl
  · rw [if_neg hlt, if_neg hlt, append_nil]

theorem sb_foldl {st : Rewrite F} :
    (gs.foldl (rewritten oldName) st).sb ++
      remainder oldName (gs.foldl (rewritten oldName) st).oldNameIndex =
        st.sb ++ pieces oldName st.oldNameIndex gs := by
  induction gs generalizing st with
  | nil => rfl
  | cons g gs ih =>
    rw [foldl_cons, ih]
    simp [rewritten, pieces]

theorem toList_cut_append (oldName : String) {a b : Int} (hab : a ≤ b) :
    (cut oldName a b).toList ++ oldName.toList.drop b.toNat = oldName.toList.drop a.toNat := by
  rw [cut, String.toList_ofList, drop_take]
  have hb : b.toNat = a.toNat + (b.toNat - a.toNat) := by omega
  nth_rewrite 2 [hb]
  rw [← drop_drop, take_append_drop]

theorem toList_joinPieces_remainder (f : String → String) (oldName : String) {k : Int}
    (hk : 0 ≤ k) :
    (joinPieces f (remainder oldName k)).toList = oldName.toList.drop k.toNat := by
  unfold remainder
  by_cases hlt : k < oldName.length
  · have hend : oldName.toList.drop ((oldName.length : Int)).toNat = [] := by
      rw [Int.toNat_natCast, ← String.length_toList, drop_length]
    have hcut := toList_cut_append oldName (le_of_lt hlt)
    rw [hend, append_nil] at hcut
    simp [hlt, joinPieces, hcut]
  · have hlen : oldName.toList.length ≤ k.toNat := by
      rw [String.length_toList]
      omega
    simp [hlt, joinPieces, drop_eq_nil_of_le hlen]

/-- Where every marker is replaced by what its group matched, the old name is back. -/
theorem toList_joinPieces_pieces {f : String → String} {k : Int} (hk : 0 ≤ k)
    (hgs : ∀ g ∈ gs, Within oldName g.2) (h : Follow k (gs.map Prod.snd))
    (hf : ∀ g ∈ gs, f g.1 = submatch oldName g.2) :
    (joinPieces f (pieces oldName k gs)).toList = oldName.toList.drop k.toNat := by
  induction gs generalizing k with
  | nil => exact toList_joinPieces_remainder f oldName hk
  | cons g gs ih =>
    obtain ⟨hg, hgs⟩ := forall_mem_cons.1 hgs
    obtain ⟨hfg, hf⟩ := forall_mem_cons.1 hf
    have hle : k ≤ g.2.1 := h.1
    have hbounds := hg.of_le hk hle
    have hstart : 0 ≤ g.2.1 := by omega
    have hrest := ih (by omega : 0 ≤ g.2.2) hgs h.2 hf
    rw [pieces, joinPieces, joinPieces, hfg, submatch, if_pos hstart, String.toList_append,
      String.toList_append, hrest, toList_cut_append oldName hbounds.1,
      toList_cut_append oldName hle]

/-! ## The attributes -/

/-- The text under a name, as it stands in the attributes. -/
def valueText (am : AttributeMap F) (name : String) : String :=
  match am.get name with
  | some v => v.stringVal
  | none => ""

def NamesAgree (oldName : String) (gs : List (String × Int × Int)) : Prop :=
  ∀ g ∈ gs, ∀ g' ∈ gs, g.1 = g'.1 → submatch oldName g.2 = submatch oldName g'.2

def extracted (oldName : String) (gs : List (String × Int × Int)) (am : AttributeMap F) :
    AttributeMap F :=
  gs.foldl (fun am g => am.upsertString g.1 (submatch oldName g.2)) am

theorem get_extracted {name v : String} (hall : ∀ g ∈ gs, g.1 = name → submatch oldName g.2 = v)
    {am : AttributeMap F} (h : am.get name = some (.string v) ∨ ∃ g ∈ gs, g.1 = name) :
    (extracted oldName gs am).get name = some (.string v) := by
  induction gs generalizing am with
  | nil =>
    rcases h with h | ⟨g, hg, -⟩
    · exact h
    · cases hg
  | cons g gs ih =>
    obtain ⟨hg, hall⟩ := forall_mem_cons.1 hall
    refine ih hall ?_
    by_cases hname : g.1 = name
    · left
      rw [← hg hname]
      exact (AttributeMap.get_upsertTo _ _ _ _).trans (if_pos hname.symm)
    · rcases h with h | ⟨g', hg', hname'⟩
      · left
        exact (AttributeMap.get_upsertTo _ _ _ _).trans ((if_neg (Ne.symm hname)).trans h)
      · rcases mem_cons.1 hg' with rfl | hg'
        · exact absurd hname' hname
        · exact .inr ⟨g', hg', hname'⟩

/-- **Every attribute holds what its group matched** exactly when groups of one name agree. -/
theorem extracted_iff {am : AttributeMap F} :
    (∀ g ∈ gs, (extracted oldName gs am).get g.1 = some (.string (submatch oldName g.2))) ↔
      NamesAgree oldName gs := by
  constructor
  · intro h g hg g' hg' hname
    have hget := (h g hg).symm.trans ((congrArg _ hname).trans (h g' hg'))
    exact AnyValue.string.inj (Option.some.inj hget)
  · intro h g hg
    exact get_extracted (fun g' hg' hname => h g' hg' g hg hname) (.inr ⟨g, hg, rfl⟩)

/-! ## One rule, and the list of rules -/

section Rules

variable {re : Regexp} {span : Span F} {ps : List (Int × Int)}

section

variable (hfind : re.findStringSubmatchIndex span.name = some ps)

include hfind

theorem map_snd_groups : (re.groups ps).map Prod.snd = ps.tail := by
  rw [Regexp.groups, map_tail, map_snd_zip (re.length_find hfind).le]

theorem within_groups : ∀ g ∈ re.groups ps, Within span.name g.2 := by
  intro g hg
  have hmem : g.2 ∈ (re.groups ps).map Prod.snd := mem_map_of_mem hg
  rw [map_snd_groups hfind] at hmem
  exact re.within_find hfind g.2 (mem_of_mem_tail hmem)

theorem follow_groups_iff : Follow 0 ((re.groups ps).map Prod.snd) ↔ Successive ps.tail := by
  rw [map_snd_groups hfind]
  exact follow_zero_iff fun p hp => re.within_find hfind p (mem_of_mem_tail hp)

theorem applyRule_of_steps {st st' : Rewrite F}
    (hloop : (re.groups ps).foldlM (rewriteGroup span.name) (start span) = .ok st)
    (hrest : writeRemainder span.name st = .ok st') : applyRule re span = .ok (some st') := by
  unfold applyRule
  simp only [hfind, hloop, ok_bind, hrest]
  rfl

theorem applyRule_run (hsucc : Successive ps.tail) : ∃ st, applyRule re span = .ok (some st) ∧
      st.attributes = extracted span.name (re.groups ps) span.attributes ∧
      st.sb = pieces span.name 0 (re.groups ps) := by
  have hgs := within_groups hfind
  have hfollow : Follow (start span).oldNameIndex ((re.groups ps).map Prod.snd) :=
    (follow_groups_iff hfind).2 hsucc
  have hzero : 0 ≤ (start span).oldNameIndex ∧ (start span).oldNameIndex ≤ span.name.length :=
    ⟨le_refl 0, Int.natCast_nonneg _⟩
  have hloop := foldlM_rewriteGroup_run hzero.1 hgs hfollow
  have hrest := writeRemainder_ok (oldNameIndex_foldl hzero hgs hfollow)
  exact ⟨_, applyRule_of_steps hfind hloop hrest, attributes_foldl, sb_foldl⟩

theorem applyRule_fail
    (hsucc : ¬ Successive ps.tail) : applyRule re span = .error .indexOutOfRange := by
  have hfollow : ¬ Follow (start span).oldNameIndex ((re.groups ps).map Prod.snd) :=
    mt (follow_groups_iff hfind).1 hsucc
  have hloop := foldlM_rewriteGroup_fail (le_refl 0) (within_groups hfind) hfollow
  unfold applyRule
  simp only [hfind, hloop]
  rfl

end

theorem applyRule_miss (hfind : re.findStringSubmatchIndex span.name = none) :
    applyRule re span = .ok none := by
  unfold applyRule
  rw [hfind]

end Rules

/-- The rule `re` comes up for the span `span'`, when the rules run on `span`. -/
inductive Reached (breakAfterMatch : Bool) : List Regexp → Span F → Regexp → Span F → Prop where
  | here (re : Regexp) (rules : List Regexp) (span : Span F) :
    Reached breakAfterMatch (re :: rules) span re span
  | miss {re re' : Regexp} {rules : List Regexp} {span span' : Span F}
    (hfind : re.findStringSubmatchIndex span.name = none)
    (h : Reached breakAfterMatch rules span re' span') :
    Reached breakAfterMatch (re :: rules) span re' span'
  | hit {re re' : Regexp} {rules : List Regexp} {span span' : Span F} {st : Rewrite F}
    (hst : applyRule re span = .ok (some st)) (hgo : breakAfterMatch = false)
    (h : Reached breakAfterMatch rules (setName span st) re' span') :
    Reached breakAfterMatch (re :: rules) span re' span'

/-- Every match that comes up has its groups in a row. -/
def MatchesSuccessive (breakAfterMatch : Bool) (rules : List Regexp) (span : Span F) : Prop :=
  ∀ re span', Reached breakAfterMatch rules span re span' →
    ∀ ps, re.findStringSubmatchIndex span'.name = some ps → Successive ps.tail

variable {span : Span F}

theorem returns_applyRules_iff {breakAfterMatch : Bool} {rules : List Regexp} :
    Returns (applyRules breakAfterMatch rules span) ↔
      MatchesSuccessive breakAfterMatch rules span := by
  induction rules generalizing span with
  | nil =>
    refine iff_of_true (returns_ok span) fun re span' h => ?_
    cases h
  | cons re rules ih =>
    rw [applyRules]
    cases hfind : re.findStringSubmatchIndex span.name with
    | none =>
      rw [applyRule_miss hfind, ok_bind, ih]
      constructor
      · intro h re' span' hreach ps hps
        cases hreach with
        | here =>
          rw [hfind] at hps
          cases hps
        | miss _ hreach => exact h re' span' hreach ps hps
        | hit hst =>
          rw [applyRule_miss hfind] at hst
          cases hst
      · exact fun h re' span' hreach => h re' span' (.miss hfind hreach)
    | some ps =>
      by_cases hsucc : Successive ps.tail
      · obtain ⟨st, hst, -, -⟩ := applyRule_run hfind hsucc
        rw [hst, ok_bind]
        -- What comes up is this rule, and then the others on the renamed span, unless it stops.
        have hreached : MatchesSuccessive breakAfterMatch (re :: rules) span ↔
            (breakAfterMatch = false →
              MatchesSuccessive breakAfterMatch rules (setName span st)) := by
          constructor
          · exact fun h hgo re' span' hreach => h re' span' (.hit hst hgo hreach)
          · intro h re' span' hreach qs hqs
            cases hreach with
            | here =>
              rw [hfind] at hqs
              cases hqs
              exact hsucc
            | miss hmiss =>
              rw [hfind] at hmiss
              cases hmiss
            | hit hst' hgo hreach =>
              rw [hst] at hst'
              cases hst'
              exact h hgo re' span' hreach qs hqs
        rw [hreached]
        cases breakAfterMatch with
        | true => exact iff_of_true (returns_ok _) (by simp)
        | false => simpa using ih
      · rw [applyRule_fail hfind hsucc]
        refine iff_of_false (not_returns_error _) fun h => hsucc ?_
        exact h re span (.here re rules span) ps hfind

/-- What `processToAttributes` runs on a span. -/
def rulesFor (sp : SpanProcessor F) (span : Span F) : List Regexp :=
  if span.name = "" ∨ sp.breakAfterMatch = none then [] else sp.toAttributeRules

theorem returns_processToAttributes_iff {sp : SpanProcessor F} :
    Returns (processToAttributes sp span) ↔
      MatchesSuccessive (sp.breakAfterMatch.getD false) (rulesFor sp span) span := by
  rw [← returns_applyRules_iff]
  unfold processToAttributes rulesFor
  by_cases hname : span.name = ""
  · rw [if_pos hname, if_pos (.inl hname)]
    exact iff_of_true (returns_ok _) (returns_ok _)
  · rw [if_neg hname]
    cases hbreak : sp.breakAfterMatch with
    | none => exact iff_of_true (returns_ok _) (by simpa [applyRules] using returns_ok _)
    | some b => simp [hname]

/-- **A rule gives the old name back**: its new name, with each marker replaced by the text that
is then under its name in the attributes. -/
def Restores (re : Regexp) (span : Span F) : Prop :=
  ∃ st, applyRule re span = .ok (some st) ∧ joinPieces (valueText st.attributes) st.sb = span.name

theorem restores_of_agree {re : Regexp} {ps : List (Int × Int)}
    (hfind : re.findStringSubmatchIndex span.name = some ps) (hsucc : Successive ps.tail)
    (hagree : NamesAgree span.name (re.groups ps)) : Restores re span := by
  obtain ⟨st, hst, hattributes, hsb⟩ := applyRule_run hfind hsucc
  refine ⟨st, hst, String.toList_injective ?_⟩
  rw [hattributes, hsb]
  refine toList_joinPieces_pieces (le_refl 0) (within_groups hfind)
    ((follow_groups_iff hfind).2 hsucc) fun g hg => ?_
  rw [valueText, extracted_iff.2 hagree g hg]
  rfl

/-! ## The processor as a whole -/

/-- **`processToAttributes` does not slice out of range**, and every rule that comes up with groups
that took part and are disjoint gives the old name back. -/
structure Reversible (sp : SpanProcessor F) (span : Span F) : Prop where
  returns : Returns (processToAttributes sp span)
  restores : ∀ re span', Reached (sp.breakAfterMatch.getD false) (rulesFor sp span) span re span' →
    ∀ ps, re.findStringSubmatchIndex span'.name = some ps →
      AllTookPart ps.tail → DisjointGroups ps.tail → Restores re span'

/-- **Renaming returns** exactly when every match that comes up has its groups in a row, one after
the other and all of them present; a rule then leaves under each name what its group matched
exactly when groups of one name agree, and in that case it can be undone. -/
theorem rename_iff (sp : SpanProcessor F) (span : Span F) :
    (Returns (processToAttributes sp span) ↔
      MatchesSuccessive (sp.breakAfterMatch.getD false) (rulesFor sp span) span) ∧
    ((∀ re span', Reached (sp.breakAfterMatch.getD false) (rulesFor sp span) span re span' →
      ∀ ps, re.findStringSubmatchIndex span'.name = some ps →
        Successive ps.tail ∧ NamesAgree span'.name (re.groups ps)) → Reversible sp span) ∧
    ∀ (re : Regexp) (span' : Span F) (ps : List (Int × Int)),
      re.findStringSubmatchIndex span'.name = some ps → Successive ps.tail →
        ∃ st, applyRule re span' = .ok (some st) ∧
          ((∀ g ∈ re.groups ps, st.attributes.get g.1 = some (.string (submatch span'.name g.2))) ↔
            NamesAgree span'.name (re.groups ps)) := by
  refine ⟨returns_processToAttributes_iff, ?_, ?_⟩
  · intro h
    refine ⟨returns_processToAttributes_iff.2 ?_, ?_⟩
    · exact fun re span' hreach ps hps => (h re span' hreach ps hps).1
    · intro re span' hreach ps hps _ _
      obtain ⟨hsucc, hagree⟩ := h re span' hreach ps hps
      exact restores_of_agree hps hsucc hagree
  · intro re span' ps hps hsucc
    obtain ⟨st, hst, hattributes, -⟩ := applyRule_run hps hsucc
    exact ⟨st, hst, by rw [hattributes]; exact extracted_iff⟩

/-- **`ProcessTraces` returns** exactly when every span that is not nil and not skipped can be
renamed. -/
theorem returns_processTraces_iff [GoFloat F] {L : Type} {sp : SpanProcessor F}
    {td : Scoped.Traces (ResourceAttributes F) L (Option (Span F))} :
    Returns (processTraces sp td) ↔ ∀ rs, some rs ∈ td → ∀ ils, some ils ∈ rs.libraries →
      ∀ span, some span ∈ ils.spans →
        skipSpan sp span (serviceNameForResource rs.resource) = false →
        Returns (processToAttributes sp (processFromAttributes sp span)) := by
  have hspan : ∀ (name : String) (span : Option (Span F)),
      Returns (processSpan sp name span) ↔ ∀ s, span = some s → skipSpan sp s name = false →
        Returns (processToAttributes sp (processFromAttributes sp s)) := by
    intro name span
    cases span with
    | none => exact iff_of_true (returns_ok none) (by simp)
    | some s =>
      rw [processSpan]
      cases hskip : skipSpan sp s name with
      | true => exact iff_of_true (returns_ok (some s)) (by simp [hskip])
      | false =>
        simp only [Bool.false_eq_true, if_false, returns_bind_pure]
        exact ⟨fun h s' hs' _ => by cases hs'; exact h, fun h => h s rfl hskip⟩
  unfold processTraces
  rw [returns_mapM]
  constructor
  · intro h rs hrs ils hils span hmem hskip
    have hlibraries := returns_mapM.1 (returns_bind_pure.1 (h (some rs) hrs)) (some ils) hils
    exact (hspan _ _).1 (returns_mapM.1 (returns_bind_pure.1 hlibraries) (some span) hmem) span rfl
      hskip
  · intro h rs hrs
    cases rs with
    | none => exact returns_ok none
    | some rs =>
      refine returns_bind_pure.2 (returns_mapM.2 fun ils hils => ?_)
      cases ils with
      | none => exact returns_ok none
      | some ils =>
        refine returns_bind_pure.2 (returns_mapM.2 fun span hmem => (hspan _ _).2 ?_)
        rintro s rfl hskip
        exact h rs hrs ils hils s hmem hskip

/-! ## Matches that break it -/

instance (s : String) (p : Int × Int) : Decidable (Within s p) :=
  inferInstanceAs (Decidable (_ ∨ _))

def matchOnly (name : String) (subexpNames : List String) (ps : List (Int × Int))
    (hlength : ps.length = subexpNames.length) (hwithin : ∀ p ∈ ps, Within name p) : Regexp where
  subexpNames
  findStringSubmatchIndex s := if s = name then some ps else none
  length_find := by
    intro s qs h
    obtain ⟨-, hqs⟩ := Option.ite_none_right_eq_some.1 h
    obtain rfl := Option.some.inj hqs
    exact hlength
  within_find := by
    intro s qs h
    obtain ⟨rfl, hqs⟩ := Option.ite_none_right_eq_some.1 h
    obtain rfl := Option.some.inj hqs
    exact hwithin

/-- `^(?:(?P<a>x)|(?P<b>y))$` on `x`. -/
def absentGroup : Regexp :=
  matchOnly "x" ["", "a", "b"] [(0, 1), (0, 1), absent] rfl (by decide +kernel)

/-- `^(?P<a>x(?P<b>y)z)$` on `xyz`. -/
def nestedGroup : Regexp :=
  matchOnly "xyz" ["", "a", "b"] [(0, 3), (0, 3), (1, 2)] rfl (by decide +kernel)

/-- `^(?:(?P<a>x)|(?P<b>y))*$` on `yx`: both groups took part, the second one first. -/
def swappedGroups : Regexp :=
  matchOnly "yx" ["", "a", "b"] [(0, 2), (1, 2), (0, 1)] rfl (by decide +kernel)

/-- `^(?P<id>.)/(?P<id>.)$` on `1/2`. -/
def sharedName : Regexp :=
  matchOnly "1/2" ["", "id", "id"] [(0, 3), (0, 1), (2, 3)] rfl (by decide +kernel)

/-- `^/doc/(?P<id>.*)/update$` on `/doc/42/update`. -/
def documentId : Regexp :=
  matchOnly "/doc/42/update" ["", "id"] [(0, 14), (5, 7)] rfl (by decide +kernel)

def named (name : String) : Span Int :=
  { traceId := [], spanId := [], traceState := "", parentSpanId := [], name, kind := .server,
    startTime := 0, endTime := 1, attributes := [], droppedAttributesCount := 0, events := [],
    droppedEventsCount := 0, links := [], droppedLinksCount := 0, status := none }

def oneRule (re : Regexp) : SpanProcessor Int :=
  ⟨[], "", some true, [re], none, none⟩

theorem documentId_reversible : Reversible (oneRule documentId) (named "/doc/42/update") := by
  refine (rename_iff (oneRule documentId) (named "/doc/42/update")).2.1 ?_
  intro re span' hreach ps hps
  cases hreach with
  | here =>
    obtain rfl : [(0, 14), (5, 7)] = ps := Option.some.inj hps
    refine ⟨⟨by simp [AllTookPart, absent], by simp⟩, ?_⟩
    simp [NamesAgree, Regexp.groups, documentId, matchOnly]
  | miss hfind => cases hfind
  | hit _ hgo => cases hgo

/-- A group that took no part, a nested group and a group that matched before an earlier one slice
out of range; two groups of one name leave one value for both markers. -/
theorem groups_break_rename :
    processToAttributes (oneRule absentGroup) (named "x") = .error .indexOutOfRange ∧
    processToAttributes (oneRule nestedGroup) (named "xyz") = .error .indexOutOfRange ∧
    processToAttributes (oneRule swappedGroups) (named "yx") = .error .indexOutOfRange ∧
    ¬ Restores sharedName (named "1/2") := by
  refine ⟨rfl, rfl, rfl, ?_⟩
  rintro ⟨st, hst, hrestored⟩
  cases hst
  revert hrestored
  decide +kernel

end Collector.SpanRename
