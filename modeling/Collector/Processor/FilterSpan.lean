import Collector.Pdata.FiniteMap
import Collector.Pdata.Traces
import Collector.Processor.AttrProc

/-!
# Matching spans

`internal/processor/filterspan/filterspan.go`, over `AttributeValue.Equal` of
`consumer/pdata/common.go`. `Equal` chooses by the type of its receiver and reads the other
side with the getter of that type, which returns the zero value where the type is
another one. So the zero value of a type is equal to every value of the other
types, in one direction.
-/

namespace Collector

namespace Pdata

variable {F : Type}

/-- `AnyValue.GetDoubleValue`. -/
def AnyValue.doubleVal [OfNat F 0] : AnyValue F → F
  | .double x => x
  | _ => 0

/-- `(*a.orig) == nil || (*a.orig).Value == nil`. -/
def AnyValue.isNull : AnyValue F → Bool
  | .nil | .null => true
  | _ => false

/-- `AttributeValue.Equal`. -/
def AnyValue.equal [BEq F] [OfNat F 0] (a av : AnyValue F) : Bool :=
  if a.isNull then av.isNull
  else if av.isNull then false
  else match a with
    | .string s => s == av.stringVal
    | .bool b => b == av.boolVal
    | .int n => n == av.intVal
    | .double x => x == av.doubleVal
    | _ => false

/-- Null values, or values of one primitive type that are equal. -/
def AnyValue.Same [BEq F] : AnyValue F → AnyValue F → Prop
  | .string s, .string t => s = t
  | .bool b, .bool c => b = c
  | .int n, .int k => n = k
  | .double x, .double y => x == y
  | a, av => a.isNull ∧ av.isNull

def AnyValue.IsZero [BEq F] [OfNat F 0] : AnyValue F → Prop
  | .string s => s = ""
  | .bool b => b = false
  | .int n => n = 0
  | .double x => x == 0
  | _ => False

/-- A zero value that is compared with a value of another type. -/
def AnyValue.Mistaken [BEq F] [OfNat F 0] (a av : AnyValue F) : Prop :=
  a.IsZero ∧ a.type ≠ av.type ∧ av.type ≠ .null

section Equal

variable [BEq F] [OfNat F 0]

theorem AnyValue.equal_iff (a av : AnyValue F) : a.equal av ↔ a.Same av ∨ a.Mistaken av := by
  cases a <;> cases av <;>
    simp [AnyValue.equal, AnyValue.isNull, AnyValue.Same, AnyValue.Mistaken, AnyValue.IsZero,
      AnyValue.type, AnyValue.stringVal, AnyValue.boolVal, AnyValue.intVal, AnyValue.doubleVal]

def AnyValue.Basic : AnyValue F → Prop
  | .string _ | .bool _ | .int _ => True
  | _ => False

omit [OfNat F 0] in
theorem AnyValue.same_iff_eq {a b : AnyValue F} (ha : a.Basic) : a.Same b ↔ a = b := by
  cases a <;> cases b <;> simp [AnyValue.Same, AnyValue.Basic, AnyValue.isNull] at ha ⊢

theorem AnyValue.equal_iff_eq_or {a b : AnyValue F} (ha : a.Basic) :
    a.equal b ↔ a = b ∨ a.Mistaken b := by
  rw [AnyValue.equal_iff, AnyValue.same_iff_eq ha]

theorem AnyValue.Mistaken.not_same {a b : AnyValue F} (h : a.Mistaken b) : ¬ a.Same b := by
  obtain ⟨hzero, htype, -⟩ := h
  cases a <;> cases b <;> simp_all [AnyValue.Same, AnyValue.isNull, AnyValue.IsZero, AnyValue.type]

end Equal

end Pdata

namespace Pdata.AttributeMap

theorem get_eq_some_iff {F : Type} {am : AttributeMap F} (h : am.keys.Nodup) {k : String}
    {v : AnyValue F} : am.get k = some v ↔ .mk k v ∈ am :=
  ⟨mem_of_get, get_of_mem h⟩

end Pdata.AttributeMap

namespace Processor

open Pdata

variable {F : Type}

/-! ## Configuration -/

/-- `filterspan.Attribute`. -/
structure Attribute (F : Type) where
  key : String
  value : Option (RawValue F) := none

/-- `filterspan.MatchProperties`, without the settings of regular expressions. -/
structure MatchProperties (F : Type) where
  matchType : String
  services : List String := []
  spanNames : List String := []
  attributes : List (Attribute F) := []

structure AttributeMatcher (F : Type) where
  key : String
  attributeValue : Option (AnyValue F)

/-- `propertiesMatcher`, with its filter sets as functions. -/
structure PropertiesMatcher (F : Type) where
  serviceFilters : Option (String → Bool)
  nameFilters : Option (String → Bool)
  attributes : List (AttributeMatcher F)

/-- The body of the loop of `newAttributesMatcher`. -/
def newAttributeMatcher (a : Attribute F) : Except String (AttributeMatcher F) :=
  if a.key = "" then
    .error "error creating processor. Can't have empty key in the list of attributes"
  else match a.value with
    | none => .ok ⟨a.key, none⟩
    | some raw => do
      let val ← newAttributeValueRaw raw
      return ⟨a.key, some val⟩

def newAttributesMatcher (mp : MatchProperties F) : Except String (List (AttributeMatcher F)) :=
  if mp.matchType ≠ "strict" then
    .error "match_type=regexp is not supported for \"attributes\""
  else mp.attributes.mapM newAttributeMatcher

/-- The filter set for a list that may be empty, with the beginning of its error. -/
def newFilterSet (createFilterSet : List String → Except String (String → Bool)) (what : String)
    (filters : List String) : Except String (Option (String → Bool)) :=
  if filters.length = 0 then .ok none
  else match createFilterSet filters with
    | .ok fs => .ok (some fs)
    | .error err => .error ("error creating " ++ what ++ " name filters: " ++ err)

/-- `NewMatcher`; `createFilterSet` is `filterset.CreateFilterSet` for the configured type. -/
def newMatcher (createFilterSet : List String → Except String (String → Bool))
    (mp : Option (MatchProperties F)) : Except String (Option (PropertiesMatcher F)) :=
  match mp with
  | none => .ok none
  | some mp =>
    if mp.services.length = 0 ∧ mp.spanNames.length = 0 ∧ mp.attributes.length = 0 then
      .error ("error creating processor. At least one " ++
        "of \"services\", \"span_names\" or \"attributes\" field must be specified\"")
    else do
      let am ← if mp.attributes.length > 0 then newAttributesMatcher mp else .ok []
      let serviceFS ← newFilterSet createFilterSet "service" mp.services
      let nameFS ← newFilterSet createFilterSet "span" mp.spanNames
      return some ⟨serviceFS, nameFS, am⟩

/-! ## Matching -/

section Match

variable [BEq F] [OfNat F 0]

/-- The loop of `attributesMatcher.match`. -/
def matchAll (attrs : AttributeMap F) : List (AttributeMatcher F) → Bool
  | [] => true
  | property :: ma => match attrs.get property.key with
    | none => false
    | some attr => match property.attributeValue with
      | none => matchAll attrs ma
      | some av => if !attr.equal av then false else matchAll attrs ma

/-- `attributesMatcher.match`. -/
def matchAttributes (ma : List (AttributeMatcher F)) (span : Span F) : Bool :=
  if ma.length = 0 then true
  else if span.attributes.length = 0 then false
  else matchAll span.attributes ma

/-- `propertiesMatcher.MatchSpan`. -/
def PropertiesMatcher.matchSpan (mp : PropertiesMatcher F) (span : Span F) (serviceName : String) :
    Bool :=
  if mp.serviceFilters.any fun fs => !fs serviceName then false
  else if mp.nameFilters.any fun fs => !fs span.name then false
  else matchAttributes mp.attributes span

/-- The span has the key of the matcher and, where a value is configured, the same value. -/
def AttributeMatcher.MatchedBy (m : AttributeMatcher F) (span : Span F) : Prop :=
  ∃ attr, .mk m.key attr ∈ span.attributes ∧ ∀ v, m.attributeValue = some v → attr.Same v

/-- Under the key of the matcher the span has a zero value of another type. -/
def AttributeMatcher.MistakenFor (m : AttributeMatcher F) (span : Span F) : Prop :=
  ∃ attr v, .mk m.key attr ∈ span.attributes ∧ m.attributeValue = some v ∧ attr.Mistaken v

theorem matchAll_iff {attrs : AttributeMap F} {ma : List (AttributeMatcher F)} :
    matchAll attrs ma ↔ ∀ m ∈ ma, ∃ attr, attrs.get m.key = some attr ∧
      ∀ v, m.attributeValue = some v → attr.equal v := by
  induction ma with
  | nil => simp [matchAll]
  | cons m ma ih =>
    rw [matchAll, List.forall_mem_cons, ← ih]
    cases hget : attrs.get m.key with
    | none => simp
    | some attr =>
      cases hv : m.attributeValue with
      | none => simp
      | some v => by_cases heq : attr.equal v <;> simp [heq]

theorem matchAttributes_iff {ma : List (AttributeMatcher F)} {span : Span F} :
    matchAttributes ma span ↔ ∀ m ∈ ma, ∃ attr, span.attributes.get m.key = some attr ∧
      ∀ v, m.attributeValue = some v → attr.equal v := by
  unfold matchAttributes
  cases ma with
  | nil => simp
  | cons m ma =>
    have hma : (m :: ma).length ≠ 0 := by simp
    rw [if_neg hma, ← matchAll_iff]
    cases hattrs : span.attributes with
    | nil => simp [matchAll, AttributeMap.get]
    | cons kv am =>
      have ham : (kv :: am).length ≠ 0 := by simp
      rw [if_neg ham]

/-- **What `MatchSpan` decides**, without other filters: a matcher may be satisfied by mistake. -/
theorem matchSpan_iff {mp : PropertiesMatcher F} (hservice : mp.serviceFilters = none)
    (hname : mp.nameFilters = none) {span : Span F} (hkeys : span.attributes.keys.Nodup)
    (serviceName : String) :
    mp.matchSpan span serviceName ↔ ∀ m ∈ mp.attributes, m.MatchedBy span ∨ m.MistakenFor span := by
  unfold PropertiesMatcher.matchSpan
  rw [hservice, hname]
  show matchAttributes mp.attributes span ↔ _
  rw [matchAttributes_iff]
  refine forall₂_congr fun m _ => ?_
  simp only [AttributeMap.get_eq_some_iff hkeys, AnyValue.equal_iff]
  constructor
  · rintro ⟨attr, hmem, hall⟩
    cases hv : m.attributeValue with
    | none => exact .inl ⟨attr, hmem, fun v h => by cases hv.symm.trans h⟩
    | some v =>
      rcases hall v hv with hsame | hmistaken
      · exact .inl ⟨attr, hmem, fun w hw => Option.some.inj (hv.symm.trans hw) ▸ hsame⟩
      · exact .inr ⟨attr, v, hmem, hv, hmistaken⟩
  · rintro (⟨attr, hmem, hall⟩ | ⟨attr, v, hmem, hv, hmistaken⟩)
    · exact ⟨attr, hmem, fun v hv => .inl (hall v hv)⟩
    · exact ⟨attr, hmem, fun w hw => .inr (Option.some.inj (hv.symm.trans hw) ▸ hmistaken)⟩

theorem AttributeMatcher.MistakenFor.not_matchedBy {m : AttributeMatcher F} {span : Span F}
    (h : m.MistakenFor span) (hkeys : span.attributes.keys.Nodup) : ¬ m.MatchedBy span := by
  rintro ⟨attr, hmem, hall⟩
  obtain ⟨attr', v, hmem', hv, hmistaken⟩ := h
  obtain rfl : attr' = attr := Option.some.inj
    ((AttributeMap.get_of_mem hkeys hmem').symm.trans (AttributeMap.get_of_mem hkeys hmem))
  exact hmistaken.not_same (hall v hv)

/-- Under no key of a matcher does the span have a zero value of another type, or another matcher
fails anyway. -/
def NotMistaken (ma : List (AttributeMatcher F)) (span : Span F) : Prop :=
  ∀ m ∈ ma, m.MistakenFor span → ∃ m' ∈ ma, ¬ m'.MatchedBy span ∧ ¬ m'.MistakenFor span

/-- **Matching is exact where no zero value is mistaken**, for spans with distinct keys; and so is
`Equal` on string, bool and int values. -/
theorem matching_exact :
    (∀ (mp : PropertiesMatcher F) (span : Span F) (serviceName : String),
      mp.serviceFilters = none → mp.nameFilters = none → span.attributes.keys.Nodup →
      ((mp.matchSpan span serviceName ↔ ∀ m ∈ mp.attributes, m.MatchedBy span) ↔
        NotMistaken mp.attributes span)) ∧
    ∀ a b : AnyValue F, a.Basic → b.Basic → ((a.equal b ↔ a = b) ↔ ¬ a.Mistaken b) ∧
      (a.equal b = b.equal a ↔ (a.Mistaken b ↔ b.Mistaken a)) := by
  constructor
  · intro mp span serviceName hservice hname hkeys
    rw [matchSpan_iff hservice hname hkeys]
    constructor
    · intro h m hm hmistaken
      by_contra hnone
      push Not at hnone
      exact hmistaken.not_matchedBy hkeys
        (h.1 (fun m' hm' => or_iff_not_imp_left.2 (hnone m' hm')) m hm)
    · intro h
      refine ⟨fun hall m hm => (hall m hm).resolve_right fun hmistaken => ?_,
        fun hall m hm => .inl (hall m hm)⟩
      obtain ⟨m', hm', hnot, hnot'⟩ := h m hm hmistaken
      exact (hall m' hm').elim hnot hnot'
  · intro a b ha hb
    have hab := AnyValue.equal_iff_eq_or ha (b := b)
    have hba := AnyValue.equal_iff_eq_or hb (b := a)
    have hne : ∀ {x y : AnyValue F}, x.Mistaken y → x ≠ y := fun h heq => h.2.1 (heq ▸ rfl)
    refine ⟨?_, ?_⟩
    · rw [hab]
      exact ⟨fun h hmistaken => hne hmistaken (h.1 (.inr hmistaken)), fun h => or_iff_left h⟩
    · rw [Bool.eq_iff_iff, hab, hba, eq_comm (a := b)]
      by_cases heq : a = b
      · subst heq
        simp
      · simp [heq]

end Match

def taggedSpan (text : String) (number : Int64) : Span Int where
  traceId := []
  spanId := []
  traceState := ""
  parentSpanId := []
  name := "op"
  kind := .server
  startTime := 0
  endTime := 0
  attributes := [.mk "text" (.string text), .mk "number" (.int number)]
  droppedAttributesCount := 0
  events := []
  droppedEventsCount := 0
  links := []
  droppedLinksCount := 0
  status := none

/-- The key `text`, and the key `number` with a value. -/
def textAndNumber (v : AnyValue Int) : PropertiesMatcher Int :=
  ⟨none, none, [⟨"text", none⟩, ⟨"number", some v⟩]⟩

theorem matching_exact_taggedSpan : (textAndNumber (.int 5)).matchSpan (taggedSpan "" 5) "svc" ∧
    ∀ m ∈ (textAndNumber (.int 5)).attributes, m.MatchedBy (taggedSpan "" 5) := by
  have hnot : NotMistaken (textAndNumber (.int 5)).attributes (taggedSpan "" 5) := by
    simp [NotMistaken, AttributeMatcher.MistakenFor, textAndNumber, taggedSpan, AnyValue.Mistaken,
      AnyValue.IsZero]
  have h := (matching_exact (F := Int)).1 (textAndNumber (.int 5)) (taggedSpan "" 5) "svc" rfl rfl
    (by decide)
  have hmatch : (textAndNumber (.int 5)).matchSpan (taggedSpan "" 5) "svc" = true := by decide
  exact ⟨hmatch, (h.2 hnot).1 hmatch⟩

/-- **Mistaken values.** A span with the number 0 matches a configuration with the text `blue` for
it, and `Equal` says so in one direction only. -/
theorem matching_mistaken :
    (textAndNumber (.string "blue")).matchSpan (taggedSpan "" 0) "svc" ∧
    (¬ ∀ m ∈ (textAndNumber (.string "blue")).attributes, m.MatchedBy (taggedSpan "" 0)) ∧
    (AnyValue.int 0 : AnyValue Int).equal (.string "blue") = true ∧
    (AnyValue.string "blue" : AnyValue Int).equal (.int 0) = false := by
  refine ⟨by decide, fun h => ?_, by decide, by decide⟩
  obtain ⟨attr, hmem, hsame⟩ := h ⟨"number", some (.string "blue")⟩ (by simp [textAndNumber])
  obtain rfl : attr = .int 0 := by simpa [taggedSpan] using hmem
  simpa [AnyValue.Same, AnyValue.isNull] using hsame (.string "blue") rfl

end Processor

end Collector
