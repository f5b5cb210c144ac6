import Collector.OpenCensus.SpansTrip
import Collector.Zipkin.FromInternal
import Collector.Zipkin.ResourceTags
import Collector.Zipkin.V1

/-!
# The spelling of tags

A tag that has the form of an integer becomes an integer attribute, and the exporter writes
integers in their plain decimal form. So `007`, `-0` and what does not fit into 64 bits come back
as other texts, and every other tag that is not a decimal fraction as itself (`spelling_kept_iff`).
-/

namespace Collector.Zipkin

open Pdata (AnyValue AttributeMap)
open Pdata.AttributeMap (get_upsertTo)
open Translator

variable {F τ : Type} {k value : String}

/-- `^-?\d+$`. -/
def IsInteger (value : String) : Prop := isDigits (dropSign value.toList) = true

/-- The integer that a text of integer form stands for. -/
def intOf : List Char → Int
  | '-' :: l => -(Nat.ofDigitChars 10 l 0)
  | l => Nat.ofDigitChars 10 l 0

/-- The value that `strconv.ParseInt(value, 10, 64)` returns for a text of integer form, with or
without an error: the integer, or the end of the range that it is beyond. -/
def parseInt64 (value : String) : Int64 :=
  .ofInt (max Int64.minValue.toInt (min Int64.maxValue.toInt (intOf value.toList)))

def Parses (parseInt : String → Int64) : Prop :=
  ∀ value, IsInteger value → parseInt value = parseInt64 value

/-- If the text has the form of an integer, it is the plain form of one that fits. -/
def Plain (value : String) : Prop := IsInteger value → ∃ n : Int64, value = toString n.toInt

theorem intOf_digits (m : Nat) : intOf (Nat.toDigits 10 m) = m := by
  have hvalue := Nat.ofDigitChars_ten_toDigits (n := m)
  unfold intOf
  split
  case h_1 l hl =>
    have hdigit := Nat.isDigit_of_mem_toDigits (b := 10) (by decide) (by decide) (n := m)
      (hl ▸ List.mem_cons_self : '-' ∈ Nat.toDigits 10 m)
    cases hdigit
  case h_2 => rw [hvalue]

theorem intOf_toString (n : Int) : intOf (toString n).toList = n := by
  show intOf n.repr.toList = n
  rw [Int.repr_eq_if]
  split
  case isTrue hn =>
    rw [Nat.repr_eq_ofList_toDigits, String.toList_ofList, intOf_digits]
    omega
  case isFalse hn =>
    have hdigits : (-n).toNat.repr.toList = Nat.toDigits 10 (-n).toNat := by
      rw [Nat.repr_eq_ofList_toDigits, String.toList_ofList]
    rw [String.toList_append, hdigits]
    show -(Nat.ofDigitChars 10 (Nat.toDigits 10 (-n).toNat) 0 : Int) = n
    rw [Nat.ofDigitChars_ten_toDigits]
    omega

theorem parseInt64_toString (n : Int64) : parseInt64 (toString n.toInt) = n := by
  rw [parseInt64, intOf_toString, min_eq_right (Int64.toInt_le n),
    max_eq_right (Int64.minValue_le_toInt n)]
  exact Int64.ofInt_toInt n

/-- The attribute for a text, given what it parses to. -/
def attributeFor (n : Int64) (x : F) (value : String) : AnyValue F :=
  match determineValueType value with
  | .int => .int n
  | .double => .double x
  | .bool => .bool (value = "true")
  | _ => .string value

theorem tagText_attributeFor_iff [GoFloat F] {n : Int64} {x : F}
    (hn : IsInteger value → n = parseInt64 value) (hfraction : isDecimal value.toList = false) :
    tagText (attributeFor n x value) = some value ↔ Plain value := by
  unfold attributeFor determineValueType
  by_cases hint : IsInteger value
  · have hne : value ≠ "" := by
      rintro rfl
      cases hint
    rw [if_neg hne, if_pos (show isDigits (dropSign value.toList) = true from hint)]
    constructor
    · exact fun h _ => ⟨n, (Option.some.inj h).symm⟩
    · intro h
      obtain ⟨m, hm⟩ := h hint
      rw [tagText, hn hint, hm, parseInt64_toString]
  · refine iff_of_true ?_ fun h => absurd h hint
    by_cases hnull : value = ""
    · rw [if_pos hnull]
      rfl
    · rw [if_neg hnull, if_neg (show ¬isDigits (dropSign value.toList) = true from hint),
        hfraction, if_neg Bool.false_ne_true]
      by_cases hbool : value = "true" ∨ value = "false"
      · rcases hbool with rfl | rfl
        · rfl
        · rfl
      · rw [if_neg hbool]
        rfl

theorem get_tagsToAttributeMap (lib : Library F τ) {tags : GoMap String String}
    (hk : k ∉ nonSpanAttributes) (htag : tags.lookup k = some value) :
    (tagsToAttributeMap lib tags).get k =
      some (attributeFor (lib.parseInt value) (lib.parseFloat value) value) := by
  have hmem : (k, value) ∈ lib.tagOrder.order tags.pairs := (lib.tagOrder.mem_order_pairs).2 htag
  have hkeys := lib.tagOrder.pairwise_order_pairs tags
  obtain ⟨l, l', hl⟩ := List.append_of_mem hmem
  rw [hl] at hkeys
  have hlast : k ∉ l'.map Prod.fst := by
    intro hmem
    obtain ⟨tag, hlater, rfl⟩ := List.mem_map.1 hmem
    exact (List.pairwise_cons.1 (List.pairwise_append.1 hkeys).2.1).1 tag hlater rfl
  rw [tagsToAttributeMap, hl, List.foldl_append, List.foldl_cons,
    get_foldl_upsertTag lib (.inr hlast), upsertTag_eq, if_neg hk, get_upsertTo, if_pos rfl]
  rfl

theorem toInternal_parseAnnotationValue (lib : V1.Library F τ) (value : String) :
    (V1.parseAnnotationValue lib value).toInternal =
      attributeFor (lib.parseInt value) (lib.parseFloat value) value := by
  unfold V1.parseAnnotationValue attributeFor
  cases determineValueType value <;> rfl

/-- **A tag that is not a decimal fraction keeps its spelling exactly if it is the plain form of a
64 bit integer or has not the form of an integer**, as an attribute of either version. -/
theorem spelling_kept_iff [GoFloat F] (lib : Library F τ) (libV1 : V1.Library F τ)
    (h : Parses lib.parseInt) (hV1 : Parses libV1.parseInt) (tags : GoMap String String)
    (hk : k ∉ nonSpanAttributes) (htag : tags.lookup k = some value)
    (hfraction : isDecimal value.toList = false) :
    (∃ v, (tagsToAttributeMap lib tags).get k = some v ∧
        (tagText v = some value ↔ Plain value)) ∧
      (tagText (V1.parseAnnotationValue libV1 value).toInternal = some value ↔ Plain value) := by
  refine ⟨⟨_, get_tagsToAttributeMap lib hk htag, ?_⟩, ?_⟩
  · exact tagText_attributeFor_iff (h value) hfraction
  · rw [toInternal_parseAnnotationValue]
    exact tagText_attributeFor_iff (hV1 value) hfraction

section

attribute [local instance] GoFloat.whole

/-- The libraries with `strconv.ParseInt`. -/
def parsing : Library Int Unit := { noLibrary with parseInt := parseInt64 }

def parsingV1 : V1.Library Int Unit := { V1.decoding "[]" [] with parseInt := parseInt64 }

theorem spelling_kept_port :
    Plain "80" ∧ (∃ v, (tagsToAttributeMap parsing
        ((∅ : GoMap String String).insert "http.port" "80")).get "http.port" = some v ∧
        (tagText v = some "80" ↔ Plain "80")) ∧
      (tagText (V1.parseAnnotationValue parsingV1 "80").toInternal = some "80" ↔ Plain "80") :=
  ⟨fun _ => ⟨80, by decide⟩, spelling_kept_iff parsing parsingV1 (fun _ _ => rfl) (fun _ _ => rfl) _
    (by decide) rfl (by decide)⟩

/-- The tag `007` comes back as `7`. -/
theorem leading_zeros_lost :
    (tagsToAttributeMap parsing ((∅ : GoMap String String).insert "agent" "007")).get "agent" =
        some (.int 7) ∧
      (V1.parseAnnotationValue parsingV1 "007").toInternal = .int 7 ∧
      tagText (.int 7 : AnyValue Int) = some "7" ∧ isDecimal "007".toList = false :=
  ⟨rfl, rfl, rfl, rfl⟩

end

end Collector.Zipkin
