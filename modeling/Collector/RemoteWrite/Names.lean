import Collector.RemoteWrite.Labels

/-!
# Names for Prometheus

`sanitize` replaces what is not a letter or a digit by an underscore and puts `key` in front of a
digit or an underscore. It asks the `unicode` package for letters and digits, so letters and digits
beyond ASCII stay, and a label name of Prometheus has none.

A string of Go need not be UTF-8: `strings.Map` reads a byte that is no part of a character as
U+FFFD. `Text` is a string as it is read.
-/

namespace Collector.RemoteWrite

open Otlp List

/-- A string of Go as a loop over its runes meets it: characters, and bytes that are no part of
one. -/
abbrev Text := List (Char ⊕ UInt8)

def Text.runes (s : Text) : List Char := s.map (Sum.elim id fun _ => Char.ofNat 0xFFFD)

section

variable [Unicode]

/-- `sanitize` of a string that need not be UTF-8. -/
def sanitizeText (s : Text) : String := sanitize (String.ofList s.runes)

def nameStart (c : Char) : Bool := ('a' ≤ c && c ≤ 'z') || ('A' ≤ c && c ≤ 'Z') || c == '_'

def nameChar (c : Char) : Bool := nameStart c || ('0' ≤ c && c ≤ '9')

/-- The grammar of Prometheus: `[a-zA-Z_][a-zA-Z0-9_]*`. -/
def LabelName (s : String) : Prop :=
  ∃ c cs, s.toList = c :: cs ∧ nameStart c = true ∧ ∀ d ∈ cs, nameChar d = true

def AsciiWords (l : List Char) : Prop :=
  ∀ c ∈ l, isLetter c = true ∨ isDigit c = true → c.toNat < 128

instance (l : List Char) : Decidable (AsciiWords l) :=
  List.decidableBAll (fun c => isLetter c = true ∨ isDigit c = true → c.toNat < 128) l

/-! ## Characters -/

variable {c : Char} {s : String}

omit [Unicode] in
theorem ascii_of_le {d : Char} (h : c ≤ d) (hd : d.toNat < 128) : c.toNat < 128 :=
  Nat.lt_of_le_of_lt (UInt32.le_iff_toNat_le.1 h) hd

omit [Unicode] in
theorem nameChar_ascii (h : nameChar c = true) : c.toNat < 128 := by
  unfold nameChar nameStart at h
  simp only [Bool.or_eq_true, Bool.and_eq_true, decide_eq_true_eq, beq_iff_eq] at h
  rcases h with ((⟨-, h⟩ | ⟨-, h⟩) | rfl) | ⟨-, h⟩
  · exact ascii_of_le h (by decide)
  · exact ascii_of_le h (by decide)
  · decide
  · exact ascii_of_le h (by decide)

omit [Unicode] in
theorem latin1_ascii : ∀ n < 128,
    (latin1Letter (Char.ofNat n) = true → nameStart (Char.ofNat n) = true) ∧
      (latin1Digit (Char.ofNat n) = true → nameChar (Char.ofNat n) = true) := by
  decide

theorem nameStart_of_letter (hc : c.toNat < 128) (h : isLetter c = true) : nameStart c = true := by
  unfold isLetter at h
  rw [if_pos (by omega)] at h
  have hascii := (latin1_ascii c.toNat hc).1
  rw [Char.ofNat_toNat] at hascii
  exact hascii h

theorem nameChar_of_word (hc : c.toNat < 128) (h : isLetter c = true ∨ isDigit c = true) :
    nameChar c = true := by
  rcases h with h | h
  · unfold nameChar
    rw [nameStart_of_letter hc h, Bool.true_or]
  · unfold isDigit at h
    rw [if_pos (by omega)] at h
    have hascii := (latin1_ascii c.toNat hc).2
    rw [Char.ofNat_toNat] at hascii
    exact hascii h

theorem sanitizeRune_of_word (h : isLetter c = true ∨ isDigit c = true) : sanitizeRune c = c := by
  unfold sanitizeRune
  rw [if_pos (by simpa using h)]

theorem sanitizeRune_cases (c : Char) :
    (isLetter c = true ∨ isDigit c = true) ∧ sanitizeRune c = c ∨ sanitizeRune c = '_' := by
  by_cases h : isLetter c = true ∨ isDigit c = true
  · exact .inl ⟨h, sanitizeRune_of_word h⟩
  · right
    unfold sanitizeRune
    rw [if_neg (by simpa using h)]

theorem sanitizeRune_idem (c : Char) : sanitizeRune (sanitizeRune c) = sanitizeRune c := by
  rcases sanitizeRune_cases c with ⟨-, heq⟩ | heq
  · rw [heq, heq]
  · rw [heq]
    rfl

/-! ## `sanitize` -/

/-- What `sanitize` puts in front. -/
def lead (c : Char) : List Char :=
  if latin1Digit c then keyStr.toList ++ delimeter.toList else if c = '_' then keyStr.toList else []

theorem toList_sanitize {cs : List Char} (h : s.toList.map sanitizeRune = c :: cs) :
    (sanitize s).toList = lead c ++ c :: cs := by
  unfold sanitize lead
  rw [h]
  dsimp only
  split
  case isTrue => simp [keyStr, delimeter]
  case isFalse =>
    simp only [head?_cons, Option.some.injEq]
    split <;> simp

theorem map_sanitizeRune_cons (hs : s ≠ "") : ∃ c cs, s.toList.map sanitizeRune = c :: cs := by
  cases hl : s.toList with
  | nil => exact absurd (String.toList_eq_nil_iff.1 hl) hs
  | cons c cs => exact ⟨_, _, rfl⟩

theorem head_sanitize (hs : s ≠ "") :
    ∃ c cs, (sanitize s).toList = c :: cs ∧ c ≠ '_' ∧ latin1Digit c = false := by
  obtain ⟨c, cs, hmap⟩ := map_sanitizeRune_cons hs
  rw [toList_sanitize hmap]
  unfold lead
  by_cases hdigit : latin1Digit c = true
  · rw [if_pos hdigit]
    exact ⟨'k', _, rfl, by decide, by decide⟩
  · rw [if_neg hdigit]
    by_cases hunderscore : c = '_'
    · rw [if_pos hunderscore]
      exact ⟨'k', _, rfl, by decide, by decide⟩
    · rw [if_neg hunderscore]
      exact ⟨c, cs, rfl, hunderscore, by simpa using hdigit⟩

omit [Unicode] in
theorem mem_lead {d : Char} (h : c ∈ lead d) : c = 'k' ∨ c = 'e' ∨ c = 'y' ∨ c = '_' := by
  unfold lead at h
  split at h
  · simpa [keyStr, delimeter] using h
  · split at h
    · have hkey : c = 'k' ∨ c = 'e' ∨ c = 'y' := by simpa [keyStr] using h
      tauto
    · cases h

theorem mem_sanitize (h : c ∈ (sanitize s).toList) :
    (c = 'k' ∨ c = 'e' ∨ c = 'y' ∨ c = '_') ∨ ∃ d ∈ s.toList, sanitizeRune d = c := by
  by_cases hs : s = ""
  · subst hs
    cases h
  obtain ⟨d, ds, hmap⟩ := map_sanitizeRune_cons hs
  rw [toList_sanitize hmap, mem_append, ← hmap, mem_map] at h
  rcases h with h | h
  · exact .inl (mem_lead h)
  · exact .inr h

theorem sanitize_idem (s : String) : sanitize (sanitize s) = sanitize s := by
  by_cases hs : s = ""
  · subst hs
    rfl
  have hmap : (sanitize s).toList.map sanitizeRune = (sanitize s).toList := by
    refine (map_congr_left fun c hc => ?_).trans (map_id _)
    rcases mem_sanitize hc with (rfl | rfl | rfl | rfl) | ⟨d, -, rfl⟩
    · rfl
    · rfl
    · rfl
    · rfl
    · exact sanitizeRune_idem d
  obtain ⟨c, cs, hhead, hunderscore, hdigit⟩ := head_sanitize hs
  refine String.toList_inj.1 ?_
  rw [toList_sanitize (hmap.trans hhead), hhead]
  unfold lead
  rw [hdigit, if_neg (by decide), if_neg hunderscore]
  rfl

/-- **`sanitize` returns a name of Prometheus exactly when the letters and digits are of ASCII.** -/
theorem labelName_sanitize (hs : s ≠ "") : LabelName (sanitize s) ↔ AsciiWords s.toList := by
  obtain ⟨c, cs, hhead, hunderscore, hdigit⟩ := head_sanitize hs
  constructor
  · rintro ⟨c', cs', hname, hstart, hrest⟩ d hd hword
    obtain ⟨e, es, hmap⟩ := map_sanitizeRune_cons hs
    have hmem : d ∈ (sanitize s).toList := by
      rw [toList_sanitize hmap, ← hmap]
      exact mem_append_right _ (mem_map.2 ⟨d, hd, sanitizeRune_of_word hword⟩)
    refine nameChar_ascii ?_
    rw [hname] at hmem
    rcases mem_cons.1 hmem with rfl | hmem
    · unfold nameChar
      rw [hstart, Bool.true_or]
    · exact hrest d hmem
  · intro hascii
    have hchars : ∀ d ∈ c :: cs, nameChar d = true := by
      intro d hd
      rcases mem_sanitize (hhead ▸ hd) with (rfl | rfl | rfl | rfl) | ⟨e, he, rfl⟩
      · rfl
      · rfl
      · rfl
      · rfl
      · rcases sanitizeRune_cases e with ⟨hword, heq⟩ | heq
        · rw [heq]
          exact nameChar_of_word (hascii e he hword) hword
        · rw [heq]
          rfl
    refine ⟨c, cs, hhead, ?_, fun d hd => hchars d (mem_cons_of_mem _ hd)⟩
    have hfirst := hchars c mem_cons_self
    unfold nameChar at hfirst
    rw [Bool.or_eq_true] at hfirst
    exact hfirst.resolve_right fun h => Bool.eq_false_iff.1 hdigit h

/-! ## Metric names -/

theorem asciiWords_append {l l' : List Char} :
    AsciiWords (l ++ l') ↔ AsciiWords l ∧ AsciiWords l' :=
  forall_mem_append

theorem asciiWords_of_ascii {l : List Char} (h : l.all (fun c => c.toNat < 128) = true) :
    AsciiWords l := by
  intro c hc _
  exact of_decide_eq_true (all_eq_true.1 h c hc)

theorem getPromMetricName_eq (desc : MetricDescriptor) (ns : String) :
    ∃ b : String, getPromMetricName (some desc) ns = sanitize b ∧
      (ns ≠ "" ∨ desc.name ≠ "" → b ≠ "") ∧
      (AsciiWords b.toList ↔ AsciiWords (ns.toList ++ desc.name.toList)) := by
  have hdelimeter : AsciiWords delimeter.toList := asciiWords_of_ascii (by decide)
  have htotal : AsciiWords totalStr.toList := asciiWords_of_ascii (by decide)
  obtain ⟨named, hnamed, hne, hascii⟩ : ∃ named : String,
      (if ns ≠ "" then ns ++ delimeter else ns) ++ desc.name = named ∧
        (ns ≠ "" ∨ desc.name ≠ "" → named ≠ "") ∧
        (AsciiWords named.toList ↔ AsciiWords (ns.toList ++ desc.name.toList)) := by
    refine ⟨_, rfl, ?_, ?_⟩
    · split <;> simp_all
    · split <;> simp [asciiWords_append, hdelimeter]
  unfold getPromMetricName
  dsimp only
  rw [hnamed]
  refine ⟨_, rfl, ?_, ?_⟩
  · intro h
    split
    · simp [hne h]
    · exact hne h
  · split
    · simp only [String.toList_append, asciiWords_append, hdelimeter, htotal, and_true]
      exact hascii.trans asciiWords_append
    · exact hascii

theorem labelName_getPromMetricName (desc : MetricDescriptor) (ns : String)
    (h : ns ≠ "" ∨ desc.name ≠ "") :
    LabelName (getPromMetricName (some desc) ns) ↔
      AsciiWords (ns.toList ++ desc.name.toList) := by
  obtain ⟨b, hb, hne, hascii⟩ := getPromMetricName_eq desc ns
  rw [hb, labelName_sanitize (hne h), hascii]

end

/-- **`sanitize` of a string that is not empty.** It returns a label name of Prometheus exactly when
every letter and digit among its runes is of ASCII, in any case none that starts with an underscore,
and leaves alone what it returns; and the same holds of the names of metrics. -/
theorem sanitize_names [Unicode] (s : Text) (hs : s ≠ []) :
    (LabelName (sanitizeText s) ↔ AsciiWords s.runes) ∧
      (sanitizeText s).toList.head? ≠ some '_' ∧
      sanitize (sanitizeText s) = sanitizeText s ∧
      ∀ (desc : MetricDescriptor) (ns : String), ns ≠ "" ∨ desc.name ≠ "" →
        (LabelName (getPromMetricName (some desc) ns) ↔
          AsciiWords (ns.toList ++ desc.name.toList)) := by
  have hne : String.ofList s.runes ≠ "" := by
    intro hempty
    have hnil := congrArg String.toList hempty
    simp [Text.runes, hs] at hnil
  refine ⟨?_, ?_, sanitize_idem _, labelName_getPromMetricName⟩
  · rw [sanitizeText, labelName_sanitize hne, String.toList_ofList]
  · obtain ⟨c, cs, hhead, hunderscore, -⟩ := head_sanitize hne
    rw [sanitizeText, hhead]
    exact fun h => hunderscore (Option.some.inj h)

section Names

attribute [local instance] Unicode.latin1

/-- `5xx`, a byte that is no character, and `.r`. -/
def rateText : Text := [.inl '5', .inl 'x', .inl 'x', .inr 255, .inl '.', .inl 'r']

theorem rateText_named :
    rateText ≠ [] ∧ sanitizeText rateText = "key_5xx__r" ∧ LabelName (sanitizeText rateText) :=
  ⟨by decide, by decide +kernel, (sanitize_names rateText (by decide)).1.2 (by decide)⟩

/-- `é` is a letter of the `unicode` package. -/
theorem accent_not_named :
    sanitizeText [.inl 'é'] = "é" ∧ ¬ LabelName (sanitizeText [.inl 'é']) ∧
      ¬ LabelName (getPromMetricName (some ⟨"é", "", "", .int64, .cumulative⟩) "") := by
  refine ⟨by decide +kernel, ?_, ?_⟩
  · rw [sanitizeText, labelName_sanitize (by decide)]
    decide
  · rw [labelName_getPromMetricName _ _ (.inr (by decide))]
    decide

end Names

end Collector.RemoteWrite
