import Mathlib.Algebra.Ring.Nat
import Collector.Lib.Code

/-!
# Quoted strings

`strconv.Quote` and the `%#v` of a `[]string`. Which characters are printed as
they are is a table of the standard library, `isPrint`; whatever it says, a text
can be read back from its quotation.
-/

namespace Collector

open Lib List

/-- The last `k` hexadecimal digits of a number. -/
def hex : Nat → Nat → List Char
  | 0, _ => []
  | k + 1, n => hex k (n / 16) ++ [Nat.digitChar (n % 16)]

/-- The number that hexadecimal digits stand for. -/
def unhex (ds : List Char) : Nat :=
  ds.foldl (fun n d => n * 16 + if d.toNat ≤ 57 then d.toNat - 48 else d.toNat - 87) 0

theorem length_hex (k n : Nat) : (hex k n).length = k := by
  induction k generalizing n with
  | zero => rfl
  | succ k ih => rw [hex, length_append, ih, length_singleton]

theorem unhex_hex {k n : Nat} (h : n < 16 ^ k) : unhex (hex k n) = n := by
  have hdigit : ∀ d < 16, (if (Nat.digitChar d).toNat ≤ 57 then (Nat.digitChar d).toNat - 48
      else (Nat.digitChar d).toNat - 87) = d := by decide
  induction k generalizing n with
  | zero =>
    rw [Nat.pow_zero] at h
    exact (Nat.lt_one_iff.1 h).symm
  | succ k ih =>
    rw [Nat.pow_succ] at h
    have hdiv := ih (n := n / 16) (by omega)
    rw [unhex] at hdiv ⊢
    rw [hex, foldl_append, hdiv, foldl_cons, foldl_nil,
      hdigit _ (Nat.mod_lt _ (by omega))]
    omega

/-- The characters with a letter of their own after the backslash. -/
def escapeLetters : List (Char × Char) :=
  [('\x07', 'a'), ('\x08', 'b'), ('\x0c', 'f'), ('\n', 'n'), ('\r', 'r'), ('\t', 't'),
    ('\x0b', 'v')]

section Quote

variable (isPrint : Char → Bool)

/-- What follows the backslash of a character that is escaped: a letter or the character itself, and
the hexadecimal digits of its number where it has no letter of its own. -/
def escapeOf (c : Char) : Option (Char × List Char) :=
  if c = '"' ∨ c = '\\' then some (c, [])
  else if isPrint c then none
  else
    match escapeLetters.find? (·.1 == c) with
    | some e => some (e.2, [])
    | none =>
      if c.toNat < 0x20 then some ('x', hex 2 c.toNat)
      else if c.toNat < 0x10000 then some ('u', hex 4 c.toNat)
      else some ('U', hex 8 c.toNat)

/-- `appendEscapedRune`, with a double quote. -/
def appendEscapedRune (c : Char) : List Char :=
  match escapeOf isPrint c with
  | none => [c]
  | some (tag, digits) => '\\' :: tag :: digits

/-- `strconv.Quote`. -/
def strconvQuote (s : String) : String :=
  String.ofList ('"' :: s.toList.flatMap (appendEscapedRune isPrint) ++ ['"'])

/-- `fmt.Sprintf("%#v", l)` for a `[]string` that is not nil. -/
def goSyntax (l : List String) : String :=
  "[]string\x7b" ++ ", ".intercalate (l.map (strconvQuote isPrint)) ++ "\x7d"

/-! ## Reading a quotation -/

def digitsAfter (tag : Char) : Nat :=
  if tag = 'x' then 2 else if tag = 'u' then 4 else if tag = 'U' then 8 else 0

/-- The character that an escape stands for. -/
def unescape (tag : Char) (digits : List Char) : Char :=
  if digits ≠ [] then Char.ofNat (unhex digits)
  else (escapeLetters.find? (·.2 == tag)).elim tag Prod.fst

variable {isPrint}

theorem toNat_lt_max (c : Char) : c.toNat < 0x110000 := by
  have hvalid := c.valid
  simp only [UInt32.isValidChar, Nat.isValidChar] at hvalid
  have hval : c.val.toNat = c.toNat := rfl
  omega

theorem unescape_hex (tag : Char) {c : Char} {k : Nat} (h : c.toNat < 16 ^ (k + 1)) :
    unescape tag (hex (k + 1) c.toNat) = c := by
  rw [unescape, if_pos (by simp [hex]), unhex_hex h, Char.ofNat_toNat]

theorem escapeOf_some {c tag : Char} {digits : List Char}
    (h : escapeOf isPrint c = some (tag, digits)) :
    digits.length = digitsAfter tag ∧ unescape tag digits = c := by
  unfold escapeOf at h
  split at h
  · rename_i hq
    cases h
    rcases hq with rfl | rfl <;> exact ⟨rfl, rfl⟩
  · split at h
    · cases h
    · split at h
      · rename_i e he
        cases h
        have hletters : ∀ e ∈ escapeLetters, digitsAfter e.2 = 0 ∧ unescape e.2 [] = e.1 := by
          decide
        obtain ⟨hdigits, hchar⟩ := hletters e (mem_of_find?_eq_some he)
        have hc := find?_some he
        exact ⟨hdigits.symm, hchar.trans (by simpa using hc)⟩
      · have hmax := toNat_lt_max c
        split at h
        · cases h
          exact ⟨length_hex 2 _, unescape_hex _ (by omega)⟩
        · split at h
          · cases h
            exact ⟨length_hex 4 _, unescape_hex _ (by omega)⟩
          · cases h
            exact ⟨length_hex 8 _, unescape_hex _ (by omega)⟩

theorem escapeOf_none {c : Char} (h : escapeOf isPrint c = none) : c ≠ '"' ∧ c ≠ '\\' := by
  refine not_or.1 fun hq => ?_
  unfold escapeOf at h
  rw [if_pos hq] at h
  cases h

theorem readable_appendEscapedRune : Readable (appendEscapedRune isPrint) := by
  intro c d s t h
  unfold appendEscapedRune at h
  cases hc : escapeOf isPrint c with
  | none =>
    rw [hc] at h
    cases hd : escapeOf isPrint d with
    | none =>
      rw [hd] at h
      simpa using h
    | some e =>
      rw [hd] at h
      exact absurd (List.cons.inj h).1 (escapeOf_none hc).2
  | some e =>
    obtain ⟨tag, digits⟩ := e
    rw [hc] at h
    cases hd : escapeOf isPrint d with
    | none =>
      rw [hd] at h
      exact absurd (List.cons.inj h).1.symm (escapeOf_none hd).2
    | some e' =>
      obtain ⟨tag', digits'⟩ := e'
      rw [hd] at h
      obtain ⟨hlen, hchar⟩ := escapeOf_some hc
      obtain ⟨hlen', hchar'⟩ := escapeOf_some hd
      simp only [cons_append, List.cons.injEq, true_and] at h
      obtain ⟨rfl, h⟩ := h
      obtain ⟨rfl, hst⟩ := append_inj h (hlen.trans hlen'.symm)
      exact ⟨hchar.symm.trans hchar', hst⟩

theorem avoids_appendEscapedRune : Avoids (appendEscapedRune isPrint) '"' := by
  intro c
  unfold appendEscapedRune
  cases hc : escapeOf isPrint c with
  | none => exact ⟨c, [], rfl, (escapeOf_none hc).1⟩
  | some e => exact ⟨'\\', e.1 :: e.2, rfl, by decide⟩

/-- **A text is read back from its quotation**, whatever follows. -/
theorem readable_strconvQuote : Readable fun s => (strconvQuote isPrint s).toList := by
  intro a b s t h
  simp only [strconvQuote, String.toList_ofList] at h
  have hread : Readable fun l : List Char => l.flatMap (appendEscapedRune isPrint) ++ ['"'] :=
    readable_appendEscapedRune.flatMap avoids_appendEscapedRune
  obtain ⟨hab, hst⟩ := (hread.append_left ['"']) a.toList b.toList s t h
  exact ⟨String.toList_inj.1 hab, hst⟩

theorem goSyntax_injective : Function.Injective (goSyntax isPrint) := by
  have havoids : Avoids (fun s => (strconvQuote isPrint s).toList) '\x7d' := by
    intro s
    refine ⟨'"', s.toList.flatMap (appendEscapedRune isPrint) ++ ['"'], ?_, by decide⟩
    simp [strconvQuote]
  have hread : Readable fun l : List String => [',', ' '].intercalate
      (l.map fun s => (strconvQuote isPrint s).toList) ++ ['\x7d'] :=
    readable_strconvQuote.intercalate havoids (by decide)
  intro l l' h
  refine hread.injective ?_
  have hlist := congrArg String.toList h
  simp only [goSyntax, String.toList_append, String.toList_intercalate, map_map] at hlist
  simpa [Function.comp_def] using hlist

end Quote

end Collector
