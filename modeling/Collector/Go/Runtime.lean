import Mathlib.Algebra.Ring.Int.Defs
import Mathlib.Data.List.AList

/-!
# The Go runtime under the collector

What the collector's code takes from the language: pointers that may be nil,
slices, maps with an unspecified iteration order, and ways to take the whole
process down. A pointer is an `Option`, a computation that may end the process
is an `Except Crash`, and a map is an association list without repeated keys
(`AList`) that a `range` loop visits in any order (`MapOrder`).

`Unicode` and `GoFloat` stand for the two parts of the standard library that
are tables: the classes of the characters beyond Latin-1, and the conversion
and printing of `float64`.
-/

namespace Collector

open List

/-- How a goroutine ends the process. -/
inductive Crash where
  | nilDereference
  | indexOutOfRange
  | nilMapWrite
  | logFatal
  | stackOverflow
  deriving DecidableEq, Repr

/-- Code that returns or ends the process. -/
abbrev Go (α : Type) := Except Crash α

/-- `*p` for a pointer that may be nil. -/
def deref {α : Type} : Option α → Go α
  | some a => .ok a
  | none => .error .nilDereference

/-- `xs[i]` for a slice. -/
def index {α : Type} (xs : List α) (i : Nat) : Go α :=
  match xs[i]? with
  | some a => .ok a
  | none => .error .indexOutOfRange

/-- `xs[i] = a` for a slice. -/
def setIndex {α : Type} (xs : List α) (i : Nat) (a : α) : Go (List α) :=
  if i < xs.length then .ok (xs.set i a) else .error .indexOutOfRange

@[simp] theorem deref_some {α : Type} (a : α) : deref (some a) = .ok a := rfl

theorem index_ok {α : Type} {xs : List α} {i : Nat} (h : i < xs.length) :
    index xs i = .ok xs[i] := by
  simp [index, h]

theorem index_crash {α : Type} {xs : List α} {i : Nat} (h : xs.length ≤ i) :
    index xs i = .error .indexOutOfRange := by
  simp [index, h]

theorem foldlM_setIndex {α β : Type} (pos : α → Nat) (val : α → β) {ps : List α} {xs : List β}
    (hlt : ∀ p ∈ ps, pos p < xs.length) (hne : ps.Pairwise fun p q => pos p ≠ pos q) :
    ∃ ys, ps.foldlM (fun xs p => setIndex xs (pos p) (val p)) xs = .ok ys ∧
      ys.length = xs.length ∧ (∀ p ∈ ps, ys[pos p]? = some (val p)) ∧
      ∀ i, (∀ p ∈ ps, pos p ≠ i) → ys[i]? = xs[i]? := by
  induction ps generalizing xs with
  | nil => exact ⟨xs, rfl, rfl, fun p hp => absurd hp not_mem_nil, fun _ _ => rfl⟩
  | cons p ps ih =>
    obtain ⟨hp, hne⟩ := pairwise_cons.1 hne
    have hlen : (xs.set (pos p) (val p)).length = xs.length := length_set
    have hlt' : ∀ q ∈ ps, pos q < (xs.set (pos p) (val p)).length := fun q hq =>
      hlen ▸ hlt q (mem_cons_of_mem p hq)
    obtain ⟨ys, hys, hlength, hwritten, hkept⟩ := ih hlt' hne
    refine ⟨ys, ?_, hlength.trans hlen, fun q hq => ?_, fun i hi => ?_⟩
    · rw [foldlM_cons, setIndex, if_pos (hlt p mem_cons_self)]
      exact hys
    · rcases mem_cons.1 hq with rfl | hq
      · rw [hkept _ fun r hr he => hp r hr he.symm,
          getElem?_set_self (hlt q mem_cons_self)]
      · exact hwritten q hq
    · rw [hkept i fun q hq => hi q (mem_cons_of_mem p hq),
        getElem?_set_ne (hi p mem_cons_self)]

/-- `%q`, for text without a character that it escapes. -/
def quoted (s : String) : String := "\"" ++ s ++ "\""

/-! ## Maps -/

/-- A `map[K]V`. -/
abbrev GoMap (K V : Type) := AList fun _ : K => V

/-- `m[k] = v` for a map that may be nil. -/
def mapWrite {K V : Type} [DecidableEq K] (m : Option (GoMap K V)) (k : K) (v : V) :
    Go (GoMap K V) :=
  match m with
  | some m => .ok (m.insert k v)
  | none => .error .nilMapWrite

def GoMap.values {K V : Type} (m : GoMap K V) : List V := m.entries.map Sigma.snd

variable {K V : Type}

theorem GoMap.mem_values [DecidableEq K] {m : GoMap K V} {v : V} :
    v ∈ m.values ↔ ∃ k, m.lookup k = some v := by
  unfold GoMap.values
  rw [mem_map]
  constructor
  · rintro ⟨⟨k, v⟩, hmem, rfl⟩
    exact ⟨k, AList.mem_lookup_iff.2 hmem⟩
  · rintro ⟨k, hk⟩
    exact ⟨⟨k, v⟩, AList.mem_lookup_iff.1 hk, rfl⟩

def GoMap.pairs {K V : Type} (m : GoMap K V) : List (K × V) := m.entries.map fun e => (e.1, e.2)

theorem GoMap.mem_pairs [DecidableEq K] {m : GoMap K V} {k : K} {v : V} :
    (k, v) ∈ m.pairs ↔ m.lookup k = some v := by
  unfold GoMap.pairs
  rw [mem_map]
  constructor
  · rintro ⟨⟨k', v'⟩, hmem, he⟩
    cases he
    exact AList.mem_lookup_iff.2 hmem
  · intro h
    exact ⟨⟨k, v⟩, AList.mem_lookup_iff.1 h, rfl⟩

theorem GoMap.nodup_keys_pairs (m : GoMap K V) : (m.pairs.map Prod.fst).Nodup := by
  unfold GoMap.pairs
  rw [map_map]
  exact m.nodupKeys

/-- The order in which one `range` loop visits what a map holds. -/
structure MapOrder (α : Type) where
  order : List α → List α
  perm : ∀ l, (order l).Perm l

namespace MapOrder

variable {α : Type}

/-- The loop that visits the entries as they are stored. -/
def stored : MapOrder α := ⟨id, fun _ => .refl _⟩

/-- The loop that visits `l` as `a` and everything else as it is stored. -/
def arrange [DecidableEq α] (l a : List α) (h : a.Perm l) : MapOrder α where
  order x := if x = l then a else x
  perm x := by
    by_cases hx : x = l
    · subst hx; simpa using h
    · simp [hx]

@[simp] theorem arrange_self [DecidableEq α] (l a : List α) (h : a.Perm l) :
    (arrange l a h).order l = a := by
  simp [arrange]

theorem mem_order_pairs [DecidableEq K] (ord : MapOrder (K × V)) {m : GoMap K V}
    {x : K × V} : x ∈ ord.order m.pairs ↔ m.lookup x.1 = some x.2 :=
  (ord.perm _).mem_iff.trans GoMap.mem_pairs

theorem pairwise_order_pairs (ord : MapOrder (K × V)) (m : GoMap K V) :
    (ord.order m.pairs).Pairwise fun x y => x.1 ≠ y.1 :=
  pairwise_map.1 (((ord.perm _).map Prod.fst).nodup_iff.2 m.nodup_keys_pairs)

end MapOrder

/-! ## Tables of the standard library -/

/-- The classes `Letter` and `Digit` of the `unicode` package beyond Latin-1. -/
class Unicode where
  letter : Char → Bool
  digit : Char → Bool

/-- The tables for text within Latin-1. -/
@[reducible] def Unicode.latin1 : Unicode := ⟨fun _ => false, fun _ => false⟩

/-- Category L among the first 256 code points. -/
def latin1Letter (c : Char) : Bool :=
  ('a' ≤ c && c ≤ 'z') || ('A' ≤ c && c ≤ 'Z') || c == 'ª' || c == 'µ' || c == 'º' ||
    ('À' ≤ c && c ≤ 'ÿ' && c != '×' && c != '÷')

/-- Category Nd among the first 256 code points. -/
def latin1Digit (c : Char) : Bool := '0' ≤ c && c ≤ '9'

/-- `unicode.IsLetter`. -/
def isLetter [Unicode] (c : Char) : Bool :=
  if c.toNat ≤ 0xFF then latin1Letter c else Unicode.letter c

/-- `unicode.IsDigit`. -/
def isDigit [Unicode] (c : Char) : Bool :=
  if c.toNat ≤ 0xFF then latin1Digit c else Unicode.digit c

/-- The conversions and the printing of `float64`. -/
class GoFloat (F : Type) where
  /-- `float64(n)` for an `int64`. -/
  ofInt64 : Int64 → F
  /-- `float64(n)` for a `uint64`. -/
  ofUint64 : UInt64 → F
  /-- `strconv.FormatFloat(x, 'f', -1, 64)`. -/
  formatFloat : F → String

/-- The whole numbers among the floats; exact up to `2^53`. -/
@[reducible] def GoFloat.whole : GoFloat Int := ⟨Int64.toInt, fun n => n.toNat, toString⟩

/-! ## Times

`time.Time` without its location and monotonic clock, as nanoseconds since 1970, and
`time.Duration`, which is an `int64`. -/

namespace Time

/-- `time.Time{}`, the first of January of the year 1. -/
def zero : Int := -62135596800 * 1000000000

/-- `Time.UnixNano`, which wraps around for times that an `int64` cannot hold. -/
def unixNano (t : Int) : Int64 := .ofInt t

/-- `Time.Add`. -/
def add (t : Int) (d : Int64) : Int := t + d.toInt

/-- `Time.Sub`: the largest or smallest duration where the difference is out of range. -/
def sub (t u : Int) : Int64 :=
  if t - u < Int64.minValue.toInt then .minValue
  else if Int64.maxValue.toInt < t - u then .maxValue
  else .ofInt (t - u)

theorem add_sub {t u : Int} (ht : 0 ≤ t) (ht' : t < 2 ^ 63) (hu : 0 ≤ u) (hu' : u < 2 ^ 63) :
    add u (sub t u) = t := by
  have hmin : Int64.minValue.toInt = -2 ^ 63 := by decide
  have hmax : Int64.maxValue.toInt = 2 ^ 63 - 1 := by decide
  unfold add sub
  rw [if_neg (by omega), if_neg (by omega), Int64.toInt_ofInt_of_le (by omega) (by omega)]
  omega

end Time

end Collector
