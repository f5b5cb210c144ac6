import Collector.Lib.Code
import Collector.Lib.Returns

/-!
# The mode of the next Fluent event

`DetermineNextEventMode` of `server.go`. It only looks ahead, from the header of the tag, the
second object, to the first byte of the third. The test for a short tag also lets the negative
numbers of one byte pass (`negative_tag`).
-/

namespace Collector.Fluent

open Lib List

/-- `msgp.Type`. -/
inductive MsgpType where
  | invalid | str | bin | map | array | float64 | float32 | bool | int | uint | nil | ext
  deriving DecidableEq, Repr

inductive EventMode where
  | message | forward | packedForward
  deriving DecidableEq, Repr

inductive ModeError where
  | peek
  | malformedTag
  | undetermined (type : MsgpType)
  deriving DecidableEq, Repr

/-- Code that has a `Peeker`: it sees the bytes that are to come and takes none. -/
abbrev Peeks := ReaderT (List UInt8) (Except ModeError)

def peek (n : Nat) : Peeks (List UInt8) := fun data =>
  if n ≤ data.length then .ok (data.take n) else .error .peek

/-- What is added to `tagLen` for a length that stands in `n` bytes after the type of the tag. -/
def longTag (n : Nat) : Peeks Nat := do
  let chunk ← peek (2 + n)
  return n + BigEndian.decode (chunk.drop 2)

def tagRest (tagType : UInt8) : Peeks Nat :=
  if tagType &&& 0b10100000 = 0b10100000 then return (tagType &&& 0b00011111).toNat
  else if tagType = 0xd9 then longTag 1
  else if tagType = 0xda then longTag 2
  else if tagType = 0xdb then longTag 4
  else throw .malformedTag

def eventMode : MsgpType → Except ModeError EventMode
  | .int | .uint | .ext => .ok .message
  | .array => .ok .forward
  | .bin | .str => .ok .packedForward
  | type => .error (.undetermined type)

/-- `nextType` is `msgp.NextType` of a slice of one byte. -/
def determineNextEventMode (nextType : UInt8 → MsgpType) : Peeks EventMode := do
  let chunk ← peek 2
  let tagLen := 1 + (← tagRest (chunk.getD 1 0))
  let chunk ← peek (1 + tagLen + 1)
  eventMode (nextType (chunk.getD (1 + tagLen) 0))

/-- The bytes of a msgpack string: its type, its length unless the type has it, its text. -/
def Text : List UInt8 → Prop
  | [] => False
  | b :: t => (0xa0 ≤ b ∧ b < 0xc0 ∧ t.length = b.toNat - 0xa0) ∨
    ∃ header text, t = header ++ text ∧ (b, header.length) ∈ [(0xd9, 1), (0xda, 2), (0xdb, 4)] ∧
      text.length = BigEndian.decode header

/-- The first byte of the third object: a number or an extension, an array, a string or bytes. -/
def EventMode.Starts : EventMode → UInt8 → Prop
  | .message, b => b < 0x80 ∨ (0xc7 ≤ b ∧ b < 0xca) ∨ (0xcc ≤ b ∧ b < 0xd9) ∨ 0xe0 ≤ b
  | .forward, b => (0x90 ≤ b ∧ b < 0xa0) ∨ (0xdc ≤ b ∧ b < 0xde)
  | .packedForward, b => (0xa0 ≤ b ∧ b < 0xc0) ∨ (0xc4 ≤ b ∧ b < 0xc7) ∨ (0xd9 ≤ b ∧ b < 0xdc)

/-- `NextType` follows the table of first bytes in the msgpack specification. -/
structure FollowsFormat (nextType : UInt8 → MsgpType) : Prop where
  number : ∀ b, (nextType b = .int ∨ nextType b = .uint) ↔
    b < 0x80 ∨ (0xcc ≤ b ∧ b < 0xd4) ∨ 0xe0 ≤ b
  ext : ∀ b, nextType b = .ext ↔ (0xc7 ≤ b ∧ b < 0xca) ∨ (0xd4 ≤ b ∧ b < 0xd9)
  array : ∀ b, nextType b = .array ↔ (0x90 ≤ b ∧ b < 0xa0) ∨ (0xdc ≤ b ∧ b < 0xde)
  str : ∀ b, nextType b = .str ↔ (0xa0 ≤ b ∧ b < 0xc0) ∨ (0xd9 ≤ b ∧ b < 0xdc)
  bin : ∀ b, nextType b = .bin ↔ 0xc4 ≤ b ∧ b < 0xc7

theorem eventMode_iff {type : MsgpType} {mode : EventMode} : eventMode type = .ok mode ↔
    match mode with
    | .message => (type = .int ∨ type = .uint) ∨ type = .ext
    | .forward => type = .array
    | .packedForward => type = .str ∨ type = .bin := by
  cases type <;> cases mode <;> simp [eventMode]

theorem FollowsFormat.eventMode_iff {nextType : UInt8 → MsgpType} (h : FollowsFormat nextType)
    (mode : EventMode) (b : UInt8) : eventMode (nextType b) = .ok mode ↔ mode.Starts b := by
  rw [Fluent.eventMode_iff]
  cases mode with
  | message =>
    simp only [h.number, h.ext, EventMode.Starts]
    grind
  | forward => exact h.array b
  | packedForward =>
    simp only [h.str, h.bin, EventMode.Starts]
    grind

theorem fixstr_iff : ∀ b : UInt8, b < 0xe0 →
    (b &&& 0b10100000 = 0b10100000 ↔ 0xa0 ≤ b ∧ b < 0xc0) ∧
      (0xa0 ≤ b → b < 0xc0 → (b &&& 0b00011111).toNat = b.toNat - 0xa0) := by
  rintro ⟨⟨b⟩⟩
  revert b
  decide +kernel

variable (first : UInt8) {b : UInt8} {rest t : List UInt8} (after : List UInt8) {n : Nat}

theorem peek_bind_eq_ok {α : Type} {f : List UInt8 → Peeks α} {data : List UInt8} {a : α} :
    (peek n >>= f) data = .ok a ↔ n ≤ data.length ∧ f (data.take n) data = .ok a := by
  simp only [bind, ReaderT.bind, peek]
  split <;> simp [Except.bind, *]

theorem longTag_iff : longTag n (first :: b :: (t ++ after)) = .ok t.length ↔
    ∃ header text, t = header ++ text ∧ header.length = n ∧
      text.length = BigEndian.decode header := by
  rw [longTag, peek_bind_eq_ok, Nat.add_comm 2 n]
  constructor
  · rintro ⟨-, h⟩
    have hlen : n + BigEndian.decode ((t ++ after).take n) = t.length := Except.ok.inj h
    have hn : n ≤ t.length := by omega
    rw [take_append_of_le_length hn] at hlen
    refine ⟨t.take n, t.drop n, (take_append_drop n t).symm, length_take_of_le hn, ?_⟩
    rw [length_drop]
    omega
  · rintro ⟨header, text, rfl, rfl, hlen⟩
    refine ⟨by simp only [length_cons, length_append]; omega, congrArg Except.ok ?_⟩
    rw [take_succ_cons, take_succ_cons, drop_succ_cons, drop_succ_cons, drop_zero, append_assoc,
      take_left, ← hlen, length_append]

theorem tagRest_iff (hb : b < 0xe0) :
    tagRest b (first :: b :: (t ++ after)) = .ok t.length ↔ Text (b :: t) := by
  obtain ⟨hmask, hlow⟩ := fixstr_iff b hb
  simp only [tagRest, Text]
  split
  case isTrue hfix =>
    obtain ⟨hlo, hhi⟩ := hmask.1 hfix
    have hshort : ∀ k, (b, k) ∉ [((0xd9 : UInt8), 1), (0xda, 2), (0xdb, 4)] := by grind
    simp only [hshort, hlo, hhi, false_and, and_false, exists_false, or_false, true_and,
      ← hlow hlo hhi]
    exact ⟨fun h => (Except.ok.inj h).symm, fun h => congrArg _ h.symm⟩
  case isFalse hfix =>
    rw [or_iff_right fun h => hfix (hmask.2 ⟨h.1, h.2.1⟩)]
    split_ifs with h₁ h₂ h₄
    · simp [longTag_iff, h₁]
    · simp [longTag_iff, h₂]
    · simp [longTag_iff, h₄]
    · refine iff_of_false (fun h => by cases h) ?_
      grind

variable {nextType : UInt8 → MsgpType}

theorem determineNextEventMode_iff {mode : EventMode} :
    determineNextEventMode nextType (first :: b :: rest) = .ok mode ↔
      ∃ n, tagRest b (first :: b :: rest) = .ok n ∧
        ∃ b', rest[n]? = some b' ∧ eventMode (nextType b') = .ok mode := by
  show (tagRest b (first :: b :: rest) >>= _) = _ ↔ _
  rw [bind_eq_ok]
  refine exists_congr fun n => and_congr_right fun _ => peek_bind_eq_ok.trans ?_
  rw [Nat.add_comm 1 n, Nat.add_comm 1 (n + 1)]
  have hbyte : (take (n + 1 + 1 + 1) (first :: b :: rest)).getD (n + 1 + 1) 0 = rest.getD n 0 := by
    simp
  rw [hbyte, length_cons, length_cons]
  show _ ∧ eventMode _ = _ ↔ _
  grind

/-- The second object is a string, and the third starts as the mode asks. -/
def EventOf (mode : EventMode) (rest : List UInt8) : Prop :=
  ∃ tag b after, rest = tag ++ b :: after ∧ Text tag ∧ mode.Starts b

theorem mode_of_tag {mode : EventMode} (hformat : FollowsFormat nextType) (hb : b < 0xe0) :
    determineNextEventMode nextType (first :: b :: rest) = .ok mode ↔ EventOf mode (b :: rest) := by
  simp only [determineNextEventMode_iff, hformat.eventMode_iff]
  constructor
  · rintro ⟨n, hn, b', hb', hmode⟩
    obtain ⟨hlt, rfl⟩ := List.getElem?_eq_some_iff.1 hb'
    have hrest : rest.take n ++ rest[n] :: rest.drop (n + 1) = rest := by simp
    refine ⟨b :: rest.take n, rest[n], rest.drop (n + 1), congrArg (b :: ·) hrest.symm, ?_, hmode⟩
    rw [← tagRest_iff first (rest[n] :: rest.drop (n + 1)) hb, hrest,
      length_take_of_le (Nat.le_of_lt hlt)]
    exact hn
  · rintro ⟨tag, b', after, hrest, htag, hmode⟩
    cases tag with
    | nil => exact htag.elim
    | cons b t =>
      cases hrest
      exact ⟨t.length, (tagRest_iff first _ hb).2 htag, b', by simp, hmode⟩

theorem negative_iff : ∀ b : UInt8, 0xe0 ≤ b → b &&& 0b10100000 = 0b10100000 := by
  rintro ⟨⟨b⟩⟩
  revert b
  decide +kernel

theorem not_eventOf_negative (hb : 0xe0 ≤ b) (mode : EventMode) : ¬ EventOf mode (b :: rest) := by
  rintro ⟨tag, b', after, htag, htext, -⟩
  cases tag with
  | nil => exact htext
  | cons c t =>
    cases htag
    rcases htext with ⟨-, hlt, -⟩ | ⟨header, text, -, hmem, -⟩
    · grind
    · grind

/-- What the code takes for the third object behind a negative number of one byte starts a mode. -/
def Misread : List UInt8 → Prop
  | [] => False
  | b :: rest => 0xe0 ≤ b ∧
    ∃ b' mode, rest[(b &&& 0b00011111).toNat]? = some b' ∧ EventMode.Starts mode b'

/-- The mode is that of the third object behind a string, unless a negative number of one byte
stands in the place of the tag and is misread. -/
theorem mode_iff (hformat : FollowsFormat nextType) (first : UInt8) (rest : List UInt8) :
    (∀ mode, determineNextEventMode nextType (first :: rest) = .ok mode ↔ EventOf mode rest) ↔
      ¬ Misread rest := by
  cases rest with
  | nil =>
    refine iff_of_true (fun mode => iff_of_false (fun h => by cases h) ?_) id
    rintro ⟨tag, b, after, hrest, -⟩
    simp at hrest
  | cons b rest =>
    by_cases hb : b < 0xe0
    · exact iff_of_true (fun mode => mode_of_tag first hformat hb) fun h => absurd h.1 (by grind)
    · have hb' : 0xe0 ≤ b := by grind
      have hrest : tagRest b (first :: b :: rest) = .ok (b &&& 0b00011111).toNat := by
        rw [tagRest, if_pos (negative_iff b hb')]
        rfl
      have hmode : ∀ mode, determineNextEventMode nextType (first :: b :: rest) = .ok mode ↔
          ∃ b', rest[(b &&& 0b00011111).toNat]? = some b' ∧ mode.Starts b' := by
        intro mode
        simp [determineNextEventMode_iff, hformat.eventMode_iff, hrest]
      constructor
      · rintro h ⟨-, b', mode, hget, hstarts⟩
        exact not_eventOf_negative hb' mode ((h mode).1 ((hmode mode).2 ⟨b', hget, hstarts⟩))
      · intro h mode
        refine iff_of_false (fun hrun => h ⟨hb', ?_⟩) (not_eventOf_negative hb' mode)
        obtain ⟨b', hget, hstarts⟩ := (hmode mode).1 hrun
        exact ⟨b', mode, hget, hstarts⟩

/-- The types by first byte; 0xc1 has none. -/
def formatType (b : UInt8) : MsgpType :=
  if b < 0x80 ∨ 0xe0 ≤ b then .int
  else if b < 0x90 ∨ 0xde ≤ b then .map
  else if b < 0xa0 ∨ 0xdc ≤ b then .array
  else if b < 0xc0 ∨ 0xd9 ≤ b then .str
  else if b = 0xc0 then .nil
  else if b = 0xc1 then .invalid
  else if b < 0xc4 then .bool
  else if b < 0xc7 then .bin
  else if b < 0xca ∨ 0xd4 ≤ b then .ext
  else if b = 0xca then .float32
  else if b = 0xcb then .float64
  else if b < 0xd0 then .uint
  else .int

theorem followsFormat_formatType : FollowsFormat formatType := by
  constructor <;> rintro ⟨⟨b⟩⟩ <;> revert b <;> decide +kernel

/-- The second object is -32, the third an empty array. -/
theorem negative_tag : determineNextEventMode formatType [0x92, 0xe0, 0x90] = .ok .forward ∧
    ∀ mode, ¬ EventOf mode [0xe0, 0x90] :=
  ⟨by decide, not_eventOf_negative (by decide)⟩

theorem mode_iff_event_time : EventOf .message [0xa1, 0x74, 0xd7] :=
  ((mode_iff followsFormat_formatType 0x93 [0xa1, 0x74, 0xd7]).2 (fun h => absurd h.1 (by decide))
    .message).1 (by decide)

end Collector.Fluent
