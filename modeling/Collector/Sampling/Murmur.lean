import Collector.Sampling.Probabilistic

/-!
# MurmurHash3 for x86, 32 bits

The reference takes the key as an array of little-endian words and reads a word by its index; the
loop of the sampler moves through the bytes. The reference joins the bytes of the tail with `^=`
where the sampler has `+=`: the shifted bytes share no bit, so the sum has no carry (`add_eq_xor`).
-/

namespace Collector.ProbabilisticSampler

open List

namespace Murmur3

/-- `data[i]`. -/
def byte (key : List UInt8) (i : Nat) : BitVec 8 := (key.getD i 0).toBitVec

/-- `getblock32`: the little-endian word with index `i`. -/
def block (key : List UInt8) (i : Nat) : BitVec 32 :=
  byte key (4 * i + 3) ++ byte key (4 * i + 2) ++ byte key (4 * i + 1) ++ byte key (4 * i)

def mixWord (k : BitVec 32) : BitVec 32 := (k * 0xcc9e2d51#32).rotateLeft 15 * 0x1b873593#32

def body (key : List UInt8) (seed : BitVec 32) : BitVec 32 :=
  (range (key.length / 4)).foldl
    (fun h i => (h ^^^ mixWord (block key i)).rotateLeft 13 * 5#32 + 0xe6546b64#32) seed

/-- The `switch` on `len & 3`; `tail` holds the bytes after the last block. -/
def mixTail (tail : List UInt8) (h : BitVec 32) : BitVec 32 :=
  let shifted i := (byte tail i).setWidth 32 <<< (8 * i)
  match tail.length % 4 with
  | 3 => h ^^^ mixWord (0#32 ^^^ shifted 2 ^^^ shifted 1 ^^^ shifted 0)
  | 2 => h ^^^ mixWord (0#32 ^^^ shifted 1 ^^^ shifted 0)
  | 1 => h ^^^ mixWord (0#32 ^^^ shifted 0)
  | _ => h

def fmix32 (h : BitVec 32) : BitVec 32 :=
  let h := (h ^^^ h >>> 16) * 0x85ebca6b#32
  let h := (h ^^^ h >>> 13) * 0xc2b2ae35#32
  h ^^^ h >>> 16

/-- `MurmurHash3_x86_32`. -/
def x86_32 (key : List UInt8) (seed : BitVec 32) : BitVec 32 :=
  let tail := key.drop (4 * (key.length / 4))
  fmix32 (mixTail tail (body key seed) ^^^ BitVec.ofNat 32 key.length)

theorem body_cons (b₀ b₁ b₂ b₃ : UInt8) (key : List UInt8) (seed : BitVec 32) :
    body (b₀ :: b₁ :: b₂ :: b₃ :: key) seed =
      body key ((seed ^^^ mixWord (b₃.toBitVec ++ b₂.toBitVec ++ b₁.toBitVec ++
        b₀.toBitVec)).rotateLeft 13 * 5#32 + 0xe6546b64#32) := by
  have hlen : (b₀ :: b₁ :: b₂ :: b₃ :: key).length / 4 = key.length / 4 + 1 := by
    simp only [length_cons]
    omega
  rw [body, hlen, range_succ_eq_map, foldl_cons, foldl_map]
  rfl

end Murmur3

open Murmur3

theorem scramble_toBitVec (k : UInt32) : (scramble k).toBitVec = mixWord k.toBitVec := rfl

theorem word_toBitVec (b₀ b₁ b₂ b₃ : UInt8) :
    (b₀.toUInt32 ||| (b₁.toUInt32 <<< 8) ||| (b₂.toUInt32 <<< 16) |||
        (b₃.toUInt32 <<< 24)).toBitVec =
      b₃.toBitVec ++ b₂.toBitVec ++ b₁.toBitVec ++ b₀.toBitVec := by
  ext i hi
  simp
  grind

theorem hashWords_toBitVec (h : UInt32) (key : List UInt8) :
    (hashWords h key).1.toBitVec = body key h.toBitVec ∧
      (hashWords h key).2 = key.drop (4 * (key.length / 4)) := by
  fun_induction hashWords h key with
  | case1 h b₀ b₁ b₂ b₃ key k ih =>
    have hlen : 4 * ((b₀ :: b₁ :: b₂ :: b₃ :: key).length / 4) = 4 * (key.length / 4) + 4 := by
      simp only [length_cons]
      omega
    rw [body_cons, ← word_toBitVec, hlen]
    exact ih
  | case2 h key hshort =>
    -- Fewer than four bytes: no block.
    have hnone : key.length / 4 = 0 := by
      match key with
      | [] | [_] | [_, _] | [_, _, _] => simp
      | b₀ :: b₁ :: b₂ :: b₃ :: key => exact (hshort b₀ b₁ b₂ b₃ key rfl).elim
    simp [body, hnone]

theorem add_eq_xor {x y : BitVec 32} (h : ∀ i (hi : i < 32), (x[i] && y[i]) = false) :
    x + y = x ^^^ y := by
  have hand : x &&& y = 0#32 := by
    ext i hi
    simpa using h i hi
  rw [BitVec.add_eq_or_of_and_eq_zero x y hand]
  ext i hi
  have hbit := h i hi
  simp only [BitVec.getElem_or, BitVec.getElem_xor]
  grind

theorem tail_eq_xor (b₀ b₁ b₂ : BitVec 8) :
    b₂.setWidth 32 <<< 16 + b₁.setWidth 32 <<< 8 + b₀.setWidth 32 =
      b₂.setWidth 32 <<< 16 ^^^ b₁.setWidth 32 <<< 8 ^^^ b₀.setWidth 32 := by
  rw [add_eq_xor (x := b₂.setWidth 32 <<< 16), add_eq_xor] <;>
  · intro i hi
    simp
    grind

theorem hashRemaining_toBitVec (h : UInt32) (tail : List UInt8) (hlen : tail.length < 4) :
    (hashRemaining h tail).toBitVec = mixTail tail h.toBitVec := by
  match tail, hlen with
  | [], _ => rfl
  | [b₀], _ => simp [hashRemaining, mixTail, byte, scramble_toBitVec]
  | [b₀, b₁], _ =>
    have hsum := tail_eq_xor b₀.toBitVec b₁.toBitVec 0
    simp at hsum
    simp [hashRemaining, mixTail, byte, scramble_toBitVec, hsum]
  | [b₀, b₁, b₂], _ => simp [hashRemaining, mixTail, byte, scramble_toBitVec, tail_eq_xor]

/-- The hash is the reference, and so is the decision that a sampler draws from it. -/
theorem hash_eq_murmur3 (key : List UInt8) (seed : UInt32) :
    hash key seed = ⟨x86_32 key seed.toBitVec⟩ ∧
      ∀ rate, Sampler.inBuckets ⟨rate, seed⟩ key =
        decide ((⟨x86_32 key seed.toBitVec⟩ : UInt32) &&& bitMaskHashBuckets < rate) := by
  have heq : hash key seed = ⟨x86_32 key seed.toBitVec⟩ := by
    obtain ⟨hbody, htail⟩ := hashWords_toBitVec seed key
    have hlen : (key.drop (4 * (key.length / 4))).length < 4 := by
      rw [length_drop]
      omega
    apply UInt32.toBitVec_inj.mp
    simp only [x86_32, hash, htail]
    rw [← hbody, ← hashRemaining_toBitVec _ _ hlen]
    rfl
  exact ⟨heq, fun rate => by rw [Sampler.inBuckets, heq]⟩

-- Two published values: "aaaa" and "abc" with the seed 0x9747b28c.
example : x86_32 [97, 97, 97, 97] 0x9747b28c = 0x5a97808a ∧
    x86_32 [97, 98, 99] 0x9747b28c = 0xc84a62dd := by
  decide

end Collector.ProbabilisticSampler
