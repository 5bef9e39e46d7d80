import Mathlib.Data.Nat.Bitwise
import IcsGateway.Lib.OnesComplement

/-!
# The checksum of a ping

`ComPinger::checksum` adds the 16-bit words of a buffer into an `int32_t`, brings the carries
around, and takes the complement (`Common/ComSysNetwork.h:126`). Words are read as the processor
stores them, the lower byte first.
-/

namespace IcsGateway.ComPinger

open Lib

/-- `+` on values of `int32_t` that are not negative, none where it overflows. -/
def addInt32 (a b : Nat) : Option Nat := if a + b < 2 ^ 31 then some (a + b) else none

/-- The word of two bytes. -/
def word (lo hi : UInt8) : Nat := lo.toNat + 256 * hi.toNat

/-- The loop over the words, and the byte that may be left. -/
def sumWords : List UInt8 → Nat → Option Nat
  | lo :: hi :: buf, sum => (addInt32 sum (word lo hi)).bind (sumWords buf)
  | [b], sum => addInt32 sum b.toNat
  | [], sum => some sum

/-- `ComPinger::checksum`, none where its sum overflows; `Common/ComSysNetwork.h:126`. -/
def checksum (buf : List UInt8) : Option UInt16 := do
  let sum ← sumWords buf 0
  let sum ← addInt32 (sum >>> 16) (sum &&& 0xFFFF)
  let sum ← addInt32 sum (sum >>> 16)
  some (~~~UInt16.ofNat sum)

/-- The lower byte of a word. -/
def lowByte (c : UInt16) : UInt8 := UInt8.ofNat (c.toNat % 256)

/-- The upper byte of a word. -/
def highByte (c : UInt16) : UInt8 := UInt8.ofNat (c.toNat / 256)

/-- The words of a buffer, the last with a zero byte where one is missing. -/
def words : List UInt8 → List Nat
  | lo :: hi :: buf => word lo hi :: words buf
  | [b] => [word b 0]
  | [] => []

/-! ### The sum -/

/-- A word has 16 bits. -/
theorem word_le (lo hi : UInt8) : word lo hi ≤ 65535 := by
  have hlo := lo.toNat_lt
  have hhi := hi.toNat_lt
  rw [word]
  omega

/-- A word is stored in two bytes. -/
theorem word_bytes (c : UInt16) : word (lowByte c) (highByte c) = c.toNat := by
  have hc := c.toNat_lt
  rw [word, lowByte, highByte, UInt8.toNat_ofNat', UInt8.toNat_ofNat']
  omega

/-- The words of a buffer have 16 bits. -/
theorem words_le (buf : List UInt8) : ∀ w ∈ words buf, w ≤ 65535 := by
  fun_induction words buf with
  | case1 lo hi buf ih => exact List.forall_mem_cons.mpr ⟨word_le lo hi, ih⟩
  | case2 b => exact List.forall_mem_singleton.mpr (word_le b 0)
  | case3 => simp

/-- What comes behind an even number of bytes makes words of its own. -/
theorem words_append {before : List UInt8} (h : 2 ∣ before.length) (rest : List UInt8) :
    words (before ++ rest) = words before ++ words rest := by
  fun_induction words before with
  | case1 lo hi buf ih =>
    have heven : 2 ∣ buf.length := by
      rw [List.length_cons, List.length_cons] at h
      omega
    rw [List.cons_append, List.cons_append, words, ih heven, List.cons_append]
  | case2 b =>
    rw [List.length_singleton] at h
    omega
  | case3 => rfl

/-- The words of a buffer add up to at most so much for each two bytes. -/
theorem sum_words_le (buf : List UInt8) : 2 * (words buf).sum ≤ 65535 * buf.length := by
  fun_induction words buf with
  | case1 lo hi buf ih =>
    have hw := word_le lo hi
    rw [List.sum_cons, List.length_cons, List.length_cons]
    omega
  | case2 b =>
    have hb := b.toNat_lt
    rw [List.sum_singleton, List.length_singleton, word, UInt8.toNat_zero]
    omega
  | case3 => simp

/-- Without an overflow the loop adds the words up. -/
theorem sumWords_eq {buf : List UInt8} {sum : Nat} (h : sum + (words buf).sum < 2 ^ 31) :
    sumWords buf sum = some (sum + (words buf).sum) := by
  fun_induction words buf generalizing sum with
  | case1 lo hi buf ih =>
    rw [List.sum_cons, ← Nat.add_assoc] at h
    rw [sumWords, addInt32, if_pos (by omega), Option.bind_some, ih h, List.sum_cons,
      Nat.add_assoc]
  | case2 b =>
    rw [List.sum_singleton, word, UInt8.toNat_zero, Nat.mul_zero, Nat.add_zero] at h ⊢
    rw [sumWords, addInt32, if_pos h]
  | case3 => rfl

/-- Two rounds bring all the carries of a sum around. -/
private theorem carries_represent {n n' : Nat} (h : n < 2 ^ 31)
    (hn' : n' = n / 65536 + n % 65536) : Represents 65535 ((n' + n' / 65536) % 65536) n := by
  have hbound : n' ≤ 98302 := by omega
  have hmod : n' % 65535 = n % 65535 := by omega
  have hzero : n' = 0 ↔ n = 0 := by omega
  by_cases hcarry : n' ≤ 65535
  · have hvalue : (n' + n' / 65536) % 65536 = n' := by omega
    rw [hvalue]
    exact ⟨hcarry, hmod, hzero⟩
  · have hvalue : (n' + n' / 65536) % 65536 = n' - 65535 := by omega
    rw [hvalue]
    refine ⟨by omega, ?_, by omega⟩
    show (n' - 65535) % 65535 = n % 65535
    omega

/-- The checksum of words whose sum does not overflow: the complement of what represents it. -/
theorem checksum_of_represents {buf : List UInt8} {r : Nat} (h : (words buf).sum < 2 ^ 31)
    (hr : Represents 65535 r (words buf).sum) : checksum buf = some (~~~UInt16.ofNat r) := by
  obtain ⟨n, hn⟩ : ∃ n, n = (words buf).sum := ⟨_, rfl⟩
  rw [← hn] at h hr
  have hsum : sumWords buf 0 = some n := by
    rw [sumWords_eq (by omega), Nat.zero_add, hn]
  have hshift : n >>> 16 = n / 65536 := Nat.shiftRight_eq_div_pow n 16
  have hmask : n &&& 0xFFFF = n % 65536 := Nat.and_two_pow_sub_one_eq_mod n 16
  obtain ⟨n', hn'⟩ : ∃ n', n' = n / 65536 + n % 65536 := ⟨_, rfl⟩
  have hshift' : n' >>> 16 = n' / 65536 := Nat.shiftRight_eq_div_pow n' 16
  have hfold := carries_represent h hn'
  have hword : UInt16.ofNat (n' + n' / 65536) = UInt16.ofNat r := by
    rw [hr.unique hfold]
    apply UInt16.toNat_inj.mp
    rw [UInt16.toNat_ofNat', UInt16.toNat_ofNat']
    omega
  rw [checksum, hsum]
  simp only [Option.bind_eq_bind, Option.bind_some, hshift, hmask, addInt32]
  rw [if_pos (by omega), Option.bind_some, ← hn', hshift', if_pos (by omega), Option.bind_some,
    hword]

/-- A buffer of at most 65535 bytes overflows no sum. -/
theorem sum_words_lt {buf : List UInt8} (h : buf.length ≤ 65535) :
    (words buf).sum < 2 ^ 31 := by
  have hsum := sum_words_le buf
  omega

/-- The checksum is the complement of the sum. -/
theorem checksum_eq {buf : List UInt8} (h : buf.length ≤ 65535) :
    checksum buf = some (~~~UInt16.ofNat (onesSum 65535 (words buf))) :=
  checksum_of_represents (sum_words_lt h) (onesSum_represents (words_le buf))

/-- A buffer in which its checksum is stored has the checksum zero. -/
theorem checksum_stored (before after : List UInt8) (heven : 2 ∣ before.length)
    (h : (before ++ 0 :: 0 :: after).length ≤ 65535) {c : UInt16}
    (hc : checksum (before ++ 0 :: 0 :: after) = some c) :
    checksum (before ++ lowByte c :: highByte c :: after) = some 0 := by
  have hrep := onesSum_represents (words_le (before ++ 0 :: 0 :: after))
  rw [checksum_eq h, Option.some.injEq] at hc
  have hvalue : c.toNat = 65535 - onesSum 65535 (words (before ++ 0 :: 0 :: after)) := by
    have hle := hrep.le
    rw [← hc, UInt16.toNat_not, UInt16.toNat_ofNat']
    show 65536 - 1 - onesSum 65535 (words (before ++ 0 :: 0 :: after)) % 2 ^ 16 = _
    omega
  have hsum : (words (before ++ lowByte c :: highByte c :: after)).sum =
      (words (before ++ 0 :: 0 :: after)).sum + c.toNat := by
    have hzero : word 0 0 = 0 := rfl
    rw [words_append heven, words_append heven, words, words, word_bytes, hzero,
      List.sum_append, List.sum_append, List.sum_cons, List.sum_cons]
    omega
  have hlen : (before ++ lowByte c :: highByte c :: after).length ≤ 65535 := by
    rw [List.length_append, List.length_cons, List.length_cons] at h ⊢
    exact h
  have hfull := hrep.add_complement (by decide)
  rw [← hvalue, ← hsum] at hfull
  exact checksum_of_represents (sum_words_lt hlen) hfull

/-- The checksum of at most 65535 bytes is the complement of the ones'-complement sum of their
words, without an overflow; stored at an even offset in the place of two zero bytes it makes the
checksum of the buffer zero. -/
theorem checksum_correct (buf : List UInt8) (h : buf.length ≤ 65535) :
    checksum buf = some (~~~UInt16.ofNat (onesSum 65535 (words buf))) ∧
      ∀ c before after, checksum buf = some c → buf = before ++ 0 :: 0 :: after →
        2 ∣ before.length →
        checksum (before ++ lowByte c :: highByte c :: after) = some 0 := by
  constructor
  · exact checksum_eq h
  · rintro c before after hc rfl heven
    exact checksum_stored before after heven h hc

/-- An echo request with its checksum. -/
theorem checksum_correct_request :
    checksum [8, 0, 0, 0, 0x12, 0x34, 5, 0] = some 0xCBE0 ∧
      checksum [8, 0, 0xE0, 0xCB, 0x12, 0x34, 5, 0] = some 0 := by
  have hc : checksum [8, 0, 0, 0, 0x12, 0x34, 5, 0] = some 0xCBE0 := by decide
  exact ⟨hc, (checksum_correct [8, 0, 0, 0, 0x12, 0x34, 5, 0] (by decide)).2 0xCBE0 [8, 0]
    [0x12, 0x34, 5, 0] hc rfl (by decide)⟩

end IcsGateway.ComPinger
