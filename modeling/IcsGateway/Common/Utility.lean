import IcsGateway.Common.ComUtil
import IcsGateway.Lib.Occurrences
import IcsGateway.Lib.Substitution

/-!
# Words as text

`Utility` (`3rd.party.raspi/include/Utils.hpp`) writes 16-bit words as `0x` and four digits each,
with blanks between them, and reads such a text back as bytes. The reader first takes the marks
out, one after the other.
-/

namespace IcsGateway

open Lib

namespace Utility

/-- The table `hex`; `3rd.party.raspi/include/Utils.hpp:125`. -/
def hex : List Char :=
  ['0', '1', '2', '3', '4', '5', '6', '7', '8', '9', 'A', 'B', 'C', 'D', 'E', 'F']

/-- The two digits of a byte. -/
def byteDigits (ch : UInt8) : List Char :=
  [hex.getD ((ch &&& 0xF0) >>> 4).toNat '0', hex.getD (ch &&& 0xF).toNat '0']

/-- `Utility::ConvertToHex` of words; `3rd.party.raspi/include/Utils.hpp:123`. -/
def convertToHex : List UInt16 → List Char
  | [] => []
  | w :: pWords =>
    ['0', 'x'] ++ byteDigits ((w >>> 8) &&& 0xFF).toUInt8 ++ byteDigits (w &&& 0xFF).toUInt8 ++
      (if pWords = [] then [] else [' ']) ++ convertToHex pWords

/-- `stoul(part, nullptr, 16)`, with the text of its exception. -/
def stoul (part : List Char) : Except COMStr Nat :=
  match ComUtil.strtoul 16 part with
  | none => .error "stoul"
  | some n => .ok n

/-- The loop over the pairs of characters; the last may be one character. -/
def readPairs : List Char → Except COMStr (List UInt8)
  | [] => .ok []
  | [a] => do
    let ch ← stoul [a]
    return [UInt8.ofNat ch]
  | a :: b :: rest => do
    let ch ← stoul [a, b]
    let ascii ← readPairs rest
    return UInt8.ofNat ch :: ascii

/-- The separator that `convertASCII` takes out. -/
def mark : List Char := [' ', '0', 'x']

/-- `Utility::convertASCII`, with at most `fuel` separators taken out;
`3rd.party.raspi/include/Utils.hpp:75`. -/
def convertASCII (fuel : Nat) (text : List Char) : Option (Except COMStr (List UInt8)) :=
  (replaceAll mark [] fuel (text.drop 2)).map readPairs

/-- The bytes of words, each with its high byte first. -/
def bytes (pWords : List UInt16) : List UInt8 :=
  pWords.flatMap fun w : UInt16 ↦ [(w >>> 8).toUInt8, w.toUInt8]

/-- The digits of bytes. -/
def digits (bs : List UInt8) : List Char := bs.flatMap byteDigits

/-! ### Digits -/

private theorem strtoul_hex : ∀ hi lo : Fin 16,
    ComUtil.strtoul 16 [hex.getD hi.val '0', hex.getD lo.val '0'] =
      some (hi.val * 16 + lo.val) := by
  decide

/-- No digit is a blank. -/
private theorem ne_blank_of_mem_hex : ∀ c ∈ hex, c ≠ ' ' := by
  simp only [hex, List.forall_mem_cons, List.not_mem_nil, false_implies, implies_true]
  decide

/-- The upper four bits of a byte. -/
private theorem toNat_high (ch : UInt8) : ((ch &&& 0xF0) >>> 4).toNat = ch.toNat / 16 := by
  have hlt := ch.toNat_lt
  have hmask : (240 : Nat) >>> 4 = 2 ^ 4 - 1 := rfl
  rw [UInt8.toNat_shiftRight, UInt8.toNat_and]
  change (ch.toNat &&& 240) >>> 4 = _
  rw [Nat.shiftRight_and_distrib, hmask, Nat.and_two_pow_sub_one_eq_mod,
    Nat.shiftRight_eq_div_pow]
  omega

/-- The lower four bits. -/
private theorem toNat_low (ch : UInt8) : (ch &&& 0xF).toNat = ch.toNat % 16 := by
  rw [UInt8.toNat_and]
  exact Nat.and_two_pow_sub_one_eq_mod ch.toNat 4

/-- Two digits are read as their byte. -/
private theorem stoul_byteDigits (ch : UInt8) : stoul (byteDigits ch) = .ok ch.toNat := by
  have hlt := ch.toNat_lt
  have hread := strtoul_hex ⟨ch.toNat / 16, by omega⟩ ⟨ch.toNat % 16, by omega⟩
  rw [stoul, byteDigits, toNat_high, toNat_low, hread, Nat.div_add_mod']

/-- No digit of a byte is a blank. -/
private theorem ne_blank_of_mem_byteDigits {ch : UInt8} {c : Char} (hc : c ∈ byteDigits ch) :
    c ≠ ' ' := by
  have hget : ∀ n, hex.getD n '0' ≠ ' ' := by
    intro n
    rw [List.getD_eq_getElem?_getD]
    cases hn : hex[n]? with
    | none => decide
    | some d => exact ne_blank_of_mem_hex d (List.mem_of_getElem? hn)
  simp only [byteDigits, List.mem_cons, List.not_mem_nil, or_false] at hc
  rcases hc with rfl | rfl
  · exact hget _
  · exact hget _

/-- The digits of bytes are read as these bytes. -/
private theorem readPairs_digits (bs : List UInt8) : readPairs (digits bs) = .ok bs := by
  induction bs with
  | nil => rfl
  | cons ch bs ih =>
    have hcons : readPairs (digits (ch :: bs)) =
        (stoul (byteDigits ch)).bind fun n ↦ (readPairs (digits bs)).bind fun ascii ↦
          .ok (UInt8.ofNat n :: ascii) := rfl
    rw [hcons, stoul_byteDigits, ih]
    simp only [Except.bind, UInt8.ofNat_toNat]

/-! ### The separators -/

/-- The words behind the first, with their separators. -/
private def tail (pWords : List UInt16) : List Char :=
  pWords.flatMap fun w ↦ mark ++ digits (bytes [w])

/-- The mask of a byte keeps the low byte. -/
private theorem toUInt8_mask (w : UInt16) : (w &&& 0xFF).toUInt8 = w.toUInt8 := by
  apply UInt8.toNat.inj
  rw [UInt16.toNat_toUInt8, UInt16.toNat_toUInt8, UInt16.toNat_and]
  have hmask : w.toNat &&& 255 = w.toNat % 2 ^ 8 := Nat.and_two_pow_sub_one_eq_mod w.toNat 8
  change (w.toNat &&& 255) % 2 ^ 8 = _
  rw [hmask, Nat.mod_mod]

/-- A text of words begins with a mark and the digits of the first word. -/
private theorem convertToHex_cons (w : UInt16) (pWords : List UInt16) :
    convertToHex (w :: pWords) = ['0', 'x'] ++ (digits (bytes [w]) ++ tail pWords) := by
  induction pWords generalizing w with
  | nil =>
    rw [convertToHex, toUInt8_mask, toUInt8_mask]
    rfl
  | cons v pWords ih =>
    rw [convertToHex, toUInt8_mask, toUInt8_mask, ih v]
    rfl

private theorem notMem_digits (bs : List UInt8) : ' ' ∉ digits bs := by
  intro hmem
  obtain ⟨ch, -, hch⟩ := List.mem_flatMap.mp hmem
  exact ne_blank_of_mem_byteDigits hch rfl

/-- Taking out the separators leaves the digits: no blank stands in front of the next one. -/
private theorem replaces_tail (pWords : List UInt16) {front : List Char} (h : ' ' ∉ front) :
    Replaces mark [] (front ++ tail pWords) (front ++ digits (bytes pWords)) := by
  have hmark : mark ≠ [] := List.cons_ne_nil _ _
  induction pWords generalizing front with
  | nil =>
    apply Replaces.refl hmark
    intro hin
    rw [tail, List.flatMap_nil, List.append_nil] at hin
    exact h (hin.subset List.mem_cons_self)
  | cons w pWords ih =>
    have hfirst : ¬ mark <:+: front ++ mark.dropLast := not_infix_append_dropLast h
    have hnext : ' ' ∉ front ++ digits (bytes [w]) := by
      rw [List.mem_append, not_or]
      exact ⟨h, notMem_digits _⟩
    have htail : tail (w :: pWords) = mark ++ (digits (bytes [w]) ++ tail pWords) := by
      rw [tail, List.flatMap_cons, List.append_assoc]
      rfl
    have hdigits : digits (bytes (w :: pWords)) = digits (bytes [w]) ++ digits (bytes pWords) := rfl
    rw [htail, replaces_of_eq_some (replaceFirst_append_pattern hmark hfirst _), List.nil_append,
      hdigits, ← List.append_assoc, ← List.append_assoc]
    exact ih hnext

/-- The words are read back as their bytes: the loop ends, and no pair is refused. -/
theorem convertASCII_convertToHex (pWords : List UInt16) :
    ∃ fuel, convertASCII fuel (convertToHex pWords) = some (.ok (bytes pWords)) := by
  have hstrip : Replaces mark [] ((convertToHex pWords).drop 2) (digits (bytes pWords)) := by
    cases pWords with
    | nil => exact ⟨0, rfl⟩
    | cons w pWords =>
      have hreplaces := replaces_tail pWords (notMem_digits (bytes [w]))
      rw [convertToHex_cons]
      exact hreplaces
  obtain ⟨fuel, hfuel⟩ := hstrip
  refine ⟨fuel, ?_⟩
  rw [convertASCII, hfuel, Option.map_some, readPairs_digits]

end Utility

end IcsGateway
