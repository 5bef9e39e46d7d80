import IcsGateway.Common.ComUtil
import IcsGateway.Lib.Occurrences

/-!
# Tokens and their replacements

`ComUtil::substituteStr` replaces a token where it finds it and goes on behind the replacement
(`Common/ComUtil.cpp:1026`).
-/

namespace IcsGateway

open Lib

namespace ComUtil

/-- `orig.replace(pos, len, substitution)`. -/
def replace (orig : List Char) (pos len : Nat) (substitution : List Char) : List Char :=
  orig.take pos ++ substitution ++ orig.drop (pos + len)

/-- The loop of `ComUtil::substituteStr`, with at most `fuel` searches. -/
def substituteLoop (search substitution : List Char) : Nat → List Char → Nat → Option (List Char)
  | 0, _, _ => none
  | fuel + 1, orig, pos =>
    match indexFrom? search orig pos with
    | none => some orig
    | some pos =>
      substituteLoop search substitution fuel (replace orig pos search.length substitution)
        (pos + substitution.length)

/-- `ComUtil::substituteStr`; `Common/ComUtil.cpp:1026`. -/
def substituteStr (fuel : Nat) (orig search substitution : COMStr) : Option COMStr :=
  (substituteLoop search.toList substitution.toList fuel orig.toList 0).map String.ofList

/-- What each of the first `fuel` searches of the loop reads. -/
def searched (search substitution : List Char) : Nat → List Char → Nat → List (List Char)
  | 0, _, _ => []
  | fuel + 1, orig, pos =>
    orig.drop pos ::
      match indexFrom? search orig pos with
      | none => []
      | some pos =>
        searched search substitution fuel (replace orig pos search.length substitution)
          (pos + substitution.length)

/-! ### One search -/

variable {search : List Char} (hsearch : search ≠ []) (substitution done : List Char)

/-- What stands behind the part that is done is found and replaced. -/
private theorem replace_append (p rest : List Char) :
    replace (done ++ (p ++ (search ++ rest))) (done.length + p.length) search.length
      substitution = done ++ p ++ substitution ++ rest := by
  have hcut : done ++ (p ++ (search ++ rest)) = done ++ p ++ (search ++ rest) := by
    rw [List.append_assoc]
  rw [replace, hcut, ← List.length_append, List.take_left, ← List.drop_drop, List.drop_left,
    List.drop_left]

/-- The part of the text that is done, after one more replacement. -/
private theorem length_done (p : List Char) :
    done.length + p.length + substitution.length = (done ++ p ++ substitution).length := by
  rw [List.length_append, List.length_append]

include hsearch

/-- From behind the part that is done the loop joins the pieces of the rest. -/
private theorem substituteLoop_append {rest : List Char} {ps : List (List Char)}
    (h : IsPieces search rest ps) {fuel : Nat} (hfuel : ps.length ≤ fuel) :
    substituteLoop search substitution fuel (done ++ rest) done.length =
      some (done ++ substitution.intercalate ps) := by
  induction h generalizing done fuel with
  | last hlast =>
    cases fuel with
    | zero => exact absurd hfuel (Nat.not_succ_le_zero 0)
    | succ fuel =>
      rw [substituteLoop, indexFrom?_append, (indexOf?_eq_none_iff hsearch).mpr hlast,
        List.intercalate_singleton]
      rfl
  | @next p rest ps hfirst hrest ih =>
    cases fuel with
    | zero => exact absurd hfuel (Nat.not_succ_le_zero _)
    | succ fuel =>
      have hle : ps.length ≤ fuel := Nat.le_of_succ_le_succ hfuel
      rw [substituteLoop, indexFrom?_append, indexOf?_append hsearch hfirst]
      simp only [Option.map_some]
      rw [replace_append, length_done, ih _ hle, List.intercalate_cons_of_ne_nil hrest.ne_nil]
      simp only [List.append_assoc]

/-- From behind the part that is done the searches read the rest, from behind each occurrence. -/
private theorem searched_append {rest : List Char} {ps : List (List Char)}
    (h : IsPieces search rest ps) (fuel : Nat) :
    searched search substitution fuel (done ++ rest) done.length =
      (remainders search ps).take fuel := by
  induction h generalizing done fuel with
  | last hlast =>
    cases fuel with
    | zero => rfl
    | succ fuel =>
      rw [searched, indexFrom?_append, (indexOf?_eq_none_iff hsearch).mpr hlast, List.drop_left,
        remainders, List.intercalate_singleton, List.take_succ_cons, remainders, List.take_nil]
      rfl
  | @next p rest ps hfirst hrest ih =>
    cases fuel with
    | zero => rfl
    | succ fuel =>
      rw [searched, indexFrom?_append, indexOf?_append hsearch hfirst, List.drop_left,
        remainders, (IsPieces.next hfirst hrest).intercalate, List.take_succ_cons]
      simp only [Option.map_some]
      rw [replace_append, length_done, ih]

omit hsearch

/-! ### The whole text -/

/-- The loop ends with the pieces between the leftmost occurrences joined by the replacement; its
searches read the old text from behind each occurrence, whatever is put in. -/
theorem substituteStr_eq_join {search : COMStr} (h : search ≠ "") (orig substitution : COMStr) :
    (∃ fuel, substituteStr fuel orig search substitution =
      some (String.ofList
        (substitution.toList.intercalate (pieces search.toList orig.toList)))) ∧
      ∀ fuel, searched search.toList substitution.toList fuel orig.toList 0 =
        (remainders search.toList (pieces search.toList orig.toList)).take fuel := by
  have hsearch : search.toList ≠ [] := by
    intro hnil
    exact h (String.toList_eq_nil_iff.mp hnil)
  have hcut : IsPieces search.toList orig.toList (pieces search.toList orig.toList) :=
    (isPieces_iff hsearch).mpr rfl
  constructor
  · refine ⟨(pieces search.toList orig.toList).length, ?_⟩
    have hloop := substituteLoop_append hsearch substitution.toList [] hcut (Nat.le_refl _)
    rw [substituteStr]
    exact congrArg (Option.map String.ofList) hloop
  · intro fuel
    exact searched_append hsearch substitution.toList [] hcut fuel

/-- The replacement may hold the token, which may overlap itself. -/
theorem substituteStr_aa :
    "aa" ≠ "" ∧
      (∃ fuel, substituteStr fuel "aaabaa" "aa" "aab" =
        some (String.ofList ("aab".toList.intercalate (pieces "aa".toList "aaabaa".toList)))) ∧
      pieces "aa".toList "aaabaa".toList = ["".toList, "ab".toList, "".toList] ∧
      ∀ fuel, searched "aa".toList "aab".toList fuel "aaabaa".toList 0 =
        (remainders "aa".toList (pieces "aa".toList "aaabaa".toList)).take fuel := by
  obtain ⟨hjoin, hsearched⟩ := @substituteStr_eq_join "aa" (by decide) "aaabaa" "aab"
  exact ⟨by decide, hjoin, by decide, hsearched⟩

end ComUtil

end IcsGateway
