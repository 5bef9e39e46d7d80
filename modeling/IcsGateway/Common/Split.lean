import IcsGateway.Common.ComUtil
import IcsGateway.Lib.Words

/-!
# Three splitters

`ComUtil::split` with a set of delimiters copies into a token of 100 characters and returns a
token when a delimiter ends it (`Common/ComUtil.cpp:145`). `Utility::split` searches for one
delimiter (`3rd.party.raspi/include/Utils.hpp:243`), and the other `ComUtil::split` reads lines.
A character is one byte.
-/

namespace IcsGateway

open Lib

namespace ComUtil

/-- `char token[100]`. -/
def tokenSize : Nat := 100

/-- One round of the loop, on what is in the token and the tokens so far; `none` when the round
writes behind the token. -/
def splitStep (des : List Char) (c : Char) (token : List Char) (toks : List COMStr) :
    Option (List Char × List COMStr) :=
  if token.length < tokenSize then
    if c ∈ des then
      some ([], if token.isEmpty then toks else toks ++ [String.ofList token])
    else some (token ++ [c], toks)
  else none

/-- The loop, until the character that ends the string. -/
def splitLoop (des : List Char) (token : List Char) (toks : List COMStr) :
    List Char → Option (List COMStr)
  | [] => (splitStep des '\x00' token toks).map (·.2)
  | c :: cs =>
    match splitStep des c token toks with
    | none => none
    | some (token, toks) => if c = '\x00' then some toks else splitLoop des token toks cs

/-- `ComUtil::split(const COMStr&, const COMStr&)`; `Common/ComUtil.cpp:145`. -/
def splitDes (str des : COMStr) : Option (List COMStr) := splitLoop des.toList [] [] str.toList

/-- `ComUtil::getType`: the type and the size, or `none` for `false`; `Common/ComUtil.cpp:326`. -/
def getType (val : COMStr) : Option (Option (COMStr × Int)) :=
  (splitDes val "()").map fun
    | [] => none
    | [type] => some (type, 1)
    | type :: size :: _ => some (type, getNumber size)

end ComUtil

namespace Utility

/-- The loop of `Utility::split`, on what is left of the text. -/
def splitFind (sep : Char) (text : List Char) : List COMStr :=
  match _h : cut [sep] text with
  | some (temp, rest) =>
    (if temp.isEmpty then [] else [String.ofList temp]) ++ splitFind sep rest
  | none => if text.isEmpty then [] else [String.ofList text]
termination_by text.length
decreasing_by
  obtain ⟨rfl, -⟩ := cut_singleton_eq_some _h
  rw [List.length_append, List.length_cons]
  omega

/-- `Utility::split`; `3rd.party.raspi/include/Utils.hpp:243`. -/
def split (text : COMStr) (sep : Char) : List COMStr := splitFind sep text.toList

end Utility

/-- The maximal runs of characters that are no delimiters, in order. -/
def runs (str des : COMStr) : List COMStr :=
  (words (· ∈ des.toList) str.toList).map String.ofList

namespace ComUtil

/-- The runs are returned, as the splitters for one delimiter return them. -/
structure SplitsRuns (str des : COMStr) : Prop where
  runs_eq : splitDes str des = some (runs str des)
  find_eq : ∀ c, des.toList = [c] → splitDes str des = some (Utility.split str c)
  lines_eq : ∀ c, des.toList = [c] → splitDes str des = some ((split str c).filter (· ≠ ""))

/-- The string is empty or ends with a delimiter, and no run fills the token. -/
def FitsToken (str des : COMStr) : Prop :=
  (∀ c ∈ str.toList.getLast?, c ∈ des.toList) ∧
    ∀ run ∈ runs str des, run.toList.length < tokenSize

instance (str des : COMStr) : Decidable (FitsToken str des) :=
  inferInstanceAs (Decidable ((∀ c ∈ str.toList.getLast?, _) ∧ ∀ run ∈ runs str des, _))

end ComUtil

/-! ### Runs -/

/-- A run and the delimiter behind it. -/
private theorem words_run_append {p : Char → Bool} {run : List Char} {sep : Char}
    (hrun : ∀ x ∈ run, p x = false) (hsep : p sep = true) (rest : List Char) :
    (words p (run ++ sep :: rest)).map String.ofList =
      (if run.isEmpty then [] else [String.ofList run]) ++ (words p rest).map String.ofList := by
  rw [words_append_sep run rest hsep, List.map_append, words, List.splitOnP_eq_singleton hrun]
  cases run with
  | nil => rfl
  | cons x run => rfl

/-- A run alone. -/
private theorem words_run {p : Char → Bool} {run : List Char} (hrun : ∀ x ∈ run, p x = false) :
    (words p run).map String.ofList = if run.isEmpty then [] else [String.ofList run] := by
  rw [words, List.splitOnP_eq_singleton hrun]
  cases run with
  | nil => rfl
  | cons x run => rfl

/-- A run has none of the delimiters. -/
private theorem notMem_of_run {des run : List Char}
    (hrun : ∀ x ∈ run, decide (x ∈ des) = false) : ∀ x ∈ run, x ∉ des := by
  intro x hx
  exact of_decide_eq_false (hrun x hx)

/-- Nor the one delimiter. -/
private theorem notMem_of_run_singleton {run : List Char} {c : Char}
    (hrun : ∀ x ∈ run, decide (x ∈ [c]) = false) : c ∉ run := by
  intro hmem
  exact notMem_of_run hrun c hmem (List.mem_singleton_self c)

namespace Utility

/-- `Utility::split` returns the runs. -/
theorem split_eq_runs (str : COMStr) (c : Char) : split str c = runs str (String.singleton c) := by
  rw [split, runs, String.toList_singleton]
  induction str.toList using runs_induction (p := fun x ↦ decide (x ∈ [c])) with
  | last run hrun =>
    rw [splitFind, words_run hrun]
    split
    · next hcut =>
      rw [cut_of_notMem (notMem_of_run_singleton hrun)] at hcut
      cases hcut
    · rfl
  | cons run sep rest hrun hsep ih =>
    obtain rfl := List.mem_singleton.mp (of_decide_eq_true hsep)
    rw [splitFind, words_run_append hrun hsep, ← ih]
    split
    · next hcut =>
      rw [cut_singleton_append (notMem_of_run_singleton hrun)] at hcut
      cases hcut
      rfl
    · next hcut =>
      rw [cut_singleton_append (notMem_of_run_singleton hrun)] at hcut
      cases hcut

end Utility

namespace ComUtil

/-- The lines that are not empty are the runs. -/
theorem filter_split_eq_runs (str : COMStr) (c : Char) :
    (split str c).filter (· ≠ "") = runs str (String.singleton c) := by
  have hfilter (run : List Char) : [String.ofList run].filter (· ≠ "") =
      if run.isEmpty then [] else [String.ofList run] := by
    cases run with
    | nil => rfl
    | cons x run =>
      rw [List.filter_cons_of_pos (by simp)]
      rfl
  rw [split, runs, String.toList_singleton]
  induction str.toList using runs_induction (p := fun x ↦ decide (x ∈ [c])) with
  | last run hrun =>
    rw [words_run hrun, ← hfilter]
    cases run with
    | nil => rfl
    | cons x run =>
      rw [getlines_of_notMem (notMem_of_run_singleton hrun) [] (List.cons_ne_nil _ _)]
      rfl
  | cons run sep rest hrun hsep ih =>
    obtain rfl := List.mem_singleton.mp (of_decide_eq_true hsep)
    rw [words_run_append hrun hsep, ← ih, ← hfilter,
      getlines_append_cons (notMem_of_run_singleton hrun), ← List.filter_append]
    rfl

/-- The loop over a run and the delimiter behind it. -/
private theorem splitLoop_run_append {des run : List Char} {sep : Char} (hnul : '\x00' ∉ run)
    (hsepnul : sep ≠ '\x00') (hrun : ∀ x ∈ run, x ∉ des) (hsep : sep ∈ des) (toks : List COMStr)
    (rest token : List Char) : splitLoop des token toks (run ++ sep :: rest) =
      if (token ++ run).length < tokenSize then
        splitLoop des [] (toks ++ if (token ++ run).isEmpty then [] else
          [String.ofList (token ++ run)]) rest
      else none := by
  induction run generalizing token with
  | nil =>
    rw [List.nil_append, List.append_nil, splitLoop, splitStep, if_pos hsep]
    by_cases hsize : token.length < tokenSize
    · rw [if_pos hsize, if_pos hsize]
      simp only [if_neg hsepnul]
      cases token with
      | nil => rw [List.isEmpty_nil, if_pos rfl, if_pos rfl, List.append_nil]
      | cons x token => rfl
    · rw [if_neg hsize, if_neg hsize]
  | cons x run ih =>
    rw [List.mem_cons, not_or] at hnul
    rw [List.forall_mem_cons] at hrun
    rw [List.cons_append, splitLoop, splitStep, if_neg hrun.1]
    by_cases hsize : token.length < tokenSize
    · rw [if_pos hsize]
      simp only [if_neg (Ne.symm hnul.1)]
      rw [ih hnul.2 hrun.2, List.append_assoc, List.singleton_append]
    · rw [if_neg hsize, if_neg]
      rw [List.length_append]
      omega

/-- The loop over a run at the end of the string. -/
private theorem splitLoop_run {des run : List Char} (hnul : '\x00' ∉ run)
    (hdes : '\x00' ∉ des) (hrun : ∀ x ∈ run, x ∉ des) (toks : List COMStr) (token : List Char) :
    splitLoop des token toks run =
      if (token ++ run).length < tokenSize then some toks else none := by
  induction run generalizing token with
  | nil =>
    rw [splitLoop, splitStep, if_neg hdes, List.append_nil]
    split
    · rfl
    · rfl
  | cons x run ih =>
    rw [List.mem_cons, not_or] at hnul
    rw [List.forall_mem_cons] at hrun
    rw [splitLoop, splitStep, if_neg hrun.1]
    by_cases hsize : token.length < tokenSize
    · rw [if_pos hsize]
      simp only [if_neg (Ne.symm hnul.1)]
      rw [ih hnul.2 hrun.2, List.append_assoc, List.singleton_append]
    · rw [if_neg hsize, if_neg]
      rw [List.length_append]
      omega

/-- What the loop returns is the runs exactly when they fit. -/
private theorem splitLoop_eq_iff {str des : List Char} (hstr : '\x00' ∉ str) (hdes : '\x00' ∉ des)
    (toks : List COMStr) :
    splitLoop des [] toks str = some (toks ++ (words (· ∈ des) str).map String.ofList) ↔
      (∀ c ∈ str.getLast?, c ∈ des) ∧
        ∀ run ∈ (words (· ∈ des) str).map String.ofList, run.toList.length < tokenSize := by
  induction str using runs_induction (p := fun x ↦ decide (x ∈ des)) generalizing toks with
  | last run hrun =>
    rw [splitLoop_run hstr hdes (notMem_of_run hrun), words_run hrun, List.nil_append]
    cases run with
    | nil => simp [tokenSize]
    | cons x run =>
      -- the run is not returned, and ends the string
      constructor
      · intro h
        split at h
        · simp at h
        · cases h
      · rintro ⟨hlast, -⟩
        have hmem := List.getLast_mem (List.cons_ne_nil x run)
        exact absurd (hlast _ (List.getLast?_eq_some_getLast _)) (notMem_of_run hrun _ hmem)
  | cons run sep rest hrun hsep ih =>
    have hdelim : sep ∈ des := of_decide_eq_true hsep
    rw [List.mem_append, List.mem_cons, not_or, not_or] at hstr
    have hlast : (∀ c ∈ (run ++ sep :: rest).getLast?, c ∈ des) ↔
        ∀ c ∈ rest.getLast?, c ∈ des := by
      cases rest with
      | nil => simp [hdelim]
      | cons c rest => rw [List.getLast?_append_cons, List.getLast?_cons_cons]
    have hfits : (∀ w ∈ (if run.isEmpty then [] else [String.ofList run]),
        w.toList.length < tokenSize) ↔ run.length < tokenSize := by
      cases run with
      | nil => simp [tokenSize]
      | cons x run => simp
    rw [splitLoop_run_append hstr.1 (Ne.symm hstr.2.1) (notMem_of_run hrun) hdelim,
      words_run_append hrun hsep, List.nil_append, hlast, List.forall_mem_append, hfits]
    by_cases hsize : run.length < tokenSize
    · rw [if_pos hsize, ← List.append_assoc, ih hstr.2.2, and_iff_right hsize]
    · rw [if_neg hsize]
      simp [hsize]

/-- The runs are returned exactly when the string ends with a delimiter and they fit. -/
theorem splitsRuns_iff (str des : COMStr) (hstr : '\x00' ∉ str.toList)
    (hdes : '\x00' ∉ des.toList) : SplitsRuns str des ↔ FitsToken str des := by
  have hiff := splitLoop_eq_iff hstr hdes []
  constructor
  · intro h
    exact hiff.mp h.runs_eq
  · intro h
    have hruns : splitDes str des = some (runs str des) := hiff.mpr h
    have hsingle (c : Char) (hc : des.toList = [c]) : des = String.singleton c := by
      rw [← String.toList_inj, hc, String.toList_singleton]
    refine ⟨hruns, ?_, ?_⟩
    · intro c hc
      rw [hruns, Utility.split_eq_runs, ← hsingle c hc]
    · intro c hc
      rw [hruns, filter_split_eq_runs, ← hsingle c hc]

/-- Two runs that fit, each with a delimiter behind it. -/
theorem splitsRuns_iff_ended : SplitsRuns "ab,,c," "," := by
  apply (splitsRuns_iff "ab,,c," "," (by decide +kernel) (by decide +kernel)).mpr
  have hlast : "ab,,c,".toList.getLast? = some ',' := rfl
  have hruns : runs "ab,,c," "," = ["ab", "c"] := by decide +kernel
  rw [FitsToken, hlast, hruns]
  constructor
  · intro c hc
    cases hc
    exact List.mem_singleton_self ','
  · intro run hrun
    simp only [List.mem_cons, List.not_mem_nil, or_false] at hrun
    rcases hrun with rfl | rfl
    · exact (by decide : 2 < tokenSize)
    · exact (by decide : 1 < tokenSize)

/-- The last run is lost where no delimiter ends it. -/
theorem not_splitsRuns_unended : ¬ ∀ str des : COMStr, '\x00' ∉ str.toList →
    '\x00' ∉ des.toList → des ≠ "" → SplitsRuns str des := by
  intro h
  have hruns := (h "a,b" "," (by decide +kernel) (by decide +kernel) (by decide +kernel)).runs_eq
  revert hruns
  decide +kernel

/-! ### Types -/

/-- A type with a size in parentheses behind it is read as it is written. -/
theorem getType_sized {val type size : COMStr}
    (hval : val.toList = type.toList ++ '(' :: (size.toList ++ [')'])) (hnul : '\x00' ∉ val.toList)
    (htype : ∀ x ∈ type.toList, x ∉ "()".toList) (hsize : ∀ x ∈ size.toList, x ∉ "()".toList)
    (hne : type ≠ "" ∧ size ≠ "")
    (hfits : type.toList.length < tokenSize ∧ size.toList.length < tokenSize) :
    getType val = some (some (type, getNumber size)) := by
  rw [hval, List.mem_append, List.mem_cons, List.mem_append, not_or, not_or, not_or] at hnul
  have hpiece {piece : COMStr} (h : piece ≠ "") :
      (if piece.toList.isEmpty then [] else [String.ofList piece.toList]) = [piece] := by
    rw [if_neg, String.ofList_toList]
    simpa using h
  have hloop : splitDes val "()" = some [type, size] := by
    rw [splitDes, hval,
      splitLoop_run_append hnul.1 (by decide) htype (by decide), List.nil_append,
      if_pos hfits.1, splitLoop_run_append hnul.2.2.1 (by decide) hsize (by decide),
      List.nil_append, if_pos hfits.2, hpiece hne.1, hpiece hne.2]
    rfl
  rw [getType, hloop, Option.map_some]

/-- A type without one is not read at all. -/
theorem getType_unsized {type : COMStr} (hnul : '\x00' ∉ type.toList)
    (htype : ∀ x ∈ type.toList, x ∉ "()".toList) (hfits : type.toList.length < tokenSize) :
    getType type = some none := by
  have hloop : splitDes type "()" = some [] := by
    rw [splitDes, splitLoop_run hnul (by decide) htype, List.nil_append, if_pos hfits]
  rw [getType, hloop, Option.map_some]

end ComUtil
end IcsGateway
