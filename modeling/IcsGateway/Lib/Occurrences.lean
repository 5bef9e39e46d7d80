import Mathlib.Data.List.Infix
import IcsGateway.Lib.Words

/-!
# Occurrences of a pattern

`IsPieces key text ps`: the pieces of a text between the successive leftmost occurrences of a
pattern that do not overlap. A program that searches from a position on and rewrites what it finds
there works on the pieces one after the other.
-/

namespace IcsGateway.Lib

variable {α : Type} [DecidableEq α]

/-- The first place where a pattern occurs; an empty one occurs at once. -/
def indexOf? (key text : List α) : Option Nat :=
  if key = [] then some 0 else (cut key text).map (·.1.length)

/-- The first place from a position on. -/
def indexFrom? (key text : List α) (pos : Nat) : Option Nat :=
  if pos ≤ text.length then (indexOf? key (text.drop pos)).map (pos + ·) else none

/-- The pieces of a text between the occurrences of a pattern: none begins in a piece or in the
pattern behind it before its end, and none is left in the last piece. -/
inductive IsPieces {α : Type} (key : List α) : List α → List (List α) → Prop where
  | last {text : List α} (h : ¬ key <:+: text) : IsPieces key text [text]
  | next {p rest : List α} {ps : List (List α)} (h : ¬ key <:+: p ++ key.dropLast)
      (hrest : IsPieces key rest ps) : IsPieces key (p ++ (key ++ rest)) (p :: ps)

/-- The pieces, behind an occurrence with this much of it left. -/
def piecesFrom (key : List α) : Nat → List α → List (List α)
  | _, [] => [[]]
  | 0, c :: cs =>
    if key <+: c :: cs then [] :: piecesFrom key (key.length - 1) cs
    else (piecesFrom key 0 cs).modifyHead (c :: ·)
  | skip + 1, _ :: cs => piecesFrom key skip cs

/-- The pieces of a text. -/
def pieces (key text : List α) : List (List α) := piecesFrom key 0 text

/-- What is left of the text in front of each piece. -/
def remainders (key : List α) : List (List α) → List (List α)
  | [] => []
  | p :: ps => key.intercalate (p :: ps) :: remainders key ps

variable {key text p rest : List α} {ps : List (List α)}

/-! ### The first occurrence -/

omit [DecidableEq α] in
/-- A pattern is longer than what is left without its last element. -/
theorem not_infix_dropLast (hkey : key ≠ []) : ¬ key <:+: key.dropLast := by
  intro h
  have hlength := h.length_le
  have hpos := List.length_pos_of_ne_nil hkey
  rw [List.length_dropLast] at hlength
  omega

omit [DecidableEq α] in
/-- A pattern begins nowhere before the first place where its first element stands. -/
theorem not_infix_append_dropLast {c : α} {cs front : List α} (h : c ∉ front) :
    ¬ c :: cs <:+: front ++ (c :: cs).dropLast := by
  induction front with
  | nil => exact not_infix_dropLast (List.cons_ne_nil c cs)
  | cons x front ih =>
    rw [List.mem_cons, not_or] at h
    obtain ⟨hne, hfront⟩ := h
    rw [List.cons_append, List.infix_cons_iff, not_or]
    constructor
    · intro hpre
      exact hne (List.cons_prefix_cons.mp hpre).1
    · exact ih hfront

omit [DecidableEq α] in
/-- Where no occurrence begins before its end, none begins at once. -/
theorem not_prefix_append {c : α} (h : ¬ key <:+: c :: p ++ key.dropLast) :
    ¬ key <+: c :: (p ++ (key ++ rest)) := by
  intro hp
  apply h
  have hshort : c :: p ++ key.dropLast <+: c :: (p ++ (key ++ rest)) := by
    obtain ⟨t, ht⟩ := List.dropLast_prefix key
    refine ⟨t ++ rest, ?_⟩
    rw [List.append_assoc, ← List.append_assoc _ t, ht, List.cons_append]
  apply (List.prefix_of_prefix_length_le hp hshort _).isInfix
  rw [List.length_append, List.length_cons, List.length_dropLast]
  omega

/-- A text is not cut exactly when the pattern does not occur. -/
theorem cut_eq_none_iff (hkey : key ≠ []) : cut key text = none ↔ ¬ key <:+: text := by
  induction text with
  | nil =>
    rw [cut, List.infix_nil]
    simp only [hkey, not_false_eq_true]
  | cons c cs ih =>
    rw [cut, List.infix_cons_iff, not_or, ← ih]
    by_cases h : key <+: c :: cs
    · simp only [h, if_true, not_true_eq_false, false_and, reduceCtorEq]
    · simp only [h, if_false, not_false_eq_true, true_and, Option.map_eq_none_iff]

/-- It is cut at an occurrence before which none begins. -/
theorem cut_append_key (hkey : key ≠ []) (h : ¬ key <:+: p ++ key.dropLast) (rest : List α) :
    cut key (p ++ (key ++ rest)) = some (p, rest) := by
  induction p with
  | nil =>
    cases key with
    | nil => exact absurd rfl hkey
    | cons c cs => exact cut_self_append cs rest
  | cons c p ih =>
    have hrest : ¬ key <:+: p ++ key.dropLast := by
      intro hin
      exact h (hin.trans (List.suffix_cons c _).isInfix)
    rw [List.cons_append, cut, if_neg (not_prefix_append h), ih hrest]
    rfl

/-- And nowhere else. -/
theorem of_cut_eq_some (hkey : key ≠ []) (h : cut key text = some (p, rest)) :
    text = p ++ (key ++ rest) ∧ ¬ key <:+: p ++ key.dropLast := by
  induction text generalizing p with
  | nil => cases h
  | cons c cs ih =>
    rw [cut] at h
    split at h
    · next hpre =>
      obtain ⟨tail, htail⟩ := hpre
      rw [← htail, List.drop_left] at h
      cases h
      exact ⟨htail.symm, not_infix_dropLast hkey⟩
    · next hpre =>
      obtain ⟨⟨p', rest'⟩, hcut, he⟩ := Option.map_eq_some_iff.mp h
      cases he
      obtain ⟨rfl, hfirst⟩ := ih hcut
      refine ⟨rfl, ?_⟩
      rw [List.cons_append, List.infix_cons_iff, not_or]
      refine ⟨fun hc ↦ hpre ?_, hfirst⟩
      have hshort : p' ++ key.dropLast <+: p' ++ (key ++ rest) :=
        (List.prefix_append_right_inj p').mpr
          ((List.dropLast_prefix key).trans (List.prefix_append key rest))
      exact hc.trans ((List.prefix_cons_inj c).mpr hshort)

/-- There is no first place exactly when the pattern does not occur. -/
theorem indexOf?_eq_none_iff (hkey : key ≠ []) : indexOf? key text = none ↔ ¬ key <:+: text := by
  rw [indexOf?, if_neg hkey, Option.map_eq_none_iff, cut_eq_none_iff hkey]

/-- An occurrence before which none begins is found. -/
theorem indexOf?_append (hkey : key ≠ []) (h : ¬ key <:+: p ++ key.dropLast) :
    indexOf? key (p ++ (key ++ rest)) = some p.length := by
  rw [indexOf?, if_neg hkey, cut_append_key hkey h, Option.map_some]

/-- The search behind a part of the text does not see that part. -/
theorem indexFrom?_append (done rest : List α) :
    indexFrom? key (done ++ rest) done.length =
      (indexOf? key rest).map (done.length + ·) := by
  have hle : done.length ≤ (done ++ rest).length := by
    rw [List.length_append]
    omega
  rw [indexFrom?, if_pos hle, List.drop_left]

/-! ### The pieces -/

omit [DecidableEq α] in
/-- There is a first piece. -/
theorem IsPieces.ne_nil (h : IsPieces key text ps) : ps ≠ [] := by
  cases h with
  | last _ => exact List.cons_ne_nil _ _
  | next _ _ => exact List.cons_ne_nil _ _

omit [DecidableEq α] in
/-- With the pattern between them the pieces are the text. -/
theorem IsPieces.intercalate (h : IsPieces key text ps) : key.intercalate ps = text := by
  induction h with
  | last _ => exact List.intercalate_singleton
  | next _ hrest ih => rw [List.intercalate_cons_of_ne_nil hrest.ne_nil, ih, List.append_assoc]

/-- Every text has pieces. -/
theorem exists_isPieces (hkey : key ≠ []) (text : List α) : ∃ ps, IsPieces key text ps := by
  induction hn : text.length using Nat.strong_induction_on generalizing text with
  | h n ih =>
    cases hcut : cut key text with
    | none => exact ⟨[text], .last ((cut_eq_none_iff hkey).mp hcut)⟩
    | some parts =>
      obtain ⟨p, rest⟩ := parts
      obtain ⟨rfl, hfirst⟩ := of_cut_eq_some hkey hcut
      have hpos := List.length_pos_of_ne_nil hkey
      have hshort : rest.length < n := by
        rw [← hn, List.length_append, List.length_append]
        omega
      obtain ⟨ps, hps⟩ := ih rest.length hshort rest rfl
      exact ⟨p :: ps, .next hfirst hps⟩

private theorem piecesFrom_eq (skip : Nat) (text : List α) :
    piecesFrom key skip text = pieces key (text.drop skip) := by
  induction text generalizing skip with
  | nil => rw [List.drop_nil, pieces, piecesFrom, piecesFrom]
  | cons c cs ih =>
    cases skip with
    | zero => rfl
    | succ skip => exact ih skip

/-- A text without the pattern is one piece. -/
theorem pieces_of_notInfix (h : ¬ key <:+: text) : pieces key text = [text] := by
  induction text with
  | nil => rfl
  | cons c cs ih =>
    rw [List.infix_cons_iff, not_or] at h
    have hcs : piecesFrom key 0 cs = [cs] := ih h.2
    rw [pieces, piecesFrom, if_neg h.1, hcs, List.modifyHead_cons]

/-- The text up to the first occurrence is a piece. -/
theorem pieces_append (hkey : key ≠ []) (h : ¬ key <:+: p ++ key.dropLast) :
    pieces key (p ++ (key ++ rest)) = p :: pieces key rest := by
  induction p with
  | nil =>
    cases key with
    | nil => exact absurd rfl hkey
    | cons c cs =>
      have hpre : c :: cs <+: c :: (cs ++ rest) := ⟨rest, rfl⟩
      rw [List.nil_append, List.cons_append, pieces, piecesFrom, if_pos hpre, piecesFrom_eq,
        List.length_cons, Nat.add_sub_cancel, List.drop_left]
  | cons c p ih =>
    have hrest : ¬ key <:+: p ++ key.dropLast := by
      intro hin
      exact h (hin.trans (List.suffix_cons c _).isInfix)
    have hp : piecesFrom key 0 (p ++ (key ++ rest)) = p :: pieces key rest := ih hrest
    rw [List.cons_append, pieces, piecesFrom, if_neg (not_prefix_append h), hp,
      List.modifyHead_cons]

/-- A text has one list of pieces. -/
theorem isPieces_iff (hkey : key ≠ []) : IsPieces key text ps ↔ ps = pieces key text := by
  have hunique : ∀ ps, IsPieces key text ps → ps = pieces key text := by
    intro ps h
    induction h with
    | last h => exact (pieces_of_notInfix h).symm
    | next h _ ih => rw [pieces_append hkey h, ih]
  constructor
  · exact hunique ps
  · intro h
    obtain ⟨qs, hqs⟩ := exists_isPieces hkey text
    rw [h, ← hunique qs hqs]
    exact hqs

end IcsGateway.Lib
