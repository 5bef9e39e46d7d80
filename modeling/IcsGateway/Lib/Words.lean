import Mathlib.Data.List.Basic

/-!
# Lines and words

A text is cut at separators: `List.splitOn` gives the lines, one more than there are separators,
and `words` the runs between separators that are not empty. `cut` cuts at a pattern, once.
-/

namespace IcsGateway.Lib

variable {α : Type} {p : α → Bool}

/-- No piece holds a separator. -/
theorem eq_false_of_mem_splitOnP {xs piece : List α} (h : piece ∈ xs.splitOnP p) :
    ∀ x ∈ piece, p x = false := by
  induction xs generalizing piece with
  | nil =>
    rw [List.splitOnP_nil, List.mem_singleton] at h
    simp only [h, List.not_mem_nil, false_imp_iff, implies_true]
  | cons x xs ih =>
    rw [List.splitOnP_cons_eq_if_modifyHead] at h
    split at h
    · rcases List.mem_cons.mp h with rfl | h
      · simp only [List.not_mem_nil, false_imp_iff, implies_true]
      · exact ih h
    · next hx =>
      obtain ⟨first, rest, hsplit⟩ := List.exists_cons_of_ne_nil (List.splitOnP_ne_nil p xs)
      rw [hsplit] at h ih
      rcases List.mem_cons.mp h with rfl | h
      · exact List.forall_mem_cons.mpr ⟨eq_false_of_ne_true hx, ih List.mem_cons_self⟩
      · exact ih (List.mem_cons_of_mem _ h)

/-- The pieces hold nothing that is not in the text. -/
theorem subset_of_mem_splitOnP {xs piece : List α} (h : piece ∈ xs.splitOnP p) : piece ⊆ xs := by
  induction xs generalizing piece with
  | nil =>
    rw [List.splitOnP_nil, List.mem_singleton] at h
    exact h ▸ List.Subset.refl _
  | cons x xs ih =>
    rw [List.splitOnP_cons_eq_if_modifyHead] at h
    split at h
    · rcases List.mem_cons.mp h with rfl | h
      · exact List.nil_subset _
      · exact List.subset_cons_of_subset x (ih h)
    · obtain ⟨first, rest, hsplit⟩ := List.exists_cons_of_ne_nil (List.splitOnP_ne_nil p xs)
      rw [hsplit] at h ih
      rcases List.mem_cons.mp h with rfl | h
      · exact List.cons_subset_cons x (ih List.mem_cons_self)
      · exact List.subset_cons_of_subset x (ih (List.mem_cons_of_mem _ h))

/-- Texts are made of runs, all but the last with a separator behind. -/
theorem runs_induction {motive : List α → Prop}
    (last : ∀ run, (∀ x ∈ run, p x = false) → motive run)
    (cons : ∀ run sep rest, (∀ x ∈ run, p x = false) → p sep = true → motive rest →
      motive (run ++ sep :: rest)) (xs : List α) : motive xs := by
  induction hn : xs.length using Nat.strongRecOn generalizing xs with
  | _ n ih =>
    subst hn
    have hrun : ∀ x ∈ xs.takeWhile (!p ·), p x = false := by
      intro x hx
      rw [← Bool.not_eq_true']
      exact List.all_eq_true.mp List.all_takeWhile x hx
    rw [← List.takeWhile_append_dropWhile (p := (!p ·)) (l := xs)]
    cases hdrop : xs.dropWhile (!p ·) with
    | nil =>
      rw [List.append_nil]
      exact last _ hrun
    | cons sep rest =>
      have hsep : p sep = true := by
        have hne : xs.dropWhile (!p ·) ≠ [] := hdrop ▸ List.cons_ne_nil _ _
        have hhead := List.head_dropWhile_not (!p ·) hne
        simpa [hdrop] using hhead
      have hlength : rest.length < xs.length := by
        have hle := (List.dropWhile_sublist (!p ·) (l := xs)).length_le
        rw [hdrop, List.length_cons] at hle
        exact hle
      exact cons _ sep rest hrun hsep (ih _ hlength rest rfl)

section Lines

variable [BEq α] [LawfulBEq α] {sep : α}

/-- No line holds a separator. -/
theorem notMem_of_mem_splitOn {xs line : List α} (h : line ∈ xs.splitOn sep) : sep ∉ line := by
  intro hmem
  have hsep := eq_false_of_mem_splitOnP h sep hmem
  rw [beq_self_eq_true] at hsep
  exact Bool.noConfusion hsep

/-- Lines printed one after the other are read back. -/
theorem splitOn_flatMap {lines : List (List α)} (h : ∀ line ∈ lines, sep ∉ line)
    (rest : List α) :
    (lines.flatMap (· ++ [sep]) ++ rest).splitOn sep = lines ++ rest.splitOn sep := by
  induction lines with
  | nil => rfl
  | cons line lines ih =>
    obtain ⟨hline, hlines⟩ := List.forall_mem_cons.mp h
    rw [List.flatMap_cons, List.append_assoc, List.append_assoc, List.singleton_append,
      List.splitOn_append_cons_self_of_not_mem hline, ih hlines, List.cons_append]

end Lines

/-- The runs between separators that are not empty. -/
def words (p : α → Bool) (xs : List α) : List (List α) :=
  (xs.splitOnP p).filter (!·.isEmpty)

/-- A word is a run without separators, and not empty. -/
def IsWord (p : α → Bool) (word : List α) : Prop := word ≠ [] ∧ ∀ x ∈ word, p x = false

instance (word : List α) : Decidable (IsWord p word) := inferInstanceAs (Decidable (_ ∧ _))

/-- What `words` returns are words. -/
theorem isWord_of_mem_words {xs word : List α} (h : word ∈ words p xs) : IsWord p word := by
  obtain ⟨hmem, hne⟩ := List.mem_filter.mp h
  refine ⟨?_, eq_false_of_mem_splitOnP hmem⟩
  rintro rfl
  exact Bool.noConfusion hne

/-- Nor do they hold anything that is not in the text. -/
theorem subset_of_mem_words {xs word : List α} (h : word ∈ words p xs) : word ⊆ xs :=
  subset_of_mem_splitOnP (List.mem_filter.mp h).1

/-- A word followed by a separator comes first. -/
theorem words_append_cons {word : List α} (h : IsWord p word) {sep : α} (hsep : p sep = true)
    (rest : List α) : words p (word ++ sep :: rest) = word :: words p rest := by
  rw [words, List.splitOnP_append_cons_of_forall_mem h.2 sep hsep, List.filter_cons_of_pos, words]
  simpa using h.1

/-- A word by itself. -/
theorem words_eq_singleton {word : List α} (h : IsWord p word) : words p word = [word] := by
  rw [words, List.splitOnP_eq_singleton h.2, List.filter_cons_of_pos, List.filter_nil]
  simpa using h.1

/-- A separator cuts the words apart. -/
theorem words_append_sep (xs ys : List α) {sep : α} (hsep : p sep = true) :
    words p (xs ++ sep :: ys) = words p xs ++ words p ys := by
  rw [words, List.splitOnP_append_cons xs ys hsep, List.filter_append, words, words]

/-- The first piece starts the text, and every piece stands in it. -/
private theorem splitOnP_pieces (xs : List α) :
    (∀ piece, (xs.splitOnP p).head? = some piece → piece <+: xs) ∧
      ∀ piece ∈ xs.splitOnP p, piece <:+: xs := by
  induction xs with
  | nil =>
    rw [List.splitOnP_nil]
    simp
  | cons x xs ih =>
    obtain ⟨first, rest, hsplit⟩ := List.exists_cons_of_ne_nil (List.splitOnP_ne_nil p xs)
    rw [hsplit] at ih
    rw [List.splitOnP_cons_eq_if_modifyHead, hsplit]
    have hfirst : first <+: xs := ih.1 first rfl
    have hcons (piece : List α) (h : piece <:+: xs) : piece <:+: x :: xs :=
      h.trans (List.suffix_cons x xs).isInfix
    split
    · refine ⟨?_, ?_⟩
      · intro piece h
        cases h
        exact List.nil_prefix
      · rw [List.forall_mem_cons]
        exact ⟨List.nil_infix, fun piece h ↦ hcons piece (ih.2 piece h)⟩
    · have hhead : x :: first <+: x :: xs := List.cons_prefix_cons.mpr ⟨rfl, hfirst⟩
      refine ⟨?_, ?_⟩
      · intro piece h
        cases h
        exact hhead
      · rw [List.modifyHead_cons, List.forall_mem_cons]
        exact ⟨hhead.isInfix, fun piece h ↦ hcons piece (ih.2 piece (List.mem_cons_of_mem _ h))⟩

/-- A piece stands in the text. -/
theorem infix_of_mem_splitOnP {xs piece : List α} (h : piece ∈ xs.splitOnP p) : piece <:+: xs :=
  (splitOnP_pieces xs).2 piece h

/-- So does a word. -/
theorem infix_of_mem_words {xs word : List α} (h : word ∈ words p xs) : word <:+: xs :=
  infix_of_mem_splitOnP (List.mem_filter.mp h).1

section Rows

variable [BEq α] [LawfulBEq α] {nl : α}

/-- A text by lines, and the lines by words; a blank line is left out. -/
def rows (nl : α) (p : α → Bool) (xs : List α) : List (List (List α)) :=
  ((xs.splitOn nl).map (words p)).filter (!·.isEmpty)

omit [LawfulBEq α] in
/-- What the rows hold are words, and they stand in the text. -/
theorem of_mem_rows {xs word : List α} {row : List (List α)} (hrow : row ∈ rows nl p xs)
    (hword : word ∈ row) : IsWord p word ∧ word <:+: xs := by
  obtain ⟨line, hline, rfl⟩ := List.mem_map.mp (List.mem_filter.mp hrow).1
  exact ⟨isWord_of_mem_words hword, (infix_of_mem_words hword).trans (infix_of_mem_splitOnP hline)⟩

/-- A line break cuts the rows apart. -/
theorem rows_append_cons (xs ys : List α) :
    rows nl p (xs ++ nl :: ys) = rows nl p xs ++ rows nl p ys := by
  rw [rows, List.splitOn_append_cons_self, List.map_append, List.filter_append, rows, rows]

/-- A line that is not blank is one row. -/
theorem rows_eq_singleton {line word : List α} {rest : List (List α)} (hnl : nl ∉ line)
    (h : words p line = word :: rest) : rows nl p line = [word :: rest] := by
  rw [rows, List.splitOn_eq_singleton hnl, List.map_singleton, h]
  rfl

end Rows

section Cut

variable [DecidableEq α]

/-- The text before the first occurrence of a pattern and the text after it. -/
def cut (pat : List α) : List α → Option (List α × List α)
  | [] => none
  | c :: cs =>
    if pat <+: c :: cs then some ([], (c :: cs).drop pat.length)
    else (cut pat cs).map fun (a, b) ↦ (c :: a, b)

/-- A pattern whose first character is not in the text in front is found behind that. -/
theorem cut_append {c : α} {pat a : List α} (h : c ∉ a) (b : List α) :
    cut (c :: pat) (a ++ b) = (cut (c :: pat) b).map fun (x, y) ↦ (a ++ x, y) := by
  induction a with
  | nil =>
    rw [List.nil_append]
    cases cut (c :: pat) b <;> rfl
  | cons d a ih =>
    rw [List.mem_cons, not_or] at h
    have hno : ¬ c :: pat <+: d :: (a ++ b) := fun hp ↦ h.1 (List.cons_prefix_cons.mp hp).1
    rw [List.cons_append, cut, if_neg hno, ih h.2]
    cases cut (c :: pat) b <;> rfl

/-- The pattern itself. -/
theorem cut_self_append {c : α} (pat b : List α) :
    cut (c :: pat) (c :: (pat ++ b)) = some ([], b) := by
  have hpat : c :: pat <+: c :: (pat ++ b) := ⟨b, rfl⟩
  rw [cut, if_pos hpat, List.length_cons, List.drop_succ_cons, List.drop_left]

/-- Nothing is found in a text without the pattern's first character. -/
theorem cut_of_notMem {c : α} {pat a : List α} (h : c ∉ a) : cut (c :: pat) a = none := by
  have happend : cut (c :: pat) (a ++ []) = _ := cut_append h []
  rw [List.append_nil] at happend
  rw [happend]
  rfl

/-- A single character behind a text without it. -/
theorem cut_singleton_append {c : α} {a : List α} (h : c ∉ a) (b : List α) :
    cut [c] (a ++ c :: b) = some (a, b) := by
  have hself : cut [c] (c :: b) = some ([], b) := cut_self_append [] b
  rw [cut_append h, hself]
  simp only [Option.map_some, List.append_nil]

/-- A single character is found where it first stands. -/
theorem cut_singleton_eq_some {c : α} {t x y : List α} (h : cut [c] t = some (x, y)) :
    t = x ++ c :: y ∧ c ∉ x := by
  induction t generalizing x with
  | nil => cases h
  | cons d t ih =>
    rw [cut] at h
    split at h
    · next hp =>
      obtain ⟨rfl, -⟩ := List.cons_prefix_cons.mp hp
      cases h
      exact ⟨rfl, List.not_mem_nil⟩
    · next hp =>
      obtain ⟨⟨x', y'⟩, hcut, he⟩ := Option.map_eq_some_iff.mp h
      cases he
      obtain ⟨rfl, hx⟩ := ih hcut
      refine ⟨rfl, ?_⟩
      rw [List.mem_cons, not_or]
      refine ⟨?_, hx⟩
      rintro rfl
      exact hp (List.cons_prefix_cons.mpr ⟨rfl, List.nil_prefix⟩)

/-- It is not found where it does not stand. -/
theorem notMem_of_cut_singleton {c : α} {t : List α} (h : cut [c] t = none) : c ∉ t := by
  intro hmem
  obtain ⟨x, y, rfl, hx⟩ := List.eq_append_cons_of_mem hmem
  rw [cut_singleton_append hx] at h
  cases h

end Cut

end IcsGateway.Lib
