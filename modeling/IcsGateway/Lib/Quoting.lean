import Mathlib.Data.List.Induction

/-!
# Texts between double quotes in a shell

What a POSIX shell makes of a text that stands between double quotes on its command line. A
program that escapes the quotation marks of the text, and nothing else, passes on exactly the
texts without expansions in which every backslash is before a character it does not quote.
-/

namespace IcsGateway.Lib.Quoting

/-- A character that begins an expansion, or that no argument can hold. -/
def Expands (c : Char) : Prop := c = '$' ∨ c = '\x60' ∨ c = '\x00'

instance (c : Char) : Decidable (Expands c) := inferInstanceAs (Decidable (_ ∨ _ ∨ _))

/-- A character that a backslash quotes between double quotes. -/
def Quotable (c : Char) : Prop := c = '$' ∨ c = '\x60' ∨ c = '"' ∨ c = '\\'

instance (c : Char) : Decidable (Quotable c) := inferInstanceAs (Decidable (_ ∨ _ ∨ _ ∨ _))

/-- The text that the shell passes on; none where an expansion decides about it, or where the
double quotes end inside the text or are left open. -/
def unquote : List Char → Option (List Char)
  | [] => some []
  | c :: cs =>
    if c = '\\' then
      match cs with
      | [] => none
      | d :: ds =>
        if d = '\n' then unquote ds
        else if Quotable d then (unquote ds).map (d :: ·)
        else (unquote (d :: ds)).map (c :: ·)
    else if c = '"' ∨ Expands c then none
    else (unquote cs).map (c :: ·)

/-- A backslash before every quotation mark. -/
def escapeQuotes (t : List Char) : List Char :=
  t.flatMap fun c ↦ if c = '"' then ['\\', '"'] else [c]

/-- No expansion, and every backslash stands before a character other than a backslash, a
quotation mark and the end of a line. -/
def Survives : List Char → Prop
  | [] => True
  | c :: cs =>
    ¬ Expands c ∧ (c = '\\' → ∃ d ∈ cs.head?, d ≠ '\\' ∧ d ≠ '"' ∧ d ≠ '\n') ∧ Survives cs

instance decidableSurvives : ∀ t, Decidable (Survives t)
  | [] => .isTrue trivial
  | c :: cs =>
    have := decidableSurvives cs
    have : Decidable (∃ d ∈ cs.head?, d ≠ '\\' ∧ d ≠ '"' ∧ d ≠ '\n') :=
      match cs with
      | [] => .isFalse (by simp)
      | d :: _ => decidable_of_iff (d ≠ '\\' ∧ d ≠ '"' ∧ d ≠ '\n') (by simp)
    inferInstanceAs (Decidable (¬ Expands c ∧
      (c = '\\' → ∃ d ∈ cs.head?, d ≠ '\\' ∧ d ≠ '"' ∧ d ≠ '\n') ∧ Survives cs))

/-- Escaping goes character by character. -/
theorem escapeQuotes_cons (c : Char) (t : List Char) :
    escapeQuotes (c :: t) = (if c = '"' then ['\\', '"'] else [c]) ++ escapeQuotes t := rfl

/-- Any other character stays. -/
theorem escapeQuotes_cons_of_ne {c : Char} (h : c ≠ '"') (t : List Char) :
    escapeQuotes (c :: t) = c :: escapeQuotes t := by
  rw [escapeQuotes_cons, if_neg h, List.singleton_append]

/-- An escaped quotation mark is passed on. -/
theorem unquote_quote (t : List Char) :
    unquote ('\\' :: '"' :: t) = (unquote t).map ('"' :: ·) := by
  rw [unquote]
  simp [Quotable]

/-- What becomes of a backslash: it is lost before a character that it quotes. -/
theorem unquote_escapeQuotes_slash (d : Char) (t : List Char) :
    unquote (escapeQuotes ('\\' :: d :: t)) =
      if d = '"' then none
      else if d = '\n' then unquote (escapeQuotes t)
      else if Quotable d then (unquote (escapeQuotes t)).map (d :: ·)
      else (unquote (escapeQuotes (d :: t))).map ('\\' :: ·) := by
  rw [escapeQuotes_cons_of_ne (by decide)]
  by_cases hquote : d = '"'
  · subst hquote
    have hnone : unquote ('"' :: escapeQuotes t) = none := by
      rw [unquote.eq_def]
      simp
    rw [if_pos rfl, escapeQuotes_cons, if_pos rfl, unquote.eq_def]
    simp [Quotable, hnone]
  · rw [if_neg hquote, escapeQuotes_cons_of_ne hquote, unquote.eq_def]
    simp only [↓reduceIte]

/-- What becomes of any other character: it is passed on, unless it begins an expansion. -/
theorem unquote_escapeQuotes_cons {c : Char} (h : c ≠ '\\') (t : List Char) :
    unquote (escapeQuotes (c :: t)) =
      if Expands c then none else (unquote (escapeQuotes t)).map (c :: ·) := by
  by_cases hquote : c = '"'
  · subst hquote
    rw [escapeQuotes_cons, if_pos rfl, if_neg (by decide)]
    exact unquote_quote _
  · rw [escapeQuotes_cons_of_ne hquote, unquote.eq_def]
    simp only [if_neg h, hquote, false_or]

/-- The shell makes no escaped text longer than it was. -/
theorem length_le_of_unquote (t : List Char) :
    ∀ u, unquote (escapeQuotes t) = some u → u.length ≤ t.length := by
  induction t using List.twoStepInduction with
  | nil =>
    intro u h
    cases h
    exact Nat.le_refl 0
  | singleton c =>
    intro u h
    by_cases hc : c = '\\'
    · subst hc
      cases h
    · rw [unquote_escapeQuotes_cons hc] at h
      split at h
      · cases h
      · cases h
        exact Nat.le_refl 1
  | cons_cons c d t ih ih' =>
    intro u h
    rw [List.length_cons, List.length_cons]
    by_cases hc : c = '\\'
    · subst hc
      rw [unquote_escapeQuotes_slash] at h
      split at h
      · cases h
      · split at h
        · have hle := ih u h
          omega
        · split at h
          · obtain ⟨u', hu, rfl⟩ := Option.map_eq_some_iff.mp h
            have hle := ih u' hu
            rw [List.length_cons]
            omega
          · obtain ⟨u', hu, rfl⟩ := Option.map_eq_some_iff.mp h
            have hle := ih' d u' hu
            rw [List.length_cons] at hle ⊢
            omega
    · rw [unquote_escapeQuotes_cons hc] at h
      split at h
      · cases h
      · obtain ⟨u', hu, rfl⟩ := Option.map_eq_some_iff.mp h
        have hle := ih' d u' hu
        rw [List.length_cons] at hle ⊢
        omega

/-- A text is passed on as it is exactly when it survives. -/
theorem unquote_escapeQuotes_iff (t : List Char) :
    unquote (escapeQuotes t) = some t ↔ Survives t := by
  induction t with
  | nil => exact ⟨fun _ ↦ trivial, fun _ ↦ rfl⟩
  | cons c t ih =>
    by_cases hc : c = '\\'
    · subst hc
      cases t with
      | nil => decide
      | cons d t =>
        have hhead : (∃ d' ∈ (d :: t).head?, d' ≠ '\\' ∧ d' ≠ '"' ∧ d' ≠ '\n') ↔
            d ≠ '\\' ∧ d ≠ '"' ∧ d ≠ '\n' := by simp
        have hslash : ¬ Expands '\\' := by decide
        rw [unquote_escapeQuotes_slash, Survives, hhead, ← ih]
        by_cases hquote : d = '"'
        · simp [hquote]
        · rw [if_neg hquote]
          by_cases hline : d = '\n'
          · -- the shell joins the lines, which leaves too short a text
            have hshort : unquote (escapeQuotes t) ≠ some ('\\' :: d :: t) := by
              intro hu
              have hle := length_le_of_unquote t _ hu
              simp only [List.length_cons] at hle
              omega
            rw [if_pos hline, iff_false_left hshort]
            rintro ⟨-, hd, -⟩
            exact (hd rfl).2.2 hline
          · rw [if_neg hline]
            by_cases hquotable : Quotable d
            · -- the backslash is lost
              rw [if_pos hquotable]
              constructor
              · intro h
                obtain ⟨u, hu, he⟩ := Option.map_eq_some_iff.mp h
                have hle := length_le_of_unquote t u hu
                have hlen := congrArg List.length he
                simp only [List.length_cons] at hlen
                omega
              · rintro ⟨-, hd, ht⟩
                have hexp : Expands d := by
                  rcases hquotable with h | h | h | h
                  · exact .inl h
                  · exact .inr (.inl h)
                  · exact absurd h hquote
                  · exact absurd h (hd rfl).1
                rw [unquote_escapeQuotes_cons (hd rfl).1, if_pos hexp] at ht
                cases ht
            · rw [if_neg hquotable]
              have hd : d ≠ '\\' := fun h ↦ hquotable (.inr (.inr (.inr h)))
              simp [hslash, hd, hquote, hline]
    · rw [unquote_escapeQuotes_cons hc, Survives, ← ih]
      by_cases hexp : Expands c
      · simp [hexp]
      · simp [hexp, hc]

/-- Surviving texts are joined. -/
theorem survives_append {t u : List Char} (ht : Survives t) (hu : Survives u) :
    Survives (t ++ u) := by
  induction t with
  | nil => exact hu
  | cons c t ih =>
    obtain ⟨hexp, hslash, hrest⟩ := ht
    refine ⟨hexp, ?_, ih hrest⟩
    intro hc
    obtain ⟨d, hd, hne⟩ := hslash hc
    refine ⟨d, ?_, hne⟩
    rw [Option.mem_def] at hd ⊢
    change (t ++ u).head? = some d
    rw [List.head?_append, hd, Option.some_or]

/-- So are texts with separators between them. -/
theorem survives_intercalate {sep : List Char} (hsep : Survives sep) {ts : List (List Char)}
    (hts : ∀ t ∈ ts, Survives t) : Survives (sep.intercalate ts) := by
  induction ts with
  | nil => exact trivial
  | cons t ts ih =>
    rw [List.forall_mem_cons] at hts
    cases ts with
    | nil =>
      rw [List.intercalate_singleton]
      exact hts.1
    | cons u ts =>
      rw [List.intercalate_cons_cons]
      exact survives_append (survives_append hts.1 hsep) (ih hts.2)

end IcsGateway.Lib.Quoting
