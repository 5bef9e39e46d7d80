import IcsGateway.Lib.Occurrences

/-!
# Replacing a pattern until none is left

`while (pattern occurs) replace its first occurrence` need not end: a value that holds the pattern
brings it back. The loop carries fuel, and `Replaces` is its result with enough of it. Where a
character that is in no pattern stands, a text can be cut: both sides are rewritten apart.
-/

namespace IcsGateway.Lib

variable {α : Type} [DecidableEq α]

/-- The text with its first occurrence of a pattern, which is not empty, replaced. -/
def replaceFirst (key val : List α) : List α → Option (List α)
  | [] => none
  | c :: cs =>
    if key <+: c :: cs then some (val ++ (c :: cs).drop key.length)
    else (replaceFirst key val cs).map (c :: ·)

/-- The loop, with at most `fuel` replacements. -/
def replaceAll (key val : List α) : Nat → List α → Option (List α)
  | 0, text => if (replaceFirst key val text).isNone then some text else none
  | fuel + 1, text =>
    match replaceFirst key val text with
    | none => some text
    | some text' => replaceAll key val fuel text'

/-- The loop ends, and with this text. -/
def Replaces (key val text out : List α) : Prop := ∃ fuel, replaceAll key val fuel text = some out

variable {key val text out : List α}

/-! ### One replacement -/

/-- Nothing is replaced exactly when the pattern does not occur. -/
theorem replaceFirst_eq_none_iff (hkey : key ≠ []) :
    replaceFirst key val text = none ↔ ¬ key <:+: text := by
  induction text with
  | nil =>
    rw [replaceFirst, List.infix_nil]
    simp only [hkey, not_false_eq_true]
  | cons c cs ih =>
    rw [replaceFirst, List.infix_cons_iff, not_or, ← ih]
    by_cases h : key <+: c :: cs
    · simp only [h, if_true, not_true_eq_false, false_and, reduceCtorEq]
    · simp only [h, if_false, not_false_eq_true, true_and, Option.map_eq_none_iff]

/-- What is put in stands in the text. -/
theorem infix_of_replaceFirst (h : replaceFirst key val text = some out) : val <:+: out := by
  induction text generalizing out with
  | nil => cases h
  | cons c cs ih =>
    rw [replaceFirst] at h
    split at h
    · cases h
      exact (List.prefix_append _ _).isInfix
    · obtain ⟨out', hout, rfl⟩ := Option.map_eq_some_iff.mp h
      exact (ih hout).trans (List.suffix_cons c out').isInfix

/-- The text holds what it held, and what is put in. -/
theorem mem_of_replaceFirst (h : replaceFirst key val text = some out) {x : α} (hx : x ∈ out) :
    x ∈ val ∨ x ∈ text := by
  induction text generalizing out with
  | nil => cases h
  | cons c cs ih =>
    rw [replaceFirst] at h
    split at h
    · cases h
      rcases List.mem_append.mp hx with hx | hx
      · exact .inl hx
      · exact .inr (List.mem_of_mem_drop hx)
    · obtain ⟨out', hout, rfl⟩ := Option.map_eq_some_iff.mp h
      rcases List.mem_cons.mp hx with rfl | hx
      · exact .inr List.mem_cons_self
      · exact (ih hout hx).imp_right (List.mem_cons_of_mem c)

/-- The pattern itself is replaced by the value. -/
theorem replaceFirst_self (hkey : key ≠ []) : replaceFirst key val key = some val := by
  cases key with
  | nil => exact absurd rfl hkey
  | cons c cs => rw [replaceFirst, if_pos (List.prefix_refl _), List.drop_length, List.append_nil]

omit [DecidableEq α] in
/-- A pattern stands on one side of a character that is not in it. -/
private theorem prefix_append_cons_iff {c : α} (hc : c ∉ key) {a b : List α} :
    key <+: a ++ c :: b ↔ key <+: a := by
  constructor
  · intro h
    induction a generalizing key with
    | nil =>
      cases key with
      | nil => exact List.nil_prefix
      | cons x xs =>
        obtain ⟨rfl, -⟩ := List.cons_prefix_cons.mp h
        exact absurd List.mem_cons_self hc
    | cons y a ih =>
      cases key with
      | nil => exact List.nil_prefix
      | cons x xs =>
        obtain ⟨rfl, hxs⟩ := List.cons_prefix_cons.mp h
        exact List.cons_prefix_cons.mpr ⟨rfl, ih (fun h ↦ hc (List.mem_cons_of_mem x h)) hxs⟩
  · intro h
    exact h.trans (List.prefix_append a _)

/-- The first occurrence before such a character counts, and else the first behind it. -/
theorem replaceFirst_append_cons (hkey : key ≠ []) {c : α} (hc : c ∉ key) (a b : List α) :
    replaceFirst key val (a ++ c :: b) =
      match replaceFirst key val a with
      | some a' => some (a' ++ c :: b)
      | none => (replaceFirst key val b).map (a ++ c :: ·) := by
  induction a with
  | nil =>
    have hno : ¬ key <+: c :: b := by
      intro h
      have hnil := (prefix_append_cons_iff (a := []) hc).mp h
      exact hkey (List.prefix_nil.mp hnil)
    have hstep : replaceFirst key val (c :: b) = (replaceFirst key val b).map (c :: ·) := by
      rw [replaceFirst, if_neg hno]
    exact hstep
  | cons x a ih =>
    have hiff : key <+: x :: (a ++ c :: b) ↔ key <+: x :: a :=
      prefix_append_cons_iff (a := x :: a) hc
    by_cases h : key <+: x :: a
    · obtain ⟨rest, hrest⟩ := h
      rw [List.cons_append, replaceFirst, replaceFirst, if_pos (hiff.mpr ⟨rest, hrest⟩),
        if_pos ⟨rest, hrest⟩, ← List.cons_append, ← hrest, List.append_assoc, List.drop_left,
        List.drop_left]
      simp only [List.append_assoc]
    · have h' : ¬ key <+: x :: (a ++ c :: b) := fun hp ↦ h (hiff.mp hp)
      rw [List.cons_append, replaceFirst, replaceFirst, if_neg h', if_neg h, ih]
      cases replaceFirst key val a with
      | some a' => rfl
      | none =>
        cases replaceFirst key val b with
        | some b' => rfl
        | none => rfl

/-- What stands behind a text with the pattern is left alone. -/
theorem replaceFirst_append_left (hkey : key ≠ []) {a a' : List α}
    (h : replaceFirst key val a = some a') (b : List α) :
    replaceFirst key val (a ++ b) = some (a' ++ b) := by
  induction a generalizing a' with
  | nil => cases h
  | cons c cs ih =>
    rw [replaceFirst] at h
    rw [List.cons_append, replaceFirst, ← List.cons_append]
    split at h
    · next hpre =>
      cases h
      rw [if_pos (hpre.trans (List.prefix_append _ b)),
        List.drop_append_of_le_length hpre.length_le, List.append_assoc]
    · next hpre =>
      obtain ⟨cs', hcs, rfl⟩ := Option.map_eq_some_iff.mp h
      -- the pattern is no longer than what is in front
      have hin : key <:+: cs := by
        by_contra hin
        rw [(replaceFirst_eq_none_iff hkey).mpr hin] at hcs
        cases hcs
      have hpre' : ¬ key <+: c :: cs ++ b := by
        intro hp
        apply hpre
        apply List.prefix_of_prefix_length_le hp (List.prefix_append _ b)
        rw [List.length_cons]
        exact hin.length_le.trans (Nat.le_succ _)
      rw [if_neg hpre', ih hcs]
      rfl

/-- An occurrence before which none begins is replaced. -/
theorem replaceFirst_append_pattern (hkey : key ≠ []) {pre : List α}
    (h : ¬ key <:+: pre ++ key.dropLast) (post : List α) :
    replaceFirst key val (pre ++ (key ++ post)) = some (pre ++ (val ++ post)) := by
  induction pre with
  | nil =>
    cases key with
    | nil => exact absurd rfl hkey
    | cons c cs =>
      have hpre : c :: cs <+: c :: (cs ++ post) := ⟨post, rfl⟩
      rw [List.nil_append, List.cons_append, replaceFirst, if_pos hpre, ← List.cons_append,
        List.drop_left, List.nil_append]
  | cons c pre ih =>
    have hrest : ¬ key <:+: pre ++ key.dropLast := by
      intro hin
      exact h (hin.trans (List.suffix_cons c _).isInfix)
    rw [List.cons_append, replaceFirst, if_neg (not_prefix_append h), ih hrest]
    rfl

/-- The pattern in front is replaced. -/
theorem replaceFirst_append_self (hkey : key ≠ []) (post : List α) :
    replaceFirst key val (key ++ post) = some (val ++ post) := by
  exact @replaceFirst_append_pattern _ _ _ _ hkey [] (not_infix_dropLast hkey) post

/-! ### The loop -/

/-- More fuel changes nothing. -/
theorem replaceAll_succ {fuel : Nat} (h : replaceAll key val fuel text = some out) :
    replaceAll key val (fuel + 1) text = some out := by
  induction fuel generalizing text with
  | zero =>
    rw [replaceAll] at h
    rw [replaceAll]
    cases hr : replaceFirst key val text with
    | none =>
      rw [hr] at h
      exact h
    | some text' =>
      rw [hr] at h
      cases h
  | succ fuel ih =>
    rw [replaceAll] at h ⊢
    cases hr : replaceFirst key val text with
    | none =>
      rw [hr] at h
      exact h
    | some text' =>
      rw [hr] at h
      exact ih h

/-- Nor does any greater amount of it. -/
theorem replaceAll_mono {fuel fuel' : Nat} (hle : fuel ≤ fuel')
    (h : replaceAll key val fuel text = some out) : replaceAll key val fuel' text = some out := by
  induction hle with
  | refl => exact h
  | step _ ih => exact replaceAll_succ ih

/-- The loop is done when the pattern does not occur. -/
theorem replaces_of_eq_none (h : replaceFirst key val text = none) : Replaces key val text out ↔
    out = text := by
  constructor
  · rintro ⟨fuel, hrun⟩
    cases fuel with
    | zero =>
      rw [replaceAll, h] at hrun
      exact (Option.some.inj hrun).symm
    | succ fuel =>
      rw [replaceAll, h] at hrun
      exact (Option.some.inj hrun).symm
  · rintro rfl
    refine ⟨0, ?_⟩
    rw [replaceAll, h]
    rfl

/-- And else goes on with the text it makes. -/
theorem replaces_of_eq_some {text' : List α} (h : replaceFirst key val text = some text') :
    Replaces key val text out ↔ Replaces key val text' out := by
  constructor
  · rintro ⟨fuel, hrun⟩
    cases fuel with
    | zero =>
      rw [replaceAll, h] at hrun
      cases hrun
    | succ fuel =>
      rw [replaceAll, h] at hrun
      exact ⟨fuel, hrun⟩
  · rintro ⟨fuel, hrun⟩
    refine ⟨fuel + 1, ?_⟩
    rw [replaceAll, h]
    exact hrun

/-- The rule for a property of a loop that ends. -/
theorem Replaces.rec' {motive : List α → Prop}
    (done : replaceFirst key val out = none → motive out)
    (step : ∀ text text', replaceFirst key val text = some text' → Replaces key val text' out →
      motive text' → motive text) (h : Replaces key val text out) : motive text := by
  obtain ⟨fuel, hrun⟩ := h
  induction fuel generalizing text with
  | zero =>
    cases hr : replaceFirst key val text with
    | none =>
      have hout := (replaces_of_eq_none hr).mp ⟨0, hrun⟩
      subst hout
      exact done hr
    | some text' =>
      rw [replaceAll, hr] at hrun
      cases hrun
  | succ fuel ih =>
    cases hr : replaceFirst key val text with
    | none =>
      have hout := (replaces_of_eq_none hr).mp ⟨fuel + 1, hrun⟩
      subst hout
      exact done hr
    | some text' =>
      rw [replaceAll, hr] at hrun
      exact step text text' hr ⟨fuel, hrun⟩ (ih hrun)

/-- The loop has one result. -/
theorem Replaces.unique {out' : List α} (h : Replaces key val text out)
    (h' : Replaces key val text out') : out = out' := by
  obtain ⟨fuel, hrun⟩ := h
  obtain ⟨fuel', hrun'⟩ := h'
  have hmax := replaceAll_mono (Nat.le_max_left fuel fuel') hrun
  rw [replaceAll_mono (Nat.le_max_right fuel fuel') hrun'] at hmax
  exact (Option.some.inj hmax).symm

/-- A text without the pattern stays as it is. -/
theorem replaces_of_notInfix (hkey : key ≠ []) (h : ¬ key <:+: text) :
    Replaces key val text out ↔ out = text :=
  replaces_of_eq_none ((replaceFirst_eq_none_iff hkey).mpr h)

/-- No pattern is left. -/
theorem Replaces.notInfix (hkey : key ≠ []) (h : Replaces key val text out) :
    ¬ key <:+: out := by
  apply h.rec'
  · intro hnone
    exact (replaceFirst_eq_none_iff hkey).mp hnone
  · intro _ _ _ _ ih
    exact ih

/-- A value with the pattern brings it back for ever. -/
theorem Replaces.notInfix_of_infix (hkey : key ≠ []) (hval : key <:+: val)
    (h : Replaces key val text out) : ¬ key <:+: text := by
  apply h.rec'
  · intro hnone
    exact (replaceFirst_eq_none_iff hkey).mp hnone
  · intro text text' hstep _ ih
    exact absurd (hval.trans (infix_of_replaceFirst hstep)) ih

/-- The pattern by itself becomes the value, unless that holds the pattern. -/
theorem replaces_self_iff (hkey : key ≠ []) :
    Replaces key val key out ↔ ¬ key <:+: val ∧ out = val := by
  constructor
  · intro h
    have hval : ¬ key <:+: val := fun hval ↦ h.notInfix_of_infix hkey hval (List.infix_refl key)
    rw [replaces_of_eq_some (replaceFirst_self hkey)] at h
    exact ⟨hval, (replaces_of_notInfix hkey hval).mp h⟩
  · rintro ⟨hval, rfl⟩
    rw [replaces_of_eq_some (replaceFirst_self hkey)]
    exact (replaces_of_notInfix hkey hval).mpr rfl

/-- What holds of all that is in the text and in the value holds of all that is in the result. -/
theorem Replaces.forall_mem {q : α → Prop} (h : Replaces key val text out)
    (hval : ∀ x ∈ val, q x) (htext : ∀ x ∈ text, q x) : ∀ x ∈ out, q x := by
  revert htext
  apply h.rec'
  · intro _ htext
    exact htext
  · intro text text' hstep _ ih htext
    apply ih
    intro x hx
    rcases mem_of_replaceFirst hstep hx with hx | hx
    · exact hval x hx
    · exact htext x hx

/-- Both sides of a character that is not in the pattern are rewritten apart. -/
theorem replaces_append_cons_iff (hkey : key ≠ []) {c : α} (hc : c ∉ key) {a b : List α} :
    Replaces key val (a ++ c :: b) out ↔
      ∃ a' b', Replaces key val a a' ∧ Replaces key val b b' ∧ out = a' ++ c :: b' := by
  constructor
  · intro h
    generalize ht : a ++ c :: b = text at h
    revert a b
    -- Each turn replaces on one side and leaves the other.
    apply h.rec'
    · intro hdone a b ht
      rw [← ht, replaceFirst_append_cons hkey hc] at hdone
      cases ha : replaceFirst key val a with
      | some a₁ =>
        rw [ha] at hdone
        cases hdone
      | none =>
        cases hb : replaceFirst key val b with
        | some b₁ =>
          rw [ha, hb] at hdone
          cases hdone
        | none =>
          exact ⟨a, b, (replaces_of_eq_none ha).mpr rfl, (replaces_of_eq_none hb).mpr rfl, ht.symm⟩
    · intro text text' hstep _ ih a b ht
      rw [← ht, replaceFirst_append_cons hkey hc] at hstep
      cases ha : replaceFirst key val a with
      | some a₁ =>
        rw [ha] at hstep
        obtain ⟨a', b', hrun, hb, hout⟩ := ih (Option.some.inj hstep)
        exact ⟨a', b', (replaces_of_eq_some ha).mpr hrun, hb, hout⟩
      | none =>
        cases hb : replaceFirst key val b with
        | some b₁ =>
          rw [ha, hb] at hstep
          obtain ⟨a', b', hrun, hrun', hout⟩ := ih (Option.some.inj hstep)
          exact ⟨a', b', hrun, (replaces_of_eq_some hb).mpr hrun', hout⟩
        | none =>
          rw [ha, hb] at hstep
          cases hstep
  · rintro ⟨a', b', ha, hb, rfl⟩
    apply ha.rec'
    · intro ha'
      apply hb.rec'
      · intro hb'
        have hdone : replaceFirst key val (a' ++ c :: b') = none := by
          rw [replaceFirst_append_cons hkey hc, ha', hb']
          rfl
        exact (replaces_of_eq_none hdone).mpr rfl
      · intro b b₁ hb₁ _ ih
        have hnext : replaceFirst key val (a' ++ c :: b) = some (a' ++ c :: b₁) := by
          rw [replaceFirst_append_cons hkey hc, ha', hb₁]
          rfl
        exact (replaces_of_eq_some hnext).mpr ih
    · intro a a₁ ha₁ _ ih
      have hnext : replaceFirst key val (a ++ c :: b) = some (a₁ ++ c :: b) := by
        rw [replaceFirst_append_cons hkey hc, ha₁]
      exact (replaces_of_eq_some hnext).mpr ih

/-- A text may be rewritten up to somewhere first. -/
theorem Replaces.append (hkey : key ≠ []) {a u b : List α} (h : Replaces key val a u)
    (hout : Replaces key val (u ++ b) out) : Replaces key val (a ++ b) out := by
  apply h.rec'
  · intro _
    exact hout
  · intro text text' hstep _ ih
    exact (replaces_of_eq_some (replaceFirst_append_left hkey hstep b)).mpr ih

/-- A text without the pattern is its own result. -/
theorem Replaces.refl (hkey : key ≠ []) (h : ¬ key <:+: text) : Replaces key val text text :=
  (replaces_of_notInfix hkey h).mpr rfl

/-! ### One pattern after the other -/

/-- The loop for every pattern of a list. -/
def substitute (fuel : Nat) : List (List α × List α) → List α → Option (List α)
  | [], text => some text
  | (key, val) :: rest, text => (replaceAll key val fuel text).bind (substitute fuel rest)

/-- All loops end, and the last one with this text. -/
def Substitutes (params : List (List α × List α)) (text out : List α) : Prop :=
  ∃ fuel, substitute fuel params text = some out

variable {params : List (List α × List α)}

/-- More fuel changes nothing. -/
theorem substitute_mono {fuel fuel' : Nat} (hle : fuel ≤ fuel')
    (h : substitute fuel params text = some out) : substitute fuel' params text = some out := by
  induction params generalizing text with
  | nil => exact h
  | cons p rest ih =>
    rw [substitute] at h ⊢
    obtain ⟨text', hrun, hrest⟩ := Option.bind_eq_some_iff.mp h
    rw [replaceAll_mono hle hrun]
    exact ih hrest

/-- Without a pattern the text stays as it is. -/
theorem substitutes_nil_iff : Substitutes [] text out ↔ out = text := by
  constructor
  · rintro ⟨fuel, h⟩
    exact (Option.some.inj h).symm
  · rintro rfl
    exact ⟨0, rfl⟩

/-- The first pattern, and the others on what it leaves. -/
theorem substitutes_cons_iff {rest : List (List α × List α)} :
    Substitutes ((key, val) :: rest) text out ↔
      ∃ text', Replaces key val text text' ∧ Substitutes rest text' out := by
  constructor
  · rintro ⟨fuel, h⟩
    obtain ⟨text', hrun, hrest⟩ := Option.bind_eq_some_iff.mp h
    exact ⟨text', ⟨fuel, hrun⟩, ⟨fuel, hrest⟩⟩
  · rintro ⟨text', ⟨fuel, hrun⟩, ⟨fuel', hrest⟩⟩
    refine ⟨max fuel fuel', ?_⟩
    rw [substitute, replaceAll_mono (Nat.le_max_left fuel fuel') hrun]
    exact substitute_mono (Nat.le_max_right fuel fuel') hrest

/-- There is one result. -/
theorem Substitutes.unique {out' : List α} (h : Substitutes params text out)
    (h' : Substitutes params text out') : out = out' := by
  induction params generalizing text with
  | nil => rw [substitutes_nil_iff.mp h, substitutes_nil_iff.mp h']
  | cons p rest ih =>
    obtain ⟨text₁, hrun, hrest⟩ := substitutes_cons_iff.mp h
    obtain ⟨text₂, hrun', hrest'⟩ := substitutes_cons_iff.mp h'
    rw [hrun.unique hrun'] at hrest
    exact ih hrest hrest'

/-- A text without a pattern stays as it is. -/
theorem substitutes_of_notInfix (h : ∀ p ∈ params, p.1 ≠ [] ∧ ¬ p.1 <:+: text) :
    Substitutes params text out ↔ out = text := by
  induction params with
  | nil => exact substitutes_nil_iff
  | cons p rest ih =>
    obtain ⟨hp, hrest⟩ := List.forall_mem_cons.mp h
    rw [substitutes_cons_iff, ← ih hrest]
    simp only [replaces_of_notInfix hp.1 hp.2, exists_eq_left]

/-- A list of patterns in two parts. -/
theorem substitutes_append_iff {params' : List (List α × List α)} :
    Substitutes (params ++ params') text out ↔
      ∃ text', Substitutes params text text' ∧ Substitutes params' text' out := by
  induction params generalizing text with
  | nil => simp only [List.nil_append, substitutes_nil_iff, exists_eq_left]
  | cons p rest ih =>
    obtain ⟨k, v⟩ := p
    simp only [List.cons_append, substitutes_cons_iff, ih]
    constructor
    · rintro ⟨text₁, hrun, text₂, hrest, hout⟩
      exact ⟨text₂, ⟨text₁, hrun, hrest⟩, hout⟩
    · rintro ⟨text₂, ⟨text₁, hrun, hrest⟩, hout⟩
      exact ⟨text₁, hrun, text₂, hrest, hout⟩

/-- A pattern by itself, that none before it touches, becomes its value, and that is rewritten for
the patterns behind it. -/
theorem substitutes_key_iff {params' : List (List α × List α)} (hkey : key ≠ [])
    (h : ∀ p ∈ params, p.1 ≠ [] ∧ ¬ p.1 <:+: key) :
    Substitutes (params ++ (key, val) :: params') key out ↔
      ¬ key <:+: val ∧ Substitutes params' val out := by
  simp only [substitutes_append_iff, substitutes_of_notInfix h, exists_eq_left,
    substitutes_cons_iff, replaces_self_iff hkey]
  constructor
  · rintro ⟨_, ⟨hval, rfl⟩, hout⟩
    exact ⟨hval, hout⟩
  · rintro ⟨hval, hout⟩
    exact ⟨val, ⟨hval, rfl⟩, hout⟩

/-- The last pattern is not left. -/
theorem Substitutes.notInfix_last (hkey : key ≠ [])
    (h : Substitutes (params ++ [(key, val)]) text out) : ¬ key <:+: out := by
  obtain ⟨text', -, hlast⟩ := substitutes_append_iff.mp h
  obtain ⟨text'', hrun, hout⟩ := substitutes_cons_iff.mp hlast
  rw [substitutes_nil_iff.mp hout]
  exact hrun.notInfix hkey

/-- Both sides of a character that is in no pattern are rewritten apart. -/
theorem substitutes_append_cons_iff {c : α} (h : ∀ p ∈ params, p.1 ≠ [] ∧ c ∉ p.1)
    {a b : List α} :
    Substitutes params (a ++ c :: b) out ↔
      ∃ a' b', Substitutes params a a' ∧ Substitutes params b b' ∧ out = a' ++ c :: b' := by
  induction params generalizing a b with
  | nil =>
    simp only [substitutes_nil_iff]
    constructor
    · intro hout
      exact ⟨a, b, rfl, rfl, hout⟩
    · rintro ⟨_, _, rfl, rfl, hout⟩
      exact hout
  | cons p rest ih =>
    obtain ⟨k, v⟩ := p
    obtain ⟨hp, hrest⟩ := List.forall_mem_cons.mp h
    simp only [substitutes_cons_iff, replaces_append_cons_iff hp.1 hp.2]
    constructor
    · rintro ⟨_, ⟨a₁, b₁, ha₁, hb₁, rfl⟩, hout⟩
      obtain ⟨a', b', ha', hb', hout⟩ := (ih hrest).mp hout
      exact ⟨a', b', ⟨a₁, ha₁, ha'⟩, ⟨b₁, hb₁, hb'⟩, hout⟩
    · rintro ⟨a', b', ⟨a₁, ha₁, ha'⟩, ⟨b₁, hb₁, hb'⟩, hout⟩
      exact ⟨a₁ ++ c :: b₁, ⟨a₁, b₁, ha₁, hb₁, rfl⟩, (ih hrest).mpr ⟨a', b', ha', hb', hout⟩⟩

/-- What holds of all that is in the text and in the values holds of all that is in the result. -/
theorem Substitutes.forall_mem {q : α → Prop} (h : Substitutes params text out)
    (hval : ∀ p ∈ params, ∀ x ∈ p.2, q x) (htext : ∀ x ∈ text, q x) : ∀ x ∈ out, q x := by
  induction params generalizing text with
  | nil =>
    rw [substitutes_nil_iff.mp h]
    exact htext
  | cons p rest ih =>
    obtain ⟨hp, hrest⟩ := List.forall_mem_cons.mp hval
    obtain ⟨text', hrun, hout⟩ := substitutes_cons_iff.mp h
    exact ih hout hrest (hrun.forall_mem hp htext)

end IcsGateway.Lib
