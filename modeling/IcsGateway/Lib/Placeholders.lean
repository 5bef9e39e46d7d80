import Mathlib.Data.List.Nodup
import IcsGateway.Lib.Substitution
import IcsGateway.Lib.Words

/-!
# Placeholders in brackets

A placeholder is a name between an opening and a closing bracket. Where no opening bracket stands
between another one and the closing bracket that follows, replacing one placeholder after the
other, until none is left, is one pass over the text.
-/

namespace IcsGateway.Lib

variable {α : Type}

/-- A name between brackets. -/
def tag (l r : α) (name : List α) : List α := l :: (name ++ [r])

/-- The placeholders of parameters, with their values. -/
def tags (l r : α) (params : List (List α × List α)) : List (List α × List α) :=
  params.map fun p ↦ (tag l r p.1, p.2)

/-- There is no bracket in a text. -/
def Bare (l r : α) (text : List α) : Prop := l ∉ text ∧ r ∉ text

instance [DecidableEq α] (l r : α) (text : List α) : Decidable (Bare l r text) :=
  inferInstanceAs (Decidable (_ ∧ _))

variable [DecidableEq α]

/-- Between an opening bracket and the next closing one stands no other opening bracket. -/
def Clean (l r : α) (text : List α) : Prop :=
  ∀ s, l :: s <:+ text → r ∈ s → l ∉ s.takeWhile (· ≠ r)

instance (l r : α) (text : List α) : Decidable (Clean l r text) :=
  decidable_of_iff
    (∀ t ∈ text.tails, t.head? = some l → r ∈ t.tail → l ∉ t.tail.takeWhile (· ≠ r)) <| by
    constructor
    · intro h s hs
      exact h (l :: s) ((List.mem_tails _ _).mpr hs) rfl
    · intro h t ht hl
      cases t with
      | nil => cases hl
      | cons c t =>
        cases hl
        exact h t ((List.mem_tails _ _).mp ht)

/-- One pass from left to right: the value of the first pattern that stands here, or else the
character. `skip` characters of a pattern that has been replaced are left. -/
def onePass (patterns : List (List α × List α)) : Nat → List α → List α
  | _, [] => []
  | skip + 1, _ :: cs => onePass patterns skip cs
  | 0, c :: cs =>
    match patterns.find? fun p ↦ p.1 <+: c :: cs with
    | some (key, val) => val ++ onePass patterns (key.length - 1) cs
    | none => c :: onePass patterns 0 cs

variable {l r : α} {params : List (List α × List α)}

/-! ### Where placeholders stand -/

omit [DecidableEq α] in
/-- A placeholder is not empty. -/
theorem tag_ne_nil (name : List α) : tag l r name ≠ [] := List.cons_ne_nil _ _

omit [DecidableEq α] in
/-- A closing bracket ends the same name. -/
private theorem append_singleton_prefix_iff {name name' : List α} (h : r ∉ name) (h' : r ∉ name')
    (text : List α) : name' ++ [r] <+: name ++ r :: text ↔ name' = name := by
  induction name' generalizing name with
  | nil =>
    cases name with
    | nil => simp
    | cons c name =>
      rw [List.mem_cons, not_or] at h
      simp [h.1]
  | cons c' name' ih =>
    rw [List.mem_cons, not_or] at h'
    cases name with
    | nil => simp [Ne.symm h'.1]
    | cons c name =>
      rw [List.mem_cons, not_or] at h
      rw [List.cons_append, List.cons_append, List.cons_prefix_cons, ih h.2 h'.2, List.cons.injEq]

omit [DecidableEq α] in
/-- The placeholder that a text begins with is that of one name. -/
theorem tag_prefix_iff {name name' : List α} (h : r ∉ name) (h' : r ∉ name') (text : List α) :
    tag l r name' <+: tag l r name ++ text ↔ name' = name := by
  rw [tag, tag, List.cons_append, List.append_assoc, List.singleton_append,
    List.cons_prefix_cons, and_iff_right rfl, append_singleton_prefix_iff h h']

/-- In front of the next opening bracket no placeholder begins. -/
theorem replaceFirst_tag_append {name val a : List α} (ha : l ∉ a) (text : List α) :
    replaceFirst (tag l r name) val (a ++ text) =
      (replaceFirst (tag l r name) val text).map (a ++ ·) := by
  induction a with
  | nil => simp
  | cons c a ih =>
    rw [List.mem_cons, not_or] at ha
    have hno : ¬ tag l r name <+: c :: (a ++ text) := fun h ↦ ha.1 (List.cons_prefix_cons.mp h).1
    rw [List.cons_append, replaceFirst, if_neg hno, ih ha.2, Option.map_map]
    rfl

/-- Nor does one in another placeholder. -/
theorem replaceFirst_tag_tag {name name' val : List α} (h : Bare l r name) (h' : r ∉ name')
    (hlr : l ≠ r) (hne : name' ≠ name) (text : List α) :
    replaceFirst (tag l r name') val (tag l r name ++ text) =
      (replaceFirst (tag l r name') val text).map (tag l r name ++ ·) := by
  have hno : ¬ tag l r name' <+: tag l r name ++ text :=
    fun hp ↦ hne ((tag_prefix_iff h.2 h' text).mp hp)
  have hrest : l ∉ name ++ [r] := by
    rw [List.mem_append, List.mem_singleton, not_or]
    exact ⟨h.1, hlr⟩
  have hcons : tag l r name ++ text = l :: ((name ++ [r]) ++ text) := rfl
  rw [hcons] at hno ⊢
  rw [replaceFirst, if_neg hno, replaceFirst_tag_append hrest, Option.map_map]
  rfl

/-- A text in front that no step touches. -/
private theorem Replaces.append_left {key val a text out : List α}
    (ha : ∀ text, replaceFirst key val (a ++ text) = (replaceFirst key val text).map (a ++ ·))
    (h : Replaces key val text out) : Replaces key val (a ++ text) (a ++ out) := by
  apply h.rec'
  · intro hdone
    rw [replaces_of_eq_none]
    rw [ha, hdone]
    rfl
  · intro t t' hstep _ ih
    refine (replaces_of_eq_some ?_).mpr ih
    rw [ha, hstep]
    rfl

/-- A text without opening brackets in front. -/
theorem substitutes_tags_append {a text out : List α} (ha : l ∉ a)
    (h : Substitutes (tags l r params) text out) :
    Substitutes (tags l r params) (a ++ text) (a ++ out) := by
  induction params generalizing text with
  | nil =>
    rw [substitutes_nil_iff.mp h]
    exact substitutes_nil_iff.mpr rfl
  | cons p params ih =>
    obtain ⟨text', hrun, hrest⟩ := substitutes_cons_iff.mp h
    exact substitutes_cons_iff.mpr
      ⟨a ++ text', hrun.append_left (replaceFirst_tag_append ha), ih hrest⟩

/-- What a placeholder becomes: the value of its name, or else itself. -/
def valueOr (l r : α) (params : List (List α × List α)) (name : List α) : List α :=
  ((params.find? (·.1 = name)).map (·.2)).getD (tag l r name)

/-- Names and values as they may be given: no bracket in a name, no opening one in a value. -/
def Plain (l r : α) (params : List (List α × List α)) : Prop :=
  ∀ p ∈ params, Bare l r p.1 ∧ l ∉ p.2

/-- A placeholder in front. -/
theorem substitutes_tags_tag {name text out : List α} (hlr : l ≠ r) (hname : Bare l r name)
    (hparams : Plain l r params) (h : Substitutes (tags l r params) text out) :
    Substitutes (tags l r params) (tag l r name ++ text) (valueOr l r params name ++ out) := by
  induction params generalizing text with
  | nil =>
    rw [substitutes_nil_iff.mp h]
    exact substitutes_nil_iff.mpr rfl
  | cons p params ih =>
    obtain ⟨⟨hkey, hval⟩, hrest⟩ := List.forall_mem_cons.mp hparams
    obtain ⟨text', hrun, hsub⟩ := substitutes_cons_iff.mp h
    apply substitutes_cons_iff.mpr
    by_cases he : p.1 = name
    · have hvalue : valueOr l r (p :: params) name = p.2 := by
        simp [valueOr, he]
      have hfirst : replaceFirst (tag l r p.1) p.2 (tag l r name ++ text) = some (p.2 ++ text) := by
        rw [← he]
        exact replaceFirst_append_self (tag_ne_nil _) text
      rw [hvalue]
      refine ⟨p.2 ++ text', (replaces_of_eq_some hfirst).mpr ?_, substitutes_tags_append hval hsub⟩
      exact hrun.append_left (replaceFirst_tag_append hval)
    · have hvalue : valueOr l r (p :: params) name = valueOr l r params name := by
        simp [valueOr, he]
      rw [hvalue]
      exact ⟨tag l r name ++ text',
        hrun.append_left (replaceFirst_tag_tag hname hkey.2 hlr he), ih hrest hsub⟩

/-! ### Clean texts -/

omit [DecidableEq α] in
/-- A text without closing brackets has no placeholder. -/
theorem notInfix_tag {name text : List α} (h : r ∉ text) : ¬ tag l r name <:+: text := by
  intro hin
  apply h
  apply hin.subset
  rw [tag, List.mem_cons, List.mem_append]
  exact .inr (.inr (List.mem_singleton_self r))

/-- A clean text is a row of placeholders with texts between that hold no opening bracket. -/
theorem Clean.induction {motive : List α → Prop} (tail : ∀ text, r ∉ text → motive text)
    (plain : ∀ a text, l ∉ a → motive text → motive (a ++ text))
    (place : ∀ name text, Bare l r name → motive text → motive (tag l r name ++ text))
    (hlr : l ≠ r) {text : List α} (h : Clean l r text) : motive text := by
  induction text using runs_induction (p := fun x ↦ decide (x = r)) with
  | last run hrun =>
    apply tail
    intro hr
    exact of_decide_eq_false (hrun r hr) rfl
  | cons run sep rest hrun hsep ih =>
    obtain rfl := of_decide_eq_true hsep
    have hclose : sep ∉ run := fun hmem ↦ of_decide_eq_false (hrun sep hmem) rfl
    have hrest : motive rest := by
      apply ih
      intro s hs
      exact h s (hs.trans ((List.suffix_cons sep rest).trans (List.suffix_append run _)))
    by_cases hopen : l ∈ run
    · obtain ⟨a, name, rfl, ha⟩ := List.eq_append_cons_of_mem hopen
      rw [List.mem_append, List.mem_cons, not_or, not_or] at hclose
      have hname : l ∉ name := by
        have hs : l :: (name ++ sep :: rest) <:+ (a ++ l :: name) ++ sep :: rest := by
          rw [List.append_assoc]
          exact List.suffix_append a _
        have htake := h _ hs (List.mem_append_right _ List.mem_cons_self)
        rw [List.takeWhile_append_of_pos, List.takeWhile_cons_of_neg, List.append_nil] at htake
        · exact htake
        · simp
        · intro x hx
          rw [decide_eq_true_eq]
          rintro rfl
          exact hclose.2.2 hx
      have hsplit : (a ++ l :: name) ++ sep :: rest = a ++ (tag l sep name ++ rest) := by
        simp [tag]
      rw [hsplit]
      exact plain a _ ha (place name rest ⟨hname, hclose.2.2⟩ hrest)
    · have hsplit : run ++ sep :: rest = (run ++ [sep]) ++ rest := by simp
      rw [hsplit]
      apply plain _ _ _ hrest
      rw [List.mem_append, List.mem_singleton, not_or]
      exact ⟨hopen, hlr⟩

/-! ### The pass -/

/-- Patterns that no text tells apart make the same pass. -/
theorem onePass_congr {patterns patterns' : List (List α × List α)}
    (h : ∀ text : List α, (patterns.find? fun p ↦ p.1 <+: text) =
      patterns'.find? fun p ↦ p.1 <+: text) (skip : Nat) (text : List α) :
    onePass patterns skip text = onePass patterns' skip text := by
  induction text generalizing skip with
  | nil =>
    cases skip with
    | zero => rfl
    | succ skip => rfl
  | cons c cs ih =>
    cases skip with
    | succ skip =>
      rw [onePass, onePass]
      exact ih skip
    | zero =>
      rw [onePass, onePass, h]
      cases patterns'.find? fun p ↦ p.1 <+: c :: cs with
      | none => exact congrArg (c :: ·) (ih 0)
      | some p => exact congrArg (p.2 ++ ·) (ih _)

/-- What has been replaced is left. -/
theorem onePass_length (patterns : List (List α × List α)) (a text : List α) :
    onePass patterns a.length (a ++ text) = onePass patterns 0 text := by
  induction a with
  | nil => rfl
  | cons c a ih => exact ih

/-- A text without opening brackets is copied. -/
theorem onePass_append {a : List α} (ha : l ∉ a) (text : List α) :
    onePass (tags l r params) 0 (a ++ text) = a ++ onePass (tags l r params) 0 text := by
  induction a with
  | nil => rfl
  | cons c a ih =>
    rw [List.mem_cons, not_or] at ha
    have hno : ((tags l r params).find? fun p ↦ p.1 <+: c :: (a ++ text)) = none := by
      rw [List.find?_eq_none]
      intro p hp
      obtain ⟨q, -, rfl⟩ := List.mem_map.mp hp
      rw [decide_eq_true_eq]
      exact fun h ↦ ha.1 (List.cons_prefix_cons.mp h).1
    rw [List.cons_append, onePass, hno]
    exact congrArg (c :: ·) (ih ha.2)

/-- The pattern found at a placeholder is that of its name. -/
private theorem find?_tags {name : List α} (hname : Bare l r name) (hparams : Plain l r params)
    (text : List α) : ((tags l r params).find? fun p ↦ p.1 <+: tag l r name ++ text) =
      (params.find? (·.1 = name)).map fun p ↦ (tag l r p.1, p.2) := by
  induction params with
  | nil => rfl
  | cons p params ih =>
    obtain ⟨⟨hkey, -⟩, hrest⟩ := List.forall_mem_cons.mp hparams
    have hfront := tag_prefix_iff (l := l) hname.2 hkey.2 text
    have hcons : tags l r (p :: params) = (tag l r p.1, p.2) :: tags l r params := rfl
    rw [hcons, List.find?_cons, List.find?_cons, ih hrest]
    simp only [hfront]
    by_cases he : p.1 = name
    · rw [decide_eq_true he]
      rfl
    · rw [decide_eq_false he]

/-- A placeholder becomes its value. -/
theorem onePass_tag {name : List α} (hlr : l ≠ r) (hname : Bare l r name)
    (hparams : Plain l r params) (text : List α) :
    onePass (tags l r params) 0 (tag l r name ++ text) =
      valueOr l r params name ++ onePass (tags l r params) 0 text := by
  have hfind := find?_tags hname hparams text
  have hcons : tag l r name ++ text = l :: ((name ++ [r]) ++ text) := rfl
  rw [valueOr]
  rw [hcons] at hfind ⊢
  rw [onePass, hfind]
  cases hp : params.find? (·.1 = name) with
  | none =>
    have hrest : l ∉ name ++ [r] := by
      rw [List.mem_append, List.mem_singleton, not_or]
      exact ⟨hname.1, hlr⟩
    exact congrArg (l :: ·) (onePass_append hrest text)
  | some p =>
    have hlength : (tag l r p.1).length - 1 = (name ++ [r]).length := by
      have hkey := List.find?_some hp
      rw [← of_decide_eq_true hkey]
      rfl
    simp only [Option.map_some, Option.getD_some, hlength, onePass_length]

/-- A text without closing brackets is copied. -/
theorem onePass_tail {text : List α} (h : r ∉ text) : onePass (tags l r params) 0 text = text := by
  induction text with
  | nil => rfl
  | cons c cs ih =>
    have hno : ((tags l r params).find? fun p ↦ p.1 <+: c :: cs) = none := by
      rw [List.find?_eq_none]
      intro p hp
      obtain ⟨q, -, rfl⟩ := List.mem_map.mp hp
      rw [decide_eq_true_eq]
      exact fun hp ↦ notInfix_tag h hp.isInfix
    rw [List.mem_cons, not_or] at h
    rw [onePass, hno]
    exact congrArg (c :: ·) (ih h.2)

/-- Replacing one placeholder after the other is one pass. -/
theorem Clean.substitutes {text : List α} (h : Clean l r text) (hlr : l ≠ r)
    (hparams : Plain l r params) :
    Substitutes (tags l r params) text (onePass (tags l r params) 0 text) := by
  apply h.induction _ _ _ hlr
  · intro text htext
    rw [onePass_tail htext, substitutes_of_notInfix]
    intro p hp
    obtain ⟨q, -, rfl⟩ := List.mem_map.mp hp
    exact ⟨tag_ne_nil _, notInfix_tag htext⟩
  · intro a text ha ih
    rw [onePass_append ha]
    exact substitutes_tags_append ha ih
  · intro name text hname ih
    rw [onePass_tag hlr hname hparams]
    exact substitutes_tags_tag hlr hname hparams ih

omit [DecidableEq α] in
/-- What only one entry of a list satisfies is found in any order. -/
private theorem find?_perm {xs ys : List α} {q : α → Bool} (hperm : ys.Perm xs)
    (huniq : ∀ x ∈ xs, ∀ y ∈ xs, q x = true → q y = true → y = x) : ys.find? q = xs.find? q := by
  cases hx : xs.find? q with
  | none =>
    rw [List.find?_eq_none] at hx ⊢
    intro y hy
    exact hx y (hperm.mem_iff.mp hy)
  | some x =>
    cases hy : ys.find? q with
    | none =>
      have hmem := List.mem_of_find?_eq_some hx
      exact absurd (List.find?_some hx) (List.find?_eq_none.mp hy x (hperm.mem_iff.mpr hmem))
    | some y =>
      rw [huniq x (List.mem_of_find?_eq_some hx) y (hperm.mem_iff.mp (List.mem_of_find?_eq_some hy))
        (List.find?_some hx) (List.find?_some hy)]

/-- The order of the parameters does not matter. -/
theorem onePass_perm {params' : List (List α × List α)} (hperm : params'.Perm params)
    (hparams : Plain l r params) (hnodup : (params.map (·.1)).Nodup) (text : List α) :
    onePass (tags l r params') 0 text = onePass (tags l r params) 0 text := by
  apply onePass_congr
  intro text
  apply find?_perm (hperm.map _)
  intro x hx y hy hpx hpy
  obtain ⟨p, hp, rfl⟩ := List.mem_map.mp hx
  obtain ⟨q, hq, rfl⟩ := List.mem_map.mp hy
  obtain ⟨t, rfl⟩ := of_decide_eq_true hpx
  have hkey := (tag_prefix_iff (hparams p hp).1.2 (hparams q hq).1.2 t).mp (of_decide_eq_true hpy)
  rw [List.inj_on_of_nodup_map hnodup hq hp hkey]

end IcsGateway.Lib
