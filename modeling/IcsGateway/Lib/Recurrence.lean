import IcsGateway.Lib.Placeholders

/-!
# Values that bring their placeholder back

Replacing a placeholder by a value ends for every text exactly when the value neither holds the
placeholder nor, with its two ends, makes two of them out of two opened names (`Recurs`). A text is
rewritten from the left: what has been rewritten holds no placeholder, and one can only be made at
the next closing bracket.
-/

namespace IcsGateway.Lib

variable {α : Type} [DecidableEq α] {l r : α} {name val out : List α}

/-- The value holds the placeholder of the name, or it begins with the ends of two names and ends
with the beginnings of the same name, opened. -/
def Recurs (l r : α) (name val : List α) : Prop :=
  tag l r name <:+: val ∨
    ∃ u₁ u₂ mid x₁ x₂, val = u₁ ++ r :: (u₂ ++ r :: (mid ++ l :: (x₁ ++ l :: x₂))) ∧
      name = x₁ ++ u₁ ∧ name = x₂ ++ u₂

/-! ### Where a placeholder is made -/

omit [DecidableEq α] in
/-- An opening bracket and what follows it end no text with a placeholder. -/
theorem notInfix_append (hlr : l ≠ r) (hname : Bare l r name) {s w : List α}
    (hs : ¬ tag l r name <:+: s) (hw : ¬ tag l r name <:+: w) (hopen : ∀ c ∈ w.head?, c = l) :
    ¬ tag l r name <:+: s ++ w := by
  intro h
  rcases List.infix_append_iff_ne_nil.mp h with h | h | ⟨x, y, hx, hy, he, -, hfront⟩
  · exact hs h
  · exact hw h
  · -- the part in `w` begins with an opening bracket
    obtain ⟨c, y, rfl⟩ := List.exists_cons_of_ne_nil hy
    obtain ⟨t, rfl⟩ := hfront
    obtain rfl : c = l := hopen c rfl
    obtain ⟨d, x, rfl⟩ := List.exists_cons_of_ne_nil hx
    rw [tag, List.cons_append, List.cons.injEq] at he
    have hmem : c ∈ name ++ [r] := he.2 ▸ List.mem_append_right x List.mem_cons_self
    rcases List.mem_append.mp hmem with hmem | hmem
    · exact hname.1 hmem
    · exact hlr (List.mem_singleton.mp hmem)

omit [DecidableEq α] in
/-- A text without opening brackets makes a placeholder, if at all, of an opened name and its own
first closing bracket. -/
theorem notInfix_append_or {s z : List α} (hs : ¬ tag l r name <:+: s) (hz : l ∉ z) :
    ¬ tag l r name <:+: s ++ z ∨
      ∃ s' x u z', s = s' ++ l :: x ∧ z = u ++ r :: z' ∧ name = x ++ u := by
  by_cases h : tag l r name <:+: s ++ z
  · right
    rcases List.infix_append_iff_ne_nil.mp h with h | h | ⟨x, y, hx, hy, he, hsuffix, hfront⟩
    · exact absurd h hs
    · exact absurd (h.subset List.mem_cons_self) hz
    · obtain ⟨d, x, rfl⟩ := List.exists_cons_of_ne_nil hx
      obtain ⟨u, c, rfl⟩ := List.eq_nil_or_concat'  y |>.resolve_left hy
      rw [tag, List.cons_append, List.cons.injEq, ← List.append_assoc] at he
      obtain ⟨rfl, he⟩ := he
      obtain ⟨hname, hc⟩ := List.append_inj' he rfl
      obtain ⟨s', rfl⟩ := hsuffix
      obtain ⟨z', rfl⟩ := hfront
      cases hc
      exact ⟨s', x, u, z', rfl, by simp, hname⟩
  · exact .inl h

/-- What is made there is replaced next. -/
theorem replaces_made (hname : Bare l r name) {s' x u z' : List α}
    (hs : ¬ tag l r name <:+: s' ++ l :: x) (he : name = x ++ u)
    (h : Replaces (tag l r name) val (s' ++ (val ++ z')) out) :
    Replaces (tag l r name) val (s' ++ l :: x ++ (u ++ r :: z')) out := by
  have hopened : ¬ tag l r name <:+: s' ++ (tag l r name).dropLast := by
    have hdrop : s' ++ (tag l r name).dropLast = (s' ++ l :: x) ++ u := by
      rw [tag, ← List.cons_append, List.dropLast_concat, he]
      simp
    have hu : Bare l r u := by
      rw [he, Bare, List.mem_append, List.mem_append, not_or, not_or] at hname
      exact ⟨hname.1.2, hname.2.2⟩
    rw [hdrop]
    rcases notInfix_append_or hs hu.1 with h | ⟨_, _, u', z, -, rfl, -⟩
    · exact h
    · exact absurd (List.mem_append_right _ List.mem_cons_self) hu.2
  have hsplit : s' ++ l :: x ++ (u ++ r :: z') = s' ++ (tag l r name ++ z') := by
    rw [tag, he]
    simp
  rw [hsplit, replaces_of_eq_some (replaceFirst_append_pattern (tag_ne_nil _) hopened z')]
  exact h

omit [DecidableEq α] in
/-- A text has one last opening bracket. -/
private theorem append_cons_inj_last {a b a' b' : List α} (hb : l ∉ b) (hb' : l ∉ b')
    (h : a ++ l :: b = a' ++ l :: b') : a = a' ∧ b = b' := by
  rcases List.append_eq_append_iff.mp h with ⟨c, rfl, hc⟩ | ⟨c, rfl, hc⟩
  · cases c with
    | nil =>
      cases hc
      exact ⟨(List.append_nil a).symm, rfl⟩
    | cons d c =>
      cases hc
      exact absurd (List.mem_append_right c List.mem_cons_self) hb
  · cases c with
    | nil =>
      cases hc
      exact ⟨List.append_nil a', rfl⟩
    | cons d c =>
      cases hc
      exact absurd (List.mem_append_right c List.mem_cons_self) hb'

omit [DecidableEq α] in
/-- A bracket that stands in a text stands somewhere last. -/
private theorem exists_append_cons_last {w : List α} (h : l ∈ w) :
    ∃ a b, w = a ++ l :: b ∧ l ∉ b := by
  obtain ⟨b, a, he, hb⟩ := List.eq_append_cons_of_mem (List.mem_reverse.mpr h)
  refine ⟨a.reverse, b.reverse, ?_, ?_⟩
  · rw [List.reverse_eq_iff] at he
    rw [he]
    simp
  · rw [List.mem_reverse]
    exact hb

/-! ### Values with one opening bracket -/

/-- A value in two parts, the second from its first opening bracket on. -/
structure Parts (l : α) (val front back : List α) : Prop where
  eq : val = front ++ back
  front_notMem : l ∉ front
  back_open : ∀ c ∈ back.head?, c = l

/-- Every value has them. -/
theorem exists_parts (l : α) (val : List α) : ∃ front back, Parts l val front back := by
  refine ⟨val.takeWhile (· ≠ l), val.dropWhile (· ≠ l), List.takeWhile_append_dropWhile.symm,
    ?_, ?_⟩
  · intro h
    exact of_decide_eq_true (List.all_eq_true.mp List.all_takeWhile l h) rfl
  · intro c hc
    have hhead := List.head?_dropWhile_not (· ≠ l) val
    rw [Option.mem_def.mp hc] at hhead
    simpa using hhead

/-- With at most one opening bracket in the value, a text never has more of them than it had, and
each placeholder made uses up a closing bracket or an opening one. -/
private theorem ends_of_count (hlr : l ≠ r) (hname : Bare l r name) {front back : List α}
    (hparts : Parts l val front back) (hback : ¬ tag l r name <:+: back)
    (hcount : back.count l ≤ 1) (n : Nat) {s z : List α} (hs : ¬ tag l r name <:+: s)
    (hn : s.count l ≤ n) (hz : l ∉ z) :
    ∃ out, Replaces (tag l r name) val (s ++ z) out ∧ out.count l ≤ n := by
  induction n generalizing s z with
  | zero =>
    have hopen : l ∉ s := List.count_eq_zero.mp (Nat.le_zero.mp hn)
    rcases notInfix_append_or hs hz with h | ⟨s', x, u, z', rfl, -, -⟩
    · refine ⟨s ++ z, .refl (tag_ne_nil _) h, ?_⟩
      rw [List.count_append, List.count_eq_zero.mpr hz]
      exact hn
    · exact absurd (List.mem_append_right _ List.mem_cons_self) hopen
  | succ n ihn =>
    induction hlength : z.length using Nat.strongRecOn generalizing s z with
    | _ m ihm =>
      subst hlength
      rcases notInfix_append_or hs hz with h | ⟨s', x, u, z', rfl, rfl, he⟩
      · refine ⟨s ++ z, .refl (tag_ne_nil _) h, ?_⟩
        rw [List.count_append, List.count_eq_zero.mpr hz]
        exact hn
      · -- the front of the value is added first, then its back, then what is left
        rw [List.count_append, List.count_cons_self] at hn
        have hs' : ¬ tag l r name <:+: s' := fun h ↦ hs (h.trans (List.prefix_append _ _).isInfix)
        obtain ⟨mid, hmid, hmidcount⟩ := ihn hs' (by omega) hparts.front_notMem
        have hnext : ¬ tag l r name <:+: mid ++ back :=
          notInfix_append hlr hname (hmid.notInfix (tag_ne_nil _)) hback hparts.back_open
        have hnextcount : (mid ++ back).count l ≤ n + 1 := by
          rw [List.count_append]
          omega
        have hz' : l ∉ z' := fun h ↦ hz (List.mem_append_right u (List.mem_cons_of_mem r h))
        have hless : z'.length < (u ++ r :: z').length := by
          rw [List.length_append, List.length_cons]
          omega
        obtain ⟨out, hout, houtcount⟩ := ihm _ hless hnext hnextcount hz' rfl
        refine ⟨out, replaces_made hname hs he ?_, houtcount⟩
        have hsplit : s' ++ (val ++ z') = (s' ++ front) ++ (back ++ z') := by
          rw [hparts.eq]
          simp
        rw [List.append_assoc] at hout
        rw [hsplit]
        exact hmid.append (tag_ne_nil _) hout

/-! ### Values with more of them -/

/-- A value whose back ends with two opened texts, the one before the last without a bracket that
closes it into the name: then the value added behind it makes no placeholder, and each one made
uses up a closing bracket. -/
private theorem ends_of_stop (hlr : l ≠ r) (hname : Bare l r name) {front back a x₁ x₂ : List α}
    (hparts : Parts l val front back) (hback : ¬ tag l r name <:+: back)
    (he : back = a ++ l :: (x₁ ++ l :: x₂)) (hx₁ : l ∉ x₁) (hx₂ : l ∉ x₂)
    (hstop : ∀ u z, front = u ++ r :: z → name ≠ x₁ ++ u) {s z : List α}
    (hs : ¬ tag l r name <:+: s ++ back) (hz : l ∉ z) :
    ∃ out, Replaces (tag l r name) val (s ++ back ++ z) out := by
  induction hlength : z.length using Nat.strongRecOn generalizing s z with
  | _ m ih =>
    subst hlength
    rcases notInfix_append_or hs hz with h | ⟨s', x, u, z', hsx, rfl, hxu⟩
    · exact ⟨s ++ back ++ z, .refl (tag_ne_nil _) h⟩
    · have hx : l ∉ x := fun h ↦ hname.1 (hxu ▸ List.mem_append_left u h)
      have hlast : s ++ back = (s ++ a ++ l :: x₁) ++ l :: x₂ := by
        rw [he]
        simp
      obtain ⟨rfl, rfl⟩ := append_cons_inj_last hx₂ hx (hlast.symm.trans hsx)
      have hs' : ¬ tag l r name <:+: s ++ a ++ l :: x₁ := by
        intro h
        rw [hsx] at hs
        exact hs (h.trans (List.prefix_append _ _).isInfix)
      have hfront : ¬ tag l r name <:+: s ++ a ++ l :: x₁ ++ front := by
        rcases notInfix_append_or hs' hparts.front_notMem with h | ⟨t, y, u', z'', hty, hu', hyu⟩
        · exact h
        · have hy : l ∉ y := fun h ↦ hname.1 (hyu ▸ List.mem_append_left u' h)
          obtain ⟨-, rfl⟩ := append_cons_inj_last hx₁ hy hty
          exact absurd hyu (hstop u' z'' hu')
      have hnext := notInfix_append hlr hname hfront hback hparts.back_open
      have hz' : l ∉ z' := fun h ↦ hz (List.mem_append_right u (List.mem_cons_of_mem r h))
      have hless : z'.length < (u ++ r :: z').length := by
        rw [List.length_append, List.length_cons]
        omega
      obtain ⟨out, hout⟩ := ih _ hless hnext hz' rfl
      rw [hsx]
      rw [hsx] at hs
      refine ⟨out, replaces_made hname hs hxu ?_⟩
      have hsplit : s ++ a ++ l :: x₁ ++ (val ++ z') =
          s ++ a ++ l :: x₁ ++ front ++ back ++ z' := by
        rw [hparts.eq]
        simp
      rw [hsplit]
      exact hout

omit [DecidableEq α] in
/-- A value that does not bring its placeholder back does not hold it. -/
private theorem Parts.back_notInfix {front back : List α} (hparts : Parts l val front back)
    (hrec : ¬ Recurs l r name val) : ¬ tag l r name <:+: back := by
  intro h
  apply hrec
  rw [hparts.eq]
  exact .inl (h.trans (List.suffix_append front back).isInfix)

/-- The value added to a text without the placeholder. -/
private theorem ends_of_two (hlr : l ≠ r) (hname : Bare l r name) {front back a x₁ x₂ : List α}
    (hparts : Parts l val front back) (hrec : ¬ Recurs l r name val)
    (he : back = a ++ l :: (x₁ ++ l :: x₂)) (hx₁ : l ∉ x₁) (hx₂ : l ∉ x₂) {s : List α}
    (hs : ¬ tag l r name <:+: s) : ∃ out, Replaces (tag l r name) val (s ++ front) out := by
  have hback := hparts.back_notInfix hrec
  induction hlength : s.length using Nat.strongRecOn generalizing s with
  | _ m ih =>
    subst hlength
    rcases notInfix_append_or hs hparts.front_notMem with h | ⟨s', x, u, z, rfl, hu, hxu⟩
    · exact ⟨s ++ front, .refl (tag_ne_nil _) h⟩
    · have hs' : ¬ tag l r name <:+: s' := fun h ↦ hs (h.trans (List.prefix_append _ _).isInfix)
      have hless : s'.length < (s' ++ l :: x).length := by
        rw [List.length_append, List.length_cons]
        omega
      obtain ⟨mid, hmid⟩ := ih _ hless hs' rfl
      have hnext : ¬ tag l r name <:+: mid ++ back :=
        notInfix_append hlr hname (hmid.notInfix (tag_ne_nil _)) hback hparts.back_open
      have hz : l ∉ z := by
        intro h
        apply hparts.front_notMem
        rw [hu]
        exact List.mem_append_right u (List.mem_cons_of_mem r h)
      have hend : ∃ out, Replaces (tag l r name) val (mid ++ back ++ z) out := by
        by_cases hstop : name = x₁ ++ u
        · -- the value would bring its placeholder back
          rcases notInfix_append_or hnext hz with h | ⟨t, y, u₂, z', hty, rfl, hyu⟩
          · exact ⟨mid ++ back ++ z, .refl (tag_ne_nil _) h⟩
          · have hy : l ∉ y := fun h ↦ hname.1 (hyu ▸ List.mem_append_left u₂ h)
            have hlast : mid ++ back = (mid ++ a ++ l :: x₁) ++ l :: x₂ := by
              rw [he]
              simp
            obtain ⟨-, rfl⟩ := append_cons_inj_last hx₂ hy (hlast.symm.trans hty)
            refine absurd (.inr ⟨u, u₂, z' ++ a, x₁, x₂, ?_, hstop, hyu⟩) hrec
            rw [hparts.eq, hu, he]
            simp
        · refine ends_of_stop hlr hname hparts hback he hx₁ hx₂ ?_ hnext hz
          intro u' z' hu' hxu'
          have hr : r ∉ u := fun h ↦ hname.2 (hxu ▸ List.mem_append_right x h)
          have hr' : r ∉ u' := fun h ↦ hname.2 (hxu' ▸ List.mem_append_right x₁ h)
          have hcut := cut_singleton_append hr z
          rw [← hu, hu', cut_singleton_append hr'] at hcut
          cases hcut
          exact hstop hxu'
      obtain ⟨out, hout⟩ := hend
      have hsplit : s' ++ (val ++ z) = (s' ++ front) ++ (back ++ z) := by
        rw [hparts.eq]
        simp
      rw [hu]
      refine ⟨out, replaces_made hname hs hxu ?_⟩
      rw [hsplit]
      rw [List.append_assoc] at hout
      exact hmid.append (tag_ne_nil _) hout

/-- A text without the placeholder, and the value behind it. -/
private theorem ends_append (hlr : l ≠ r) (hname : Bare l r name) (hrec : ¬ Recurs l r name val)
    {s : List α} (hs : ¬ tag l r name <:+: s) :
    ∃ out, Replaces (tag l r name) val (s ++ val) out := by
  obtain ⟨front, back, hparts⟩ := exists_parts l val
  have hback := hparts.back_notInfix hrec
  have hmid : ∃ mid, Replaces (tag l r name) val (s ++ front) mid := by
    by_cases hcount : back.count l ≤ 1
    · obtain ⟨mid, hmid, -⟩ := ends_of_count hlr hname hparts hback hcount _ hs (Nat.le_refl _)
        hparts.front_notMem
      exact ⟨mid, hmid⟩
    · have hmem : l ∈ back := List.count_pos_iff.mp (by omega)
      obtain ⟨b, x₂, rfl, hx₂⟩ := exists_append_cons_last hmem
      rw [List.count_append, List.count_cons_self, List.count_eq_zero.mpr hx₂] at hcount
      have hmem' : l ∈ b := List.count_pos_iff.mp (by omega)
      obtain ⟨a, x₁, rfl, hx₁⟩ := exists_append_cons_last hmem'
      have he : a ++ l :: x₁ ++ l :: x₂ = a ++ l :: (x₁ ++ l :: x₂) := by
        rw [List.append_assoc, List.cons_append]
      exact ends_of_two hlr hname hparts hrec he hx₁ hx₂ hs
  obtain ⟨mid, hmid⟩ := hmid
  refine ⟨mid ++ back, ?_⟩
  rw [hparts.eq, ← List.append_assoc]
  rw [hparts.eq] at hmid
  apply hmid.append (tag_ne_nil _)
  exact .refl (tag_ne_nil _)
    (notInfix_append hlr hname (hmid.notInfix (tag_ne_nil _)) hback hparts.back_open)

/-- Replacing ends for every text when the value does not bring the placeholder back. -/
theorem ends_of_not_recurs (hlr : l ≠ r) (hname : Bare l r name) (hrec : ¬ Recurs l r name val)
    (text : List α) : ∃ out, Replaces (tag l r name) val text out := by
  induction text using List.reverseRecOn with
  | nil => exact ⟨[], .refl (tag_ne_nil _) (by simp [tag])⟩
  | append_singleton text c ih =>
    obtain ⟨mid, hmid⟩ := ih
    have hs := hmid.notInfix (tag_ne_nil _)
    have hend : ∃ out, Replaces (tag l r name) val (mid ++ [c]) out := by
      by_cases hc : l = c
      · subst hc
        have hopened : ¬ tag l r name <:+: [l] := notInfix_tag (by simpa using hlr.symm)
        refine ⟨mid ++ [l], .refl (tag_ne_nil _) (notInfix_append hlr hname hs hopened ?_)⟩
        intro d hd
        cases hd
        rfl
      · rcases notInfix_append_or (z := [c]) hs (by simpa using hc) with
          h | ⟨s', x, u, z', rfl, hu, hxu⟩
        · exact ⟨mid ++ [c], .refl (tag_ne_nil _) h⟩
        · have hs' : ¬ tag l r name <:+: s' := fun h ↦ hs (h.trans (List.prefix_append _ _).isInfix)
          obtain ⟨out, hout⟩ := ends_append hlr hname hrec hs'
          rw [hu]
          refine ⟨out, replaces_made hname hs hxu ?_⟩
          have hz : z' = [] := by
            have hlength := congrArg List.length hu
            rw [List.length_singleton, List.length_append, List.length_cons] at hlength
            exact List.length_eq_zero_iff.mp (by omega)
          rw [hz, List.append_nil]
          exact hout
    obtain ⟨out, hout⟩ := hend
    exact ⟨out, hmid.append (tag_ne_nil _) hout⟩

/-! ### Values that bring it back -/

/-- With the two ends in the value, a text that holds the opened name before the placeholder or
before the value always makes another such text. -/
private theorem Replaces.not_opened (hlr : l ≠ r) {u₁ u₂ mid x₁ x₂ text : List α}
    (hname : Bare l r name) (hval : val = u₁ ++ r :: (u₂ ++ r :: (mid ++ l :: (x₁ ++ l :: x₂))))
    (h₁ : name = x₁ ++ u₁) (h₂ : name = x₂ ++ u₂) (h : Replaces (tag l r name) val text out) :
    ¬ (l :: x₁ ++ tag l r name <:+: text ∨ l :: x₁ ++ val <:+: text) := by
  -- the opened name and the value begin with the placeholder and make the opened name again
  obtain ⟨rest, hrest, hagain⟩ : ∃ rest, l :: x₁ ++ val = tag l r name ++ rest ∧
      l :: x₁ ++ tag l r name <:+: val ++ rest := by
    refine ⟨u₂ ++ r :: (mid ++ l :: (x₁ ++ l :: x₂)), ?_,
      u₁ ++ r :: (u₂ ++ r :: mid), mid ++ l :: (x₁ ++ l :: x₂), ?_⟩
    · rw [hval, h₁]
      simp [tag]
    · rw [hval, tag, h₂]
      simp
  have hclosed : r ∉ l :: x₁ := by
    rw [List.mem_cons, not_or]
    exact ⟨hlr.symm, fun hmem ↦ hname.2 (h₁ ▸ List.mem_append_left u₁ hmem)⟩
  have hhead {w : List α} : ∀ c ∈ (l :: w).head?, c = l := by
    intro c hc
    cases hc
    rfl
  have hdrop {s : List α} (hs : ¬ tag l r name <:+: s) :
      ¬ tag l r name <:+: s ++ (tag l r name).dropLast := by
    have hdropLast : (tag l r name).dropLast = l :: name := by
      rw [tag, ← List.cons_append, List.dropLast_concat]
    rw [hdropLast]
    apply notInfix_append hlr hname hs (notInfix_tag _) hhead
    rw [List.mem_cons, not_or]
    exact ⟨hlr.symm, hname.2⟩
  apply h.rec'
  · intro hdone
    rw [replaceFirst_eq_none_iff (tag_ne_nil _)] at hdone
    rintro (hin | hin)
    · exact hdone ((List.suffix_append _ _).isInfix.trans hin)
    · rw [hrest] at hin
      exact hdone ((List.prefix_append _ _).isInfix.trans hin)
  · intro text text' hstep _ ih hin
    apply ih
    rcases hin with ⟨c, d, rfl⟩ | ⟨c, d, rfl⟩
    · cases hc : replaceFirst (tag l r name) val c with
      | some c' =>
        rw [List.append_assoc, replaceFirst_append_left (tag_ne_nil _) hc] at hstep
        cases hstep
        exact .inl (List.infix_append' _ _ _)
      | none =>
        rw [replaceFirst_eq_none_iff (tag_ne_nil _)] at hc
        have hpre := hdrop (notInfix_append hlr hname hc (notInfix_tag hclosed) hhead)
        rw [← List.append_assoc, List.append_assoc _ _ d,
          replaceFirst_append_pattern (tag_ne_nil _) hpre] at hstep
        cases hstep
        right
        exact ⟨c, d, by simp⟩
    · cases hc : replaceFirst (tag l r name) val c with
      | some c' =>
        rw [List.append_assoc, replaceFirst_append_left (tag_ne_nil _) hc] at hstep
        cases hstep
        exact .inr (List.infix_append' _ _ _)
      | none =>
        rw [replaceFirst_eq_none_iff (tag_ne_nil _)] at hc
        rw [hrest, List.append_assoc, List.append_assoc,
          replaceFirst_append_pattern (tag_ne_nil _) (hdrop hc), ← List.append_assoc val] at hstep
        cases hstep
        exact .inl (hagain.trans (List.infix_append' _ _ _))

omit [DecidableEq α] in
/-- A placeholder does not stand in that of another name. -/
private theorem notInfix_tag_tag (hlr : l ≠ r) {name' : List α} (hname : Bare l r name)
    (hname' : Bare l r name') (hne : name' ≠ name) : ¬ tag l r name' <:+: tag l r name := by
  intro h
  rcases List.infix_cons_iff.mp h with h | h
  · rw [← tag, ← List.append_nil (tag l r name), tag_prefix_iff hname.2 hname'.2] at h
    exact hne h
  · have hmem := h.subset List.mem_cons_self
    rw [List.mem_append, List.mem_singleton] at hmem
    exact hmem.elim hname.1 hlr

/-- The placeholders before one leave it alone. -/
private theorem exists_replaces (hlr : l ≠ r) {params params' : List (List α × List α)}
    {e : List α} (he : r ∉ e) (hname : Bare l r name)
    (hparams : ∀ p ∈ params, Bare l r p.1 ∧ p.1 ≠ name)
    (h : Substitutes (tags l r (params ++ (name, val) :: params')) (e ++ tag l r name) out) :
    ∃ mid, Replaces (tag l r name) val (e ++ tag l r name) mid := by
  have hleft : ∀ p ∈ tags l r params, p.1 ≠ [] ∧ ¬ p.1 <:+: e ++ tag l r name := by
    intro p hp
    obtain ⟨q, hq, rfl⟩ := List.mem_map.mp hp
    obtain ⟨hbare, hne⟩ := hparams q hq
    refine ⟨tag_ne_nil _, notInfix_append hlr hbare (notInfix_tag he)
      (notInfix_tag_tag hlr hname hbare hne) ?_⟩
    intro c hc
    cases hc
    rfl
  rw [tags, List.map_append, List.map_cons, ← tags, substitutes_append_iff] at h
  obtain ⟨text', hsame, hrest⟩ := h
  rw [substitutes_of_notInfix hleft] at hsame
  subst hsame
  obtain ⟨mid, hmid, -⟩ := substitutes_cons_iff.mp hrest
  exact ⟨mid, hmid⟩

/-- Replacing ends for every text exactly when no value brings its placeholder back. -/
theorem forall_substitutes_iff (hlr : l ≠ r) {params : List (List α × List α)}
    (hparams : ∀ p ∈ params, Bare l r p.1) (hnodup : (params.map (·.1)).Nodup) :
    (∀ text, ∃ out, Substitutes (tags l r params) text out) ↔
      ∀ p ∈ params, ¬ Recurs l r p.1 p.2 := by
  constructor
  · intro h p hp hrec
    obtain ⟨ps, qs, rfl⟩ := List.append_of_mem hp
    have hname := hparams p hp
    have hps : ∀ q ∈ ps, Bare l r q.1 ∧ q.1 ≠ p.1 := by
      intro q hq
      refine ⟨hparams q (List.mem_append_left _ hq), ?_⟩
      rw [List.map_append, List.nodup_append] at hnodup
      exact hnodup.2.2 _ (List.mem_map_of_mem hq) _ List.mem_cons_self
    rcases hrec with hin | ⟨u₁, u₂, mid, x₁, x₂, hval, h₁, h₂⟩
    · obtain ⟨out, hout⟩ := h ([] ++ tag l r p.1)
      obtain ⟨mid, hmid⟩ := exists_replaces hlr List.not_mem_nil hname hps hout
      exact hmid.notInfix_of_infix (tag_ne_nil _) hin (List.infix_refl _)
    · obtain ⟨out, hout⟩ := h (l :: x₁ ++ tag l r p.1)
      have hclosed : r ∉ l :: x₁ := by
        rw [List.mem_cons, not_or]
        exact ⟨hlr.symm, fun hmem ↦ hname.2 (h₁ ▸ List.mem_append_left u₁ hmem)⟩
      obtain ⟨mid, hmid⟩ := exists_replaces hlr hclosed hname hps hout
      exact hmid.not_opened hlr hname hval h₁ h₂ (.inl (List.infix_refl _))
  · intro h text
    clear hnodup
    induction params generalizing text with
    | nil => exact ⟨text, substitutes_nil_iff.mpr rfl⟩
    | cons p params ih =>
      obtain ⟨hkey, hkeys⟩ := List.forall_mem_cons.mp hparams
      obtain ⟨hp, hrest⟩ := List.forall_mem_cons.mp h
      obtain ⟨text', hrun⟩ := ends_of_not_recurs hlr hkey hp text
      obtain ⟨out, hout⟩ := ih hkeys hrest text'
      exact ⟨out, substitutes_cons_iff.mpr ⟨text', hrun, hout⟩⟩

end IcsGateway.Lib
