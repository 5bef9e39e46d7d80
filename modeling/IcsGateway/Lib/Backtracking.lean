import Mathlib.Data.List.Basic
import Mathlib.Data.List.TakeWhile
import Mathlib.Logic.Function.Basic

/-!
# Backtracking regular expressions

A regular expression as a backtracking engine runs it: from a place in the text to the places it
can come to, in the order in which it tries them. Repetitions and options are greedy, and try the
longer way first. An engine takes the first way that fits, and keeps what its groups read there.
-/

namespace IcsGateway.Lib

/-- A regular expression. -/
inductive Regex where
  /-- One character of a class. -/
  | chars (p : Char → Bool)
  /-- Nothing. -/
  | empty
  /-- One after the other. -/
  | seq (r t : Regex)
  /-- Once or not at all. -/
  | opt (r : Regex)
  /-- Any number of times. -/
  | star (r : Regex)
  /-- A group that keeps what it reads. -/
  | group (i : Nat) (r : Regex)
  /-- Only at the start of the text. -/
  | start
  /-- Only at its end. -/
  | stop

/-- A place in a text: what is read, what is left, and what the groups have kept. -/
structure Cursor where
  read : List Char
  rest : List Char
  groups : Nat → Option (List Char)

namespace Cursor

/-- The start of a text. -/
def atStart (text : List Char) : Cursor := { read := [], rest := text, groups := fun _ ↦ none }

/-- So much is read. -/
def advance (s : Cursor) (w rest : List Char) : Cursor :=
  { s with read := s.read ++ w, rest := rest }

/-- What is read in two steps is read in one. -/
theorem advance_advance (s : Cursor) (v w mid rest : List Char) :
    (s.advance v mid).advance w rest = s.advance (v ++ w) rest := by
  simp only [advance, List.append_assoc]

/-- Nothing is read. -/
theorem advance_nil {s : Cursor} {rest : List Char} (h : s.rest = rest) :
    s.advance [] rest = s := by
  rw [advance, List.append_nil, ← h]

/-- A group keeps a text. -/
def keep (s : Cursor) (i : Nat) (w : List Char) : Cursor :=
  { s with groups := Function.update s.groups i (some w) }

/-- What a group has kept, nothing if it was not tried; as `str()` of a sub-match. -/
def str (s : Cursor) (i : Nat) : List Char := (s.groups i).getD []

end Cursor

namespace Regex

/-- Once or more. -/
def plus (r : Regex) : Regex := .seq r (.star r)

/-- A text as it stands. -/
def lit : List Char → Regex
  | [] => .empty
  | c :: cs => .seq (.chars (· = c)) (lit cs)

/-- A repetition, so many times at most; a pass that reads nothing is not repeated. -/
def iterate (body : Cursor → List Cursor) : Nat → Cursor → List Cursor
  | 0, s => [s]
  | n + 1, s =>
    ((body s).filter fun t ↦ t.rest.length < s.rest.length).flatMap (iterate body n) ++ [s]

/-- The places a regular expression comes to, in the order in which they are tried. -/
def run : Regex → Cursor → List Cursor
  | .chars p, s =>
    match s.rest with
    | [] => []
    | c :: cs => if p c then [s.advance [c] cs] else []
  | .empty, s => [s]
  | .seq r t, s => (run r s).flatMap (run t)
  | .opt r, s => run r s ++ [s]
  | .star r, s => iterate (run r) s.rest.length s
  | .group i r, s => (run r s).map fun t ↦ t.keep i (t.read.drop s.read.length)
  | .start, s => if s.read = [] then [s] else []
  | .stop, s => if s.rest = [] then [s] else []

/-- `regex_match`: the first way through the whole text. -/
def fullMatch (r : Regex) (text : List Char) : Option Cursor :=
  (run r (.atStart text)).find? (·.rest = [])

/-- `regex_search` from a place on: the first way from the first place that has one. -/
def search (r : Regex) (read : List Char) : List Char → Option Cursor
  | [] => (run r { read := read, rest := [], groups := fun _ ↦ none }).head?
  | c :: cs =>
    (run r { read := read, rest := c :: cs, groups := fun _ ↦ none }).head?.or
      (search r (read ++ [c]) cs)

section

variable (p : Char → Bool) (r t : Regex) (i : Nat) {s : Cursor}

theorem run_chars_nil (hs : s.rest = []) : run (.chars p) s = [] := by
  rw [run, hs]

theorem run_chars_cons {c : Char} {cs : List Char} (hs : s.rest = c :: cs) :
    run (.chars p) s = if p c then [s.advance [c] cs] else [] := by
  rw [run, hs]

variable (s)

theorem run_seq : run (.seq r t) s = (run r s).flatMap (run t) := rfl

theorem run_opt : run (.opt r) s = run r s ++ [s] := rfl

theorem run_star_eq_iterate : run (.star r) s = iterate (run r) s.rest.length s := rfl

theorem run_group :
    run (.group i r) s = (run r s).map fun t ↦ t.keep i (t.read.drop s.read.length) := rfl

theorem run_stop : run .stop s = if s.rest = [] then [s] else [] := rfl

end

/-- The first place a regular expression comes to. -/
def First (r : Regex) (s t : Cursor) : Prop := (run r s).head? = some t

/-- It comes to none. -/
def Fails (r : Regex) (s : Cursor) : Prop := run r s = []

/-! ### Repetitions -/

/-- At the end of the text no pass reads anything. -/
private theorem iterate_of_nil (body : Cursor → List Cursor) (n : Nat) {s : Cursor}
    (h : s.rest.length = 0) : iterate body n s = [s] := by
  cases n with
  | zero => rfl
  | succ n =>
    have hnone : (body s).filter (fun t ↦ t.rest.length < s.rest.length) = [] := by
      rw [List.filter_eq_nil_iff, h]
      simp
    rw [iterate, hnone]
    rfl

/-- More passes than there are characters left make no difference. -/
private theorem iterate_eq (body : Cursor → List Cursor) (n : Nat) (s : Cursor)
    (h : s.rest.length ≤ n) : iterate body n s = iterate body s.rest.length s := by
  induction n using Nat.strongRecOn generalizing s with
  | ind n ih =>
    cases hlen : s.rest.length with
    | zero => rw [iterate_of_nil body n hlen, iterate_of_nil body 0 hlen]
    | succ m =>
      obtain ⟨n, rfl⟩ : ∃ k, n = k + 1 := ⟨n - 1, by omega⟩
      rw [iterate, iterate]
      congr 1
      apply List.flatMap_congr
      intro t ht
      have hlt : t.rest.length < s.rest.length := of_decide_eq_true (List.mem_filter.mp ht).2
      rw [ih n (by omega) t (by omega), ih m (by omega) t (by omega)]

/-- A repetition makes a pass that reads something, and goes on, or stops. -/
theorem run_star (r : Regex) (s : Cursor) :
    run (.star r) s =
      ((run r s).filter fun t ↦ t.rest.length < s.rest.length).flatMap (run (.star r)) ++ [s] := by
  have hpasses : run (.star r) s = iterate (run r) (s.rest.length + 1) s := by
    rw [run_star_eq_iterate, iterate_eq (run r) (s.rest.length + 1) s (Nat.le_succ _)]
  rw [hpasses, iterate]
  congr 1
  apply List.flatMap_congr
  intro t ht
  have hlt : t.rest.length < s.rest.length := of_decide_eq_true (List.mem_filter.mp ht).2
  rw [run_star_eq_iterate]
  exact iterate_eq (run r) _ t (Nat.le_of_lt hlt)

/-! ### First ways -/

section

variable {r t : Regex} {s s' s'' : Cursor}

/-- One after the other. -/
theorem First.seq (h : First r s s') (h' : First t s' s'') : First (.seq r t) s s'' := by
  rw [First, run_seq]
  obtain ⟨ss, hss⟩ := List.head?_eq_some_iff.mp h
  rw [hss, List.flatMap_cons, List.head?_append, h']
  rfl

/-- An option that is taken. -/
theorem First.opt (h : First r s s') : First (.opt r) s s' := by
  rw [First, run_opt, List.head?_append, h]
  rfl

/-- An option that cannot be taken. -/
theorem Fails.opt (h : Fails r s) : First (.opt r) s s := by
  rw [First, run_opt, h]
  rfl

/-- What fails at its beginning fails. -/
theorem Fails.seq (h : Fails r s) (t : Regex) : Fails (.seq r t) s := by
  rw [Fails, run_seq, h]
  rfl

/-- A group fails with what it reads. -/
theorem Fails.group (h : Fails r s) (i : Nat) : Fails (.group i r) s := by
  rw [Fails, run_group, h]
  rfl

/-- A group keeps what it reads. -/
theorem First.group (h : First r s s') (i : Nat) :
    First (.group i r) s (s'.keep i (s'.read.drop s.read.length)) := by
  rw [First, run_group, List.head?_map, h]
  rfl

/-- A repetition goes on behind a pass that reads something. -/
theorem First.star (h : First r s s') (hlt : s'.rest.length < s.rest.length)
    (h' : First (.star r) s' s'') : First (.star r) s s'' := by
  obtain ⟨ss, hss⟩ := List.head?_eq_some_iff.mp h
  rw [First, run_star, hss, List.filter_cons, if_pos (decide_eq_true hlt), List.flatMap_cons,
    List.append_assoc, List.head?_append, h']
  rfl

/-- A repetition without a pass. -/
theorem Fails.star (h : Fails r s) : First (.star r) s s := by
  rw [First, run_star, h]
  rfl

/-- The start of the text. -/
theorem first_start (text : List Char) : First .start (.atStart text) (.atStart text) := rfl

/-- The end of the text. -/
theorem first_stop (h : s.rest = []) : First .stop s s := by
  rw [First, run_stop, if_pos h]
  rfl

/-- The first way is taken where it ends the text. -/
theorem fullMatch_of_first {text : List Char} (h : First r (.atStart text) s)
    (hend : s.rest = []) : fullMatch r text = some s := by
  obtain ⟨ss, hss⟩ := List.head?_eq_some_iff.mp h
  simp only [fullMatch, hss, List.find?_cons, hend, decide_true]

end

/-! ### Classes of characters -/

section

variable {p : Char → Bool} {s : Cursor}

/-- A character of the class. -/
theorem first_chars {c : Char} {cs : List Char} (hs : s.rest = c :: cs) (hc : p c = true) :
    First (.chars p) s (s.advance [c] cs) := by
  rw [First, run_chars_cons p hs, if_pos hc]
  rfl

/-- Another character, or none. -/
theorem fails_chars (h : ∀ c ∈ s.rest.head?, p c = false) : Fails (.chars p) s := by
  rw [Fails]
  cases hs : s.rest with
  | nil => exact run_chars_nil p hs
  | cons c cs =>
    rw [hs] at h
    rw [run_chars_cons p hs, h c rfl]
    rfl

/-- A repetition of a class first reads all the characters of the class. -/
theorem first_star_chars {w rest : List Char} (hs : s.rest = w ++ rest)
    (hw : ∀ c ∈ w, p c = true) (hrest : ∀ c ∈ rest.head?, p c = false) :
    First (.star (.chars p)) s (s.advance w rest) := by
  induction w generalizing s with
  | nil =>
    have hsame : s.advance [] rest = s := Cursor.advance_nil hs
    rw [hsame]
    apply Fails.star
    apply fails_chars
    rw [hs]
    exact hrest
  | cons c w ih =>
    obtain ⟨hc, hw⟩ := List.forall_mem_cons.mp hw
    have hread := first_chars (s := s) hs hc
    have hlt : (s.advance [c] (w ++ rest)).rest.length < s.rest.length := by
      rw [hs]
      exact Nat.lt_succ_self _
    have hmore := ih (s := s.advance [c] (w ++ rest)) rfl hw
    have hpath : (s.advance [c] (w ++ rest)).advance w rest = s.advance (c :: w) rest :=
      s.advance_advance [c] w _ _
    rw [← hpath]
    exact First.star hread hlt hmore

/-- A repetition of a class, once at least. -/
theorem first_plus_chars {w rest : List Char} (hne : w ≠ []) (hs : s.rest = w ++ rest)
    (hw : ∀ c ∈ w, p c = true) (hrest : ∀ c ∈ rest.head?, p c = false) :
    First (.plus (.chars p)) s (s.advance w rest) := by
  obtain ⟨c, w, rfl⟩ := List.exists_cons_of_ne_nil hne
  obtain ⟨hc, hw⟩ := List.forall_mem_cons.mp hw
  have hmore := first_star_chars (s := s.advance [c] (w ++ rest)) rfl hw hrest
  rw [Cursor.advance_advance] at hmore
  exact (first_chars hs hc).seq hmore

/-- A repetition of a class by its first pass. -/
theorem run_star_chars {c : Char} {cs : List Char} (hs : s.rest = c :: cs) :
    run (.star (.chars p)) s =
      (if p c then run (.star (.chars p)) (s.advance [c] cs) else []) ++ [s] := by
  rw [run_star]
  congr 1
  rw [run_chars_cons p hs, hs]
  by_cases hc : p c = true
  · have hlt : (s.advance [c] cs).rest.length < (c :: cs).length := Nat.lt_succ_self _
    simp only [if_pos hc, List.filter_cons, if_pos (decide_eq_true hlt), List.filter_nil,
      List.flatMap_cons, List.flatMap_nil, List.append_nil]
  · simp only [if_neg hc, List.filter_nil, List.flatMap_nil]

/-- At the end of the text there is nothing to repeat. -/
theorem run_star_chars_nil (hs : s.rest = []) : run (.star (.chars p)) s = [s] := by
  rw [run_star, run_chars_nil p hs]
  rfl

/-- A repetition of a class takes all the characters of the class where what follows fails before
any of them. -/
theorem flatMap_star_chars {β : Type} {f : Cursor → List β}
    (hf : ∀ t : Cursor, (∃ c ∈ t.rest.head?, p c = true) → f t = []) {w rest : List Char}
    (hs : s.rest = w ++ rest) (hw : ∀ c ∈ w, p c = true) (hrest : ∀ c ∈ rest.head?, p c = false) :
    (run (.star (.chars p)) s).flatMap f = f (s.advance w rest) := by
  induction w generalizing s with
  | nil =>
    have hsame : s.advance [] rest = s := Cursor.advance_nil hs
    have hnone : run (.star (.chars p)) s = [s] := by
      cases hr : rest with
      | nil => exact run_star_chars_nil (by rw [hs, hr]; rfl)
      | cons c cs =>
        have hc : p c = false := hrest c (by rw [hr]; rfl)
        rw [run_star_chars (by rw [hs, hr]; rfl), hc]
        rfl
    rw [hnone, hsame, List.flatMap_cons, List.flatMap_nil, List.append_nil]
  | cons c w ih =>
    obtain ⟨hc, hw⟩ := List.forall_mem_cons.mp hw
    have hcons : s.rest = c :: (w ++ rest) := hs
    have hmore := ih (s := s.advance [c] (w ++ rest)) rfl hw
    have hpath : (s.advance [c] (w ++ rest)).advance w rest = s.advance (c :: w) rest :=
      s.advance_advance [c] w _ _
    have hback : f s = [] := hf s ⟨c, by rw [hcons]; rfl, hc⟩
    rw [run_star_chars hcons, if_pos hc, List.flatMap_append, hmore, hpath, List.flatMap_cons,
      hback, List.flatMap_nil, List.append_nil, List.append_nil]

/-- A group of characters of a class takes all there are, where what follows fails before any of
them. -/
theorem run_seq_group_plus {t : Regex} {i : Nat}
    (ht : ∀ u : Cursor, (∃ c ∈ u.rest.head?, p c = true) → Fails t u) {w rest : List Char}
    (hs : s.rest = w ++ rest) (hne : w ≠ []) (hw : ∀ c ∈ w, p c = true)
    (hrest : ∀ c ∈ rest.head?, p c = false) :
    run (.seq (.group i (.plus (.chars p))) t) s = run t ((s.advance w rest).keep i w) := by
  obtain ⟨c, w, rfl⟩ := List.exists_cons_of_ne_nil hne
  obtain ⟨hc, hw⟩ := List.forall_mem_cons.mp hw
  have hcons : s.rest = c :: (w ++ rest) := hs
  have hfirst : run (.chars p) s = [s.advance [c] (w ++ rest)] := by
    rw [run_chars_cons p hcons]
    exact if_pos hc
  have hpath : (s.advance [c] (w ++ rest)).advance w rest = s.advance (c :: w) rest :=
    s.advance_advance [c] w _ _
  have hkept : (s.advance (c :: w) rest).read.drop s.read.length = c :: w := List.drop_left
  have hstar := flatMap_star_chars (s := s.advance [c] (w ++ rest)) (p := p)
    (f := fun u ↦ run t (u.keep i (u.read.drop s.read.length))) (fun u hu ↦ ht _ hu) rfl hw hrest
  rw [hpath, hkept] at hstar
  rw [run_seq, run_group, plus, run_seq, hfirst, List.flatMap_cons, List.flatMap_nil,
    List.append_nil, List.flatMap_map]
  exact hstar

/-- A text as it stands. -/
theorem run_lit (w : List Char) (s : Cursor) :
    run (lit w) s = if w <+: s.rest then [s.advance w (s.rest.drop w.length)] else [] := by
  induction w generalizing s with
  | nil =>
    rw [if_pos List.nil_prefix, Cursor.advance, List.append_nil]
    rfl
  | cons c w ih =>
    rw [lit, run_seq]
    cases hs : s.rest with
    | nil =>
      rw [run_chars_nil _ hs]
      simp
    | cons d ds =>
      rw [run_chars_cons _ hs]
      by_cases hd : d = c
      · rw [hd]
        simp only [decide_true, if_true, List.flatMap_cons, List.flatMap_nil, List.append_nil, ih,
          List.cons_prefix_cons, true_and]
        simp only [Cursor.advance, List.append_assoc, List.singleton_append, List.length_cons,
          List.drop_succ_cons]
      · have hne : ¬ (c :: w <+: d :: ds) := fun h ↦ hd (List.cons_prefix_cons.mp h).1.symm
        simp only [hd, decide_false, Bool.false_eq_true, if_false, List.flatMap_nil, if_neg hne]

/-- A repetition of a class that is to end with one character of another first leaves it the last
character of the text. -/
theorem first_star_chars_last {q : Char → Bool} {w : List Char} {c : Char}
    (hs : s.rest = w ++ [c]) (hw : ∀ c ∈ w, p c = true) (hc : q c = true) :
    First (.seq (.star (.chars p)) (.chars q)) s (s.advance (w ++ [c]) []) := by
  induction w generalizing s with
  | nil =>
    have hread : run (.chars q) s = [s.advance [c] []] := by
      rw [run_chars_cons q hs]
      exact if_pos hc
    rw [First, run_seq, run_star_chars hs]
    by_cases hp : p c = true
    · have hend : run (.chars q) (s.advance [c] []) = [] := rfl
      rw [if_pos hp, run_star_chars_nil rfl]
      simp only [List.cons_append, List.nil_append, List.flatMap_cons, List.flatMap_nil, hend,
        hread, List.append_nil, List.head?_cons]
    · simp only [if_neg hp, List.nil_append, List.flatMap_cons, List.flatMap_nil, hread,
        List.append_nil, List.head?_cons]
  | cons d w ih =>
    obtain ⟨hd, hw⟩ := List.forall_mem_cons.mp hw
    have hmore := ih (s := s.advance [d] (w ++ [c])) rfl hw
    have hpath : (s.advance [d] (w ++ [c])).advance (w ++ [c]) [] =
        s.advance (d :: w ++ [c]) [] :=
      s.advance_advance [d] (w ++ [c]) _ _
    have hcons : s.rest = d :: (w ++ [c]) := hs
    rw [hpath, First, run_seq] at hmore
    rw [First, run_seq, run_star_chars hcons, if_pos hd, List.flatMap_append, List.head?_append,
      hmore]
    rfl

end

/-! ### Searching -/

/-- The place in a text behind so many characters, nothing kept. -/
def placeAt (read text : List Char) (k : Nat) : Cursor :=
  { read := read ++ text.take k, rest := text.drop k, groups := fun _ ↦ none }

/-- The place at which a search begins. -/
private theorem placeAt_zero (read text : List Char) :
    placeAt read text 0 = { read := read, rest := text, groups := fun _ ↦ none } := by
  rw [placeAt, List.take_zero, List.append_nil]
  rfl

/-- A place behind the first character. -/
private theorem placeAt_succ (read cs : List Char) (c : Char) (k : Nat) :
    placeAt read (c :: cs) (k + 1) = placeAt (read ++ [c]) cs k := by
  simp only [placeAt, List.take_succ_cons, List.drop_succ_cons, List.append_assoc,
    List.singleton_append]

/-- A search finds the first way from the first place that has one. -/
theorem search_eq_some {r : Regex} {read text : List Char} {k : Nat} {t : Cursor}
    (hk : k ≤ text.length) (h : First r (placeAt read text k) t)
    (hfirst : ∀ j < k, Fails r (placeAt read text j)) : search r read text = some t := by
  induction text generalizing read k with
  | nil =>
    rw [Nat.le_zero.mp hk, placeAt_zero] at h
    exact h
  | cons c cs ih =>
    rw [search, ← placeAt_zero]
    cases k with
    | zero =>
      rw [First] at h
      rw [h]
      rfl
    | succ k =>
      have hzero := hfirst 0 (Nat.zero_lt_succ k)
      rw [Fails] at hzero
      rw [placeAt_succ] at h
      rw [hzero]
      apply ih (Nat.le_of_succ_le_succ hk) h
      intro j hj
      rw [← placeAt_succ]
      exact hfirst (j + 1) (Nat.succ_lt_succ hj)

/-- Without a way from any place a search finds nothing. -/
theorem search_eq_none {r : Regex} {read text : List Char}
    (h : ∀ k ≤ text.length, Fails r (placeAt read text k)) : search r read text = none := by
  induction text generalizing read with
  | nil =>
    have hzero := h 0 (Nat.le_refl 0)
    rw [Fails, placeAt_zero] at hzero
    rw [search, hzero]
    rfl
  | cons c cs ih =>
    have hzero := h 0 (Nat.zero_le _)
    rw [Fails, placeAt_zero] at hzero
    rw [search, hzero]
    apply ih
    intro k hk
    rw [← placeAt_succ]
    exact h (k + 1) (Nat.succ_le_succ hk)

end Regex

end IcsGateway.Lib
