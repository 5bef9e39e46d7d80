import IcsGateway.Common.StrTo
import IcsGateway.Lib.Backtracking

/-!
# Hosts and ports

`ComUtil::parseHost` takes a host, and a port behind it, apart with a regular expression of three
groups: the host, a path, and the port (`Common/ComUtil.cpp:564`). It reads the port from the
second group, which is where the engine puts it, and does the same with a path.
-/

namespace IcsGateway.ComUtil

open Lib

/-! ### The expression -/

/-- `\w`. -/
def isWord (c : Char) : Bool := c.isAlphanum || c = '_'

/-- `[\w_\-]`. -/
def isHostChar (c : Char) : Bool := isWord c || c = '_' || c = '-'

/-- `[\w.,@?^=%&:/~\+#\-]`. -/
def isPathChar (c : Char) : Bool :=
  isWord c ||
    ['.', ',', '@', '?', '^', '=', '%', '&', ':', '/', '~', '+', '#', '-'].contains c

/-- `[\w@?^=%&/~\+#\-]`. -/
def isPathEnd (c : Char) : Bool :=
  isWord c || ['@', '?', '^', '=', '%', '&', '/', '~', '+', '#', '-'].contains c

/-- `[\w_\-]+(?:(?:\.[\w_\-]+)+)`. -/
def hostPart : Regex :=
  .seq (.plus (.chars isHostChar)) (.plus (.seq (.chars (· = '.')) (.plus (.chars isHostChar))))

/-- `[\w.,@?^=%&:/~\+#\-]*[\w@?^=%&/~\+#\-]`. -/
def pathPart : Regex := .seq (.star (.chars isPathChar)) (.chars isPathEnd)

/-- `:[0-9]+`. -/
def portPart : Regex := .seq (.chars (· = ':')) (.plus (.chars Char.isDigit))

/-- The expression of `parseHost`. -/
def hostExp : Regex :=
  .seq .start (.seq (.group 1 hostPart) (.seq (.opt (.group 2 pathPart))
    (.seq (.opt (.group 3 portPart)) .stop)))

/-- `ComUtil::parseHost`, with what it leaves in `host` and `port`; `Common/ComUtil.cpp:564`. -/
def parseHost (guarded : Bool) (memory : Int32) (addr host : COMStr) (port : Int32) :
    Bool × COMStr × Int32 :=
  match Regex.fullMatch hostExp addr.toList with
  | some m =>
    (true, String.ofList (m.str 1),
      if m.str 2 = [] then 0
      else strToInt guarded memory (String.ofList ((m.str 2).drop 1)) 0)
  | none => (false, host, port)

/-! ### Hosts, ports and paths -/

/-- A part of a host name. -/
def IsLabel (l : List Char) : Prop := l ≠ [] ∧ ∀ c ∈ l, isHostChar c = true

/-- A host name: two parts or more with dots between them. -/
def HostName (h : List Char) : Prop :=
  ∃ l ls, h = l ++ ls.flatMap ('.' :: ·) ∧ IsLabel l ∧ ls ≠ [] ∧ ∀ l ∈ ls, IsLabel l

/-- A path: a slash, and letters, digits, underscores and slashes. -/
def IsPath (t : List Char) : Prop :=
  ∃ tail, t = '/' :: tail ∧ ∀ c ∈ tail, c.isAlphanum = true ∨ c = '_' ∨ c = '/'

/-- A host alone and before a path has port 0, before a port that port. -/
def ParseHostRight (guarded : Bool) (h : List Char) (p : Nat) (t : List Char) : Prop :=
  ∀ memory host port,
    parseHost guarded memory (String.ofList h) host port = (true, String.ofList h, 0) ∧
    parseHost guarded memory (String.ofList (h ++ ':' :: Nat.toDigits 10 p)) host port =
      (true, String.ofList h, Int32.ofNat p) ∧
    parseHost guarded memory (String.ofList (h ++ t)) host port = (true, String.ofList h, 0)

/-! ### What the expression reads -/

open Regex

/-- A part with the dot before it. -/
private theorem first_dotted {s : Cursor} {l rest : List Char} (hs : s.rest = '.' :: l ++ rest)
    (hl : IsLabel l) (hrest : ∀ c ∈ rest.head?, isHostChar c = false) :
    First (.seq (.chars (· = '.')) (.plus (.chars isHostChar))) s
      (s.advance ('.' :: l) rest) := by
  have hdot : First (.chars (· = '.')) s (s.advance ['.'] (l ++ rest)) :=
    first_chars hs (decide_eq_true rfl)
  have hlabel := first_plus_chars (s := s.advance ['.'] (l ++ rest)) hl.1 rfl hl.2 hrest
  rw [Cursor.advance_advance] at hlabel
  exact hdot.seq hlabel

/-- Before a dot, and at the end of a host, a part ends. -/
private theorem head_dotted {ls : List (List Char)} {rest : List Char}
    (hrest : ∀ c ∈ rest.head?, isHostChar c = false ∧ c ≠ '.') :
    ∀ c ∈ (ls.flatMap ('.' :: ·) ++ rest).head?, isHostChar c = false := by
  intro c hc
  cases ls with
  | nil => exact (hrest c hc).1
  | cons l ls =>
    cases hc
    decide

/-- The parts behind the first. -/
private theorem first_star_dotted {ls : List (List Char)} (hls : ∀ l ∈ ls, IsLabel l)
    {s : Cursor} {rest : List Char} (hs : s.rest = ls.flatMap ('.' :: ·) ++ rest)
    (hrest : ∀ c ∈ rest.head?, isHostChar c = false ∧ c ≠ '.') :
    First (.star (.seq (.chars (· = '.')) (.plus (.chars isHostChar)))) s
      (s.advance (ls.flatMap ('.' :: ·)) rest) := by
  induction ls generalizing s with
  | nil =>
    have hsame : s.advance [] rest = s := Cursor.advance_nil hs
    rw [List.flatMap_nil, hsame]
    apply Fails.star
    apply Fails.seq
    apply fails_chars
    rw [hs]
    intro c hc
    exact decide_eq_false (hrest c hc).2
  | cons l ls ih =>
    obtain ⟨hl, hls⟩ := List.forall_mem_cons.mp hls
    rw [List.flatMap_cons, List.append_assoc] at hs
    have hpart := first_dotted hs hl (head_dotted hrest)
    have hmore := ih hls (s := s.advance ('.' :: l) (ls.flatMap ('.' :: ·) ++ rest)) rfl
    have hlt : (s.advance ('.' :: l) (ls.flatMap ('.' :: ·) ++ rest)).rest.length <
        s.rest.length := by
      rw [hs, List.length_append, List.length_cons]
      show (ls.flatMap ('.' :: ·) ++ rest).length < _
      omega
    rw [Cursor.advance_advance] at hmore
    exact hpart.star hlt hmore

/-- A host is read to its end. -/
theorem first_hostPart {s : Cursor} {h rest : List Char} (hh : HostName h)
    (hs : s.rest = h ++ rest) (hrest : ∀ c ∈ rest.head?, isHostChar c = false ∧ c ≠ '.') :
    First hostPart s (s.advance h rest) := by
  obtain ⟨l, ls, rfl, hl, hne, hls⟩ := hh
  obtain ⟨l', ls, rfl⟩ := List.exists_cons_of_ne_nil hne
  obtain ⟨hl', hls⟩ := List.forall_mem_cons.mp hls
  rw [List.append_assoc] at hs
  have hlabel := first_plus_chars hl.1 hs hl.2 (head_dotted hrest)
  have hdotted : (s.advance l ((l' :: ls).flatMap ('.' :: ·) ++ rest)).rest =
      '.' :: l' ++ (ls.flatMap ('.' :: ·) ++ rest) := by
    rw [List.flatMap_cons, List.append_assoc]
    rfl
  have hpart := first_dotted hdotted hl' (head_dotted hrest)
  have hmore := first_star_dotted hls (s := (s.advance l ((l' :: ls).flatMap ('.' :: ·) ++
    rest)).advance ('.' :: l') (ls.flatMap ('.' :: ·) ++ rest)) rfl hrest
  have hpath : ((s.advance l ((l' :: ls).flatMap ('.' :: ·) ++ rest)).advance ('.' :: l')
        (ls.flatMap ('.' :: ·) ++ rest)).advance (ls.flatMap ('.' :: ·)) rest =
      s.advance (l ++ (l' :: ls).flatMap ('.' :: ·)) rest := by
    rw [Cursor.advance_advance, Cursor.advance_advance, List.flatMap_cons]
  rw [hpath] at hmore
  exact hlabel.seq (hpart.seq hmore)

/-! ### What `parseHost` makes of it -/

/-- The second group takes all that is left. -/
private theorem first_path {s : Cursor} {suffix : List Char} (hs : s.rest = suffix)
    (hgroup : s.groups 2 = none) (hchars : ∀ c ∈ suffix, isPathChar c = true)
    (hlast : ∀ c ∈ suffix.getLast?, isPathEnd c = true) :
    ∃ t, First (.opt (.group 2 pathPart)) s t ∧ t.rest = [] ∧ t.str 1 = s.str 1 ∧
      t.str 2 = suffix := by
  cases hsuffix : suffix.reverse with
  | nil =>
    rw [List.reverse_eq_nil_iff] at hsuffix
    rw [hsuffix] at hs ⊢
    have hfails : Fails pathPart s := by
      rw [Fails, pathPart, run_seq, run_star_chars_nil hs, List.flatMap_cons, List.flatMap_nil,
        run_chars_nil _ hs]
      rfl
    refine ⟨s, (hfails.group 2).opt, hs, rfl, ?_⟩
    rw [Cursor.str, hgroup]
    rfl
  | cons c w =>
    have hw : suffix = w.reverse ++ [c] := by
      rw [← List.reverse_reverse suffix, hsuffix, List.reverse_cons]
    have hc : isPathEnd c = true := by
      apply hlast
      rw [hw, List.getLast?_append, List.getLast?_singleton]
      rfl
    have hall : ∀ d ∈ w.reverse, isPathChar d = true := fun d hd ↦
      hchars d (by rw [hw]; exact List.mem_append_left _ hd)
    have hpath : First pathPart s _ := first_star_chars_last (hs.trans hw) hall hc
    refine ⟨_, (hpath.group 2).opt, rfl, ?_, ?_⟩
    · simp [Cursor.str, Cursor.keep, Cursor.advance]
    · simp [Cursor.str, Cursor.keep, Cursor.advance, hw]

/-- A host with something behind it that a path may hold: nothing is left for the third group. -/
theorem parseHost_append (guarded : Bool) (memory : Int32) {h : List Char} (hh : HostName h)
    (suffix : List Char) (hhead : ∀ c ∈ suffix.head?, isHostChar c = false ∧ c ≠ '.')
    (hchars : ∀ c ∈ suffix, isPathChar c = true) (hlast : ∀ c ∈ suffix.getLast?, isPathEnd c = true)
    (host : COMStr) (port : Int32) :
    parseHost guarded memory (String.ofList (h ++ suffix)) host port =
      (true, String.ofList h,
        if suffix = [] then 0
        else strToInt guarded memory (String.ofList (suffix.drop 1)) 0) := by
  have hhost := (first_hostPart (s := .atStart (h ++ suffix)) hh rfl hhead).group 1
  have hleft : (((Cursor.atStart (h ++ suffix)).advance h suffix).keep 1 h).rest = suffix := rfl
  obtain ⟨t, hpath, hrest, hgroup1, hgroup2⟩ := first_path hleft rfl hchars hlast
  have hport : First (.opt (.group 3 portPart)) t t := by
    apply Fails.opt
    apply Fails.group
    apply Fails.seq
    apply fails_chars
    simp [hrest]
  have hall : First hostExp (.atStart (h ++ suffix)) t :=
    (first_start _).seq (hhost.seq (hpath.seq (hport.seq (first_stop hrest))))
  have hkept : t.str 1 = h := by
    rw [hgroup1]
    simp [Cursor.str, Cursor.keep]
  rw [parseHost, String.toList_ofList, fullMatch_of_first hall hrest]
  simp only [hkept, hgroup2]

/-- The characters of a path are neither white space nor signs. -/
private theorem path_char {c : Char} (h : c.isAlphanum = true ∨ c = '_' ∨ c = '/') :
    isspace c = false ∧ c ≠ '+' ∧ c ≠ '-' := by
  have hcode : 47 ≤ c.toNat := by
    rcases h with halnum | rfl | rfl
    · rcases (Bool.or_eq_true _ _).mp halnum with halpha | hdigit
      · rcases (Bool.or_eq_true _ _).mp halpha with hupper | hlower
        · have hge : 'A'.val ≤ c.val := (of_decide_eq_true hupper).1
          have hge : 65 ≤ c.toNat := hge
          omega
        · have hge : 97 ≤ c.toNat := of_decide_eq_true (Bool.and_eq_true_iff.mp hlower).1
          omega
      · have hge : 48 ≤ c.toNat := of_decide_eq_true (Bool.and_eq_true_iff.mp hdigit).1
        omega
    · decide
    · decide
  have hspace : isspace c = false := by
    apply eq_false_of_ne_true
    intro hspace
    have hle := le_of_isspace hspace
    omega
  refine ⟨hspace, ?_, ?_⟩
  · rintro rfl
    exact absurd hcode (by decide)
  · rintro rfl
    exact absurd hcode (by decide)

/-- A text of letters, digits, underscores and slashes as a number: what the stack held of none,
its digits' of digits alone, and else the default. -/
private theorem strToInt_tail (guarded : Bool) (memory : Int32) {tail : List Char}
    (htail : ∀ c ∈ tail, c.isAlphanum = true ∨ c = '_' ∨ c = '/') :
    strToInt guarded memory (String.ofList tail) 0 =
      if tail = [] then memory
      else if tail.dropWhile Char.isDigit = [] then
        (intOfDigits false (Nat.ofDigitChars 10 tail 0)).1
      else 0 := by
  have hsplit : tail.takeWhile Char.isDigit ++ tail.dropWhile Char.isDigit = tail :=
    List.takeWhile_append_dropWhile
  have hmem : ∀ c ∈ tail.dropWhile Char.isDigit, isspace c = false ∧ c ≠ '+' ∧ c ≠ '-' :=
    fun c hc ↦ path_char (htail c (hsplit ▸ List.mem_append_right _ hc))
  have hcut : Cut isspace (String.ofList tail).toList [] none (tail.takeWhile Char.isDigit)
      (tail.dropWhile Char.isDigit) := by
    constructor
    · rw [String.toList_ofList]
      exact hsplit.symm
    · simp
    · exact fun c hc ↦ List.mem_takeWhile_imp hc
    · intro c hc
      have hnot := List.head?_dropWhile_not Char.isDigit tail
      rw [hc] at hnot
      exact eq_false_of_ne_true (by simpa using hnot)
    · exact fun _ _ c hc ↦ hmem c (List.mem_of_mem_head? hc)
  rw [strToInt_of_cut hcut]
  by_cases hrest : tail.dropWhile Char.isDigit = []
  · rw [hrest, List.append_nil] at hsplit
    rw [hrest, hsplit]
    by_cases htail : tail = []
    · rw [if_pos ⟨htail, rfl, rfl⟩, if_pos htail]
    · have hne : ¬ (tail = [] ∧ (none : Option Bool) = none ∧ ([] : List Char) = []) :=
        fun hn ↦ htail hn.1
      rw [if_neg htail, if_neg hne, if_pos (.inl rfl), if_neg htail, if_pos rfl]
      rfl
  · have htail : tail ≠ [] := by
      rintro rfl
      exact hrest rfl
    obtain ⟨c, cs, hcs⟩ := List.exists_cons_of_ne_nil hrest
    have hblank : ¬ Blank (tail.dropWhile Char.isDigit) := by
      intro hblank
      have hc := List.mem_of_mem_head? (by rw [hcs]; rfl : c ∈ (tail.dropWhile Char.isDigit).head?)
      have hspace := hblank c hc
      rw [(hmem c hc).1] at hspace
      cases hspace
    rw [if_neg htail, if_neg hrest, if_neg fun hn ↦ hrest hn.2.2,
      if_neg fun hn ↦ hn.elim hrest fun hb ↦ hblank hb.1]

/-- The numeral of a port. -/
private theorem strToInt_port (guarded : Bool) (memory : Int32) {p : Nat} (hp : p ≤ 65535) :
    strToInt guarded memory (String.ofList (Nat.toDigits 10 p)) 0 = Int32.ofNat p := by
  have hdigits : ∀ c ∈ Nat.toDigits 10 p, c.isDigit = true := fun c hc ↦
    Nat.isDigit_of_mem_toDigits (by decide) (by decide) hc
  have htail : ∀ c ∈ Nat.toDigits 10 p, c.isAlphanum = true ∨ c = '_' ∨ c = '/' := fun c hc ↦
    .inl ((Bool.or_eq_true _ _).mpr (.inr (hdigits c hc)))
  rw [strToInt_tail guarded memory htail, if_neg Nat.toDigits_ne_nil,
    if_pos (List.dropWhile_eq_nil_iff.mpr hdigits), Nat.ofDigitChars_ten_toDigits]
  have hlow : ¬ (p : Int) < -2 ^ 31 := by omega
  have hhigh : ¬ 2 ^ 31 - 1 < (p : Int) := by omega
  simp only [intOfDigits, Bool.false_eq_true, if_false, if_neg hlow, if_neg hhigh]
  rfl

/-- Digits give zero only where they denote it. -/
private theorem intOfDigits_eq_zero_iff (n : Nat) : (intOfDigits false n).1 = 0 ↔ n = 0 := by
  have hlow : ¬ (n : Int) < -2 ^ 31 := by omega
  by_cases hhigh : 2 ^ 31 - 1 < (n : Int)
  · simp only [intOfDigits, Bool.false_eq_true, if_false, if_neg hlow, if_pos hhigh]
    have hne : n ≠ 0 := by omega
    simp only [hne, iff_false]
    decide
  · simp only [intOfDigits, Bool.false_eq_true, if_false, if_neg hlow, if_neg hhigh]
    have hvalue : (Int32.ofInt n).toInt = n := Int32.toInt_ofInt_of_le (by omega) (by omega)
    rw [← Int32.toInt_inj, hvalue]
    exact Int.natCast_eq_zero

/-! ### When it is right -/

/-- A path and a port may stand in the second group. -/
private theorem path_suffix {c : Char} (h : c.isAlphanum = true ∨ c = '_' ∨ c = '/') :
    isPathChar c = true ∧ isPathEnd c = true := by
  rcases h with halnum | rfl | rfl
  · simp [isPathChar, isPathEnd, isWord, halnum]
  · decide
  · decide

section

variable {h : List Char} (hh : HostName h) (guarded : Bool) (memory : Int32) (host : COMStr)
  (port : Int32)

include hh

/-- A host alone. -/
private theorem parseHost_host :
    parseHost guarded memory (String.ofList h) host port = (true, String.ofList h, 0) := by
  have happend := parseHost_append guarded memory hh [] (by simp) (by simp) (by simp) host port
  rw [List.append_nil, if_pos rfl] at happend
  exact happend

/-- A host with a port. -/
private theorem parseHost_port {p : Nat} (hp : p ≤ 65535) :
    parseHost guarded memory (String.ofList (h ++ ':' :: Nat.toDigits 10 p)) host port =
      (true, String.ofList h, Int32.ofNat p) := by
  have hdigits : ∀ c ∈ Nat.toDigits 10 p, c.isAlphanum = true ∨ c = '_' ∨ c = '/' := fun c hc ↦
    .inl ((Bool.or_eq_true _ _).mpr (.inr (Nat.isDigit_of_mem_toDigits (by decide) (by decide) hc)))
  have hchars : ∀ c ∈ ':' :: Nat.toDigits 10 p, isPathChar c = true :=
    List.forall_mem_cons.mpr ⟨by decide, fun c hc ↦ (path_suffix (hdigits c hc)).1⟩
  have hlast : ∀ c ∈ (':' :: Nat.toDigits 10 p).getLast?, isPathEnd c = true := by
    intro c hc
    rw [List.getLast?_cons_of_ne_nil Nat.toDigits_ne_nil] at hc
    exact (path_suffix (hdigits c (List.mem_of_mem_getLast? hc))).2
  have hhead : ∀ c ∈ (':' :: Nat.toDigits 10 p).head?, isHostChar c = false ∧ c ≠ '.' := by
    intro c hc
    cases hc
    decide
  rw [parseHost_append guarded memory hh _ hhead hchars hlast, if_neg (List.cons_ne_nil _ _),
    List.drop_one, List.tail_cons, strToInt_port guarded memory hp]

/-- A host with a path. -/
private theorem parseHost_path {t : List Char} (ht : IsPath t) :
    parseHost guarded memory (String.ofList (h ++ t)) host port =
      (true, String.ofList h,
        if t.tail = [] then memory
        else if t.tail.dropWhile Char.isDigit = [] then
          (intOfDigits false (Nat.ofDigitChars 10 t.tail 0)).1
        else 0) := by
  obtain ⟨tail, rfl, htail⟩ := ht
  have hall : ∀ c ∈ '/' :: tail, c.isAlphanum = true ∨ c = '_' ∨ c = '/' :=
    List.forall_mem_cons.mpr ⟨.inr (.inr rfl), htail⟩
  have hhead : ∀ c ∈ ('/' :: tail).head?, isHostChar c = false ∧ c ≠ '.' := by
    intro c hc
    cases hc
    decide
  rw [parseHost_append guarded memory hh _ hhead (fun c hc ↦ (path_suffix (hall c hc)).1)
    (fun c hc ↦ (path_suffix (hall c (List.mem_of_mem_getLast? hc))).2),
    if_neg (List.cons_ne_nil _ _), List.drop_one, List.tail_cons,
    strToInt_tail guarded memory htail]

end

/-- `parseHost` takes a host, a host with a port and a host with a path apart exactly when the
path is more than a slash, and, if only digits follow the slash, these denote zero. -/
theorem parseHost_right_iff (guarded : Bool) {h : List Char} {p : Nat} {t : List Char}
    (hh : HostName h) (hp : 1 ≤ p ∧ p ≤ 65535) (ht : IsPath t) :
    ParseHostRight guarded h p t ↔
      t.tail ≠ [] ∧ (t.tail.all Char.isDigit = true → Nat.ofDigitChars 10 t.tail 0 = 0) := by
  have hdrop : t.tail.dropWhile Char.isDigit = [] ↔ t.tail.all Char.isDigit = true := by
    rw [List.dropWhile_eq_nil_iff, List.all_eq_true]
  simp only [ParseHostRight, parseHost_host hh, parseHost_port hh _ _ _ _ hp.2,
    parseHost_path hh _ _ _ _ ht, hdrop, true_and, Prod.mk.injEq]
  by_cases htail : t.tail = []
  · simp only [htail, if_true, ne_eq, not_true, false_and, iff_false]
    intro hmemory
    exact absurd (hmemory 1 "" 0) (by decide)
  · simp only [htail, if_false, ne_eq, not_false_iff, true_and]
    by_cases hall : t.tail.all Char.isDigit = true
    · simp only [hall, if_true, true_implies, intOfDigits_eq_zero_iff]
      exact ⟨fun hzero ↦ hzero 0 "" 0, fun hzero _ _ _ ↦ hzero⟩
    · simp only [hall, Bool.false_eq_true, if_false, false_implies, implies_true]

/-- The host of the examples. -/
private theorem hostName_ab : HostName ['a', '.', 'b'] :=
  ⟨['a'], [['b']], rfl, by simp [IsLabel, isHostChar, isWord], by simp,
    by simp [IsLabel, isHostChar, isWord]⟩

/-- A host, a port and a path of letters. -/
theorem parseHost_right_path :
    ParseHostRight true ['a', '.', 'b'] 8080 ['/', 'u', 'p', '/', 'v', '2'] := by
  rw [parseHost_right_iff true hostName_ab (by decide)
    ⟨['u', 'p', '/', 'v', '2'], rfl, by simp⟩]
  exact ⟨by simp, fun hall ↦ absurd hall (by decide)⟩

/-- A path that is a slash gives what the stack held for the port. -/
theorem not_parseHostRight_slash :
    ¬ ∀ (guarded : Bool) (h : List Char) (p : Nat) (t : List Char), HostName h →
      1 ≤ p ∧ p ≤ 65535 → IsPath t → ParseHostRight guarded h p t := by
  intro hall
  have hpath : IsPath ['/'] := ⟨[], rfl, by simp⟩
  have hright := (hall true _ 80 _ hostName_ab (by decide) hpath 7 "" 0).2.2
  rw [parseHost_path hostName_ab _ _ _ _ hpath] at hright
  have hport : (7 : Int32) = 0 := congrArg (fun r ↦ r.2.2) hright
  exact absurd hport (by decide)

end IcsGateway.ComUtil
