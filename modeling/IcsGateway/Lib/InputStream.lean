import Mathlib.Data.List.TakeWhile

/-!
# Input streams

A stream of characters with its flags, and the operators that read from it. One flag is set by
looking for a character behind the last, the other by an operator that reads nothing it can use;
on a stream with a flag the operators only set the second.
-/

namespace IcsGateway.Lib

/-- A stream: what is left to read, and the flags of the end and of failure. -/
structure InputStream where
  rest : List Char
  eof : Bool
  fail : Bool
  deriving DecidableEq, Repr

/-- A sign that is written, `true` for minus. -/
def signText : Option Bool → List Char
  | none => []
  | some false => ['+']
  | some true => ['-']

namespace InputStream

variable (space : Char → Bool)

/-- A text to read. -/
def ofText (cs : List Char) : InputStream := { rest := cs, eof := false, fail := false }

/-- No flag is set. -/
def good (s : InputStream) : Bool := !s.eof && !s.fail

/-- The manipulator that passes over blanks. A `guarded` one leaves a stream with a flag alone, as
the operators do; the other reads on. -/
def ws (guarded : Bool) (s : InputStream) : InputStream :=
  if guarded && !s.good then { s with fail := true }
  else
    let rest := s.rest.dropWhile space
    { rest := rest, eof := s.eof || rest.isEmpty, fail := s.fail }

/-- What an operator does first: it passes over blanks. The result tells whether it goes on. -/
def sentry (s : InputStream) : Bool × InputStream :=
  if s.good then
    match s.rest.dropWhile space with
    | [] => (false, { rest := [], eof := true, fail := true })
    | c :: cs => (true, ofText (c :: cs))
  else (false, { s with fail := true })

/-- The sign at the front, if there is one, and what follows. -/
def takeSign : List Char → Option Bool × List Char
  | [] => (none, [])
  | c :: cs => if c = '+' then (some false, cs) else if c = '-' then (some true, cs)
    else (none, c :: cs)

variable {α : Type}

/-- The operator for numbers: a sign and digits, of which `convert` makes the value and tells
whether it is out of range. Without digits the value is `zero`. -/
def extract (convert : Bool → Nat → α × Bool) (zero old : α) (s : InputStream) :
    α × InputStream :=
  let (ok, s) := sentry space s
  if ok then
    let (sg, cs) := takeSign s.rest
    let ds := cs.takeWhile Char.isDigit
    let rest := cs.dropWhile Char.isDigit
    if ds = [] then (zero, { rest := rest, eof := rest.isEmpty, fail := true })
    else
      let (v, failed) := convert (sg == some true) (Nat.ofDigitChars 10 ds 0)
      (v, { rest := rest, eof := rest.isEmpty, fail := failed })
  else (old, s)

/-- The operator for words. -/
def extractWord (old : List Char) (s : InputStream) : List Char × InputStream :=
  let (ok, s) := sentry space s
  if ok then
    let rest := s.rest.dropWhile (!space ·)
    (s.rest.takeWhile (!space ·), { rest := rest, eof := rest.isEmpty, fail := false })
  else (old, s)

end InputStream

/-! ### Texts cut at a number -/

/-- A text cut into blanks, a sign, digits and what follows them. -/
structure Cut (space : Char → Bool) (cs ws : List Char) (sg : Option Bool) (ds rest : List Char) :
    Prop where
  text : cs = ws ++ (signText sg ++ (ds ++ rest))
  blank : ∀ c ∈ ws, space c = true
  digits : ∀ c ∈ ds, c.isDigit = true
  stops : ∀ c ∈ rest.head?, c.isDigit = false
  bare : sg = none → ds = [] → ∀ c ∈ rest.head?, space c = false ∧ c ≠ '+' ∧ c ≠ '-'

/-- Blanks are neither digits nor signs. -/
def Blanks (space : Char → Bool) : Prop :=
  ∀ c, space c = true → c.isDigit = false ∧ c ≠ '+' ∧ c ≠ '-'

namespace Cut

open InputStream

variable {space : Char → Bool} {cs ws ds rest : List Char} {sg : Option Bool}

/-- A sign is taken off. -/
theorem takeSign_signText (h : Cut space cs ws sg ds rest) :
    takeSign (signText sg ++ (ds ++ rest)) = (sg, ds ++ rest) := by
  cases sg with
  | some neg => cases neg <;> rfl
  | none =>
    rw [signText, List.nil_append]
    cases ds with
    | nil =>
      cases rest with
      | nil => rfl
      | cons c rest =>
        obtain ⟨-, hplus, hminus⟩ := h.bare rfl rfl c rfl
        rw [List.nil_append, takeSign, if_neg hplus, if_neg hminus]
    | cons d ds =>
      have hd := h.digits d List.mem_cons_self
      have hplus : d ≠ '+' := by
        rintro rfl
        cases hd
      have hminus : d ≠ '-' := by
        rintro rfl
        cases hd
      rw [List.cons_append, takeSign, if_neg hplus, if_neg hminus]

/-- The digits and what follows them. -/
theorem span_digits (h : Cut space cs ws sg ds rest) :
    (ds ++ rest).takeWhile Char.isDigit = ds ∧ (ds ++ rest).dropWhile Char.isDigit = rest := by
  rw [List.takeWhile_append_of_pos h.digits, List.dropWhile_append_of_pos h.digits]
  cases hrest : rest with
  | nil => simp
  | cons c cs =>
    have hc : c.isDigit = false := h.stops c (by rw [hrest]; rfl)
    simp [hc]

/-- What stands behind the blanks does not begin with one. -/
private theorem head_not_blank (hspace : Blanks space) (h : Cut space cs ws sg ds rest) :
    ∀ c ∈ (signText sg ++ (ds ++ rest)).head?, space c = false := by
  intro c hc
  by_contra hblank
  rw [Bool.not_eq_false] at hblank
  obtain ⟨hdigit, hplus, hminus⟩ := hspace c hblank
  cases hsg : sg with
  | some neg =>
    rw [hsg] at hc
    cases neg with
    | false => exact hplus (Option.some.inj hc).symm
    | true => exact hminus (Option.some.inj hc).symm
  | none =>
    rw [hsg, signText, List.nil_append] at hc
    cases hds : ds with
    | nil =>
      rw [hds, List.nil_append] at hc
      have hno := (h.bare hsg hds c hc).1
      rw [hblank] at hno
      cases hno
    | cons d ds' =>
      rw [hds] at hc
      have hd := h.digits d (by rw [hds]; exact List.mem_cons_self)
      rw [Option.some.inj hc, hdigit] at hd
      cases hd

/-- What is left behind the blanks. -/
theorem dropWhile_blank (hspace : Blanks space) (h : Cut space cs ws sg ds rest) :
    cs.dropWhile space = signText sg ++ (ds ++ rest) := by
  rw [h.text, List.dropWhile_append_of_pos h.blank]
  have hhead := h.head_not_blank hspace
  cases hbody : signText sg ++ (ds ++ rest) with
  | nil => rfl
  | cons c body =>
    have hc : space c = false := hhead c (by rw [hbody]; rfl)
    rw [List.dropWhile_cons, if_neg (by rw [hc]; exact Bool.false_ne_true)]

/-- A text is cut in one way. -/
theorem unique (hspace : Blanks space) {ws' ds' rest' : List Char} {sg' : Option Bool}
    (h : Cut space cs ws sg ds rest) (h' : Cut space cs ws' sg' ds' rest') :
    sg = sg' ∧ ds = ds' ∧ rest = rest' := by
  have hbody : signText sg ++ (ds ++ rest) = signText sg' ++ (ds' ++ rest') := by
    rw [← h.dropWhile_blank hspace, h'.dropWhile_blank hspace]
  have hsign := congrArg takeSign hbody
  rw [h.takeSign_signText, h'.takeSign_signText, Prod.mk.injEq] at hsign
  obtain ⟨hsg, hrest⟩ := hsign
  have htake := h.span_digits
  rw [hrest, h'.span_digits.1, h'.span_digits.2] at htake
  exact ⟨hsg, htake.1.symm, htake.2.symm⟩

/-- What is left behind the blanks is cut in the same way. -/
theorem behind_blanks (h : Cut space cs ws sg ds rest) :
    Cut space (signText sg ++ (ds ++ rest)) [] sg ds rest where
  text := rfl
  blank := by simp
  digits := h.digits
  stops := h.stops
  bare := h.bare

/-- Nothing is left exactly of a text without sign, digits and rest. -/
theorem behind_blanks_eq_nil_iff :
    signText sg ++ (ds ++ rest) = [] ↔ ds = [] ∧ sg = none ∧ rest = [] := by
  rw [List.append_eq_nil_iff, List.append_eq_nil_iff]
  have hsg : signText sg = [] ↔ sg = none := by
    cases sg with
    | none => simp [signText]
    | some neg => cases neg <;> simp [signText]
  rw [hsg]
  exact and_left_comm

/-- Every text can be cut. -/
theorem exists_cut (space : Char → Bool) (cs : List Char) :
    ∃ ws sg ds rest, Cut space cs ws sg ds rest := by
  have hsign (body : List Char) : ∃ sg tail, body = signText sg ++ tail ∧
      (sg = none → ∀ c ∈ tail.head?, c ≠ '+' ∧ c ≠ '-') := by
    cases body with
    | nil => exact ⟨none, [], rfl, by simp⟩
    | cons c body =>
      by_cases hplus : c = '+'
      · exact ⟨some false, body, by rw [hplus]; rfl, by simp⟩
      · by_cases hminus : c = '-'
        · exact ⟨some true, body, by rw [hminus]; rfl, by simp⟩
        · refine ⟨none, c :: body, rfl, ?_⟩
          intro _ c' hc'
          cases hc'
          exact ⟨hplus, hminus⟩
  obtain ⟨sg, tail, hbody, hbare⟩ := hsign (cs.dropWhile space)
  have hstop : ∀ (p : Char → Bool) (l : List Char), ∀ c ∈ (l.dropWhile p).head?, p c = false := by
    intro p l c hc
    have hnot := List.head?_dropWhile_not p l
    rw [hc] at hnot
    exact eq_false_of_ne_true (by simpa using hnot)
  refine ⟨cs.takeWhile space, sg, tail.takeWhile Char.isDigit, tail.dropWhile Char.isDigit, ?_⟩
  constructor
  · rw [List.takeWhile_append_dropWhile, ← hbody, List.takeWhile_append_dropWhile]
  · exact fun c hc ↦ List.mem_takeWhile_imp hc
  · exact fun c hc ↦ List.mem_takeWhile_imp hc
  · exact hstop Char.isDigit tail
  · intro hsg hds c hc
    have hall : tail.takeWhile Char.isDigit ++ tail.dropWhile Char.isDigit = tail :=
      List.takeWhile_append_dropWhile
    rw [hds, List.nil_append] at hall
    rw [hall] at hc
    refine ⟨?_, hbare hsg c hc⟩
    apply hstop space cs
    rw [hbody, hsg]
    exact hc

end Cut

namespace InputStream

variable {space : Char → Bool} {cs ws ds rest : List Char} {sg : Option Bool} {α : Type}

/-- What passing over blanks leaves of a text. -/
theorem ws_ofText (guarded : Bool) (cs : List Char) :
    (ofText cs).ws space guarded =
      { rest := cs.dropWhile space, eof := (cs.dropWhile space).isEmpty, fail := false } := by
  cases guarded <;> rfl

/-- A number read from a text that is cut there: with no digits it is zero, with nothing at all
the variable keeps what it held. -/
theorem extract_ofText (hspace : Blanks space) (h : Cut space cs ws sg ds rest)
    (convert : Bool → Nat → α × Bool) (zero old : α) :
    (ofText cs).extract space convert zero old =
      if ds = [] then
        if sg = none ∧ rest = [] then (old, { rest := [], eof := true, fail := true })
        else (zero, { rest := rest, eof := rest.isEmpty, fail := true })
      else
        ((convert (sg == some true) (Nat.ofDigitChars 10 ds 0)).1,
          { rest := rest, eof := rest.isEmpty,
            fail := (convert (sg == some true) (Nat.ofDigitChars 10 ds 0)).2 }) := by
  have hdrop : (ofText cs).rest.dropWhile space = signText sg ++ (ds ++ rest) :=
    h.dropWhile_blank hspace
  have hsign := h.takeSign_signText
  obtain ⟨htake, hrest⟩ := h.span_digits
  have hgood : (ofText cs).good = true := rfl
  rw [extract, sentry, if_pos hgood, hdrop]
  cases hbody : signText sg ++ (ds ++ rest) with
  | nil =>
    obtain ⟨hds, hnone⟩ := Cut.behind_blanks_eq_nil_iff.mp hbody
    rw [if_pos hds, if_pos hnone]
    rfl
  | cons c body =>
    have hne : ¬ (ds = [] ∧ sg = none ∧ rest = []) := by
      intro hnil
      rw [Cut.behind_blanks_eq_nil_iff.mpr hnil] at hbody
      cases hbody
    rw [hbody] at hsign
    simp only [ofText, if_true, hsign, htake, hrest]
    by_cases hds : ds = []
    · have hno : ¬ (sg = none ∧ rest = []) := fun hn ↦ hne ⟨hds, hn⟩
      rw [if_pos hds, if_pos hds, if_neg hno]
    · rw [if_neg hds, if_neg hds]

/-- A word read from a text. -/
theorem extractWord_ofText (space : Char → Bool) (old cs : List Char) :
    ((ofText cs).extractWord space old).1 =
      if cs.dropWhile space = [] then old else (cs.dropWhile space).takeWhile (!space ·) := by
  have hgood : (ofText cs).good = true := rfl
  have hrest : (ofText cs).rest = cs := rfl
  rw [extractWord, sentry, if_pos hgood, hrest]
  cases cs.dropWhile space with
  | nil => rfl
  | cons c tail => rfl

/-- A word in front of a blank. -/
theorem extractWord_append (space : Char → Bool) (old word : List Char)
    (hne : word ≠ []) (hword : ∀ c ∈ word, space c = false) {b : Char} (hb : space b = true)
    (rest : List Char) :
    (ofText (word ++ b :: rest)).extractWord space old = (word, ofText (b :: rest)) := by
  obtain ⟨w, ws, rfl⟩ := List.exists_cons_of_ne_nil hne
  have hdrop : (w :: ws ++ b :: rest).dropWhile space = w :: ws ++ b :: rest := by
    rw [List.cons_append, List.dropWhile_cons, hword w List.mem_cons_self]
    rfl
  have hnot : ∀ c ∈ w :: ws, (!space c) = true := by
    intro c hc
    rw [hword c hc]
    rfl
  have htake : (w :: ws ++ b :: rest).takeWhile (!space ·) = w :: ws := by
    rw [List.takeWhile_append_of_pos hnot, List.takeWhile_cons, hb]
    exact List.append_nil _
  have hrest : (w :: ws ++ b :: rest).dropWhile (!space ·) = b :: rest := by
    rw [List.dropWhile_append_of_pos hnot, List.dropWhile_cons, hb]
    rfl
  have hgood : (ofText (w :: ws ++ b :: rest)).good = true := rfl
  have htext : (ofText (w :: ws ++ b :: rest)).rest = w :: ws ++ b :: rest := rfl
  rw [extractWord, sentry, if_pos hgood, htext, hdrop]
  rw [List.cons_append] at htake hrest ⊢
  simp only [ofText, if_true, htake, hrest, List.isEmpty_cons]

/-- Whether the end is noticed behind what an operator left: nothing is left, or only blanks and
they are read. -/
theorem eof_ws_iff (space : Char → Bool) (guarded : Bool) (rest : List Char) (failed : Bool) :
    (({ rest := rest, eof := rest.isEmpty, fail := failed } : InputStream).ws space guarded).eof =
        true ↔
      rest = [] ∨ (∀ c ∈ rest, space c = true) ∧ ¬ (guarded = true ∧ failed = true) := by
  cases rest with
  | nil => cases guarded <;> cases failed <;> simp [ws, good]
  | cons c rest =>
    cases guarded with
    | false => simp [ws]
    | true =>
      cases failed with
      | false => simp [ws, good]
      | true => simp [ws, good]

end InputStream

end IcsGateway.Lib
