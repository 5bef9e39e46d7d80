/-!
# JSON texts

A decoder for JSON texts over lists of characters. It is total: a number of steps, never
smaller than the length of the text, bounds its recursion. A string written between quotation
marks without any escaping is decoded to itself exactly when its characters are plain.
-/

namespace IcsGateway.Lib

/-- A JSON value. A number is its mantissa times ten to its exponent; an object lists its
members in the order of the text. -/
inductive Json where
  | null
  | bool (b : Bool)
  | number (mantissa exponent : Int)
  | string (s : String)
  | array (vs : List Json)
  | object (ms : List (String × Json))

namespace JsonText

/-! ### Tokens -/

/-- White space between tokens. -/
def isSpace (c : Char) : Bool := c = ' ' || c = '\t' || c = '\n' || c = '\r'

/-- The text without leading white space. -/
def skipSpace : List Char → List Char
  | [] => []
  | c :: cs => if isSpace c then skipSpace cs else c :: cs

/-- What follows a token of one character. -/
def token (t : Char) (cs : List Char) : Option (List Char) :=
  match skipSpace cs with
  | [] => none
  | c :: rest => if c = t then some rest else none

/-! ### Strings -/

/-- A character that stands for itself in a string. -/
def Plain (c : Char) : Prop := c ≠ '"' ∧ c ≠ '\\' ∧ 0x20 ≤ c.toNat

instance (c : Char) : Decidable (Plain c) := inferInstanceAs (Decidable (_ ∧ _ ∧ _))

/-- The value of a hexadecimal digit. -/
def hexDigit (c : Char) : Option Nat :=
  if c.isDigit then some (c.toNat - 0x30)
  else if 'a' ≤ c ∧ c ≤ 'f' then some (c.toNat - 0x57)
  else if 'A' ≤ c ∧ c ≤ 'F' then some (c.toNat - 0x37)
  else none

/-- Four hexadecimal digits. -/
def hex4 : List Char → Option (Nat × List Char)
  | a :: b :: c :: d :: rest => do
    let a ← hexDigit a
    let b ← hexDigit b
    let c ← hexDigit c
    let d ← hexDigit d
    pure (((a * 16 + b) * 16 + c) * 16 + d, rest)
  | _ => none

/-- The character of a code point. -/
def codePoint (n : Nat) : Option Char :=
  if n.isValidChar then some (Char.ofNat n) else none

/-- A `\u` escape of one code unit. -/
def codeUnit : List Char → Option (Nat × List Char)
  | b :: u :: rest => if b = '\\' ∧ u = 'u' then hex4 rest else none
  | _ => none

/-- The character of a `\u` escape: one code unit, or a surrogate pair. -/
def unicode (cs : List Char) : Option (Char × List Char) := do
  let (high, rest) ← hex4 cs
  if 0xD800 ≤ high ∧ high < 0xDC00 then
    let (low, rest) ← codeUnit rest
    if 0xDC00 ≤ low ∧ low < 0xE000 then
      (codePoint (0x10000 + (high - 0xD800) * 0x400 + (low - 0xDC00))).map (·, rest)
    else none
  else (codePoint high).map (·, rest)

/-- The escapes of one character. -/
def simpleEscape (c : Char) : Option Char :=
  if c = '"' then some '"'
  else if c = '\\' then some '\\'
  else if c = '/' then some '/'
  else if c = 'b' then some '\x08'
  else if c = 'f' then some '\x0c'
  else if c = 'n' then some '\n'
  else if c = 'r' then some '\r'
  else if c = 't' then some '\t'
  else none

/-- The character after a backslash. -/
def escape : List Char → Option (Char × List Char)
  | [] => none
  | c :: cs => if c = 'u' then unicode cs else (simpleEscape c).map (·, cs)

/-- The characters of a string and what follows its closing quotation mark. -/
def chars : Nat → List Char → Option (List Char × List Char)
  | 0, _ => none
  | _ + 1, [] => none
  | n + 1, c :: cs =>
    if c = '"' then some ([], cs)
    else if c = '\\' then do
      let (d, cs) ← escape cs
      let (ds, rest) ← chars n cs
      pure (d :: ds, rest)
    else if c.toNat < 0x20 then none
    else do
      let (ds, rest) ← chars n cs
      pure (c :: ds, rest)

/-- A string, after its opening quotation mark. -/
def string (cs : List Char) : Option (String × List Char) := do
  let (ds, rest) ← chars (cs.length + 1) cs
  pure (String.ofList ds, rest)

/-! ### Numbers -/

/-- One digit or more. -/
def digits (cs : List Char) : Option (List Char × List Char) :=
  match cs.span Char.isDigit with
  | ([], _) => none
  | (ds, rest) => some (ds, rest)

/-- The fraction digits of a number. -/
def fraction : List Char → Option (List Char × List Char)
  | [] => some ([], [])
  | c :: cs => if c = '.' then digits cs else some ([], c :: cs)

/-- The exponent of a number. -/
def exponent : List Char → Option (Int × List Char)
  | [] => some (0, [])
  | c :: cs =>
    if c = 'e' ∨ c = 'E' then
      match cs with
      | '-' :: cs => (digits cs).map fun (ds, rest) ↦ (-(Nat.ofDigitChars 10 ds 0 : Int), rest)
      | '+' :: cs => (digits cs).map fun (ds, rest) ↦ ((Nat.ofDigitChars 10 ds 0 : Int), rest)
      | cs => (digits cs).map fun (ds, rest) ↦ ((Nat.ofDigitChars 10 ds 0 : Int), rest)
    else some (0, c :: cs)

/-- A number without sign; only the number zero begins with the digit zero. -/
def magnitude (cs : List Char) : Option ((Nat × Int) × List Char) := do
  let (whole, cs) ← digits cs
  if whole.head? = some '0' ∧ 1 < whole.length then none
  else
    let (part, cs) ← fraction cs
    let (e, rest) ← exponent cs
    pure ((Nat.ofDigitChars 10 (whole ++ part) 0, e - part.length), rest)

/-- A number. -/
def number : List Char → Option (Json × List Char)
  | [] => none
  | c :: cs =>
    if c = '-' then (magnitude cs).map fun ((m, e), rest) ↦ (.number (-(m : Int)) e, rest)
    else (magnitude (c :: cs)).map fun ((m, e), rest) ↦ (.number m e, rest)

/-! ### Values -/

/-- A literal, after its first character. -/
def literal (text : List Char) (v : Json) (cs : List Char) : Option (Json × List Char) :=
  if text.isPrefixOf cs then some (v, cs.drop text.length) else none

/-- The rest of a list: a comma and more, or the closing token. -/
def andMore {α : Type} (close : Char) (more : List Char → Option (List α × List Char)) (a : α)
    (cs : List Char) : Option (List α × List Char) :=
  match skipSpace cs with
  | [] => none
  | c :: cs =>
    if c = ',' then (more cs).map fun (as, rest) ↦ (a :: as, rest)
    else if c = close then some ([a], cs)
    else none

mutual

/-- A value and what follows it. -/
def value : Nat → List Char → Option (Json × List Char)
  | 0, _ => none
  | n + 1, cs =>
    match skipSpace cs with
    | [] => none
    | c :: cs =>
      if c = '"' then (string cs).map fun (s, rest) ↦ (.string s, rest)
      else if c = '[' then
        match token ']' cs with
        | some rest => some (.array [], rest)
        | none => (elements n cs).map fun (vs, rest) ↦ (.array vs, rest)
      else if c = '\x7b' then
        match token '\x7d' cs with
        | some rest => some (.object [], rest)
        | none => (members n cs).map fun (ms, rest) ↦ (.object ms, rest)
      else if c = 't' then literal ['r', 'u', 'e'] (.bool true) cs
      else if c = 'f' then literal ['a', 'l', 's', 'e'] (.bool false) cs
      else if c = 'n' then literal ['u', 'l', 'l'] .null cs
      else number (c :: cs)

/-- The elements of an array that is not empty, and its end. -/
def elements : Nat → List Char → Option (List Json × List Char)
  | 0, _ => none
  | n + 1, cs => do
    let (v, cs) ← value n cs
    andMore ']' (elements n) v cs

/-- The members of an object that is not empty, and its end. -/
def members : Nat → List Char → Option (List (String × Json) × List Char)
  | 0, _ => none
  | n + 1, cs => do
    let cs ← token '"' cs
    let (k, cs) ← string cs
    let cs ← token ':' cs
    let (v, cs) ← value n cs
    andMore '\x7d' (members n) (k, v) cs

end

/-- The value of a text. -/
def decode (text : List Char) : Option Json :=
  match value (text.length + 1) text with
  | some (v, rest) => if skipSpace rest = [] then some v else none
  | none => none

/-! ### Strings without escapes -/

/-- A text of plain characters. -/
def PlainText (s : String) : Prop := ∀ c ∈ s.toList, Plain c

instance (s : String) : Decidable (PlainText s) := List.decidableBAll Plain s.toList

/-- Plain characters are decoded to themselves. -/
theorem chars_plain {u : List Char} (hu : ∀ c ∈ u, Plain c) (rest : List Char) :
    ∀ n, u.length < n → chars n (u ++ '"' :: rest) = some (u, rest) := by
  induction u with
  | nil =>
    intro n hn
    cases n with
    | zero => cases hn
    | succ n => rfl
  | cons c u ih =>
    intro n hn
    rw [List.forall_mem_cons] at hu
    cases n with
    | zero => cases hn
    | succ n =>
      rw [List.length_cons] at hn
      have hspace : ¬ c.toNat < 0x20 := Nat.not_lt.mpr hu.1.2.2
      rw [List.cons_append, chars, if_neg hu.1.1, if_neg hu.1.2.1, if_neg hspace,
        ih hu.2 n (by omega)]
      rfl

/-- A hexadecimal digit is no quotation mark. -/
private theorem ne_quote_of_hexDigit {c : Char} {v : Nat} (h : hexDigit c = some v) : c ≠ '"' := by
  rintro rfl
  cases h

/-- Four digits are read off the front, and none is a quotation mark. -/
private theorem hex4_spec {cs rest : List Char} {v : Nat} (h : hex4 cs = some (v, rest)) :
    ∃ e, cs = e ++ rest ∧ '"' ∉ e := by
  match cs with
  | a :: b :: c :: d :: cs =>
    simp only [hex4, Option.bind_eq_bind, Option.bind_eq_some_iff, Option.pure_def,
      Option.some.injEq, Prod.mk.injEq] at h
    obtain ⟨va, ha, vb, hb, vc, hc, vd, hd, -, rfl⟩ := h
    refine ⟨[a, b, c, d], rfl, ?_⟩
    simp only [List.mem_cons, List.not_mem_nil, or_false, not_or]
    exact ⟨(ne_quote_of_hexDigit ha).symm, (ne_quote_of_hexDigit hb).symm,
      (ne_quote_of_hexDigit hc).symm, (ne_quote_of_hexDigit hd).symm⟩
  | [] => cases h
  | [_] => cases h
  | [_, _] => cases h
  | [_, _, _] => cases h

/-- So is a code unit. -/
private theorem codeUnit_spec {cs rest : List Char} {v : Nat}
    (h : codeUnit cs = some (v, rest)) : ∃ e, cs = e ++ rest ∧ '"' ∉ e := by
  match cs with
  | [] => cases h
  | [_] => cases h
  | b :: u :: cs =>
    rw [codeUnit] at h
    split at h
    · next hbu =>
      obtain ⟨rfl, rfl⟩ := hbu
      obtain ⟨e, rfl, he⟩ := hex4_spec h
      refine ⟨'\\' :: 'u' :: e, rfl, ?_⟩
      simp [he]
    · cases h

/-- A `\u` escape is read off the front, and has no quotation mark. -/
private theorem unicode_spec {cs rest : List Char} {d : Char}
    (h : unicode cs = some (d, rest)) : ∃ e, cs = e ++ rest ∧ '"' ∉ e := by
  simp only [unicode, Option.bind_eq_bind, Option.bind_eq_some_iff] at h
  obtain ⟨⟨high, tail⟩, hhex, h⟩ := h
  obtain ⟨e, rfl, he⟩ := hex4_spec hhex
  simp only at h
  split at h
  · rw [Option.bind_eq_some_iff] at h
    obtain ⟨⟨low, tail⟩, hunit, h⟩ := h
    obtain ⟨e', rfl, he'⟩ := codeUnit_spec hunit
    simp only at h
    split at h
    · simp only [Option.map_eq_some_iff, Prod.mk.injEq] at h
      obtain ⟨-, -, -, rfl⟩ := h
      exact ⟨e ++ e', by simp, by simp [he, he']⟩
    · cases h
  · simp only [Option.map_eq_some_iff, Prod.mk.injEq] at h
    obtain ⟨-, -, -, rfl⟩ := h
    exact ⟨e, rfl, he⟩

/-- An escape is read off the front; it has a quotation mark only if it stands for one. -/
private theorem escape_spec {cs rest : List Char} {d : Char} (h : escape cs = some (d, rest)) :
    ∃ e, cs = e ++ rest ∧ e ≠ [] ∧ ('"' ∈ e → e = ['"'] ∧ d = '"') := by
  cases cs with
  | nil => cases h
  | cons c cs =>
    rw [escape] at h
    split at h
    · next hu =>
      obtain ⟨e, rfl, he⟩ := unicode_spec h
      refine ⟨c :: e, rfl, List.cons_ne_nil _ _, ?_⟩
      intro hq
      rw [hu] at hq
      rcases List.mem_cons.mp hq with hq | hq
      · cases hq
      · exact absurd hq he
    · rw [Option.map_eq_some_iff] at h
      obtain ⟨d', hd, he⟩ := h
      cases he
      refine ⟨[c], rfl, List.cons_ne_nil _ _, ?_⟩
      intro hq
      rw [List.mem_singleton] at hq
      subst hq
      cases hd
      exact ⟨rfl, rfl⟩

/-- A part without quotation mark, read off the front of a list up to its first one. -/
private theorem split_upto {e rest x y : List Char} (h : x ++ '"' :: y = e ++ rest)
    (he : '"' ∉ e) : ∃ x', x = e ++ x' ∧ rest = x' ++ '"' :: y := by
  rcases List.append_eq_append_iff.mp h with ⟨e', rfl, hy⟩ | ⟨x', rfl, hr⟩
  · cases e' with
    | nil => exact ⟨[], by simp, by simpa using hy.symm⟩
    | cons c e' =>
      rw [List.cons_append, List.cons.injEq] at hy
      rw [← hy.1] at he
      exact absurd (List.mem_append_right _ (List.mem_cons_self ..)) he
  · exact ⟨x', rfl, hr⟩

/-- What a string decodes to, by its text up to the first quotation mark: that text, if it is
plain; something shorter, if it has escapes; or something with a quotation mark earlier, if
the quotation mark is escaped. -/
private theorem chars_upto (n : Nat) : ∀ x y v r, '"' ∉ x →
    chars n (x ++ '"' :: y) = some (v, r) →
    (v = x ∧ (∀ c ∈ x, Plain c) ∧ r = y) ∨ v.length < x.length ∨ '"' ∈ v.take x.length := by
  induction n with
  | zero =>
    intro x y v r _ h
    cases h
  | succ n ih =>
    intro x y v r hx h
    cases x with
    | nil =>
      cases h
      exact .inl ⟨rfl, nofun, rfl⟩
    | cons c x =>
      rw [List.mem_cons, not_or] at hx
      have hc : c ≠ '"' := fun h ↦ hx.1 h.symm
      rw [List.cons_append, chars, if_neg hc] at h
      split at h
      · -- an escape makes the value shorter than the text
        simp only [Option.bind_eq_bind, Option.bind_eq_some_iff, Option.pure_def,
          Option.some.injEq, Prod.mk.injEq] at h
        obtain ⟨⟨d, cs⟩, hesc, ⟨v', r'⟩, hchars, rfl, rfl⟩ := h
        obtain ⟨e, hsplit, hne, hquote⟩ := escape_spec hesc
        by_cases hq : '"' ∈ e
        · obtain ⟨-, rfl⟩ := hquote hq
          exact .inr (.inr (List.mem_cons_self ..))
        · obtain ⟨x', rfl, rfl⟩ := split_upto hsplit hq
          have hpos : 0 < e.length := List.length_pos_iff.mpr hne
          have hx' : '"' ∉ x' := fun h' ↦ hx.2 (List.mem_append_right _ h')
          right
          rcases ih x' y v' r' hx' hchars with ⟨rfl, -, -⟩ | hlt | hmem
          · left
            simp only [List.length_cons, List.length_append]
            omega
          · left
            simp only [List.length_cons, List.length_append]
            omega
          · right
            rw [List.length_cons, List.take_succ_cons]
            apply List.mem_cons_of_mem
            apply List.take_subset_take_left v' _ hmem
            rw [List.length_append]
            omega
      · split at h
        · cases h
        · next hbs hsp =>
          simp only [Option.bind_eq_bind, Option.bind_eq_some_iff, Option.pure_def,
            Option.some.injEq, Prod.mk.injEq] at h
          obtain ⟨⟨v', r'⟩, hchars, rfl, rfl⟩ := h
          rcases ih x y v' r' hx.2 hchars with ⟨rfl, hplain, rfl⟩ | hlt | hmem
          · refine .inl ⟨rfl, ?_, rfl⟩
            rw [List.forall_mem_cons]
            exact ⟨⟨hc, hbs, Nat.not_lt.mp hsp⟩, hplain⟩
          · refine .inr (.inl ?_)
            simp only [List.length_cons]
            omega
          · refine .inr (.inr ?_)
            rw [List.length_cons, List.take_succ_cons]
            exact List.mem_cons_of_mem _ hmem

/-- A text put between quotation marks as it is decodes to no text it properly begins, and to
itself only if it is plain. -/
theorem plainText_of_string {s t : String} {rest r : List Char}
    (h : string (s.toList ++ '"' :: rest) = some (t, r)) (hst : s.toList <+: t.toList) :
    t = s ∧ PlainText s ∧ r = rest := by
  simp only [string, Option.bind_eq_bind, Option.bind_eq_some_iff, Option.pure_def,
    Option.some.injEq, Prod.mk.injEq] at h
  obtain ⟨⟨v, r'⟩, hchars, hv, rfl⟩ := h
  have htv : t.toList = v := by
    rw [← hv, String.toList_ofList]
  rw [htv] at hst
  have hlen : s.toList.length ≤ v.length := hst.length_le
  by_cases hq : '"' ∈ s.toList
  · exfalso
    obtain ⟨x, y, hsplit, hx⟩ := List.eq_append_cons_of_mem hq
    rw [hsplit, List.append_assoc, List.cons_append] at hchars
    rw [hsplit] at hst
    have hlong : (x ++ '"' :: y).length ≤ v.length := hst.length_le
    rw [List.length_append, List.length_cons] at hlong
    have htake : v.take x.length = x :=
      (List.prefix_iff_eq_take.mp ((List.prefix_append x _).trans hst)).symm
    rcases chars_upto _ _ _ _ _ hx hchars with ⟨he, -⟩ | hlt | hmem
    · rw [he] at hlong
      omega
    · omega
    · rw [htake] at hmem
      exact hx hmem
  · rcases chars_upto _ _ _ _ _ hq hchars with ⟨he, hplain, hr⟩ | hlt | hmem
    · exact ⟨String.toList_inj.mp (htv.trans he), hplain, hr⟩
    · omega
    · rw [← List.prefix_iff_eq_take.mp hst] at hmem
      exact absurd hmem hq

/-- A text put between quotation marks as it is decodes to itself exactly when it is plain. -/
theorem string_eq_self_iff (s : String) (rest r : List Char) :
    string (s.toList ++ '"' :: rest) = some (s, r) ↔ PlainText s ∧ r = rest := by
  constructor
  · intro h
    exact (plainText_of_string h List.prefix_rfl).2
  · rintro ⟨hplain, rfl⟩
    rw [string, chars_plain hplain r _ (by rw [List.length_append]; omega)]
    simp

/-! ### Objects of strings -/

/-- Every member of the name is the string, and there is one. -/
def Holds (ms : List (String × Json)) (k s : String) : Prop :=
  (k, .string s) ∈ ms ∧ ∀ v, (k, v) ∈ ms → v = .string s

/-- A comma goes on with the list. -/
theorem andMore_comma {α : Type} (close : Char) (more : List Char → Option (List α × List Char))
    (a : α) (cs : List Char) :
    andMore close more a (',' :: cs) = (more cs).map fun (as, rest) ↦ (a :: as, rest) := rfl

/-- A token at the front of the text. -/
theorem token_cons {t : Char} (ht : isSpace t = false) (cs : List Char) :
    token t (t :: cs) = some cs := by
  simp [token, skipSpace, ht]

/-- A member whose name is plain and whose value is a string. -/
theorem members_string {k : String} (hk : PlainText k) (n : Nat) (cs : List Char) :
    members (n + 2) ('"' :: (k.toList ++ '"' :: ':' :: '"' :: cs)) =
      (string cs).bind fun (s, rest) ↦
        andMore '\x7d' (members (n + 1)) (k, .string s) rest := by
  have hkey : string (k.toList ++ '"' :: ':' :: '"' :: cs) = some (k, ':' :: '"' :: cs) :=
    (string_eq_self_iff k _ _).mpr ⟨hk, rfl⟩
  have hvalue : value (n + 1) ('"' :: cs) =
      (string cs).map fun (s, rest) ↦ (.string s, rest) := rfl
  rw [members, token_cons (t := '"') (by decide)]
  simp only [Option.bind_eq_bind, Option.bind_some, hkey, token_cons (t := ':') (by decide),
    hvalue]
  cases string cs <;> rfl

/-- The list begins with its first element. -/
private theorem head_of_andMore {α : Type} {close : Char}
    {more : List Char → Option (List α × List Char)} {a : α} {cs rest : List Char} {as : List α}
    (h : andMore close more a cs = some (as, rest)) : a ∈ as := by
  rw [andMore] at h
  split at h
  · cases h
  · split at h
    · rw [Option.map_eq_some_iff] at h
      obtain ⟨⟨as', rest'⟩, -, he⟩ := h
      cases he
      exact List.mem_cons_self ..
    · split at h
      · cases h
        exact List.mem_cons_self ..
      · cases h

/-- A member whose value is a string put between quotation marks as it is, and what follows
the comma. -/
def pasted (k s : String) (cs : List Char) : List Char :=
  '"' :: (k.toList ++ '"' :: ':' :: '"' :: (s.toList ++ '"' :: ',' :: cs))

/-- A pasted plain string is a member with this value. -/
theorem members_pasted {k s : String} (hk : PlainText k) (hs : PlainText s) {n : Nat}
    {cs rest : List Char} {ms : List (String × Json)} (h : members (n + 1) cs = some (ms, rest)) :
    members (n + 2) (pasted k s cs) = some ((k, .string s) :: ms, rest) := by
  have hstring : string (s.toList ++ '"' :: ',' :: cs) = some (s, ',' :: cs) :=
    (string_eq_self_iff s _ _).mpr ⟨hs, rfl⟩
  rw [pasted, members_string hk, hstring]
  simp only [Option.bind_some, andMore_comma, h, Option.map_some]

/-- A pasted string that is read as a text it begins is plain and is that text, and the other
members follow. -/
theorem plainText_of_members_pasted {k s t : String} (hk : PlainText k) {n : Nat}
    {cs rest : List Char} {ms : List (String × Json)}
    (h : members (n + 2) (pasted k s cs) = some (ms, rest)) (ht : Holds ms k t)
    (hst : s.toList <+: t.toList) :
    t = s ∧ PlainText s ∧
      ∃ ms', ms = (k, .string s) :: ms' ∧ members (n + 1) cs = some (ms', rest) := by
  rw [pasted, members_string hk, Option.bind_eq_some_iff] at h
  obtain ⟨⟨s', cs'⟩, hstring, hmore⟩ := h
  have hvalue := ht.2 _ (head_of_andMore hmore)
  cases hvalue
  obtain ⟨rfl, hplain, rfl⟩ := plainText_of_string hstring hst
  refine ⟨rfl, hplain, ?_⟩
  simp only [andMore_comma, Option.map_eq_some_iff] at hmore
  obtain ⟨⟨ms', rest'⟩, hms, he⟩ := hmore
  cases he
  exact ⟨ms', rfl, hms⟩

/-- A string is held after a member of another name. -/
theorem holds_cons_of_ne {k k' s : String} {v : Json} {ms : List (String × Json)} (h : k ≠ k') :
    Holds ((k', v) :: ms) k s ↔ Holds ms k s := by
  simp [Holds, h]

/-- A string is held by the one member of its name. -/
theorem holds_cons_self {k s : String} {ms : List (String × Json)}
    (h : ∀ v, (k, v) ∉ ms) : Holds ((k, .string s) :: ms) k s := by
  simp [Holds, h]

/-- Plain texts are joined. -/
theorem plainText_append {s t : String} (hs : PlainText s) (ht : PlainText t) :
    PlainText (s ++ t) := by
  intro c hc
  rw [String.toList_append] at hc
  exact (List.mem_append.mp hc).elim (hs c) (ht c)

/-- The text of a number is plain. -/
theorem plainText_toString (n : Nat) : PlainText (toString n) := by
  intro c hc
  rw [Nat.toString_eq_ofList_toDigits, String.toList_ofList] at hc
  have hdigit : c.isDigit = true := Nat.isDigit_of_mem_toDigits (by decide) (by decide) hc
  refine ⟨?_, ?_, ?_⟩
  · rintro rfl
    cases hdigit
  · rintro rfl
    cases hdigit
  · rw [Char.isDigit, Bool.and_eq_true, decide_eq_true_eq] at hdigit
    have hge : 48 ≤ c.toNat := hdigit.1
    omega

/-- An object whose first member follows at once. -/
theorem value_object (n : Nat) (cs : List Char) :
    value (n + 1) ('\x7b' :: '"' :: cs) =
      (members n ('"' :: cs)).map fun (ms, rest) ↦ (.object ms, rest) := rfl

/-- A pasted member takes some space. -/
theorem length_pasted (k s : String) (cs : List Char) :
    cs.length + 6 ≤ (pasted k s cs).length := by
  simp only [pasted, List.length_cons, List.length_append]
  omega

private theorem decode_pasted (k s : String) (cs : List Char) :
    decode ('\x7b' :: pasted k s cs) =
      match members ((pasted k s cs).length + 1) (pasted k s cs) with
      | some (ms, rest) => if skipSpace rest = [] then some (.object ms) else none
      | none => none := by
  rw [decode, List.length_cons]
  change (match (members ((pasted k s cs).length + 1) (pasted k s cs)).map
      (fun (ms, rest) ↦ (Json.object ms, rest)) with
    | some (v, rest) => if skipSpace rest = [] then some v else none
    | none => none) = _
  cases members ((pasted k s cs).length + 1) (pasted k s cs) <;> rfl

/-- The members of an object that begins with a pasted one. -/
theorem members_of_decode {k s : String} {cs : List Char} {ms : List (String × Json)}
    (h : decode ('\x7b' :: pasted k s cs) = some (.object ms)) :
    ∃ rest, members ((pasted k s cs).length + 1) (pasted k s cs) = some (ms, rest) := by
  rw [decode_pasted] at h
  split at h
  · next ms' rest hms =>
    split at h
    · cases h
      exact ⟨rest, hms⟩
    · cases h
  · cases h

/-- An object of members at whose end the text ends. -/
theorem decode_of_members {k s : String} {cs : List Char} {ms : List (String × Json)}
    (h : members ((pasted k s cs).length + 1) (pasted k s cs) = some (ms, [])) :
    decode ('\x7b' :: pasted k s cs) = some (.object ms) := by
  rw [decode_pasted, h]
  rfl

end JsonText
end IcsGateway.Lib
