import Mathlib.Data.List.TakeDrop
import IcsGateway.Lib.JsonText

/-!
# JSON texts of values

A printer without white space, which the decoder of `JsonText` inverts: the text of every
value is decoded to that value. A number is printed with its exponent unless that is zero.
-/

namespace IcsGateway.Lib.JsonText

/-! ### The printer -/

/-- A hexadecimal digit. -/
def hexChar (n : Nat) : Char := Char.ofNat (if n < 10 then 0x30 + n else 0x57 + n)

/-- A character of a string, escaped where it has to be. -/
def escaped (c : Char) : List Char :=
  if c = '"' then ['\\', '"']
  else if c = '\\' then ['\\', '\\']
  else if c.toNat < 0x20 then
    ['\\', 'u', '0', '0', hexChar (c.toNat / 16), hexChar (c.toNat % 16)]
  else [c]

/-- A string after its opening quotation mark. -/
def encodeString (s : String) : List Char := s.toList.flatMap escaped ++ ['"']

/-- An integer. -/
def encodeInt : Int → List Char
  | .ofNat n => Nat.toDigits 10 n
  | .negSucc n => '-' :: Nat.toDigits 10 (n + 1)

/-- The exponent of a number, left out if it is zero. -/
def encodeExponent : Int → List Char
  | .ofNat 0 => []
  | .ofNat (n + 1) => 'e' :: '+' :: Nat.toDigits 10 (n + 1)
  | .negSucc n => 'e' :: '-' :: Nat.toDigits 10 (n + 1)

mutual

/-- The text of a value. -/
def encode : Json → List Char
  | .null => ['n', 'u', 'l', 'l']
  | .bool true => ['t', 'r', 'u', 'e']
  | .bool false => ['f', 'a', 'l', 's', 'e']
  | .number m e => encodeInt m ++ encodeExponent e
  | .string s => '"' :: encodeString s
  | .array [] => ['[', ']']
  | .array (v :: vs) => '[' :: (encode v ++ encodeElements vs)
  | .object [] => ['\x7b', '\x7d']
  | .object ((k, v) :: ms) =>
    '\x7b' :: '"' :: (encodeString k ++ ':' :: (encode v ++ encodeMembers ms))

/-- The text of further elements, and the end of the array. -/
def encodeElements : List Json → List Char
  | [] => [']']
  | v :: vs => ',' :: (encode v ++ encodeElements vs)

/-- The text of further members, and the end of the object. -/
def encodeMembers : List (String × Json) → List Char
  | [] => ['\x7d']
  | (k, v) :: ms => ',' :: '"' :: (encodeString k ++ ':' :: (encode v ++ encodeMembers ms))

end

/-! ### Strings -/

/-- A hexadecimal digit is read as what it stands for. -/
private theorem hexDigit_hexChar {n : Nat} (h : n < 16) : hexDigit (hexChar n) = some n := by
  have hall : ∀ n < 16, hexDigit (hexChar n) = some n := by decide
  exact hall n h

/-- The escape of a control character stands for it. -/
private theorem escape_control {c : Char} (h : c.toNat < 0x20) (rest : List Char) :
    escape ('u' :: '0' :: '0' :: hexChar (c.toNat / 16) :: hexChar (c.toNat % 16) :: rest) =
      some (c, rest) := by
  have hzero : hexDigit '0' = some 0 := rfl
  have hhigh := hexDigit_hexChar (n := c.toNat / 16) (by omega)
  have hlow := hexDigit_hexChar (n := c.toNat % 16) (by omega)
  have hvalue : ((0 * 16 + 0) * 16 + c.toNat / 16) * 16 + c.toNat % 16 = c.toNat := by omega
  have hhex : hex4 ('0' :: '0' :: hexChar (c.toNat / 16) :: hexChar (c.toNat % 16) :: rest) =
      some (c.toNat, rest) := by
    simp only [hex4, hzero, hhigh, hlow, Option.bind_eq_bind, Option.bind_some, hvalue]
    rfl
  have hvalid : c.toNat.isValidChar := .inl (by omega)
  rw [escape, if_pos rfl, unicode, hhex]
  simp only [Option.bind_eq_bind, Option.bind_some]
  rw [if_neg (by omega), codePoint, if_pos hvalid, Char.ofNat_toNat]
  rfl

/-- Escaped characters are decoded to themselves. -/
private theorem chars_escaped (u : List Char) (rest : List Char) :
    ∀ n, u.length < n → chars n (u.flatMap escaped ++ '"' :: rest) = some (u, rest) := by
  induction u with
  | nil =>
    intro n hn
    cases n with
    | zero => cases hn
    | succ n => rfl
  | cons c u ih =>
    intro n hn
    cases n with
    | zero => cases hn
    | succ n =>
      rw [List.length_cons] at hn
      have hu := ih n (by omega)
      rw [List.flatMap_cons, List.append_assoc, escaped]
      by_cases hquote : c = '"'
      · subst hquote
        have hesc : escape ('"' :: (u.flatMap escaped ++ '"' :: rest)) =
            some ('"', u.flatMap escaped ++ '"' :: rest) := rfl
        simp only [↓reduceIte, List.cons_append, List.nil_append, chars, hesc, hu,
          Option.bind_eq_bind, Option.bind_some]
        rfl
      · rw [if_neg hquote]
        by_cases hslash : c = '\\'
        · subst hslash
          have hesc : escape ('\\' :: (u.flatMap escaped ++ '"' :: rest)) =
              some ('\\', u.flatMap escaped ++ '"' :: rest) := rfl
          simp only [↓reduceIte, List.cons_append, List.nil_append, chars, hesc, hu,
            Option.bind_eq_bind, Option.bind_some]
          rfl
        · rw [if_neg hslash]
          by_cases hcontrol : c.toNat < 0x20
          · rw [if_pos hcontrol]
            simp only [List.cons_append, List.nil_append]
            rw [chars, if_neg (by decide), if_pos rfl, escape_control hcontrol]
            simp only [Option.bind_eq_bind, Option.bind_some, hu]
            rfl
          · rw [if_neg hcontrol, List.cons_append, List.nil_append, chars, if_neg hquote,
              if_neg hslash, if_neg hcontrol, hu]
            rfl

/-- Escaping makes no text shorter. -/
private theorem length_le_length_escaped (u : List Char) :
    u.length ≤ (u.flatMap escaped).length := by
  induction u with
  | nil => exact Nat.le_refl 0
  | cons c u ih =>
    have hc : 1 ≤ (escaped c).length := by
      unfold escaped
      split
      · decide
      · split
        · decide
        · split <;> simp
    rw [List.flatMap_cons, List.length_append, List.length_cons]
    omega

/-- A printed string is decoded to itself. -/
theorem string_encodeString (s : String) (rest : List Char) :
    string (encodeString s ++ rest) = some (s, rest) := by
  have hlen := length_le_length_escaped s.toList
  rw [encodeString, List.append_assoc, List.singleton_append, string,
    chars_escaped _ _ _ (by rw [List.length_append]; omega)]
  simp only [Option.bind_eq_bind, Option.bind_some, String.ofList_toList]
  rfl

/-! ### Numbers -/

/-- No digit follows. -/
def NoDigit (cs : List Char) : Prop := ∀ c ∈ cs.head?, c.isDigit = false

/-- Nothing follows that could belong to a number. -/
def Ends (cs : List Char) : Prop :=
  ∀ c ∈ cs.head?, c.isDigit = false ∧ c ≠ '.' ∧ c ≠ 'e' ∧ c ≠ 'E'

/-- The digits of a number and no more are read. -/
private theorem digits_toDigits (n : Nat) {rest : List Char} (h : NoDigit rest) :
    digits (Nat.toDigits 10 n ++ rest) = some (Nat.toDigits 10 n, rest) := by
  have hall : ∀ c ∈ Nat.toDigits 10 n, c.isDigit = true := fun c hc ↦
    Nat.isDigit_of_mem_toDigits (by decide) (by decide) hc
  have hspan : (Nat.toDigits 10 n ++ rest).span Char.isDigit = (Nat.toDigits 10 n, rest) := by
    rw [List.span_eq_takeWhile_dropWhile, List.takeWhile_append_of_pos hall,
      List.dropWhile_append_of_pos hall]
    cases rest with
    | nil => simp
    | cons c cs =>
      have hc := h c rfl
      simp [hc]
  rw [digits, hspan]
  cases hd : Nat.toDigits 10 n with
  | nil => exact absurd hd Nat.toDigits_ne_nil
  | cons d ds => rfl

/-- The first digit is zero for zero only. -/
private theorem head_toDigits (n : Nat) (h : n ≠ 0) : (Nat.toDigits 10 n).head? ≠ some '0' := by
  induction n using Nat.strongRecOn with
  | ind n ih =>
    by_cases hn : n < 10
    · rw [Nat.toDigits_of_lt_base hn]
      simpa using h
    · have hhead := ih (n / 10) (by omega) (by omega)
      rw [Nat.toDigits_of_base_le (by decide) (by omega)]
      cases hd : Nat.toDigits 10 (n / 10) with
      | nil => exact absurd hd Nat.toDigits_ne_nil
      | cons d ds =>
        rw [hd] at hhead
        exact hhead

/-- The exponent of a printed number. -/
theorem exponent_encodeExponent (e : Int) {rest : List Char} (h : Ends rest) :
    exponent (encodeExponent e ++ rest) = some (e, rest) := by
  have hdigit : NoDigit rest := fun c hc ↦ (h c hc).1
  match e with
  | .ofNat 0 =>
    cases rest with
    | nil => rfl
    | cons c cs =>
      have hend := h c rfl
      have hc : ¬ (c = 'e' ∨ c = 'E') := not_or.mpr ⟨hend.2.2.1, hend.2.2.2⟩
      rw [encodeExponent, List.nil_append, exponent.eq_def]
      simp only [if_neg hc]
      rfl
  | .ofNat (n + 1) =>
    rw [encodeExponent, List.cons_append, List.cons_append, exponent.eq_def]
    simp only [true_or, ↓reduceIte, digits_toDigits (n + 1) hdigit, Option.map_some,
      Nat.ofDigitChars_ten_toDigits]
    rfl
  | .negSucc n =>
    rw [encodeExponent, List.cons_append, List.cons_append, exponent.eq_def]
    simp only [true_or, ↓reduceIte, digits_toDigits (n + 1) hdigit, Option.map_some,
      Nat.ofDigitChars_ten_toDigits]
    rfl

/-- No fraction follows. -/
theorem fraction_of_ends {cs : List Char} (h : ∀ c ∈ cs.head?, c ≠ '.') :
    fraction cs = some ([], cs) := by
  cases cs with
  | nil => rfl
  | cons c cs => rw [fraction, if_neg (h c rfl)]

/-- What follows the digits of a printed number. -/
private theorem head_encodeExponent (e : Int) {rest : List Char} (h : Ends rest) :
    ∀ c ∈ (encodeExponent e ++ rest).head?, c.isDigit = false ∧ c ≠ '.' := by
  match e with
  | .ofNat 0 => exact fun c hc ↦ ⟨(h c hc).1, (h c hc).2.1⟩
  | .ofNat (n + 1) =>
    rintro c hc
    cases hc
    decide
  | .negSucc n =>
    rintro c hc
    cases hc
    decide

/-- A printed number without its sign. -/
private theorem magnitude_toDigits (n : Nat) (e : Int) {rest : List Char} (h : Ends rest) :
    magnitude (Nat.toDigits 10 n ++ (encodeExponent e ++ rest)) = some ((n, e), rest) := by
  have hhead := head_encodeExponent e h
  have hzero : ¬ ((Nat.toDigits 10 n).head? = some '0' ∧ 1 < (Nat.toDigits 10 n).length) := by
    rintro ⟨hd, hlen⟩
    by_cases hn : n = 0
    · rw [hn] at hlen
      exact absurd hlen (by decide)
    · exact head_toDigits n hn hd
  rw [magnitude, digits_toDigits n fun c hc ↦ (hhead c hc).1]
  simp only [Option.bind_eq_bind, Option.bind_some, if_neg hzero,
    fraction_of_ends fun c hc ↦ (hhead c hc).2, exponent_encodeExponent e h, List.append_nil,
    Nat.ofDigitChars_ten_toDigits]
  simp

/-- A printed number is decoded to itself. -/
private theorem number_encode (m e : Int) {rest : List Char} (h : Ends rest) :
    number (encodeInt m ++ (encodeExponent e ++ rest)) = some (.number m e, rest) := by
  cases m with
  | ofNat n =>
    rw [encodeInt]
    have hread := magnitude_toDigits n e h
    cases hd : Nat.toDigits 10 n with
    | nil => exact absurd hd Nat.toDigits_ne_nil
    | cons d ds =>
      have hdigit : d.isDigit = true := by
        apply Nat.isDigit_of_mem_toDigits (b := 10) (n := n) (by decide) (by decide)
        rw [hd]
        exact List.mem_cons_self ..
      have hsign : d ≠ '-' := by
        rintro rfl
        cases hdigit
      rw [hd] at hread
      rw [List.cons_append] at hread ⊢
      rw [number, if_neg hsign, hread]
      rfl
  | negSucc n =>
    rw [encodeInt, List.cons_append, number, if_pos rfl, magnitude_toDigits (n + 1) e h]
    rfl

/-! ### Values -/

/-- A number begins with a sign or a digit. -/
private theorem head_encodeInt (m : Int) :
    ∃ c cs, encodeInt m = c :: cs ∧ (c = '-' ∨ c.isDigit = true) := by
  cases m with
  | ofNat n =>
    rw [encodeInt]
    cases hd : Nat.toDigits 10 n with
    | nil => exact absurd hd Nat.toDigits_ne_nil
    | cons d ds =>
      refine ⟨d, ds, rfl, .inr ?_⟩
      apply Nat.isDigit_of_mem_toDigits (b := 10) (n := n) (by decide) (by decide)
      rw [hd]
      exact List.mem_cons_self ..
  | negSucc n => exact ⟨'-', Nat.toDigits 10 (n + 1), rfl, .inl rfl⟩

/-- A sign or a digit begins no other value, and is no white space. -/
private theorem head_cases {c : Char} (h : c = '-' ∨ c.isDigit = true) :
    isSpace c = false ∧ c ≠ '"' ∧ c ≠ '[' ∧ c ≠ '\x7b' ∧ c ≠ 't' ∧ c ≠ 'f' ∧ c ≠ 'n' ∧
      c ≠ ']' := by
  rcases h with rfl | h
  · decide
  · have hne : ∀ d : Char, d.isDigit = false → c ≠ d := by
      rintro d hd rfl
      rw [h] at hd
      cases hd
    have hspace : isSpace c = false := by
      simp only [isSpace, Bool.or_eq_false_iff, decide_eq_false_iff_not]
      exact ⟨⟨⟨hne _ (by decide), hne _ (by decide)⟩, hne _ (by decide)⟩, hne _ (by decide)⟩
    exact ⟨hspace, hne _ (by decide), hne _ (by decide), hne _ (by decide), hne _ (by decide),
      hne _ (by decide), hne _ (by decide), hne _ (by decide)⟩

/-- The text of a value begins with neither white space nor the end of an array. -/
private theorem head_encode (v : Json) :
    ∃ c cs, encode v = c :: cs ∧ isSpace c = false ∧ c ≠ ']' := by
  match v with
  | .null => exact ⟨_, _, rfl, by decide, by decide⟩
  | .bool true => exact ⟨_, _, rfl, by decide, by decide⟩
  | .bool false => exact ⟨_, _, rfl, by decide, by decide⟩
  | .number m e =>
    obtain ⟨c, cs, hc, hhead⟩ := head_encodeInt m
    obtain ⟨hspace, -, -, -, -, -, -, hclose⟩ := head_cases hhead
    exact ⟨c, cs ++ encodeExponent e, by rw [encode, hc, List.cons_append], hspace, hclose⟩
  | .string s => exact ⟨_, _, rfl, by decide, by decide⟩
  | .array [] => exact ⟨_, _, rfl, by decide, by decide⟩
  | .array (v :: vs) => exact ⟨'[', encode v ++ encodeElements vs, rfl, by decide, by decide⟩
  | .object [] => exact ⟨_, _, rfl, by decide, by decide⟩
  | .object ((k, v) :: ms) => exact ⟨_, _, rfl, by decide, by decide⟩

/-- Elements from the first one and those after it. -/
private theorem elements_succ {n : Nat} {cs rest rest' : List Char} {v : Json} {vs : List Json}
    (hv : value n cs = some (v, rest))
    (hvs : andMore ']' (elements n) v rest = some (vs, rest')) :
    elements (n + 1) cs = some (vs, rest') := by
  rw [elements, hv]
  exact hvs

/-- Members from the first one and those after it. -/
private theorem members_succ {n : Nat} {k : String} {cs rest rest' : List Char} {v : Json}
    {ms : List (String × Json)} (hv : value n cs = some (v, rest))
    (hms : andMore '\x7d' (members n) (k, v) rest = some (ms, rest')) :
    members (n + 1) ('"' :: (encodeString k ++ ':' :: cs)) = some (ms, rest') := by
  rw [members, token_cons (t := '"') (by decide)]
  simp only [Option.bind_eq_bind, Option.bind_some, string_encodeString,
    token_cons (t := ':') (by decide), hv]
  exact hms

/-- A number can end before what follows a value. -/
private theorem ends_elements (vs : List Json) (rest : List Char) :
    Ends (encodeElements vs ++ rest) := by
  cases vs with
  | nil =>
    rintro c hc
    cases hc
    decide
  | cons v vs =>
    rintro c hc
    cases hc
    decide

private theorem ends_members (ms : List (String × Json)) (rest : List Char) :
    Ends (encodeMembers ms ++ rest) := by
  cases ms with
  | nil =>
    rintro c hc
    cases hc
    decide
  | cons m ms =>
    rintro c hc
    cases hc
    decide

/-- There is an end. -/
private theorem length_encodeElements_pos (vs : List Json) : 0 < (encodeElements vs).length := by
  cases vs with
  | nil => decide
  | cons v vs => exact Nat.succ_pos _

private theorem length_encodeMembers_pos (ms : List (String × Json)) :
    0 < (encodeMembers ms).length := by
  cases ms with
  | nil => decide
  | cons m ms => exact Nat.succ_pos _

mutual

/-- The text of a value is decoded to it; its length bounds the steps. -/
private theorem value_encode : ∀ (v : Json) (n : Nat) (rest : List Char), Ends rest →
    (encode v).length ≤ n → value n (encode v ++ rest) = some (v, rest)
  | v, 0, rest, _, hn => by
    obtain ⟨c, cs, hc, -⟩ := head_encode v
    rw [hc] at hn
    cases hn
  | .null, n + 1, rest, _, _ => rfl
  | .bool true, n + 1, rest, _, _ => rfl
  | .bool false, n + 1, rest, _, _ => rfl
  | .number m e, n + 1, rest, hrest, _ => by
    have hread := number_encode m e hrest
    obtain ⟨c, cs, hc, hhead⟩ := head_encodeInt m
    obtain ⟨hspace, hq, ha, ho, ht, hf, hl, -⟩ := head_cases hhead
    rw [hc, List.cons_append] at hread
    rw [encode, hc, List.append_assoc, List.cons_append, value]
    simp only [skipSpace, hspace, Bool.false_eq_true, ↓reduceIte, if_neg hq, if_neg ha, if_neg ho,
      if_neg ht, if_neg hf, if_neg hl]
    exact hread
  | .string s, n + 1, rest, _, _ => by
    have hread := string_encodeString s rest
    change (string (encodeString s ++ rest)).map (fun (s, rest) ↦ (Json.string s, rest)) = _
    rw [hread]
    rfl
  | .array [], n + 1, rest, _, _ => rfl
  | .array (v :: vs), n + 1, rest, _, hn => by
    obtain ⟨c, cs, hc, hspace, hclose⟩ := head_encode v
    have hpos := length_encodeElements_pos vs
    have hlen : 0 < (encode v).length := by
      rw [hc]
      exact Nat.succ_pos _
    rw [encode, List.length_cons, List.length_append] at hn
    cases n with
    | zero => omega
    | succ n =>
      have hv := value_encode v n (encodeElements vs ++ rest) (ends_elements vs rest) (by omega)
      have hvs := andMore_encodeElements vs v n rest (by omega)
      have hread := elements_succ hv hvs
      have htoken : token ']' (encode v ++ (encodeElements vs ++ rest)) = none := by
        rw [hc, List.cons_append, token, skipSpace, hspace]
        simp only [Bool.false_eq_true, ↓reduceIte, if_neg hclose]
      rw [encode, List.cons_append, List.append_assoc]
      change (match token ']' (encode v ++ (encodeElements vs ++ rest)) with
        | some rest => some (Json.array [], rest)
        | none => (elements (n + 1) (encode v ++ (encodeElements vs ++ rest))).map
          fun (vs, rest) ↦ (Json.array vs, rest)) = _
      rw [htoken, hread]
      rfl
  | .object [], n + 1, rest, _, _ => rfl
  | .object ((k, v) :: ms), n + 1, rest, _, hn => by
    have hpos := length_encodeMembers_pos ms
    rw [encode] at hn
    simp only [List.length_cons, List.length_append] at hn
    cases n with
    | zero => omega
    | succ n =>
      have hv := value_encode v n (encodeMembers ms ++ rest) (ends_members ms rest) (by omega)
      have hms := andMore_encodeMembers ms (k, v) n rest (by omega)
      have hread := members_succ (k := k) hv hms
      rw [encode]
      simp only [List.cons_append, List.append_assoc]
      rw [value_object, hread]
      rfl

/-- So are further elements. -/
private theorem andMore_encodeElements : ∀ (vs : List Json) (u : Json) (n : Nat)
    (rest : List Char), (encodeElements vs).length ≤ n →
    andMore ']' (elements n) u (encodeElements vs ++ rest) = some (u :: vs, rest)
  | [], u, n, rest, _ => rfl
  | v :: vs, u, n, rest, hn => by
    have hpos := length_encodeElements_pos vs
    rw [encodeElements, List.length_cons, List.length_append] at hn
    cases n with
    | zero => omega
    | succ n =>
      have hv := value_encode v n (encodeElements vs ++ rest) (ends_elements vs rest) (by omega)
      have hvs := andMore_encodeElements vs v n rest (by omega)
      rw [encodeElements, List.cons_append, List.append_assoc, andMore_comma,
        elements_succ hv hvs]
      rfl

/-- So are further members. -/
private theorem andMore_encodeMembers : ∀ (ms : List (String × Json)) (u : String × Json)
    (n : Nat) (rest : List Char), (encodeMembers ms).length ≤ n →
    andMore '\x7d' (members n) u (encodeMembers ms ++ rest) = some (u :: ms, rest)
  | [], u, n, rest, _ => rfl
  | (k, v) :: ms, u, n, rest, hn => by
    have hpos := length_encodeMembers_pos ms
    rw [encodeMembers] at hn
    simp only [List.length_cons, List.length_append] at hn
    cases n with
    | zero => omega
    | succ n =>
      have hv := value_encode v n (encodeMembers ms ++ rest) (ends_members ms rest) (by omega)
      have hms := andMore_encodeMembers ms (k, v) n rest (by omega)
      rw [encodeMembers]
      simp only [List.cons_append, List.append_assoc]
      rw [andMore_comma, members_succ (k := k) hv hms]
      rfl

end

/-- The text of a value is decoded to it. -/
theorem decode_encode (v : Json) : decode (encode v) = some v := by
  have hv := value_encode v ((encode v).length + 1) [] nofun (by omega)
  rw [List.append_nil] at hv
  rw [decode, hv]
  rfl

end IcsGateway.Lib.JsonText
