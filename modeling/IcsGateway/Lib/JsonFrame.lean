import IcsGateway.Lib.JsonPrint

/-!
# JSON texts inside longer texts

What the decoder of `JsonText` reads does not depend on what follows, nor on the number of
steps it may take beyond those it needs. So texts of values can be put together: white space
may stand after a text, and texts between brackets, separated by commas, are the text of the
array of their values.
-/

namespace IcsGateway.Lib.JsonText

variable {cs rest x : List Char}

/-! ### Tokens -/

/-- A text with a first character has it in front of a longer text. -/
theorem skipSpace_append {c : Char} (h : skipSpace cs = c :: rest) (x : List Char) :
    skipSpace (cs ++ x) = c :: (rest ++ x) := by
  induction cs with
  | nil => cases h
  | cons d cs ih =>
    rw [skipSpace] at h
    rw [List.cons_append, skipSpace]
    split at h
    · next hd => rw [if_pos hd, ih h]
    · next hd =>
      rw [if_neg hd]
      cases h
      rfl

/-- White space is skipped. -/
theorem skipSpace_append_of_space (h : skipSpace cs = []) (x : List Char) :
    skipSpace (cs ++ x) = skipSpace x := by
  induction cs with
  | nil => rfl
  | cons d cs ih =>
    rw [skipSpace] at h
    split at h
    · next hd => rw [List.cons_append, skipSpace, if_pos hd, ih h]
    · cases h

/-- So is a token. -/
theorem token_append {t : Char} (h : token t cs = some rest) (x : List Char) :
    token t (cs ++ x) = some (rest ++ x) := by
  rw [token] at h
  split at h
  · cases h
  · next c cs' hskip =>
    rw [token, skipSpace_append hskip]
    split at h
    · next hc =>
      cases h
      exact if_pos hc
    · cases h

/-- A text that does not begin with the token does not begin with it in a longer text. -/
theorem token_append_of_none {t : Char} (h : token t cs = none) (hne : skipSpace cs ≠ [])
    (x : List Char) : token t (cs ++ x) = none := by
  rw [token] at h
  split at h
  · next hskip => exact absurd hskip hne
  · next c cs' hskip =>
    rw [token, skipSpace_append hskip]
    split at h
    · cases h
    · next hc => exact if_neg hc

/-! ### Strings -/

/-- Four digits are read off the front. -/
theorem hex4_append {v : Nat} (h : hex4 cs = some (v, rest)) (x : List Char) :
    hex4 (cs ++ x) = some (v, rest ++ x) := by
  match cs with
  | a :: b :: c :: d :: cs =>
    simp only [hex4, Option.bind_eq_bind, Option.bind_eq_some_iff, Option.pure_def,
      Option.some.injEq, Prod.mk.injEq] at h
    obtain ⟨va, ha, vb, hb, vc, hc, vd, hd, rfl, rfl⟩ := h
    simp only [List.cons_append, hex4, ha, hb, hc, hd, Option.bind_eq_bind, Option.bind_some,
      Option.pure_def]
  | [] => cases h
  | [_] => cases h
  | [_, _] => cases h
  | [_, _, _] => cases h

theorem codeUnit_append {v : Nat} (h : codeUnit cs = some (v, rest)) (x : List Char) :
    codeUnit (cs ++ x) = some (v, rest ++ x) := by
  match cs with
  | [] => cases h
  | [_] => cases h
  | b :: u :: cs =>
    rw [codeUnit] at h
    rw [List.cons_append, List.cons_append, codeUnit]
    split at h
    · next hbu => rw [if_pos hbu, hex4_append h]
    · cases h

theorem unicode_append {d : Char} (h : unicode cs = some (d, rest)) (x : List Char) :
    unicode (cs ++ x) = some (d, rest ++ x) := by
  simp only [unicode, Option.bind_eq_bind, Option.bind_eq_some_iff] at h
  obtain ⟨⟨high, tail⟩, hhex, h⟩ := h
  simp only [unicode, hex4_append hhex, Option.bind_eq_bind, Option.bind_some]
  simp only at h
  split at h
  · next hhigh =>
    rw [if_pos hhigh]
    rw [Option.bind_eq_some_iff] at h
    obtain ⟨⟨low, tail⟩, hunit, h⟩ := h
    simp only [codeUnit_append hunit, Option.bind_some]
    simp only at h
    split at h
    · next hlow =>
      rw [if_pos hlow]
      simp only [Option.map_eq_some_iff, Prod.mk.injEq] at h
      obtain ⟨d', hd, rfl, rfl⟩ := h
      simp [hd]
    · cases h
  · next hhigh =>
    rw [if_neg hhigh]
    simp only [Option.map_eq_some_iff, Prod.mk.injEq] at h
    obtain ⟨d', hd, rfl, rfl⟩ := h
    simp [hd]

/-- An escape is read off the front. -/
theorem escape_append {d : Char} (h : escape cs = some (d, rest)) (x : List Char) :
    escape (cs ++ x) = some (d, rest ++ x) := by
  cases cs with
  | nil => cases h
  | cons c cs =>
    rw [escape] at h
    rw [List.cons_append, escape]
    split at h
    · next hu => rw [if_pos hu, unicode_append h]
    · next hu =>
      rw [if_neg hu]
      obtain ⟨d', hd, he⟩ := Option.map_eq_some_iff.mp h
      cases he
      rw [hd, Option.map_some]

/-- The characters of a string end at its quotation mark. -/
theorem chars_append {ds : List Char} {n m : Nat} (hnm : n ≤ m)
    (h : chars n cs = some (ds, rest)) (x : List Char) :
    chars m (cs ++ x) = some (ds, rest ++ x) := by
  induction n generalizing cs ds m with
  | zero => cases h
  | succ n ih =>
    cases m with
    | zero => omega
    | succ m =>
      have hle : n ≤ m := by omega
      cases cs with
      | nil => cases h
      | cons c cs =>
        rw [chars] at h
        rw [List.cons_append, chars]
        split at h
        · next hquote =>
          cases h
          exact if_pos hquote
        · next hquote =>
          rw [if_neg hquote]
          split at h
          · next hslash =>
            simp only [Option.bind_eq_bind, Option.bind_eq_some_iff, Option.pure_def,
              Option.some.injEq, Prod.mk.injEq] at h
            obtain ⟨⟨d, tail⟩, hesc, ⟨ds', rest'⟩, hchars, rfl, rfl⟩ := h
            rw [if_pos hslash]
            simp only [escape_append hesc, ih hle hchars, Option.bind_eq_bind, Option.bind_some,
              Option.pure_def]
          · next hslash =>
            rw [if_neg hslash]
            split at h
            · cases h
            · next hspace =>
              simp only [Option.bind_eq_bind, Option.bind_eq_some_iff, Option.pure_def,
                Option.some.injEq, Prod.mk.injEq] at h
              obtain ⟨⟨ds', rest'⟩, hchars, rfl, rfl⟩ := h
              rw [if_neg hspace]
              simp only [ih hle hchars, Option.bind_eq_bind, Option.bind_some, Option.pure_def]

theorem string_append {s : String} (h : string cs = some (s, rest)) (x : List Char) :
    string (cs ++ x) = some (s, rest ++ x) := by
  simp only [string, Option.bind_eq_bind, Option.bind_eq_some_iff, Option.pure_def,
    Option.some.injEq, Prod.mk.injEq] at h
  obtain ⟨⟨ds, rest'⟩, hchars, rfl, rfl⟩ := h
  have hle : cs.length + 1 ≤ (cs ++ x).length + 1 := by
    rw [List.length_append]
    omega
  simp only [string, chars_append hle hchars, Option.bind_eq_bind, Option.bind_some,
    Option.pure_def]

/-! ### Numbers -/

/-- Digits end where no digit follows. -/
theorem digits_append {ds : List Char} (h : digits cs = some (ds, rest)) (hx : NoDigit x) :
    digits (cs ++ x) = some (ds, rest ++ x) := by
  have hfirst : x.takeWhile Char.isDigit = [] ∧ x.dropWhile Char.isDigit = x := by
    cases x with
    | nil => exact ⟨rfl, rfl⟩
    | cons c x =>
      have hc := hx c rfl
      simp [hc]
  have htake : (cs ++ x).takeWhile Char.isDigit = cs.takeWhile Char.isDigit := by
    rw [List.takeWhile_append, hfirst.1, List.append_nil]
    split
    · next hlen => exact ((List.takeWhile_prefix _).eq_of_length hlen).symm
    · rfl
  have hdrop : (cs ++ x).dropWhile Char.isDigit = cs.dropWhile Char.isDigit ++ x := by
    rw [List.dropWhile_append, hfirst.2]
    split
    · next hempty => rw [List.isEmpty_iff.mp hempty, List.nil_append]
    · rfl
  rw [digits, List.span_eq_takeWhile_dropWhile] at h ⊢
  rw [htake, hdrop]
  cases htw : cs.takeWhile Char.isDigit with
  | nil =>
    rw [htw] at h
    cases h
  | cons d ds' =>
    rw [htw] at h
    cases h
    rfl

/-- Nothing follows that could be the fraction of a number. -/
theorem fraction_append {ds : List Char} (h : fraction cs = some (ds, rest)) (hx : Ends x) :
    fraction (cs ++ x) = some (ds, rest ++ x) := by
  cases cs with
  | nil =>
    cases h
    exact fraction_of_ends fun c hc ↦ (hx c hc).2.1
  | cons c cs =>
    rw [fraction] at h
    rw [List.cons_append, fraction]
    split at h
    · next hc => rw [if_pos hc, digits_append h fun c hc ↦ (hx c hc).1]
    · next hc =>
      cases h
      exact if_neg hc

/-- Nothing follows that could be the exponent of a number. -/
theorem exponent_append {e : Int} (h : exponent cs = some (e, rest)) (hx : Ends x) :
    exponent (cs ++ x) = some (e, rest ++ x) := by
  have hdigit : NoDigit x := fun c hc ↦ (hx c hc).1
  cases cs with
  | nil =>
    cases h
    exact exponent_encodeExponent 0 hx
  | cons c cs =>
    rw [exponent.eq_def] at h
    rw [List.cons_append, exponent.eq_def]
    simp only at h ⊢
    split at h
    · next hc =>
      rw [if_pos hc]
      split at h
      · obtain ⟨⟨ds, rest'⟩, hds, he⟩ := Option.map_eq_some_iff.mp h
        cases he
        simp only [List.cons_append, digits_append hds hdigit, Option.map_some]
      · obtain ⟨⟨ds, rest'⟩, hds, he⟩ := Option.map_eq_some_iff.mp h
        cases he
        simp only [List.cons_append, digits_append hds hdigit, Option.map_some]
      · next hminus hplus =>
        obtain ⟨⟨ds, rest'⟩, hds, he⟩ := Option.map_eq_some_iff.mp h
        cases he
        have hlong := digits_append hds hdigit
        cases cs with
        | nil => cases hds
        | cons d cs =>
          rw [List.cons_append] at hlong ⊢
          split
          · next hd =>
            cases hd
            exact absurd rfl (hminus cs)
          · next hd =>
            cases hd
            exact absurd rfl (hplus cs)
          · rw [hlong]
            rfl
    · next hc =>
      cases h
      exact if_neg hc

theorem magnitude_append {v : Nat × Int} (h : magnitude cs = some (v, rest)) (hx : Ends x) :
    magnitude (cs ++ x) = some (v, rest ++ x) := by
  simp only [magnitude, Option.bind_eq_bind, Option.bind_eq_some_iff] at h
  obtain ⟨⟨whole, tail⟩, hwhole, h⟩ := h
  simp only [magnitude, digits_append hwhole fun c hc ↦ (hx c hc).1, Option.bind_eq_bind,
    Option.bind_some]
  simp only at h
  split at h
  · cases h
  · next hzero =>
    simp only [Option.bind_eq_some_iff, Option.pure_def, Option.some.injEq, Prod.mk.injEq] at h
    obtain ⟨⟨part, tail'⟩, hpart, ⟨e, rest'⟩, hexp, rfl, rfl⟩ := h
    rw [if_neg hzero]
    simp only [fraction_append hpart hx, exponent_append hexp hx, Option.bind_some,
      Option.pure_def]

/-- A number ends where nothing follows that could belong to it. -/
theorem number_append {v : Json} (h : number cs = some (v, rest)) (hx : Ends x) :
    number (cs ++ x) = some (v, rest ++ x) := by
  cases cs with
  | nil => cases h
  | cons c cs =>
    rw [number] at h
    rw [List.cons_append, number]
    split at h
    · next hsign =>
      obtain ⟨⟨m, tail⟩, hm, he⟩ := Option.map_eq_some_iff.mp h
      cases he
      rw [if_pos hsign, magnitude_append hm hx]
      rfl
    · next hsign =>
      obtain ⟨⟨m, tail⟩, hm, he⟩ := Option.map_eq_some_iff.mp h
      cases he
      have hlong := magnitude_append hm hx
      rw [List.cons_append] at hlong
      rw [if_neg hsign, hlong]
      rfl

/-! ### Values -/

theorem literal_append {text : List Char} {u v : Json} (h : literal text u cs = some (v, rest))
    (x : List Char) : literal text u (cs ++ x) = some (v, rest ++ x) := by
  rw [literal] at h ⊢
  split at h
  · next htext =>
    obtain ⟨tail, rfl⟩ := List.isPrefixOf_iff_prefix.mp htext
    cases h
    have hlong : text.isPrefixOf (text ++ tail ++ x) = true := by
      rw [List.isPrefixOf_iff_prefix, List.append_assoc]
      exact List.prefix_append ..
    rw [if_pos hlong, List.append_assoc, List.drop_left, List.drop_left]
  · cases h

/-- The rest of a list ends at its closing token. -/
theorem andMore_append {α : Type} {close : Char} {a : α} {as : List α}
    {more more' : List Char → Option (List α × List Char)}
    (hmore : ∀ cs as rest, more cs = some (as, rest) → more' (cs ++ x) = some (as, rest ++ x))
    (h : andMore close more a cs = some (as, rest)) :
    andMore close more' a (cs ++ x) = some (as, rest ++ x) := by
  rw [andMore] at h
  split at h
  · cases h
  · next c cs' hskip =>
    rw [andMore, skipSpace_append hskip]
    simp only
    split at h
    · next hcomma =>
      obtain ⟨⟨as', rest'⟩, has, he⟩ := Option.map_eq_some_iff.mp h
      cases he
      rw [if_pos hcomma, hmore _ _ _ has]
      rfl
    · next hcomma =>
      rw [if_neg hcomma]
      split at h
      · next hclose =>
        cases h
        exact if_pos hclose
      · cases h

/-- What a value begins with. -/
theorem skipSpace_ne_nil_of_value {n : Nat} {v : Json} (h : value n cs = some (v, rest)) :
    skipSpace cs ≠ [] := by
  intro hnil
  cases n with
  | zero => cases h
  | succ n =>
    rw [value, hnil] at h
    cases h

/-- No value begins with the end of an array. -/
theorem token_of_value {n : Nat} {v : Json} (h : value n cs = some (v, rest)) :
    token ']' cs = none := by
  cases n with
  | zero => cases h
  | succ n =>
    rw [value] at h
    rw [token]
    split at h
    · cases h
    · next c cs' hskip =>
      apply if_neg
      rintro rfl
      cases h

theorem skipSpace_ne_nil_of_elements {n : Nat} {vs : List Json}
    (h : elements n cs = some (vs, rest)) : skipSpace cs ≠ [] := by
  cases n with
  | zero => cases h
  | succ n =>
    rw [elements, Option.bind_eq_bind, Option.bind_eq_some_iff] at h
    obtain ⟨⟨v, tail⟩, hv, -⟩ := h
    exact skipSpace_ne_nil_of_value hv

theorem skipSpace_ne_nil_of_members {n : Nat} {ms : List (String × Json)}
    (h : members n cs = some (ms, rest)) : skipSpace cs ≠ [] := by
  intro hnil
  cases n with
  | zero => cases h
  | succ n =>
    have htoken : token '"' cs = none := by
      rw [token, hnil]
    rw [members, htoken] at h
    cases h

mutual

/-- A value is read alike in front of a longer text and with more steps. -/
theorem value_append (hx : Ends x) : ∀ (n m : Nat) (cs rest : List Char) (v : Json), n ≤ m →
    value n cs = some (v, rest) → value m (cs ++ x) = some (v, rest ++ x)
  | 0, _, _, _, _, _, h => by cases h
  | n + 1, 0, _, _, _, hnm, _ => by omega
  | n + 1, m + 1, cs, rest, v, hnm, h => by
    have hle : n ≤ m := by omega
    rw [value] at h
    split at h
    · cases h
    · next c cs' hskip =>
      rw [value, skipSpace_append hskip]
      simp only
      split at h
      · next hc =>
        obtain ⟨⟨s, tail⟩, hs, he⟩ := Option.map_eq_some_iff.mp h
        cases he
        rw [if_pos hc, string_append hs]
        rfl
      · next hc =>
        rw [if_neg hc]
        split at h
        · next hc =>
          rw [if_pos hc]
          split at h
          · next rest' htoken =>
            cases h
            rw [token_append htoken]
          · next htoken =>
            obtain ⟨⟨vs, tail⟩, hvs, he⟩ := Option.map_eq_some_iff.mp h
            cases he
            rw [token_append_of_none htoken (skipSpace_ne_nil_of_elements hvs)]
            simp only [elements_append hx n m _ _ _ hle hvs, Option.map_some]
        · next hc =>
          rw [if_neg hc]
          split at h
          · next hc =>
            rw [if_pos hc]
            split at h
            · next rest' htoken =>
              cases h
              rw [token_append htoken]
            · next htoken =>
              obtain ⟨⟨ms, tail⟩, hms, he⟩ := Option.map_eq_some_iff.mp h
              cases he
              rw [token_append_of_none htoken (skipSpace_ne_nil_of_members hms)]
              simp only [members_append hx n m _ _ _ hle hms, Option.map_some]
          · next hc =>
            rw [if_neg hc]
            split at h
            · next hc => rw [if_pos hc, literal_append h]
            · next hc =>
              rw [if_neg hc]
              split at h
              · next hc => rw [if_pos hc, literal_append h]
              · next hc =>
                rw [if_neg hc]
                split at h
                · next hc => rw [if_pos hc, literal_append h]
                · next hc =>
                  have hlong := number_append h hx
                  rw [List.cons_append] at hlong
                  rw [if_neg hc, hlong]

/-- So are the elements of an array. -/
theorem elements_append (hx : Ends x) : ∀ (n m : Nat) (cs rest : List Char) (vs : List Json),
    n ≤ m → elements n cs = some (vs, rest) → elements m (cs ++ x) = some (vs, rest ++ x)
  | 0, _, _, _, _, _, h => by cases h
  | n + 1, 0, _, _, _, hnm, _ => by omega
  | n + 1, m + 1, cs, rest, vs, hnm, h => by
    have hle : n ≤ m := by omega
    rw [elements, Option.bind_eq_bind, Option.bind_eq_some_iff] at h
    obtain ⟨⟨v, tail⟩, hv, hmore⟩ := h
    rw [elements, value_append hx n m _ _ _ hle hv]
    exact andMore_append (fun cs vs rest h ↦ elements_append hx n m cs rest vs hle h) hmore

/-- So are the members of an object. -/
theorem members_append (hx : Ends x) : ∀ (n m : Nat) (cs rest : List Char)
    (ms : List (String × Json)), n ≤ m → members n cs = some (ms, rest) →
    members m (cs ++ x) = some (ms, rest ++ x)
  | 0, _, _, _, _, _, h => by cases h
  | n + 1, 0, _, _, _, hnm, _ => by omega
  | n + 1, m + 1, cs, rest, ms, hnm, h => by
    have hle : n ≤ m := by omega
    simp only [members, Option.bind_eq_bind, Option.bind_eq_some_iff] at h
    obtain ⟨afterOpen, hopen, ⟨k, afterName⟩, hname, afterColon, hcolon, ⟨v, tail⟩, hv, hmore⟩ := h
    simp only [members, token_append hopen, string_append hname, token_append hcolon,
      value_append hx n m _ _ _ hle hv, Option.bind_eq_bind, Option.bind_some]
    exact andMore_append (fun cs ms rest h ↦ members_append hx n m cs rest ms hle h) hmore

end

/-! ### Texts put together -/

/-- A text that is decoded has only white space after its value. -/
theorem value_of_decode {t : List Char} {v : Json} (h : decode t = some v) :
    ∃ rest, value (t.length + 1) t = some (v, rest) ∧ skipSpace rest = [] := by
  rw [decode] at h
  split at h
  · next v' rest hvalue =>
    split at h
    · next hspace =>
      cases h
      exact ⟨rest, hvalue, hspace⟩
    · cases h
  · cases h

/-- A line feed may follow a text. -/
theorem decode_append_line {t : List Char} {v : Json} (h : decode t = some v) :
    decode (t ++ ['\n']) = some v := by
  obtain ⟨rest, hvalue, hspace⟩ := value_of_decode h
  have hends : Ends ['\n'] := by
    rintro c hc
    cases hc
    decide
  have hlong := value_append hends _ ((t ++ ['\n']).length + 1) t rest v
    (by rw [List.length_append]; omega) hvalue
  have hline : skipSpace (rest ++ ['\n']) = [] := by
    rw [skipSpace_append_of_space hspace]
    rfl
  rw [decode, hlong]
  exact if_pos hline

/-- An element in front of what follows it. -/
private theorem elements_of_decode {t x : List Char} {v : Json} (ht : decode t = some v)
    (hx : Ends x) {n : Nat} (hn : t.length + 1 ≤ n) {vs : List Json} {rest : List Char}
    (hmore : andMore ']' (elements n) v x = some (vs, rest)) :
    elements (n + 1) (t ++ x) = some (vs, rest) := by
  obtain ⟨tail, hvalue, hspace⟩ := value_of_decode ht
  have hskip : skipSpace (tail ++ x) = skipSpace x := skipSpace_append_of_space hspace x
  rw [elements, value_append hx _ n t tail v hn hvalue]
  change andMore ']' (elements n) v (tail ++ x) = _
  rw [andMore, hskip]
  exact hmore

/-- Texts with commas between them, up to the end of the array. -/
private theorem elements_intercalate {ts : List (List Char)} {vs : List Json}
    (h : List.Forall₂ (fun t v ↦ decode t = some v) ts vs) :
    ts ≠ [] → ∀ n, ([','].intercalate ts).length + 2 ≤ n →
      elements n ([','].intercalate ts ++ [']']) = some (vs, []) := by
  induction h with
  | nil => exact fun hne ↦ absurd rfl hne
  | @cons t v ts vs ht hts ih =>
    intro _ n hn
    obtain ⟨n, rfl⟩ : ∃ m, n = m + 1 := ⟨n - 1, by omega⟩
    cases hts with
    | nil =>
      rw [List.intercalate_singleton] at hn ⊢
      have hends : Ends [']'] := by
        rintro c hc
        cases hc
        decide
      exact elements_of_decode ht hends (by omega) rfl
    | @cons u w ts vs hu hts =>
      rw [List.intercalate_cons_cons] at hn ⊢
      simp only [List.length_append, List.length_singleton] at hn
      have hmore := ih (List.cons_ne_nil _ _) n (by omega)
      have hends : Ends (',' :: ([','].intercalate (u :: ts) ++ [']'])) := by
        rintro c hc
        cases hc
        decide
      rw [List.append_assoc, List.append_assoc, List.singleton_append]
      apply elements_of_decode ht hends (by omega)
      rw [andMore_comma, hmore]
      rfl

/-- Elements behind an opening bracket are an array. -/
private theorem value_of_elements {n : Nat} {cs : List Char} {vs : List Json}
    (htoken : token ']' cs = none) (h : elements n cs = some (vs, [])) :
    value (n + 1) ('[' :: cs) = some (.array vs, []) := by
  have hspace : skipSpace ('[' :: cs) = '[' :: cs := rfl
  rw [value]
  simp only [hspace, htoken, h]
  rfl

/-- Texts between brackets, with commas between them, are the text of an array. -/
theorem decode_array {ts : List (List Char)} {vs : List Json}
    (h : List.Forall₂ (fun t v ↦ decode t = some v) ts vs) :
    decode ('[' :: ([','].intercalate ts ++ [']'])) = some (.array vs) := by
  cases h with
  | nil => rfl
  | @cons t v ts vs ht hts =>
    have hread := elements_intercalate (.cons ht hts) (List.cons_ne_nil _ _)
      (('[' :: ([','].intercalate (t :: ts) ++ [']'])).length)
      (by simp only [List.length_cons, List.length_append, List.length_nil]; omega)
    obtain ⟨x, hx⟩ : ∃ x, [','].intercalate (t :: ts) ++ [']'] = t ++ x := by
      cases ts with
      | nil => exact ⟨[']'], by rw [List.intercalate_singleton]⟩
      | cons u ts =>
        refine ⟨[','] ++ [','].intercalate (u :: ts) ++ [']'], ?_⟩
        rw [List.intercalate_cons_cons, List.append_assoc, List.append_assoc, List.append_assoc]
    have htoken : token ']' ([','].intercalate (t :: ts) ++ [']']) = none := by
      obtain ⟨rest, hvalue, -⟩ := value_of_decode ht
      rw [hx]
      exact token_append_of_none (token_of_value hvalue) (skipSpace_ne_nil_of_value hvalue) x
    have hvalue := value_of_elements htoken hread
    rw [decode, hvalue]
    rfl

end IcsGateway.Lib.JsonText
