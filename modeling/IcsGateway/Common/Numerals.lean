import Mathlib.Data.Int.ModEq
import IcsGateway.Common.ComUtil

/-!
# Numbers and addresses in texts

`ComUtil::getNumber` takes what stands at the front of a text for its number: white space before
it and anything after it are passed over, and the number wraps to 32 bits, where two values stand
for errors (`Common/ComUtil.cpp:290–393`).
-/

namespace IcsGateway.ComUtil

/-! ### Numerals -/

/-- Digits, one or more. -/
def IsDigits (base : Nat) (ds : List Char) : Prop := ds ≠ [] ∧ ∀ c ∈ ds, (digit? base c).isSome

instance (base : Nat) (ds : List Char) : Decidable (IsDigits base ds) :=
  have : Decidable (∀ c ∈ ds, (digit? base c).isSome = true) :=
    List.decidableBAll (fun c : Char ↦ (digit? base c).isSome = true) ds
  inferInstanceAs (Decidable (_ ∧ _))

/-- What digits denote. -/
def valueOf (base : Nat) (ds : List Char) : Nat :=
  (ds.filterMap (digit? base)).foldl (fun n d ↦ n * base + d) 0

/-- A decimal numeral, with or without a sign, or a hexadecimal one behind `0x`. -/
inductive Numeral : List Char → Int → Prop
  | decimal (ds : List Char) (hds : IsDigits 10 ds) : Numeral ds (valueOf 10 ds)
  | plus (ds : List Char) (hds : IsDigits 10 ds) : Numeral ('+' :: ds) (valueOf 10 ds)
  | minus (ds : List Char) (hds : IsDigits 10 ds) : Numeral ('-' :: ds) (-(valueOf 10 ds : Int))
  | hex (x : Char) (ds : List Char) (hx : x = 'x' ∨ x = 'X') (hds : IsDigits 16 ds) :
    Numeral ('0' :: x :: ds) (valueOf 16 ds)

/-- No digit follows. -/
def Ends (base : Nat) (rest : List Char) : Prop := ∀ c ∈ rest.head?, digit? base c = none

/-- The text goes on behind `0x`. -/
def HexMark (cs : List Char) : Prop := ∃ x c rest, cs = '0' :: x :: c :: rest ∧ (x = 'x' ∨ x = 'X')

/-- The number at the front of a text: behind `0x` a hexadecimal one, which is zero without
digits, and else a decimal one behind white space and a sign. Anything may follow. -/
inductive Front : List Char → Int → Prop
  | decimal (ws ds rest : List Char) (hws : ∀ c ∈ ws, isspace c = true) (hds : IsDigits 10 ds)
    (hrest : Ends 10 rest) (hmark : ¬ HexMark (ws ++ (ds ++ rest))) :
    Front (ws ++ (ds ++ rest)) (valueOf 10 ds)
  | plus (ws ds rest : List Char) (hws : ∀ c ∈ ws, isspace c = true) (hds : IsDigits 10 ds)
    (hrest : Ends 10 rest) : Front (ws ++ '+' :: (ds ++ rest)) (valueOf 10 ds)
  | minus (ws ds rest : List Char) (hws : ∀ c ∈ ws, isspace c = true) (hds : IsDigits 10 ds)
    (hrest : Ends 10 rest) : Front (ws ++ '-' :: (ds ++ rest)) (-(valueOf 10 ds : Int))
  | hex (x : Char) (ds rest : List Char) (hx : x = 'x' ∨ x = 'X') (hds : IsDigits 16 ds)
    (hrest : Ends 16 rest) : Front ('0' :: x :: (ds ++ rest)) (valueOf 16 ds)
  | hexZero (x c : Char) (rest : List Char) (hx : x = 'x' ∨ x = 'X') (hc : digit? 16 c = none) :
    Front ('0' :: x :: c :: rest) 0

/-- A number as it comes out of 64 and then 32 bits: one too long for 64 bits becomes -1. -/
def wrap (v : Int) : Int := if 2 ^ 64 ≤ v.natAbs then -1 else v.bmod (2 ^ 32)

/-- A string as the C functions see it. -/
def cStr (cs : List Char) : List Char := cs.takeWhile (· ≠ '\x00')

/-- An `int` as an `unsigned int`. -/
def toUnsigned (i : Int) : Nat := (i % 2 ^ 32).toNat

/-- A number as `%d` prints it. -/
def decimal : Int → List Char
  | .ofNat n => Nat.toDigits 10 n
  | .negSucc n => '-' :: Nat.toDigits 10 (n + 1)

/-! ### What digits denote -/

/-- Decimal digits by their codes. -/
theorem digit?_ten {c : Char} (h : c.isDigit = true) :
    digit? 10 c = some (c.toNat - 48) := by
  have hcode : 48 ≤ c.toNat ∧ c.toNat ≤ 57 := by
    rw [Char.isDigit, Bool.and_eq_true, decide_eq_true_eq, decide_eq_true_eq] at h
    exact h
  simp only [digit?, h, if_true]
  exact if_pos (by omega)

/-- The digits of a number are digits. -/
theorem isDigits_toDigits (n : Nat) : IsDigits 10 (Nat.toDigits 10 n) := by
  refine ⟨Nat.toDigits_ne_nil, ?_⟩
  intro c hc
  rw [digit?_ten (Nat.isDigit_of_mem_toDigits (by decide) (by decide) hc)]
  rfl

/-- They denote it. -/
theorem valueOf_toDigits (n : Nat) : valueOf 10 (Nat.toDigits 10 n) = n := by
  have hfold (ds : List Char) (h : ∀ c ∈ ds, c.isDigit = true) (init : Nat) :
      (ds.filterMap (digit? 10)).foldl (fun n d ↦ n * 10 + d) init =
        Nat.ofDigitChars 10 ds init := by
    induction ds generalizing init with
    | nil => rw [List.filterMap_nil, List.foldl_nil, Nat.ofDigitChars_nil]
    | cons c ds ih =>
      obtain ⟨hc, hds⟩ := List.forall_mem_cons.mp h
      rw [List.filterMap_cons_some (digit?_ten hc), List.foldl_cons, ih hds,
        Nat.ofDigitChars_cons, Nat.mul_comm]
      rfl
  rw [valueOf, hfold, Nat.ofDigitChars_ten_toDigits]
  intro c hc
  exact Nat.isDigit_of_mem_toDigits (by decide) (by decide) hc

/-- Few digits denote a small number. -/
theorem valueOf_lt (base : Nat) (ds : List Char) (hbase : 0 < base) :
    valueOf base ds < base ^ ds.length := by
  have hfold (init : Nat) : (ds.filterMap (digit? base)).foldl (fun n d ↦ n * base + d) init <
      (init + 1) * base ^ ds.length := by
    induction ds generalizing init with
    | nil =>
      rw [List.filterMap_nil, List.foldl_nil, List.length_nil, Nat.pow_zero]
      omega
    | cons c ds ih =>
      rw [List.length_cons, Nat.pow_succ']
      cases hc : digit? base c with
      | none =>
        rw [List.filterMap_cons_none hc]
        calc _ < (init + 1) * base ^ ds.length := ih init
          _ ≤ (init + 1) * (base * base ^ ds.length) :=
            Nat.mul_le_mul_left _ (Nat.le_mul_of_pos_left _ hbase)
      | some d =>
        have hd : d < base := by
          simp only [digit?, Option.ite_none_right_eq_some, Option.some.injEq] at hc
          exact hc.2 ▸ hc.1
        have hle : init * base + d + 1 ≤ (init + 1) * base := by
          rw [Nat.succ_mul]
          omega
        rw [List.filterMap_cons_some hc, List.foldl_cons]
        calc _ < (init * base + d + 1) * base ^ ds.length := ih _
          _ ≤ (init + 1) * base * base ^ ds.length := Nat.mul_le_mul_right _ hle
          _ = (init + 1) * (base * base ^ ds.length) := Nat.mul_assoc ..
  have hlt := hfold 0
  rw [Nat.zero_add, Nat.one_mul] at hlt
  exact hlt

/-! ### What `strtoul` reads -/

/-- A digit is neither white space nor a sign. -/
theorem of_isSome_digit {base : Nat} (hbase : base ≤ 36) {c : Char}
    (h : (digit? base c).isSome = true) : isspace c = false ∧ c ≠ '-' ∧ c ≠ '+' := by
  have halnum : c.isDigit = true ∨ c.isLower = true ∨ c.isUpper = true := by
    by_contra hno
    simp only [not_or, Bool.not_eq_true] at hno
    have hnone : digit? base c = none := by
      simp only [digit?, hno.1, hno.2.1, hno.2.2, Bool.false_eq_true, if_false]
      exact if_neg (by omega)
    rw [hnone] at h
    cases h
  have hcode : 48 ≤ c.toNat := by
    rcases halnum with h | h | h
    · rw [Char.isDigit, Bool.and_eq_true, decide_eq_true_eq] at h
      exact h.1
    · have hge : 97 ≤ c.toNat := of_decide_eq_true (Bool.and_eq_true_iff.mp h).1
      omega
    · have hbounds : 'A'.val ≤ c.val ∧ c.val ≤ 'Z'.val := of_decide_eq_true h
      have hge : 65 ≤ c.toNat := hbounds.1
      omega
  refine ⟨?_, ?_, ?_⟩
  · have hblank : c ≠ ' ' := by
      rintro rfl
      exact absurd hcode (by decide)
    rw [isspace, Bool.or_eq_false_iff, Bool.and_eq_false_iff, decide_eq_false_iff_not,
      decide_eq_false_iff_not, decide_eq_false_iff_not]
    exact ⟨hblank, .inr (by omega)⟩
  · rintro rfl
    exact absurd hcode (by decide)
  · rintro rfl
    exact absurd hcode (by decide)

/-- The digits at the front. -/
theorem takeWhile_digits {base : Nat} {ds rest : List Char} (hds : IsDigits base ds)
    (hrest : Ends base rest) :
    (ds ++ rest).takeWhile (fun c ↦ (digit? base c).isSome) = ds := by
  rw [List.takeWhile_append_of_pos hds.2]
  cases rest with
  | nil => rw [List.takeWhile_nil, List.append_nil]
  | cons c rest =>
    have hc : (digit? base c).isSome = false := by
      rw [hrest c rfl]
      rfl
    rw [List.takeWhile_cons_of_neg (by rw [hc]; exact Bool.false_ne_true), List.append_nil]

/-- `strtoul` behind white space, a sign and a `0x`. -/
def strtoulDigits (base : Nat) (neg : Bool) (cs : List Char) : Option Nat :=
  let digits := (cs.takeWhile fun c ↦ (digit? base c).isSome).filterMap (digit? base)
  if digits = [] then none
  else
    let n := digits.foldl (fun n d ↦ n * base + d) 0
    some (if 2 ^ 64 ≤ n then 2 ^ 64 - 1 else if neg then (2 ^ 64 - n) % 2 ^ 64 else n)

/-- The 64 bits of a number. -/
def clip (v : Int) : Nat := if 2 ^ 64 ≤ v.natAbs then 2 ^ 64 - 1 else (v % 2 ^ 64).toNat

/-- Digits are read up to their end. -/
private theorem strtoulDigits_of_isDigits {base : Nat} {ds rest : List Char}
    (hds : IsDigits base ds) (hrest : Ends base rest) (neg : Bool) :
    strtoulDigits base neg (ds ++ rest) =
      some (clip (if neg then -(valueOf base ds : Int) else valueOf base ds)) := by
  have hne : ds.filterMap (digit? base) ≠ [] := by
    obtain ⟨c, cs, rfl⟩ := List.exists_cons_of_ne_nil hds.1
    obtain ⟨d, hd⟩ := Option.isSome_iff_exists.mp (hds.2 c List.mem_cons_self)
    rw [List.filterMap_cons_some hd]
    exact List.cons_ne_nil _ _
  rw [strtoulDigits, takeWhile_digits hds hrest]
  simp only [if_neg hne, Option.some.injEq]
  change (if 2 ^ 64 ≤ valueOf base ds then 2 ^ 64 - 1
    else if neg = true then (2 ^ 64 - valueOf base ds) % 2 ^ 64 else valueOf base ds) = _
  generalize valueOf base ds = n
  rw [clip]
  cases neg with
  | false =>
    simp only [Bool.false_eq_true, if_false, Int.natAbs_natCast]
    split <;> omega
  | true =>
    simp only [if_true, Int.natAbs_neg, Int.natAbs_natCast]
    split <;> omega

/-- Without a digit nothing is read. -/
private theorem strtoulDigits_of_ends {base : Nat} {cs : List Char} (h : Ends base cs)
    (neg : Bool) : strtoulDigits base neg cs = none := by
  cases cs with
  | nil => rfl
  | cons c cs =>
    have hc : (digit? base c).isSome = false := by
      rw [h c rfl]
      rfl
    rw [strtoulDigits, List.takeWhile_cons_of_neg (by rw [hc]; exact Bool.false_ne_true)]
    rfl

/-- A text begins with digits or with none. -/
private theorem exists_digits (base : Nat) (cs : List Char) :
    Ends base cs ∨ ∃ ds rest, cs = ds ++ rest ∧ IsDigits base ds ∧ Ends base rest := by
  cases cs with
  | nil => exact .inl (fun c hc ↦ by cases hc)
  | cons c cs =>
    cases hc : digit? base c with
    | none =>
      left
      intro d hd
      cases hd
      exact hc
    | some n =>
      right
      refine ⟨(c :: cs).takeWhile fun c ↦ (digit? base c).isSome,
        (c :: cs).dropWhile fun c ↦ (digit? base c).isSome,
        (List.takeWhile_append_dropWhile).symm, ⟨?_, ?_⟩, ?_⟩
      · rw [List.takeWhile_cons_of_pos (by rw [hc]; rfl)]
        exact List.cons_ne_nil _ _
      · intro d hd
        have hdigit := List.mem_takeWhile_imp hd
        exact hdigit
      · intro d hd
        have hnot := List.head?_dropWhile_not (fun c ↦ (digit? base c).isSome) (c :: cs)
        rw [Option.mem_def.mp hd] at hnot
        simpa using hnot

/-- White space in front is passed over. -/
theorem dropWhile_space {ws body : List Char} (hws : ∀ c ∈ ws, isspace c = true)
    (hbody : ∀ c ∈ body.head?, isspace c = false) : (ws ++ body).dropWhile isspace = body := by
  rw [List.dropWhile_append_of_pos hws]
  cases body with
  | nil => rfl
  | cons c body => rw [List.dropWhile_cons_of_neg (by rw [hbody c rfl]; exact Bool.false_ne_true)]

/-- A decimal number without a sign. -/
private theorem strtoul_plain {ws body : List Char} (hws : ∀ c ∈ ws, isspace c = true)
    (hbody : ∀ c ∈ body.head?, isspace c = false ∧ c ≠ '-' ∧ c ≠ '+') :
    strtoul 10 (ws ++ body) = strtoulDigits 10 false body := by
  have hminus : ∀ rest, body ≠ '-' :: rest := by
    rintro rest rfl
    exact (hbody _ rfl).2.1 rfl
  have hplus : ∀ rest, body ≠ '+' :: rest := by
    rintro rest rfl
    exact (hbody _ rfl).2.2 rfl
  rw [strtoul, dropWhile_space hws fun c hc ↦ (hbody c hc).1]
  split
  next neg cs hsign =>
    split at hsign
    · exact absurd rfl (hminus _)
    · exact absurd rfl (hplus _)
    · cases hsign
      rfl

/-- One with a plus sign. -/
private theorem strtoul_plus {ws body : List Char} (hws : ∀ c ∈ ws, isspace c = true) :
    strtoul 10 (ws ++ '+' :: body) = strtoulDigits 10 false body := by
  have hhead : ∀ c ∈ ('+' :: body).head?, isspace c = false := by
    rintro c hc
    cases hc
    decide
  rw [strtoul, dropWhile_space hws hhead]
  rfl

/-- And one with a minus sign. -/
private theorem strtoul_minus {ws body : List Char} (hws : ∀ c ∈ ws, isspace c = true) :
    strtoul 10 (ws ++ '-' :: body) = strtoulDigits 10 true body := by
  have hhead : ∀ c ∈ ('-' :: body).head?, isspace c = false := by
    rintro c hc
    cases hc
    decide
  rw [strtoul, dropWhile_space hws hhead]
  rfl

/-- A hexadecimal number. -/
private theorem strtoul_hex {x c : Char} (hx : x = 'x' ∨ x = 'X') (rest : List Char) :
    strtoul 16 ('0' :: x :: c :: rest) = strtoulDigits 16 false
      (if (digit? 16 c).isSome then c :: rest else '0' :: x :: c :: rest) := by
  have hspace : ('0' :: x :: c :: rest).dropWhile isspace = '0' :: x :: c :: rest :=
    List.dropWhile_cons_of_neg (by decide)
  rw [strtoul, hspace]
  change strtoulDigits 16 false (skipHex ('0' :: x :: c :: rest)) = _
  rw [skipHex]
  by_cases hc : (digit? 16 c).isSome = true
  · rw [if_pos ⟨hx, hc⟩, if_pos hc]
  · rw [if_neg fun h ↦ hc h.2, if_neg hc]

/-! ### What `getNumber` makes of it -/

/-- The number that 64 bits give in 32. -/
private def intOf (ret : Option Nat) : Int := ret.elim numberInvalid fun n ↦ Int.bmod n (2 ^ 32)

/-- The base of a text. -/
private theorem getNumber_eq {val : COMStr} (hne : val ≠ "") :
    (HexMark val.toList → getNumber val = intOf (strtoul 16 val.toList)) ∧
    (¬ HexMark val.toList → getNumber val = intOf (strtoul 10 val.toList)) := by
  rw [getNumber, if_neg hne]
  constructor
  · rintro ⟨x, c, rest, hcs, hx⟩
    simp only [hcs, if_pos hx, intOf]
    cases strtoul 16 ('0' :: x :: c :: rest) with
    | none => rw [Option.elim_none]
    | some n => rw [Option.elim_some]
  · intro hmark
    split
    · next x c rest hcs =>
      have hx : ¬ (x = 'x' ∨ x = 'X') := fun hx ↦ hmark ⟨x, c, rest, hcs, hx⟩
      simp only [hcs, if_neg hx, intOf]
      cases strtoul 10 ('0' :: x :: c :: rest) with
      | none => rw [Option.elim_none]
      | some n => rw [Option.elim_some]
    · simp only [intOf]
      cases strtoul 10 val.toList with
      | none => rw [Option.elim_none]
      | some n => rw [Option.elim_some]

/-- What 32 of the 64 bits are. -/
private theorem intOf_clip (v : Int) : intOf (some (clip v)) = wrap v := by
  rw [intOf, Option.elim_some, clip, wrap]
  split
  · decide
  · have hpos : 0 ≤ v % 2 ^ 64 := Int.emod_nonneg v (by decide)
    rw [Int.toNat_of_nonneg hpos]
    have hdvd : (2 ^ 32 : Int) ∣ 2 ^ 64 := by decide
    have hmod := Int.emod_emod_of_dvd v hdvd
    rw [Int.bmod_def, Int.bmod_def]
    simp only [Nat.cast_pow, Nat.cast_ofNat, hmod]

/-- No digit stands where a sign or white space does. -/
private theorem head_of_isDigits {base : Nat} (hbase : base ≤ 36) {ds : List Char}
    (hds : IsDigits base ds) (rest : List Char) :
    ∀ c ∈ (ds ++ rest).head?, isspace c = false ∧ c ≠ '-' ∧ c ≠ '+' := by
  obtain ⟨d, ds, rfl⟩ := List.exists_cons_of_ne_nil hds.1
  rintro c hc
  cases hc
  exact of_isSome_digit hbase (hds.2 d List.mem_cons_self)

/-- There is something at the front. -/
theorem Front.ne_nil {cs : List Char} {v : Int} (h : Front cs v) : cs ≠ [] := by
  cases h with
  | decimal ws ds rest _ hds =>
    intro hnil
    exact hds.1 (List.append_eq_nil_iff.mp (List.append_eq_nil_iff.mp hnil).2).1
  | plus ws => simp
  | minus ws => simp
  | hex x ds rest => exact List.cons_ne_nil _ _
  | hexZero x c rest => exact List.cons_ne_nil _ _

/-- What begins with white space or a sign goes on behind no `0x`. -/
private theorem not_hexMark_append {ws cs : List Char} (hws : ∀ c ∈ ws, isspace c = true)
    (hcs : cs.head? ≠ some '0') : ¬ HexMark (ws ++ cs) := by
  rintro ⟨x, c, rest, he, -⟩
  cases ws with
  | nil =>
    rw [List.nil_append] at he
    rw [he] at hcs
    exact hcs rfl
  | cons w ws =>
    rw [List.cons_append, List.cons.injEq] at he
    rw [he.1] at hws
    exact absurd (hws '0' List.mem_cons_self) (by decide)

/-- The number at the front is the one that `getNumber` returns. -/
theorem getNumber_of_front {val : COMStr} {v : Int} (h : Front val.toList v) :
    getNumber val = wrap v := by
  have hne : val ≠ "" := by
    rintro rfl
    exact h.ne_nil rfl
  obtain ⟨hhex, hdec⟩ := getNumber_eq hne
  generalize val.toList = cs at h hhex hdec
  cases h with
  | decimal ws ds rest hws hds hrest hmark =>
    rw [hdec hmark, strtoul_plain hws (head_of_isDigits (by decide) hds rest),
      strtoulDigits_of_isDigits hds hrest]
    exact intOf_clip _
  | plus ws ds rest hws hds hrest =>
    rw [hdec (not_hexMark_append hws (by simp)), strtoul_plus hws,
      strtoulDigits_of_isDigits hds hrest]
    exact intOf_clip _
  | minus ws ds rest hws hds hrest =>
    rw [hdec (not_hexMark_append hws (by simp)), strtoul_minus hws,
      strtoulDigits_of_isDigits hds hrest]
    exact intOf_clip _
  | hex x ds rest hx hds hrest =>
    obtain ⟨d, ds, rfl⟩ := List.exists_cons_of_ne_nil hds.1
    rw [List.cons_append] at hhex
    rw [hhex ⟨x, d, ds ++ rest, rfl, hx⟩, strtoul_hex hx, if_pos (hds.2 d List.mem_cons_self),
      ← List.cons_append, strtoulDigits_of_isDigits hds hrest]
    exact intOf_clip _
  | hexZero x c rest hx hc =>
    have hzero : IsDigits 16 ['0'] := by decide
    have hend : Ends 16 (x :: c :: rest) := by
      rintro d hd
      cases hd
      rcases hx with rfl | rfl <;> decide
    have hread := strtoulDigits_of_isDigits hzero hend false
    rw [hhex ⟨x, c, rest, rfl, hx⟩, strtoul_hex hx, if_neg (by rw [hc]; decide)]
    have hvalue : valueOf 16 ['0'] = 0 := by decide
    simp only [List.singleton_append, hvalue, Bool.false_eq_true, if_false,
      Int.natCast_zero] at hread
    rw [hread, intOf_clip]

/-- A text without a number at its front is invalid. -/
theorem getNumber_of_notFront {val : COMStr} (hne : val ≠ "")
    (h : ∀ v, ¬ Front val.toList v) : getNumber val = numberInvalid := by
  obtain ⟨hhex, hdec⟩ := getNumber_eq hne
  generalize val.toList = cs at h hhex hdec
  by_cases hmark : HexMark cs
  · -- behind `0x` there is a number in any case
    exfalso
    obtain ⟨x, c, rest, rfl, hx⟩ := hmark
    cases hc : digit? 16 c with
    | none => exact h _ (.hexZero x c rest hx hc)
    | some d =>
      rcases exists_digits 16 (c :: rest) with hend | ⟨ds, rest', hsplit, hds, hend⟩
      · rw [hend c rfl] at hc
        cases hc
      · rw [hsplit] at h
        exact h _ (.hex x ds rest' hx hds hend)
  · have hsplit : cs = cs.takeWhile isspace ++ cs.dropWhile isspace :=
      List.takeWhile_append_dropWhile.symm
    have hws : ∀ c ∈ cs.takeWhile isspace, isspace c = true := fun c hc ↦
      List.mem_takeWhile_imp hc
    have hhead : ∀ c ∈ (cs.dropWhile isspace).head?, isspace c = false := by
      intro c hc
      have hnot := List.head?_dropWhile_not isspace cs
      rw [Option.mem_def.mp hc] at hnot
      simpa using hnot
    rw [hdec hmark]
    generalize cs.takeWhile isspace = ws at hsplit hws
    generalize cs.dropWhile isspace = body at hsplit hhead
    subst hsplit
    cases body with
    | nil =>
      rw [strtoul_plain hws (by simp), strtoulDigits_of_ends (by simp [Ends])]
      rfl
    | cons c body =>
      by_cases hminus : c = '-'
      · subst hminus
        rcases exists_digits 10 body with hend | ⟨ds, rest, rfl, hds, hend⟩
        · rw [strtoul_minus hws, strtoulDigits_of_ends hend]
          rfl
        · exact absurd (.minus ws ds rest hws hds hend) (h _)
      · by_cases hplus : c = '+'
        · subst hplus
          rcases exists_digits 10 body with hend | ⟨ds, rest, rfl, hds, hend⟩
          · rw [strtoul_plus hws, strtoulDigits_of_ends hend]
            rfl
          · exact absurd (.plus ws ds rest hws hds hend) (h _)
        · rcases exists_digits 10 (c :: body) with hend | ⟨ds, rest, hsplit, hds, hend⟩
          · have hfirst : ∀ d ∈ (c :: body).head?, isspace d = false ∧ d ≠ '-' ∧ d ≠ '+' := by
              intro d hd
              have hspace := hhead d hd
              cases hd
              exact ⟨hspace, hminus, hplus⟩
            rw [strtoul_plain hws hfirst, strtoulDigits_of_ends hend]
            rfl
          · rw [hsplit] at h hmark
            exact absurd (.decimal ws ds rest hws hds hend hmark) (h _)

/-! ### Numbers in a range -/

/-- The number of a whole numeral in the range; the empty text and every other text have an error
each. -/
def RightInRange (s : COMStr) (min max : Int) : Prop :=
  (∀ v, v ≠ numberEmpty → v ≠ numberInvalid →
    (getNumberInRange s min max = v ↔ Numeral s.toList v ∧ min ≤ v ∧ v ≤ max)) ∧
  (getNumberInRange s min max = numberEmpty ↔ s = "") ∧
  (getNumberInRange s min max = numberInvalid ↔
    s ≠ "" ∧ ¬ ∃ v, Numeral s.toList v ∧ min ≤ v ∧ v ≤ max)

/-- Nothing stands at the front of the text that wraps to a number of the range or to the error
of the empty text. -/
def OutOfRange (s : COMStr) (min max : Int) : Prop :=
  ∀ v, Front s.toList v → wrap v ≠ numberEmpty ∧ ¬ (min ≤ wrap v ∧ wrap v ≤ max)

/-- Behind a digit `0x` is no decimal numeral. -/
private theorem not_hexMark_of_isDigits {ds : List Char} (hds : IsDigits 10 ds) :
    ¬ HexMark ds := by
  rintro ⟨x, c, rest, rfl, hx⟩
  have hdigit := hds.2 x (List.mem_cons_of_mem _ List.mem_cons_self)
  rcases hx with rfl | rfl
  · exact absurd hdigit (by decide)
  · exact absurd hdigit (by decide)

/-- A numeral stands at its own front. -/
theorem Numeral.front {cs : List Char} {v : Int} (h : Numeral cs v) : Front cs v := by
  have hws : ∀ c ∈ ([] : List Char), isspace c = true := fun c hc ↦ absurd hc List.not_mem_nil
  have hend : ∀ base, Ends base [] := fun base c hc ↦ by cases hc
  cases h with
  | decimal ds hds =>
    have hfront := Front.decimal [] cs [] hws hds (hend 10)
    rw [List.append_nil, List.nil_append] at hfront
    exact hfront (not_hexMark_of_isDigits hds)
  | plus ds hds =>
    have hfront := Front.plus [] ds [] hws hds (hend 10)
    rw [List.append_nil, List.nil_append] at hfront
    exact hfront
  | minus ds hds =>
    have hfront := Front.minus [] ds [] hws hds (hend 10)
    rw [List.append_nil, List.nil_append] at hfront
    exact hfront
  | hex x ds hx hds =>
    have hfront := Front.hex x ds [] hx hds (hend 16)
    rw [List.append_nil] at hfront
    exact hfront

/-- A number of 32 bits does not wrap. -/
theorem wrap_of_between {v : Int} (hmin : numberEmpty ≤ v) (hmax : v ≤ numberInvalid) :
    wrap v = v := by
  rw [numberEmpty] at hmin
  rw [numberInvalid] at hmax
  rw [wrap, if_neg (by omega)]
  exact Int.bmod_eq_of_le (by omega) (by omega)

/-- What is returned for a number at the front. -/
private theorem getNumberInRange_of_front {s : COMStr} {v : Int} (h : Front s.toList v)
    (min max : Int) : getNumberInRange s min max =
      if wrap v = numberEmpty ∨ wrap v = numberInvalid then wrap v
      else if wrap v < min ∨ max < wrap v then numberInvalid else wrap v := by
  rw [getNumberInRange, getNumber_of_front h]

/-- A text that is no numeral of the range is right to be invalid. -/
private theorem rightInRange_of_invalid {s : COMStr} {min max : Int} (hs : s ≠ "")
    (hinvalid : getNumberInRange s min max = numberInvalid)
    (hnone : ¬ ∃ v, Numeral s.toList v ∧ min ≤ v ∧ v ≤ max) : RightInRange s min max := by
  refine ⟨?_, ?_, ?_⟩
  · intro v _ hv
    rw [hinvalid]
    exact iff_of_false (Ne.symm hv) (fun h ↦ hnone ⟨v, h⟩)
  · rw [hinvalid]
    exact iff_of_false (by decide) hs
  · exact iff_of_true hinvalid ⟨hs, hnone⟩

/-- The empty text has its own error. -/
private theorem rightInRange_empty (min max : Int) : RightInRange "" min max := by
  have hnone : ∀ v, ¬ Numeral "".toList v := fun v h ↦ h.front.ne_nil rfl
  have hempty : getNumberInRange "" min max = numberEmpty := by
    rw [getNumberInRange]
    exact if_pos (.inl rfl)
  have hsentinels : numberEmpty ≠ numberInvalid := by decide
  refine ⟨?_, ?_, ?_⟩
  · intro v hv _
    rw [hempty]
    exact iff_of_false (Ne.symm hv) (fun h ↦ hnone v h.1)
  · exact iff_of_true hempty rfl
  · rw [hempty]
    exact iff_of_false hsentinels (fun h ↦ h.1 rfl)

section Range

variable {s : COMStr} {min max v : Int}

/-- Numbers at the front of one text wrap alike. -/
private theorem wrap_eq_of_front {u : Int} (hv : Front s.toList v) (hu : Front s.toList u) :
    wrap v = wrap u := by
  rw [← getNumber_of_front hv, getNumber_of_front hu]

/-- A numeral of 32 bits is what the number at the front wraps to. -/
private theorem eq_wrap_of_numeral {u : Int} (hv : Numeral s.toList v) (hlow : numberEmpty ≤ v)
    (hhigh : v ≤ numberInvalid) (hu : Front s.toList u) : v = wrap u := by
  rw [← wrap_eq_of_front hv.front hu, wrap_of_between hlow hhigh]

/-- A numeral of 32 bits is returned, or is outside the range. -/
private theorem rightInRange_of_numeral (hs : s ≠ "") (hv : Numeral s.toList v)
    (hlow : numberEmpty < v) (hhigh : v < numberInvalid) (hmin : numberEmpty < min)
    (hmax : max < numberInvalid) : RightInRange s min max := by
  have hresult := getNumberInRange_of_front hv.front min max
  have hsame : ∀ u, Numeral s.toList u → min ≤ u → u ≤ max → u = v := by
    intro u hu hle hge
    rw [eq_wrap_of_numeral hu (by omega) (by omega) hv.front,
      wrap_of_between (by omega) (by omega)]
  rw [wrap_of_between (by omega) (by omega), if_neg (by omega)] at hresult
  by_cases hin : min ≤ v ∧ v ≤ max
  · rw [if_neg (by omega)] at hresult
    refine ⟨?_, ?_, ?_⟩
    · intro u _ _
      rw [hresult]
      constructor
      · rintro rfl
        exact ⟨hv, hin⟩
      · rintro ⟨hu, hle, hge⟩
        exact (hsame u hu hle hge).symm
    · exact iff_of_false (by omega) hs
    · exact iff_of_false (by omega) (fun h ↦ h.2 ⟨v, hv, hin⟩)
  · rw [if_pos (by omega)] at hresult
    apply rightInRange_of_invalid hs hresult
    rintro ⟨u, hu, hle, hge⟩
    have huv := hsame u hu hle hge
    rw [huv] at hle hge
    exact hin ⟨hle, hge⟩

/-- With nothing at the front that wraps into the range a text is right to be invalid. -/
private theorem rightInRange_of_outOfRange (hs : s ≠ "") (hout : OutOfRange s min max)
    (hmin : numberEmpty < min) (hmax : max < numberInvalid) : RightInRange s min max := by
  by_cases hfront : ∃ v, Front s.toList v
  · obtain ⟨v, hv⟩ := hfront
    obtain ⟨hw, hin⟩ := hout v hv
    have hinvalid : getNumberInRange s min max = numberInvalid := by
      rw [getNumberInRange_of_front hv]
      by_cases hw' : wrap v = numberInvalid
      · rw [if_pos (.inr hw'), hw']
      · rw [if_neg (by omega), if_pos (by omega)]
    apply rightInRange_of_invalid hs hinvalid
    rintro ⟨u, hu, hle, hge⟩
    have huw := eq_wrap_of_numeral hu (by omega) (by omega) hv
    rw [huw] at hle hge
    exact hin ⟨hle, hge⟩
  · have hnone : ∀ v, ¬ Front s.toList v := fun v hv ↦ hfront ⟨v, hv⟩
    have hinvalid : getNumberInRange s min max = numberInvalid := by
      rw [getNumberInRange, getNumber_of_notFront hs hnone]
      exact if_pos (.inr rfl)
    exact rightInRange_of_invalid hs hinvalid fun ⟨v, hv, _⟩ ↦ hnone v hv.front

end Range

/-- The number in a range is right exactly when the text is empty, is a numeral of 32 bits, or
has nothing at its front that wraps into the range. -/
theorem getNumberInRange_right_iff (s : COMStr) (min max : Int) (hmin : numberEmpty < min)
    (hmax : max < numberInvalid) : RightInRange s min max ↔
      s = "" ∨ (∃ v, Numeral s.toList v ∧ numberEmpty < v ∧ v < numberInvalid) ∨
        OutOfRange s min max := by
  by_cases hs : s = ""
  · subst hs
    exact iff_of_true (rightInRange_empty min max) (.inl rfl)
  · constructor
    · -- what the code accepts has to be a numeral
      rintro ⟨hvalue, hempty, -⟩
      by_cases hout : OutOfRange s min max
      · exact .inr (.inr hout)
      · simp only [OutOfRange, not_forall] at hout
        obtain ⟨v, hv, hw⟩ := hout
        have hresult := getNumberInRange_of_front hv min max
        have hin : wrap v = numberEmpty ∨ (min ≤ wrap v ∧ wrap v ≤ max) := by
          by_contra hno
          rw [not_or] at hno
          exact hw hno
        rcases hin with hw | ⟨hle, hge⟩
        · rw [if_pos (.inl hw), hw] at hresult
          exact .inl (hempty.mp hresult)
        · rw [if_neg (by omega), if_neg (by omega)] at hresult
          have hnumeral := (hvalue (wrap v) (by omega) (by omega)).mp hresult
          exact .inr (.inl ⟨wrap v, hnumeral.1, by omega, by omega⟩)
    · rintro (hs' | ⟨v, hv, hlow, hhigh⟩ | hout)
      · exact absurd hs' hs
      · exact rightInRange_of_numeral hs hv hlow hhigh hmin hmax
      · exact rightInRange_of_outOfRange hs hout hmin hmax

/-- The number of a decimal numeral in a small range. -/
theorem getNumberInRange_right_seven : RightInRange "7" 0 255 :=
  (getNumberInRange_right_iff "7" 0 255 (by decide) (by decide)).mpr
    (.inr (.inl ⟨7, .decimal ['7'] (by decide), by decide, by decide⟩))

/-- A text that goes on behind its digits is taken for a number, and one over 32 bits for the
empty text. -/
theorem not_rightInRange_twelve :
    ¬ RightInRange "12abc" 0 255 ∧ ¬ RightInRange "2147483648" 0 255 := by
  constructor
  · intro h
    have hvalue : getNumberInRange "12abc" 0 255 = 12 := by decide +kernel
    have hnumeral := ((h.1 12 (by decide) (by decide)).mp hvalue).1
    have hchars : "12abc".toList = ['1', '2', 'a', 'b', 'c'] := by decide
    rw [hchars] at hnumeral
    cases hnumeral with
    | decimal _ hds => exact absurd hds (by decide)
  · intro h
    have hvalue : getNumberInRange "2147483648" 0 255 = numberEmpty := by decide +kernel
    exact absurd (h.2.1.mp hvalue) (by decide)

/-! ### Addresses -/

/-- A decimal number up to 255. -/
def IsOctet (ds : List Char) : Prop := IsDigits 10 ds ∧ valueOf 10 ds ≤ 255

/-- Four of them, with dots between them. -/
def IsDotted (val : COMStr) : Prop :=
  ∃ a b c d, IsOctet a ∧ IsOctet b ∧ IsOctet c ∧ IsOctet d ∧
    val.toList = a ++ '.' :: (b ++ '.' :: (c ++ '.' :: d))

/-- An address in dotted notation is returned, and any other text is invalid. -/
def RightIP (val : COMStr) : Prop :=
  (IsDotted val → getIP val = val) ∧ (¬ IsDotted val → getIP val = stringInvalid)

/-- Cut at its dots, the last of which may stand at the end, the text has four parts, and at the
front of each there is a number that wraps to one up to 255. -/
def FourNumbers (val : COMStr) : Prop :=
  (split val '.').length = 4 ∧
    ∀ tok ∈ split val '.', ∃ v, Front tok.toList v ∧ 0 ≤ wrap v ∧ wrap v ≤ 255

/-- A part of an address is taken exactly when the number at its front wraps to one up to 255. -/
private theorem octet_accepted_iff (tok : COMStr) :
    (getNumberInRange tok 0 255 ≠ numberInvalid ∧ getNumberInRange tok 0 255 ≠ numberEmpty) ↔
      ∃ v, Front tok.toList v ∧ 0 ≤ wrap v ∧ wrap v ≤ 255 := by
  have hempty : numberEmpty < 0 := by decide
  have hinvalid : 255 < numberInvalid := by decide
  by_cases hfront : ∃ v, Front tok.toList v
  · obtain ⟨v₀, hv₀⟩ := hfront
    have hin : (getNumberInRange tok 0 255 ≠ numberInvalid ∧
        getNumberInRange tok 0 255 ≠ numberEmpty) ↔ 0 ≤ wrap v₀ ∧ wrap v₀ ≤ 255 := by
      rw [getNumberInRange_of_front hv₀]
      by_cases hsentinel : wrap v₀ = numberEmpty ∨ wrap v₀ = numberInvalid
      · rw [if_pos hsentinel]
        omega
      · rw [if_neg hsentinel]
        by_cases hout : wrap v₀ < 0 ∨ 255 < wrap v₀
        · rw [if_pos hout]
          omega
        · rw [if_neg hout]
          omega
    rw [hin]
    constructor
    · intro h
      exact ⟨v₀, hv₀, h⟩
    · rintro ⟨v, hv, h⟩
      rwa [← getNumber_of_front hv₀, getNumber_of_front hv]
  · have hnone : ∀ v, ¬ Front tok.toList v := fun v hv ↦ hfront ⟨v, hv⟩
    apply iff_of_false
    · rintro ⟨hne, hne'⟩
      by_cases htok : tok = ""
      · subst htok
        apply hne'
        rw [getNumberInRange]
        exact if_pos (.inl rfl)
      · rw [getNumberInRange, getNumber_of_notFront htok hnone] at hne
        exact hne (if_pos (.inr rfl))
    · rintro ⟨v, hv, -⟩
      exact hnone v hv

/-- So is an address. -/
theorem getIP_ne_invalid_iff (val : COMStr) : getIP val ≠ stringInvalid ↔ FourNumbers val := by
  rw [getIP]
  simp only
  by_cases hlen : (split val '.').length = 4
  · rw [if_neg (not_not.mpr hlen)]
    have hval : val ≠ stringInvalid := by
      rintro rfl
      exact absurd hlen (by decide +kernel)
    have hall : (∀ tok ∈ split val '.', ∃ v, Front tok.toList v ∧ 0 ≤ wrap v ∧ wrap v ≤ 255) ↔
        (split val '.').any (fun tok ↦ decide (getNumberInRange tok 0 255 = numberInvalid ∨
          getNumberInRange tok 0 255 = numberEmpty)) = false := by
      simp only [List.any_eq_false, decide_eq_true_eq, not_or, ← octet_accepted_iff]
    rw [FourNumbers, and_iff_right hlen, hall]
    split
    · next hany =>
      rw [hany]
      exact iff_of_false (fun h ↦ h rfl) Bool.noConfusion
    · next hany => exact iff_of_true hval (Bool.not_eq_true _ ▸ hany)
  · rw [if_pos hlen]
    exact iff_of_false (fun h ↦ h rfl) fun h ↦ hlen h.1

/-- A number up to 255 stands at its own front. -/
private theorem IsOctet.front {ds : List Char} (h : IsOctet ds) :
    ∃ v, Front (String.ofList ds).toList v ∧ 0 ≤ wrap v ∧ wrap v ≤ 255 := by
  have hmin : numberEmpty ≤ 0 := by decide
  have hmax : 255 ≤ numberInvalid := by decide
  have hvalue := h.2
  have hwrap : wrap (valueOf 10 ds) = valueOf 10 ds := wrap_of_between (by omega) (by omega)
  refine ⟨valueOf 10 ds, ?_, by omega, by omega⟩
  rw [String.toList_ofList]
  exact (Numeral.decimal ds h.1).front

/-- There is no dot in it. -/
private theorem IsOctet.dot_notMem {ds : List Char} (h : IsOctet ds) : '.' ∉ ds := by
  intro hmem
  exact absurd (h.1.2 '.' hmem) (by decide)

/-- An address in dotted notation has four numbers. -/
theorem IsDotted.fourNumbers {val : COMStr} (h : IsDotted val) : FourNumbers val := by
  obtain ⟨a, b, c, d, ha, hb, hc, hd, hval⟩ := h
  have hsplit : split val '.' =
      [String.ofList a, String.ofList b, String.ofList c, String.ofList d] := by
    rw [split, hval, getlines_append_cons ha.dot_notMem, getlines_append_cons hb.dot_notMem,
      getlines_append_cons hc.dot_notMem, getlines_of_notMem hd.dot_notMem [] hd.1.1]
    rfl
  rw [FourNumbers, hsplit]
  refine ⟨rfl, ?_⟩
  simp only [List.mem_cons, List.not_mem_nil, or_false]
  rintro tok (rfl | rfl | rfl | rfl)
  · exact ha.front
  · exact hb.front
  · exact hc.front
  · exact hd.front

/-- What is not invalid is returned. -/
private theorem getIP_eq_of_ne {val : COMStr} (h : getIP val ≠ stringInvalid) :
    getIP val = val := by
  rw [getIP] at h ⊢
  simp only at h ⊢
  split at h
  · exact absurd rfl h
  · next hlen =>
    rw [if_neg hlen]
    split at h
    · exact absurd rfl h
    · next hany => exact if_neg hany

/-- An address is read right exactly when it is in dotted notation, or has not four parts with a
number up to 255, wrapped, at the front of each. -/
theorem getIP_right_iff (val : COMStr) : RightIP val ↔ IsDotted val ∨ ¬ FourNumbers val := by
  have hfour := getIP_ne_invalid_iff val
  constructor
  · rintro ⟨-, hinvalid⟩
    by_cases hdotted : IsDotted val
    · exact .inl hdotted
    · exact .inr fun h ↦ hfour.mpr h (hinvalid hdotted)
  · rintro (h | h)
    · exact ⟨fun _ ↦ getIP_eq_of_ne (hfour.mpr h.fourNumbers), fun hno ↦ absurd h hno⟩
    · refine ⟨fun hdotted ↦ absurd hdotted.fourNumbers h, fun _ ↦ ?_⟩
      by_contra hne
      exact h (hfour.mp hne)

/-- An address ends with a digit. -/
private theorem IsDotted.isSome_getLast {val : COMStr} (h : IsDotted val) :
    ∀ x ∈ val.toList.getLast?, (digit? 10 x).isSome = true := by
  obtain ⟨a, b, c, d, -, -, -, hd, hval⟩ := h
  have hlast : val.toList.getLast? = some (d.getLast hd.1.1) := by
    have happend : val.toList = (a ++ '.' :: (b ++ '.' :: (c ++ ['.']))) ++ d := by
      rw [hval]
      simp
    rw [happend, List.getLast?_append, List.getLast?_eq_some_getLast hd.1.1, Option.some_or]
  intro x hx
  rw [hlast] at hx
  cases hx
  exact hd.1.2 _ (List.getLast_mem hd.1.1)

/-- A text with a further dot is taken, and one with white space before a number and a letter
after it. -/
theorem not_rightIP_trailing : ¬ RightIP "1.2.3.4." ∧ ¬ RightIP "1.2.3. 4x" := by
  have hdot : getIP "1.2.3.4." ≠ stringInvalid := by decide +kernel
  have hletter : getIP "1.2.3. 4x" ≠ stringInvalid := by decide +kernel
  have hdotEnd : "1.2.3.4.".toList.getLast? = some '.' := by decide +kernel
  have hletterEnd : "1.2.3. 4x".toList.getLast? = some 'x' := by decide +kernel
  constructor
  · intro h
    apply hdot
    apply h.2
    intro hdotted
    exact absurd (hdotted.isSome_getLast '.' hdotEnd) (by decide)
  · intro h
    apply hletter
    apply h.2
    intro hdotted
    exact absurd (hdotted.isSome_getLast 'x' hletterEnd) (by decide)

end IcsGateway.ComUtil
