import Mathlib.Algebra.Field.Rat
import Mathlib.Algebra.Order.Field.Basic
import Mathlib.Algebra.Order.Ring.Rat
import IcsGateway.Common.Numerals

/-!
# Temperature sensors

`DS18B20` reads a sensor's file with two calls of `fscanf`. The temperature is read with a width of
five characters into an `unsigned int` (`M2M_SENSOR/DS18B20.cpp`).
-/

namespace IcsGateway

open ComUtil

/-! ### `fscanf` -/

/-- What a format asks for. -/
inductive Directive where
  | blank
  | char (c : Char)
  | skipHex
  | word
  | decimal (width : Nat)
  deriving DecidableEq, Repr

/-- What is assigned. -/
inductive ScanItem where
  | word (s : List Char)
  | number (i : Int)
  deriving DecidableEq, Repr

/-- The directives of a format: white space, `%*x`, `%s`, `%5d`, and characters that stand for
themselves. -/
def directives : List Char → List Directive
  | '%' :: '*' :: 'x' :: format => .skipHex :: directives format
  | '%' :: 's' :: format => .word :: directives format
  | '%' :: '5' :: 'd' :: format => .decimal 5 :: directives format
  | c :: format => (if isspace c then .blank else .char c) :: directives format
  | [] => []

/-- A sign in front of a number. -/
def skipSign : List Char → Bool × List Char
  | '-' :: cs => (true, cs)
  | '+' :: cs => (false, cs)
  | cs => (false, cs)

/-- A digit of a base. -/
def isDigitOf (base : Nat) (c : Char) : Bool := (digit? base c).isSome

/-- `%*x`: what is left behind a hexadecimal number. -/
def scanHex (cs : List Char) : Option (List Char) :=
  let cs := skipHex (skipSign (cs.dropWhile isspace)).2
  if cs.takeWhile (isDigitOf 16) = [] then none else some (cs.dropWhile (isDigitOf 16))

/-- `%s`: the next word. -/
def scanWord (cs : List Char) : Option (List Char × List Char) :=
  let cs := cs.dropWhile isspace
  if cs.takeWhile (!isspace ·) = [] then none
  else some (cs.takeWhile (!isspace ·), cs.dropWhile (!isspace ·))

/-- `%d` with a width: a number of so many characters at most, its sign among them. -/
def scanDecimal (width : Nat) (cs : List Char) : Option (Int × List Char) :=
  let cs := cs.dropWhile isspace
  let (neg, field) := skipSign (cs.take width)
  let ds := field.takeWhile (isDigitOf 10)
  if ds = [] then none
  else some (if neg then -(valueOf 10 ds : Int) else valueOf 10 ds,
    field.dropWhile (isDigitOf 10) ++ cs.drop width)

/-- `fscanf`: what is assigned and what is left; nothing when a directive finds no match. -/
def fscanf : List Directive → List Char → Option (List ScanItem × List Char)
  | [], cs => some ([], cs)
  | .blank :: ds, cs => fscanf ds (cs.dropWhile isspace)
  | .char c :: ds, cs =>
    match cs with
    | [] => none
    | d :: cs => if c = d then fscanf ds cs else none
  | .skipHex :: ds, cs => do
    let cs ← scanHex cs
    fscanf ds cs
  | .word :: ds, cs => do
    let (s, cs) ← scanWord cs
    let (items, cs) ← fscanf ds cs
    some (.word s :: items, cs)
  | .decimal width :: ds, cs => do
    let (i, cs) ← scanDecimal width cs
    let (items, cs) ← fscanf ds cs
    some (.number i :: items, cs)

/-! ### The sensor -/

/-- `DS18B20`; `M2M_SENSOR/DS18B20.h:17`. -/
structure DS18B20 where
  unit_ : Nat
  address_ : COMStr
  path : List Char

namespace DS18B20

/-- `CELCIUS`; `M2M_SENSOR/DS18B20.h:9`. -/
def celcius : Nat := 0

/-- `BUS`; `M2M_SENSOR/DS18B20.h:11`. -/
def bus : COMStr := "/sys/bus/w1/devices/"

/-- `TEMPFILE`; `M2M_SENSOR/DS18B20.h:12`. -/
def tempFile : COMStr := "/w1_slave"

/-- The file of a sensor. -/
def file (address : COMStr) : List Char := bus.toList ++ (address.toList ++ tempFile.toList)

/-- `DS18B20::DS18B20`: `snprintf` leaves 45 characters of the path;
`M2M_SENSOR/DS18B20.cpp:5`. -/
def new (address : COMStr) : DS18B20 where
  unit_ := celcius
  address_ := address
  path := (file address).take 45

/-- `DS18B20::CtoF`; `M2M_SENSOR/DS18B20.cpp:48`. -/
def cToF (temp : Rat) : Rat := temp * (18 / 10) + 32

/-- The format of the first line; `M2M_SENSOR/DS18B20.cpp:26`. -/
def crcFormat : List Directive :=
  directives "%*x %*x %*x %*x %*x %*x %*x %*x %*x : crc=%*x %s".toList

/-- The format of the second line; `M2M_SENSOR/DS18B20.cpp:28`. -/
def tempFormat : List Directive :=
  directives "%*x %*x %*x %*x %*x %*x %*x %*x %*x t=%5d".toList

/-- `DS18B20::getTemp`, before the value is rounded to a `float`, for the contents of the file at
the path. There is no result where it depends on a variable that has not been assigned, or where
a word does not fit in `char crcConf[5]`; `M2M_SENSOR/DS18B20.cpp:14`. -/
def getTemp (d : DS18B20) (devFile : Option (List Char)) : Option Rat :=
  match devFile with
  | none => some (-2)
  | some text => do
    let (items, text) ← fscanf crcFormat text
    let temp ← match items with
      | [.word crcConf] =>
        if 5 ≤ crcConf.length then none
        else if crcConf.take 3 = "YES".toList then
          match fscanf tempFormat text with
          | some ([.number tempInt], _) => some ((toUnsigned tempInt : Rat) / 1000)
          | _ => none
        else some (-1)
      | _ => none
    some (if d.unit_ = celcius then temp else cToF temp)

end DS18B20

/-! ### The kernel's text -/

/-- A byte in two hexadecimal digits. -/
structure HexByte where
  hi : Char
  lo : Char
  isHex : isDigitOf 16 hi = true ∧ isDigitOf 16 lo = true

namespace HexByte

/-- Its digits. -/
def text (b : HexByte) : List Char := [b.hi, b.lo]

/-- Bytes with a blank behind each. -/
def row (bs : List HexByte) : List Char := bs.flatMap fun b ↦ b.text ++ [' ']

end HexByte

/-- The file of a sensor as the kernel writes it, its checksum found right. -/
structure W1Slave where
  scratchpad : List HexByte
  crc : HexByte
  again : List HexByte
  temp : Int
  nine : scratchpad.length = 9 ∧ again.length = 9

namespace W1Slave

/-- The two lines of the file. -/
def text (f : W1Slave) : List Char :=
  HexByte.row f.scratchpad ++ (": crc=".toList ++ (f.crc.text ++ (" YES\n".toList ++
    (HexByte.row f.again ++ ("t=".toList ++ (decimal f.temp ++ ['\n']))))))

/-- The temperature is read as it is, and is no error code. -/
def Right (f : W1Slave) (address : COMStr) : Prop :=
  ∃ temp, (DS18B20.new address).getTemp (some f.text) = some temp ∧
    temp = (f.temp : Rat) / 1000 ∧ temp ≠ -2 ∧ temp ≠ -1

end W1Slave

/-! ### Reading it -/

/-- A digit of a hexadecimal number is no `x`. -/
private theorem ne_x_of_isDigitOf {c : Char} (h : isDigitOf 16 c = true) :
    ¬ (c = 'x' ∨ c = 'X') := by
  rintro (rfl | rfl)
  · exact absurd h (by decide)
  · exact absurd h (by decide)

/-- A byte is passed over, up to the blank behind it. -/
private theorem scanHex_byte (ws : List Char) (hws : ∀ c ∈ ws, isspace c = true) (b : HexByte)
    (rest : List Char) : scanHex (ws ++ (b.text ++ ' ' :: rest)) = some (' ' :: rest) := by
  obtain ⟨hhi, hlo⟩ := b.isHex
  obtain ⟨hspace, hminus, hplus⟩ := of_isSome_digit (by decide) hhi
  have hdrop : (ws ++ (b.text ++ ' ' :: rest)).dropWhile isspace = b.hi :: b.lo :: ' ' :: rest := by
    rw [List.dropWhile_append_of_pos hws]
    exact List.dropWhile_cons_of_neg (by rw [hspace]; exact Bool.false_ne_true)
  have hsign : (skipSign (b.hi :: b.lo :: ' ' :: rest)).2 = b.hi :: b.lo :: ' ' :: rest := by
    rw [skipSign]
    · exact fun _ he ↦ hminus (List.cons.inj he).1
    · exact fun _ he ↦ hplus (List.cons.inj he).1
  have hmark : skipHex (b.hi :: b.lo :: ' ' :: rest) = b.hi :: b.lo :: ' ' :: rest := by
    unfold skipHex
    split
    · next he =>
      have hx := (List.cons.inj (List.cons.inj he).2).1
      rw [if_neg fun h ↦ ne_x_of_isDigitOf hlo (hx ▸ h.1), he]
    · rfl
  have hblank : isDigitOf 16 ' ' = false := by decide
  simp only [scanHex, hdrop, hsign, hmark, List.takeWhile_cons, List.dropWhile_cons, hhi, hlo,
    hblank, if_true, Bool.false_eq_true, if_false, reduceCtorEq]

/-- The directives for so many bytes. -/
private def hexes (n : Nat) : List Directive :=
  (List.replicate n [Directive.skipHex, .blank]).flatten

/-- A row of bytes is passed over, with white space in front of it. -/
private theorem fscanf_row {ws rest : List Char} (hws : ∀ c ∈ ws, isspace c = true)
    (hrest : ∀ c ∈ rest.head?, isspace c = false) (b : HexByte) (bs : List HexByte)
    (ds : List Directive) :
    fscanf (hexes (b :: bs).length ++ ds) (ws ++ (HexByte.row (b :: bs) ++ rest)) =
      fscanf ds rest := by
  have hstart (c : Char) (cs : List Char) (hc : isspace c = false) :
      (c :: cs).dropWhile isspace = c :: cs :=
    List.dropWhile_cons_of_neg (by rw [hc]; exact Bool.false_ne_true)
  have hrow (b : HexByte) (bs : List HexByte) :
      HexByte.row (b :: bs) ++ rest = b.text ++ ' ' :: (HexByte.row bs ++ rest) := by
    simp [HexByte.row]
  have hstep (b : HexByte) (bs : List HexByte) (ws : List Char) (hws : ∀ c ∈ ws, isspace c = true)
      (ds : List Directive) :
      fscanf (.skipHex :: .blank :: ds) (ws ++ (HexByte.row (b :: bs) ++ rest)) =
        fscanf ds ((HexByte.row bs ++ rest).dropWhile isspace) := by
    rw [hrow, fscanf, scanHex_byte ws hws]
    rfl
  induction bs generalizing b ws with
  | nil =>
    have hhexes : hexes [b].length ++ ds = .skipHex :: .blank :: ds := rfl
    rw [hhexes, hstep b [] ws hws]
    cases rest with
    | nil => rfl
    | cons c rest => exact congrArg (fscanf ds) (hstart c rest (hrest c rfl))
  | cons b' bs ih =>
    have hhexes : hexes (b :: b' :: bs).length ++ ds =
      .skipHex :: .blank :: (hexes (b' :: bs).length ++ ds) := rfl
    obtain ⟨hspace, -, -⟩ := of_isSome_digit (by decide) b'.isHex.1
    have hdrop : (HexByte.row (b' :: bs) ++ rest).dropWhile isspace =
        HexByte.row (b' :: bs) ++ rest := hstart b'.hi _ hspace
    rw [hhexes, hstep b (b' :: bs) ws hws, hdrop]
    exact ih (List.forall_mem_nil _) b'

/-- Nine bytes in front. -/
private theorem fscanf_nine (ws rest : List Char) (hws : ∀ c ∈ ws, isspace c = true)
    (hrest : ∀ c ∈ rest.head?, isspace c = false) {bs : List HexByte} (hbs : bs.length = 9)
    (ds : List Directive) :
    fscanf (hexes 9 ++ ds) (ws ++ (HexByte.row bs ++ rest)) = fscanf ds rest := by
  have hpos : 0 < bs.length := by omega
  obtain ⟨b, bs, rfl⟩ := List.exists_cons_of_length_pos hpos
  rw [← hbs, fscanf_row hws hrest]

/-- The first line. -/
private theorem fscanf_crcFormat (f : W1Slave) (rest : List Char) :
    fscanf DS18B20.crcFormat (HexByte.row f.scratchpad ++ (": crc=".toList ++ (f.crc.text ++
      (" YES\n".toList ++ rest)))) = some ([.word "YES".toList], '\n' :: rest) := by
  have hformat : DS18B20.crcFormat = hexes 9 ++ [.char ':', .blank, .char 'c', .char 'r', .char 'c',
    .char '=', .skipHex, .blank, .word] := by decide +kernel
  have hcolon : ∀ c ∈ (": crc=".toList ++ (f.crc.text ++ (" YES\n".toList ++ rest))).head?,
      isspace c = false := by
    intro c hc
    cases hc
    decide
  have hnine := fscanf_nine [] _ (List.forall_mem_nil _) hcolon f.nine.1
  have hcrc := scanHex_byte [] (List.forall_mem_nil _) f.crc ("YES\n".toList ++ rest)
  have hword : fscanf [.blank, .word] (' ' :: ("YES\n".toList ++ rest)) =
      some ([.word "YES".toList], '\n' :: rest) := by
    simp [fscanf, scanWord, isspace]
  have hsteps : fscanf [.char ':', .blank, .char 'c', .char 'r', .char 'c', .char '=', .skipHex,
      .blank, .word] (": crc=".toList ++ (f.crc.text ++ (" YES\n".toList ++ rest))) =
      (scanHex (f.crc.text ++ ' ' :: ("YES\n".toList ++ rest))).bind (fscanf [.blank, .word]) := rfl
  have hscan : (scanHex (f.crc.text ++ ' ' :: ("YES\n".toList ++ rest))).bind
      (fscanf [.blank, .word]) = fscanf [.blank, .word] (' ' :: ("YES\n".toList ++ rest)) :=
    congrArg (Option.bind · _) hcrc
  rw [hformat]
  exact (hnine _).trans (hsteps.trans (hscan.trans hword))

/-- The second line. -/
private theorem fscanf_tempFormat (f : W1Slave) (rest : List Char) :
    fscanf DS18B20.tempFormat ('\n' :: (HexByte.row f.again ++ ("t=".toList ++ rest))) =
      (scanDecimal 5 rest).map fun p ↦ ([.number p.1], p.2) := by
  have hformat : DS18B20.tempFormat = hexes 9 ++ [.char 't', .char '=', .decimal 5] := by
    decide +kernel
  have hbreak : ∀ c ∈ ['\n'], isspace c = true := by
    rw [List.forall_mem_singleton]
    rfl
  have hletter : ∀ c ∈ ("t=".toList ++ rest).head?, isspace c = false := by
    intro c hc
    cases hc
    decide
  have hnine := fscanf_nine ['\n'] _ hbreak hletter f.nine.2 [.char 't', .char '=', .decimal 5]
  have hsteps : fscanf [.char 't', .char '=', .decimal 5] ("t=".toList ++ rest) =
      (scanDecimal 5 rest).bind fun p ↦ some ([.number p.1], p.2) := rfl
  rw [hformat]
  exact hnine.trans (hsteps.trans (Option.map_eq_bind ..).symm)

/-- The temperature is what is read of its first five characters. -/
private theorem getTemp_text (f : W1Slave) (address : COMStr) :
    (DS18B20.new address).getTemp (some f.text) =
      (scanDecimal 5 (decimal f.temp ++ ['\n'])).map fun p ↦ (toUnsigned p.1 : Rat) / 1000 := by
  have hyes : ¬ 5 ≤ "YES".toList.length ∧ "YES".toList.take 3 = "YES".toList := by decide
  rw [DS18B20.getTemp, W1Slave.text, fscanf_crcFormat]
  simp only [Option.bind_eq_bind, Option.bind_some, if_neg hyes.1, if_pos hyes.2,
    fscanf_tempFormat]
  cases scanDecimal 5 (decimal f.temp ++ ['\n']) with
  | none => rfl
  | some p => rfl

/-- What is read of a number without a sign: its first five digits. -/
private theorem scanDecimal_decimal (n : Nat) : ∃ rest, scanDecimal 5 (decimal n ++ ['\n']) =
    some ((valueOf 10 ((Nat.toDigits 10 n).take 5) : Int), rest) := by
  obtain ⟨hne, hdigits⟩ := isDigits_toDigits n
  have hdecimal : decimal n = Nat.toDigits 10 n := rfl
  rw [hdecimal]
  generalize Nat.toDigits 10 n = ds at hne hdigits
  obtain ⟨d, ds, rfl⟩ := List.exists_cons_of_ne_nil hne
  obtain ⟨hspace, hminus, hplus⟩ := of_isSome_digit (by decide) (hdigits d List.mem_cons_self)
  have hdrop : (d :: ds ++ ['\n']).dropWhile isspace = d :: ds ++ ['\n'] :=
    List.dropWhile_cons_of_neg (by rw [hspace]; exact Bool.false_ne_true)
  have hsign : skipSign ((d :: ds ++ ['\n']).take 5) = (false, (d :: ds ++ ['\n']).take 5) := by
    rw [List.cons_append, List.take_succ_cons, skipSign]
    · exact fun _ he ↦ hminus (List.cons.inj he).1
    · exact fun _ he ↦ hplus (List.cons.inj he).1
  have htake : ((d :: ds ++ ['\n']).take 5).takeWhile (isDigitOf 10) = (d :: ds).take 5 := by
    have hends : Ends 10 ['\n'] := by
      intro c hc
      cases hc
      decide
    rw [← List.take_takeWhile]
    exact congrArg (List.take 5) (takeWhile_digits ⟨hne, hdigits⟩ hends)
  have htakene : (d :: ds).take 5 ≠ [] := List.cons_ne_nil d (ds.take 4)
  refine ⟨((d :: ds ++ ['\n']).take 5).dropWhile (isDigitOf 10) ++ (d :: ds ++ ['\n']).drop 5, ?_⟩
  simp only [scanDecimal, hdrop, hsign, htake, if_neg htakene, Bool.false_eq_true, if_false]

/-- They denote a number of at most five digits. -/
private theorem valueOf_take_lt (n : Nat) : valueOf 10 ((Nat.toDigits 10 n).take 5) < 100000 := by
  have hlt := valueOf_lt 10 ((Nat.toDigits 10 n).take 5) (by decide)
  have hpow : 10 ^ ((Nat.toDigits 10 n).take 5).length ≤ 10 ^ 5 :=
    Nat.pow_le_pow_right (by decide) (List.length_take_le 5 _)
  omega

/-- And so a number of more digits is not what is read of it. -/
private theorem valueOf_take_eq_iff (n : Nat) :
    valueOf 10 ((Nat.toDigits 10 n).take 5) = n ↔ n < 100000 := by
  constructor
  · intro h
    rw [← h]
    exact valueOf_take_lt n
  · intro h
    have hlength : (Nat.toDigits 10 n).length ≤ 5 :=
      (Nat.length_toDigits_le_iff (by decide) (by decide)).mpr h
    rw [List.take_of_length_le hlength, valueOf_toDigits]

/-- The temperature is read right exactly when it is not below zero and below a hundred degrees. -/
theorem W1Slave.getTemp_right_iff (f : W1Slave) (address : COMStr) :
    f.Right address ↔ 0 ≤ f.temp ∧ f.temp < 100000 := by
  have hequal (m : Nat) : ((m : Rat) / 1000 = (f.temp : Rat) / 1000) ↔ (m : Int) = f.temp := by
    rw [div_left_inj' (by decide)]
    exact_mod_cast Iff.rfl
  rw [Right, getTemp_text]
  constructor
  · rintro ⟨temp, htemp, hvalue, -, -⟩
    obtain ⟨p, hp, rfl⟩ := Option.map_eq_some_iff.mp htemp
    have hread := (hequal _).mp hvalue
    -- an `unsigned int` is not below zero
    have hge : 0 ≤ f.temp := hread ▸ Int.natCast_nonneg _
    refine ⟨hge, ?_⟩
    obtain ⟨n, hn⟩ := Int.eq_ofNat_of_zero_le hge
    obtain ⟨rest, hscan⟩ := scanDecimal_decimal n
    rw [hn, hscan] at hp
    cases hp
    have hlt := valueOf_take_lt n
    rw [toUnsigned] at hread
    omega
  · rintro ⟨hge, hlt⟩
    obtain ⟨n, hn⟩ := Int.eq_ofNat_of_zero_le hge
    obtain ⟨rest, hscan⟩ := scanDecimal_decimal n
    have hsame : (toUnsigned n : Int) = f.temp := by
      rw [toUnsigned]
      omega
    rw [(valueOf_take_eq_iff n).mpr (by omega), ← hn] at hscan
    have hnonneg : (0 : Rat) ≤ (toUnsigned f.temp : Rat) / 1000 :=
      div_nonneg (Nat.cast_nonneg _) (by decide)
    refine ⟨(toUnsigned f.temp : Rat) / 1000, ?_, ?_, ?_, ?_⟩
    · rw [hscan]
      rfl
    · rw [hequal, hn]
      rw [hn] at hsame
      exact hsame
    · intro herror
      rw [herror] at hnonneg
      exact absurd hnonneg (by decide)
    · intro herror
      rw [herror] at hnonneg
      exact absurd hnonneg (by decide)

/-- Ten degrees below zero, as the kernel writes them. -/
def belowZero : W1Slave where
  scratchpad := List.replicate 9 ⟨'5', 'e', by decide⟩
  crc := ⟨'5', 'e', by decide⟩
  again := List.replicate 9 ⟨'5', 'e', by decide⟩
  temp := -10125
  nine := ⟨rfl, rfl⟩

/-- They are read as more than four million degrees. -/
theorem not_right_belowZero : ¬ belowZero.Right "28-0316a2796dff" := by
  rintro ⟨temp, hread, hvalue, -, -⟩
  have hcode : (DS18B20.new "28-0316a2796dff").getTemp (some belowZero.text) =
      some (4294966284 / 1000) := by decide +kernel
  rw [hread, Option.some.injEq] at hcode
  rw [hcode] at hvalue
  revert hvalue
  decide +kernel

end IcsGateway
