import IcsGateway.Common.Numerals
import IcsGateway.Common.StrTo
import IcsGateway.Lib.Calendar
import IcsGateway.Lib.FixedWidth
import Mathlib.Algebra.Order.Field.Rat
import Mathlib.Tactic.NormNum

/-!
# Time stamps

`UtcString` prints an instant with its microseconds (`Common/ComUtil.cpp:91`), and
`UtcTimeStampString` makes from such a text the one with milliseconds that data points carry
(`Common/ComUtil.cpp:100`). The first prints the microseconds without leading zeros, so they are
no decimal fraction of the second; the second takes them as a number again.
-/

namespace IcsGateway.ComUtil

open Lib

/-! ### Formats -/

/-- What `struct tm` holds. -/
inductive TmField where
  | year | mon | mday | hour | min | sec
  deriving DecidableEq, Repr

/-- `struct tm`, with years and months as they are written. -/
abbrev Tm := TmField → Nat

/-- A format of `strftime` and `strptime`, with `%X` of the C locale. -/
def format : List Char → List (Item TmField)
  | [] => []
  | '%' :: 'Y' :: cs => .field .year :: format cs
  | '%' :: 'm' :: cs => .field .mon :: format cs
  | '%' :: 'd' :: cs => .field .mday :: format cs
  | '%' :: 'X' :: cs =>
    .field .hour :: .char ':' :: .field .min :: .char ':' :: .field .sec :: format cs
  | c :: cs => .char c :: format cs

/-- `strftime`. -/
def strftime (fmt : COMStr) (tm : Tm) : List Char :=
  (format fmt.toList).flatMap fun
    | .field .year => Nat.toDigits 10 (tm .year)
    | .field f => (twoDigits (tm f)).toList
    | .char c => [c]

def TmField.width : TmField → Nat
  | .year => 4
  | _ => 2

/-- The numbers `strptime` takes. -/
def TmField.bounds : TmField → Nat × Nat
  | .year => (0, 9999)
  | .mon => (1, 12)
  | .mday => (1, 31)
  | .hour => (0, 23)
  | .min => (0, 59)
  | .sec => (0, 61)

/-- `strptime`; `memory` is what `tm` held before. `none` where it stops early, which leaves fields
as they were. -/
def strptime (s : List Char) (fmt : COMStr) (memory : Tm) : Option Tm :=
  scanFields isspace TmField.width (fun f ↦ f.bounds.1) (fun f ↦ f.bounds.2) (format fmt.toList) s
    memory

/-! ### Instants -/

/-- `timeval`: seconds since 1970 and microseconds. -/
structure Timeval where
  sec : Int
  usec : Nat
  usec_lt : usec < 1000000

def Timeval.Before (t u : Timeval) : Prop := t.sec < u.sec ∨ t.sec = u.sec ∧ t.usec < u.usec

/-- The days before 1970. -/
def epoch : Nat := 719162

/-- `gmtime`, from the year 1 on, with the microseconds. -/
def Timeval.utc (t : Timeval) : Utc :=
  let date := dateOf (t.sec / 86400 + epoch).toNat
  let s := (t.sec % 86400).toNat
  { year := date.year
    mon := date.month
    mday := date.day
    hour := s / 3600
    min := s / 60 % 60
    sec := s % 60
    usec := t.usec }

def Utc.tm (t : Utc) : Tm
  | .year => t.year
  | .mon => t.mon
  | .mday => t.mday
  | .hour => t.hour
  | .min => t.min
  | .sec => t.sec

/-- `ComUtil::UtcString(const timeval *)`: as `UtcNowString`; `Common/ComUtil.cpp:91`. -/
def utcString (t : Timeval) : COMStr := utcNowString t.utc

/-- It has a year of four digits. -/
def Timeval.FourDigits (t : Timeval) : Prop := 1000 ≤ t.utc.year ∧ t.utc.year ≤ 9999

instance (t : Timeval) : Decidable t.FourDigits := inferInstanceAs (Decidable (_ ∧ _))

/-! ### What is printed -/

/-- `%Y-%m-%d %X`. -/
private def dashed : List (Item TmField) :=
  [.field .year, .char '-', .field .mon, .char '-', .field .mday, .char ' ', .field .hour,
    .char ':', .field .min, .char ':', .field .sec]

private theorem format_dashed : format "%Y-%m-%d %X".toList = dashed := rfl

/-- The text of a moment is what `strftime` prints, a dot and the microseconds. -/
theorem toList_utcNowString (t : Utc) :
    (utcNowString t).toList =
      strftime "%Y-%m-%d %X" t.tm ++ '.' :: Nat.toDigits 10 t.usec := by
  rw [strftime, format_dashed]
  simp [utcNowString, dashed, Utc.tm, String.toList_append]

private theorem toList_twoDigits {n : Nat} (h : n < 100) : (twoDigits n).toList = fixed 2 n := by
  by_cases hn : n < 10
  · rw [twoDigits, if_pos hn, String.toList_append]
    change '0' :: (String.ofList (Nat.toDigits 10 n)).toList = _
    rw [String.toList_ofList, Nat.toDigits_of_lt_base hn, fixed_succ, fixed_one, fixed_one,
      Nat.pow_one, Nat.div_eq_of_lt hn, Nat.mod_eq_of_lt hn]
    rfl
  · rw [twoDigits, if_neg hn]
    change (String.ofList (Nat.toDigits 10 n)).toList = _
    rw [String.toList_ofList]
    exact toDigits_eq_fixed 1 n (fun _ ↦ Nat.not_lt.mp hn) h

/-- With a year of four digits the fields have their widths. -/
theorem strftime_eq_printFields {tm : Tm} (hyear : 1000 ≤ tm .year)
    (h : ∀ f, tm f < 10 ^ f.width) (fmt : COMStr) :
    strftime fmt tm = printFields TmField.width tm (format fmt.toList) := by
  rw [strftime]
  induction format fmt.toList with
  | nil => rfl
  | cons item items ih =>
    rw [List.flatMap_cons, ih]
    cases item with
    | char c => rfl
    | field f =>
      rw [printFields]
      congr 1
      cases f with
      | year => exact toDigits_eq_fixed 3 _ (fun _ ↦ hyear) (h .year)
      | mon => exact toList_twoDigits (h .mon)
      | mday => exact toList_twoDigits (h .mday)
      | hour => exact toList_twoDigits (h .hour)
      | min => exact toList_twoDigits (h .min)
      | sec => exact toList_twoDigits (h .sec)

namespace Timeval

variable {t u : Timeval}

/-- The fields are what `strptime` takes. -/
theorem FourDigits.bounds (h : t.FourDigits) (f : TmField) :
    f.bounds.1 ≤ t.utc.tm f ∧ t.utc.tm f ≤ f.bounds.2 := by
  have hdate := dateOf_valid (t.sec / 86400 + epoch).toNat
  have hs : (t.sec % 86400).toNat < 86400 := by omega
  cases f with
  | year => exact ⟨Nat.zero_le _, h.2⟩
  | mon => exact hdate.month
  | mday => exact ⟨hdate.day.1, hdate.day_le⟩
  | hour =>
    change 0 ≤ (t.sec % 86400).toNat / 3600 ∧ (t.sec % 86400).toNat / 3600 ≤ 23
    omega
  | min =>
    change 0 ≤ (t.sec % 86400).toNat / 60 % 60 ∧ (t.sec % 86400).toNat / 60 % 60 ≤ 59
    omega
  | sec =>
    change 0 ≤ (t.sec % 86400).toNat % 60 ∧ (t.sec % 86400).toNat % 60 ≤ 61
    omega

theorem FourDigits.lt_width (h : t.FourDigits) (f : TmField) : t.utc.tm f < 10 ^ f.width := by
  have hle := (h.bounds f).2
  cases f <;> exact Nat.lt_of_le_of_lt hle (by decide)

theorem FourDigits.toList_utcString (h : t.FourDigits) :
    (utcString t).toList =
      printFields TmField.width t.utc.tm dashed ++ '.' :: Nat.toDigits 10 t.usec := by
  rw [utcString, toList_utcNowString, strftime_eq_printFields h.1 h.lt_width, format_dashed]
  rfl

/-- The day is one after the first of January of the year 1. -/
private theorem FourDigits.day_nonneg (h : t.FourDigits) : 0 ≤ t.sec / 86400 + epoch := by
  by_contra hneg
  have hzero : (t.sec / 86400 + epoch).toNat = 0 := by omega
  have hyear : 1000 ≤ (dateOf (t.sec / 86400 + epoch).toNat).year := h.1
  rw [hzero] at hyear
  exact absurd hyear (by decide)

/-- A later second has a later date, or the same date and a later time. -/
private theorem FourDigits.earlier (ht : t.FourDigits) (hu : u.FourDigits) (h : t.sec < u.sec) :
    Earlier t.utc.tm u.utc.tm dashed := by
  have htday := ht.day_nonneg
  have huday := hu.day_nonneg
  obtain ⟨n, hn⟩ : ∃ n, n = (t.sec / 86400 + epoch).toNat := ⟨_, rfl⟩
  obtain ⟨m, hm⟩ : ∃ m, m = (u.sec / 86400 + epoch).toNat := ⟨_, rfl⟩
  obtain ⟨a, ha⟩ : ∃ a, a = (t.sec % 86400).toNat := ⟨_, rfl⟩
  obtain ⟨b, hb⟩ : ∃ b, b = (u.sec % 86400).toNat := ⟨_, rfl⟩
  have htm : t.utc.tm = Utc.tm ⟨(dateOf n).year, (dateOf n).month, (dateOf n).day, a / 3600,
      a / 60 % 60, a % 60, t.usec⟩ := by
    rw [utc, ← hn, ← ha]
  have hum : u.utc.tm = Utc.tm ⟨(dateOf m).year, (dateOf m).month, (dateOf m).day, b / 3600,
      b / 60 % 60, b % 60, u.usec⟩ := by
    rw [utc, ← hm, ← hb]
  have hday : n < m ∨ n = m ∧ a < b := by omega
  rw [htm, hum]
  simp only [dashed, Earlier, Utc.tm]
  rcases hday with hlt | ⟨heq, hlt⟩
  · rcases dateOf_before hlt with hyear | ⟨hyear, hmonth | ⟨hmonth, hdate⟩⟩
    · exact Or.inl hyear
    · exact Or.inr ⟨hyear, Or.inl hmonth⟩
    · exact Or.inr ⟨hyear, Or.inr ⟨hmonth, Or.inl hdate⟩⟩
  · rw [heq]
    refine Or.inr ⟨rfl, Or.inr ⟨rfl, Or.inr ⟨rfl, ?_⟩⟩⟩
    omega

/-- Instants of one second are printed alike up to the microseconds. -/
private theorem tm_congr (h : t.sec = u.sec) : t.utc.tm = u.utc.tm := by
  funext f
  cases f <;> simp only [utc, Utc.tm, h]

end Timeval

/-! ### The fraction -/

/-- The fraction of a second that a text gives, with the digits behind its dot. -/
def fraction (text : COMStr) : ℚ :=
  let ds := (text.toList.dropWhile (· ≠ '.')).tail
  Nat.ofDigitChars 10 ds 0 / 10 ^ ds.length

/-- Both texts denote their instants, and order as they do. -/
def TextsRight (t u : Timeval) : Prop :=
  fraction (utcString t) = t.usec / 10 ^ 6 ∧ fraction (utcString u) = u.usec / 10 ^ 6 ∧
    utcString t < utcString u

/-- The microseconds need no leading zeros. -/
def Timeval.Unpadded (t : Timeval) : Prop := t.usec = 0 ∨ 100000 ≤ t.usec

instance (t : Timeval) : Decidable t.Unpadded := inferInstanceAs (Decidable (_ ∨ _))

/-- What comes before the dot. -/
private theorem mem_dashed {v : Tm} {c : Char} (h : c ∈ printFields TmField.width v dashed) :
    c ≠ '.' ∧ c ≠ '\n' ∧ c ≠ '\x00' := by
  rcases mem_printFields h with hdigit | hchar
  · refine ⟨?_, ?_, ?_⟩ <;> rintro rfl <;> exact absurd hdigit (by decide)
  · simp only [dashed, List.mem_cons, Item.char.injEq, reduceCtorEq, List.not_mem_nil, false_or,
      or_false] at hchar
    rcases hchar with rfl | rfl | rfl | rfl | rfl <;> decide

namespace Timeval

variable {t u : Timeval}

/-- The fraction has as many digits as the microseconds. -/
private theorem FourDigits.fraction_eq (h : t.FourDigits) :
    fraction (utcString t) = t.usec / 10 ^ (Nat.toDigits 10 t.usec).length := by
  have hdrop : (utcString t).toList.dropWhile (· ≠ '.') = '.' :: Nat.toDigits 10 t.usec := by
    rw [h.toList_utcString, List.dropWhile_append_of_pos]
    · rfl
    · intro c hc
      exact decide_eq_true (mem_dashed hc).1
  rw [fraction, hdrop, List.tail_cons, Nat.ofDigitChars_ten_toDigits]

private theorem Unpadded.toDigits (h : t.Unpadded) :
    Nat.toDigits 10 t.usec = ['0'] ∧ t.usec = 0 ∨
      Nat.toDigits 10 t.usec = fixed 6 t.usec ∧ 100000 ≤ t.usec := by
  rcases h with hzero | hlong
  · rw [hzero]
    exact Or.inl ⟨rfl, rfl⟩
  · exact Or.inr ⟨toDigits_eq_fixed 5 _ (fun _ ↦ hlong) t.usec_lt, hlong⟩

private theorem FourDigits.fraction_right_iff (h : t.FourDigits) :
    fraction (utcString t) = t.usec / 10 ^ 6 ↔ t.Unpadded := by
  rw [h.fraction_eq]
  constructor
  · intro heq
    by_contra hpad
    rw [Unpadded, not_or, Nat.not_le] at hpad
    have hlength : (Nat.toDigits 10 t.usec).length ≤ 5 :=
      (Nat.length_toDigits_le_iff (by decide) (by decide)).mpr hpad.2
    have husec : (t.usec : ℚ) ≠ 0 := Nat.cast_ne_zero.mpr hpad.1
    rw [div_eq_mul_inv, div_eq_mul_inv] at heq
    have hpow : (10 : ℚ) ^ (Nat.toDigits 10 t.usec).length = 10 ^ 6 :=
      inv_injective (mul_left_cancel₀ husec heq)
    have hsix : (Nat.toDigits 10 t.usec).length = 6 :=
      pow_right_injective₀ (by norm_num) (by norm_num) hpow
    omega
  · intro hpad
    rcases hpad.toDigits with ⟨_, hzero⟩ | ⟨hdigits, _⟩
    · rw [hzero, Nat.cast_zero, zero_div, zero_div]
    · rw [hdigits, length_fixed]

/-- Where no zeros are missing a later instant has a later text. -/
private theorem FourDigits.utcString_lt (ht : t.FourDigits) (hu : u.FourDigits)
    (htp : t.Unpadded) (hup : u.Unpadded) (h : t.Before u) : utcString t < utcString u := by
  rw [String.lt_iff, ht.toList_utcString, hu.toList_utcString]
  rcases h with hsec | ⟨hsec, husec⟩
  · exact printFields_lt hu.lt_width (ht.earlier hu hsec) _ _
  · rw [tm_congr hsec]
    apply List.append_left_lt
    apply List.cons_lt_cons_iff.mpr
    refine Or.inr ⟨rfl, ?_⟩
    rcases hup.toDigits with ⟨_, hzero⟩ | ⟨hudigits, hulong⟩
    · omega
    rw [hudigits]
    rcases htp.toDigits with ⟨htdigits, _⟩ | ⟨htdigits, _⟩
    · rw [htdigits]
      have hbound := u.usec_lt
      rw [fixed_succ]
      exact fixed_lt (w := 1) (n := 0) (by omega) (by omega) [] _
    · rw [htdigits, ← List.append_nil (fixed 6 t.usec), ← List.append_nil (fixed 6 u.usec)]
      exact fixed_lt husec u.usec_lt [] []

end Timeval

/-- For instants in the order of time `UtcString` gives texts with their values and in their order
exactly where no instant has microseconds between 1 and 99999: `%ld` prints no leading zeros, and
5 microseconds become the fraction `.5`; `Common/ComUtil.cpp:96`. -/
theorem utcString_right_iff (t u : Timeval) (ht : t.FourDigits) (hu : u.FourDigits)
    (h : t.Before u) : TextsRight t u ↔ t.Unpadded ∧ u.Unpadded := by
  constructor
  · intro hright
    exact ⟨ht.fraction_right_iff.mp hright.1, hu.fraction_right_iff.mp hright.2.1⟩
  · rintro ⟨htp, hup⟩
    exact ⟨ht.fraction_right_iff.mpr htp, hu.fraction_right_iff.mpr hup,
      ht.utcString_lt hu htp hup h⟩

/-- An instant that is printed without leading zeros. -/
theorem utcString_right_quarter :
    TextsRight ⟨0, 0, by decide⟩ ⟨0, 250000, by decide⟩ :=
  (utcString_right_iff ⟨0, 0, by decide⟩ ⟨0, 250000, by decide⟩ (by decide) (by decide)
    (Or.inr ⟨rfl, by decide⟩)).mpr ⟨Or.inl rfl, Or.inr (by decide)⟩

/-- Five microseconds are printed as half a second, which is more than a tenth. -/
theorem not_utcString_right_five :
    ¬ (∀ t u : Timeval, t.FourDigits → u.FourDigits → t.Before u → TextsRight t u) ∧
      utcString ⟨0, 5, by decide⟩ = "1970-01-01 00:00:00.5" ∧
      utcString ⟨0, 100000, by decide⟩ = "1970-01-01 00:00:00.100000" := by
  refine ⟨?_, by decide, by decide⟩
  intro h
  have hright := h ⟨0, 5, by decide⟩ ⟨0, 100000, by decide⟩ (by decide) (by decide)
    (Or.inr ⟨rfl, by decide⟩)
  have hfour : Timeval.FourDigits ⟨0, 5, by decide⟩ := by decide
  have hpad := hfour.fraction_right_iff.mp hright.1
  exact absurd hpad (by decide)

/-! ### Milliseconds -/

/-- `%d` of `sscanf` into an `unsigned int`. -/
def scanInt (cs : List Char) : Option UInt32 :=
  let (sg, cs) := InputStream.takeSign (cs.dropWhile isspace)
  let ds := cs.takeWhile Char.isDigit
  if ds = [] then none else some (UInt32.ofInt (max (-2 ^ 63) (min (2 ^ 63 - 1) (signed sg ds))))

/-- `sscanf (input.c_str(), "%19[^\n].%d", buf, &usec)` over zeros; `Common/ComUtil.cpp:104`. -/
def scanTimeStamp (input : List Char) : List Char × UInt32 :=
  let buf := (input.take 19).takeWhile (· ≠ '\n')
  match buf, input.drop buf.length with
  | _ :: _, '.' :: rest => (buf, (scanInt rest).getD 0)
  | _, _ => (buf, 0)

/-- `ComUtil::UtcTimeStampString`; `none` where `strptime` leaves `tm` as it was in parts;
`Common/ComUtil.cpp:100`. -/
def utcTimeStampString (memory : Tm) (input : COMStr) : Option COMStr :=
  let (buf, usec) := scanTimeStamp (cStr input.toList)
  (strptime buf "%Y-%m-%d %X" memory).map fun tm ↦
    String.ofList (strftime "%Y-%m-%dT%X" tm ++ '.' ::
      padded 3 (if usec ≠ 0 then usec / 1000 else usec).toNat ++ "+0000".toList)

/-! ### From one text to the other -/

/-- The fields say the date and the time of a second. -/
structure Denotes (tm : Tm) (sec : Int) : Prop where
  date : Date.Valid ⟨tm .year, tm .mon, tm .mday⟩
  time : tm .hour < 24 ∧ tm .min < 60 ∧ tm .sec < 60
  count : (Date.count ⟨tm .year, tm .mon, tm .mday⟩ * 86400 + tm .hour * 3600 + tm .min * 60 +
    tm .sec : Int) = sec + daysBefore 1970 * 86400

/-- `YYYY-MM-DDTHH:MM:SS.mmm+0000`. -/
def stamp (tm : Tm) (ms : Nat) : COMStr :=
  String.ofList (fixed 4 (tm .year) ++ '-' :: (fixed 2 (tm .mon) ++ '-' :: (fixed 2 (tm .mday) ++
    'T' :: (fixed 2 (tm .hour) ++ ':' :: (fixed 2 (tm .min) ++ ':' :: (fixed 2 (tm .sec) ++
      '.' :: (fixed 3 ms ++ "+0000".toList)))))))

/-- `gmtime` gives the date and the time. -/
private theorem Timeval.FourDigits.denotes {t : Timeval} (h : t.FourDigits) :
    Denotes t.utc.tm t.sec where
  date := dateOf_valid _
  time := by
    have hs : (t.sec % 86400).toNat < 86400 := by omega
    change (t.sec % 86400).toNat / 3600 < 24 ∧ (t.sec % 86400).toNat / 60 % 60 < 60 ∧
      (t.sec % 86400).toNat % 60 < 60
    omega
  count := by
    have hday := h.day_nonneg
    have hepoch : daysBefore 1970 = epoch := rfl
    change ((dateOf (t.sec / 86400 + epoch).toNat).count * 86400 +
      ((t.sec % 86400).toNat / 3600 : Nat) * 3600 + ((t.sec % 86400).toNat / 60 % 60 : Nat) * 60 +
        ((t.sec % 86400).toNat % 60 : Nat) : Int) = _
    rw [count_dateOf, hepoch]
    omega

/-- Digits are scanned as their number. -/
private theorem scanInt_toDigits {n : Nat} (h : n < 1000000) :
    scanInt (Nat.toDigits 10 n) = some (UInt32.ofNat n) := by
  have hcut : Cut isspace (Nat.toDigits 10 n) [] none (Nat.toDigits 10 n) [] := {
    text := by rw [List.append_nil]; rfl
    blank := by simp
    digits := fun c hc ↦ Nat.isDigit_of_mem_toDigits (by decide) (by decide) hc
    stops := by simp
    bare := fun _ hnil ↦ absurd hnil Nat.toDigits_ne_nil }
  have hclamp : max (-2 ^ 63) (min (2 ^ 63 - 1) (n : Int)) = n := by omega
  rw [scanInt, hcut.dropWhile_blank blanks_isspace]
  simp only [hcut.takeSign_signText, hcut.span_digits.1, if_neg Nat.toDigits_ne_nil]
  rw [signed, if_neg (by decide), Nat.ofDigitChars_ten_toDigits, hclamp, UInt32.ofInt]
  congr 2
  omega

/-- The text is taken apart at the dot. -/
private theorem scanTimeStamp_utcString {t : Timeval} (h : t.FourDigits) :
    scanTimeStamp (cStr (utcString t).toList) =
      (printFields TmField.width t.utc.tm dashed, UInt32.ofNat t.usec) := by
  obtain ⟨front, hfront⟩ : ∃ front, front = printFields TmField.width t.utc.tm dashed := ⟨_, rfl⟩
  have hmem {c : Char} (hc : c ∈ front) := mem_dashed (hfront ▸ hc)
  have hlength : front.length = 19 := by
    rw [hfront]
    simp only [dashed, printFields, List.length_append, List.length_cons, length_fixed,
      TmField.width, List.length_nil]
  have hcstr : cStr (utcString t).toList = front ++ '.' :: Nat.toDigits 10 t.usec := by
    rw [h.toList_utcString, ← hfront, cStr, List.takeWhile_eq_self_iff]
    intro c hc
    apply decide_eq_true
    rcases List.mem_append.mp hc with hin | hin
    · exact (hmem hin).2.2
    · rintro rfl
      rcases List.mem_cons.mp hin with heq | hdigit
      · exact absurd heq (by decide)
      · have := Nat.isDigit_of_mem_toDigits (by decide) (by decide) hdigit
        exact absurd this (by decide)
  have htake : ((front ++ '.' :: Nat.toDigits 10 t.usec).take 19).takeWhile (· ≠ '\n') = front := by
    rw [List.take_left' hlength, List.takeWhile_eq_self_iff]
    exact fun c hc ↦ decide_eq_true (hmem hc).2.1
  rw [hcstr, scanTimeStamp, htake, List.drop_left, ← hfront]
  cases hf : front with
  | nil => rw [hf] at hlength; cases hlength
  | cons c cs =>
    simp only [scanInt_toDigits t.usec_lt, Option.getD_some]

/-- `strptime` reads the date and the time that `strftime` printed, whatever `tm` held. -/
private theorem strptime_printFields {t : Timeval} (h : t.FourDigits) (memory : Tm) :
    strptime (printFields TmField.width t.utc.tm dashed) "%Y-%m-%d %X" memory =
      some t.utc.tm := by
  have hspace (c : Char) (hc : c.isDigit = true) : isspace c = false := by
    by_contra hblank
    rw [Bool.not_eq_false] at hblank
    rw [(blanks_isspace c hblank).1] at hc
    cases hc
  have hwidth (f : TmField) : 0 < f.width ∧ t.utc.tm f < 10 ^ f.width := by
    refine ⟨?_, h.lt_width f⟩
    cases f <;> decide
  obtain ⟨tm, hscan, htm⟩ := scanFields_printFields hspace hwidth h.bounds dashed memory _
    (Or.inl rfl)
  rw [strptime, format_dashed, hscan]
  congr 1
  funext f
  apply htm
  left
  cases f <;> simp [dashed]

/-- `UtcTimeStampString` of the text of an instant is the text of its second with the milliseconds,
rounded down: the microseconds are scanned as the number they were printed from, and the
milliseconds are printed with leading zeros; `Common/ComUtil.cpp:100`. -/
theorem utcTimeStampString_utcString (memory : Tm) (t : Timeval) (h : t.FourDigits) :
    ∃ tm, Denotes tm t.sec ∧
      utcTimeStampString memory (utcString t) = some (stamp tm (t.usec / 1000)) := by
  refine ⟨t.utc.tm, h.denotes, ?_⟩
  have husec := t.usec_lt
  have hms : (if UInt32.ofNat t.usec ≠ 0 then UInt32.ofNat t.usec / 1000
      else UInt32.ofNat t.usec).toNat = t.usec / 1000 := by
    have hnat : (UInt32.ofNat t.usec).toNat = t.usec := by
      rw [UInt32.toNat_ofNat']
      omega
    split
    · rw [UInt32.toNat_div, hnat]
      rfl
    · next hzero =>
      rw [not_not] at hzero
      rw [hzero] at hnat ⊢
      rw [← hnat]
      rfl
  have hformat : format "%Y-%m-%dT%X".toList =
      [.field .year, .char '-', .field .mon, .char '-', .field .mday, .char 'T', .field .hour,
        .char ':', .field .min, .char ':', .field .sec] := rfl
  rw [utcTimeStampString, scanTimeStamp_utcString h]
  simp only [strptime_printFields h, Option.map_some]
  rw [hms, padded_eq_fixed (by decide) (by omega), strftime_eq_printFields h.1 h.lt_width, hformat,
    stamp]
  simp only [printFields, TmField.width, List.append_assoc, List.cons_append, List.append_nil]

/-- The stamp of 1.5 milliseconds past the start of 1970. -/
theorem utcTimeStampString_utcString_start :
    ∃ tm, Denotes tm 0 ∧ utcTimeStampString (fun _ ↦ 0) (utcString ⟨0, 1500, by decide⟩) =
      some (stamp tm (1500 / 1000)) :=
  utcTimeStampString_utcString (fun _ ↦ 0) ⟨0, 1500, by decide⟩ (by decide)

end IcsGateway.ComUtil
