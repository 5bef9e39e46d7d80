import Mathlib.Algebra.Ring.Nat
import Mathlib.Order.Monotone.Basic
import Mathlib.Data.Nat.Init
import Mathlib.Data.List.GetD

/-!
# The Gregorian calendar

Days are counted from the first of January of the year 1, seconds from its midnight. Every count
has one date and one time of day, and a later count has a later date, or the same date and a later
time.
-/

namespace IcsGateway.Lib

/-! ### Years -/

def IsLeap (year : Nat) : Prop := year % 4 = 0 ∧ (year % 100 ≠ 0 ∨ year % 400 = 0)

instance (year : Nat) : Decidable (IsLeap year) := inferInstanceAs (Decidable (_ ∧ _))

/-- The days before a year. -/
def daysBefore (year : Nat) : Nat :=
  365 * (year - 1) + (year - 1) / 4 - (year - 1) / 100 + (year - 1) / 400

/-- A year adds its days. -/
theorem daysBefore_succ {year : Nat} (h : 1 ≤ year) :
    daysBefore (year + 1) = daysBefore year + if IsLeap year then 366 else 365 := by
  obtain ⟨y, rfl⟩ : ∃ y, year = y + 1 := ⟨year - 1, by omega⟩
  rw [daysBefore, daysBefore, Nat.add_sub_cancel, Nat.add_sub_cancel]
  have hle : y / 100 ≤ y / 4 := Nat.div_le_div_left (by decide) (by decide)
  -- a quotient grows where its divisor divides the year
  by_cases h4 : (y + 1) % 4 = 0
  · by_cases h100 : (y + 1) % 100 = 0
    · by_cases h400 : (y + 1) % 400 = 0
      · rw [Nat.succ_div_of_mod_eq_zero h4, Nat.succ_div_of_mod_eq_zero h100,
          Nat.succ_div_of_mod_eq_zero h400, if_pos ⟨h4, Or.inr h400⟩]
        omega
      · have hleap : ¬ IsLeap (y + 1) := fun h ↦ h.2.elim (· h100) h400
        rw [Nat.succ_div_of_mod_eq_zero h4, Nat.succ_div_of_mod_eq_zero h100,
          Nat.succ_div_of_mod_ne_zero h400, if_neg hleap]
        omega
    · have h400 : (y + 1) % 400 ≠ 0 := by omega
      rw [Nat.succ_div_of_mod_eq_zero h4, Nat.succ_div_of_mod_ne_zero h100,
        Nat.succ_div_of_mod_ne_zero h400, if_pos ⟨h4, Or.inl h100⟩]
      omega
  · have h100 : (y + 1) % 100 ≠ 0 := by omega
    have h400 : (y + 1) % 400 ≠ 0 := by omega
    have hleap : ¬ IsLeap (y + 1) := fun h ↦ h4 h.1
    rw [Nat.succ_div_of_mod_ne_zero h4, Nat.succ_div_of_mod_ne_zero h100,
      Nat.succ_div_of_mod_ne_zero h400, if_neg hleap]
    omega

theorem daysBefore_mono : Monotone daysBefore := by
  apply monotone_nat_of_le_succ
  intro year
  rcases Nat.eq_zero_or_pos year with rfl | hpos
  · exact Nat.le_refl 0
  · rw [daysBefore_succ hpos]
    exact Nat.le_add_right _ _

/-! ### The year of a day -/

section
variable {c f y : Nat} (hc : c ≤ 3) (hf : f ≤ 24) (hy : y ≤ 3) (q : Nat)
include hc hf hy

/-- The days before a year that is given by cycles of 400, 100, 4 and 1 years. -/
private theorem daysBefore_cycles :
    daysBefore (400 * q + 100 * c + 4 * f + y + 1) =
      146097 * q + 36524 * c + 1461 * f + 365 * y := by
  have h4 : (400 * q + 100 * c + 4 * f + y) / 4 = 100 * q + 25 * c + f := by omega
  have h100 : (400 * q + 100 * c + 4 * f + y) / 100 = 4 * q + c := by omega
  have h400 : (400 * q + 100 * c + 4 * f + y) / 400 = q := by omega
  rw [daysBefore, Nat.add_sub_cancel, h4, h100, h400]
  omega

/-- The last year of four is a leap year, if it is not the last of a hundred or is the last of
four hundred. -/
private theorem isLeap_cycles :
    IsLeap (400 * q + 100 * c + 4 * f + y + 1) ↔ y = 3 ∧ (f ≠ 24 ∨ c = 3) := by
  have h4 : (400 * q + 100 * c + 4 * f + y + 1) % 4 = (y + 1) % 4 := by omega
  have h100 : (400 * q + 100 * c + 4 * f + y + 1) % 100 = (4 * f + y + 1) % 100 := by omega
  have h400 : (400 * q + 100 * c + 4 * f + y + 1) % 400 = (100 * c + 4 * f + y + 1) % 400 := by
    omega
  rw [IsLeap, h4, h100, h400]
  omega

end

/-- The year a day is in: by cycles of 400, 100, 4 and 1 years. The last day of four hundred
years, and of four, comes on top of the shorter cycles. -/
def yearOf (day : Nat) : Nat :=
  let r := day % 146097
  let c := min (r / 36524) 3
  let s := r - 36524 * c
  400 * (day / 146097) + 100 * c + 4 * (s / 1461) + min (s % 1461 / 365) 3 + 1

theorem yearOf_pos (day : Nat) : 1 ≤ yearOf day := Nat.le_add_left 1 _

theorem yearOf_spec (day : Nat) :
    daysBefore (yearOf day) ≤ day ∧ day < daysBefore (yearOf day + 1) := by
  obtain ⟨q, hq⟩ : ∃ q, q = day / 146097 := ⟨_, rfl⟩
  obtain ⟨r, hr⟩ : ∃ r, r = day % 146097 := ⟨_, rfl⟩
  obtain ⟨c, hc⟩ : ∃ c, c = min (r / 36524) 3 := ⟨_, rfl⟩
  obtain ⟨s, hs⟩ : ∃ s, s = r - 36524 * c := ⟨_, rfl⟩
  obtain ⟨f, hf⟩ : ∃ f, f = s / 1461 := ⟨_, rfl⟩
  obtain ⟨t, ht⟩ : ∃ t, t = s % 1461 := ⟨_, rfl⟩
  obtain ⟨y, hy⟩ : ∃ y, y = min (t / 365) 3 := ⟨_, rfl⟩
  have hyear : yearOf day = 400 * q + 100 * c + 4 * f + y + 1 := by
    rw [yearOf, ← hr, ← hq, ← hc, ← hs, ← hf, ← ht, ← hy]
  have hday : day = 146097 * q + 36524 * c + 1461 * f + t := by
    have hcle : 36524 * c ≤ r := by omega
    omega
  have hc3 : c ≤ 3 := by omega
  have hs' : s < 36524 ∨ c = 3 ∧ s < 36525 := by omega
  have hf24 : f ≤ 24 := by omega
  have hy3 : y ≤ 3 := by omega
  have ht' : t < 365 * (y + 1) ∨ y = 3 ∧ t < 1461 := by omega
  have hlow : 365 * y ≤ t := by omega
  rw [hyear, daysBefore_succ (Nat.le_add_left 1 _), daysBefore_cycles hc3 hf24 hy3]
  constructor
  · omega
  · by_cases hleap : y = 3 ∧ (f ≠ 24 ∨ c = 3)
    · rw [if_pos ((isLeap_cycles hc3 hf24 hy3 q).mpr hleap)]
      omega
    · rw [if_neg fun h ↦ hleap ((isLeap_cycles hc3 hf24 hy3 q).mp h)]
      omega

/-! ### Months -/

/-- The place of a day in a list of lengths, and the days before it there. -/
def placeOf : List Nat → Nat → Nat × Nat
  | [], n => (0, n)
  | l :: ls, n => if n < l then (0, n) else ((placeOf ls (n - l)).1 + 1, (placeOf ls (n - l)).2)

theorem placeOf_spec {ls : List Nat} {n : Nat} (h : n < ls.sum) :
    (placeOf ls n).2 < ls.getD (placeOf ls n).1 0 ∧
      (ls.take (placeOf ls n).1).sum + (placeOf ls n).2 = n := by
  induction ls generalizing n with
  | nil => exact absurd h (Nat.not_lt_zero n)
  | cons l ls ih =>
    rw [List.sum_cons] at h
    by_cases hn : n < l
    · rw [placeOf, if_pos hn]
      exact ⟨hn, Nat.zero_add n⟩
    · rw [placeOf, if_neg hn, List.getD_cons_succ, List.take_succ_cons, List.sum_cons]
      have htail : n - l < ls.sum := by omega
      obtain ⟨hlt, hsum⟩ := ih htail
      refine ⟨hlt, ?_⟩
      omega

/-- A day in one part of a list comes before the parts that follow. -/
theorem sum_take_lt {ls : List Nat} {i j x : Nat} (hx : x < ls.getD i 0) (hij : i < j) :
    (ls.take i).sum + x < (ls.take j).sum := by
  induction ls generalizing i j with
  | nil => exact absurd hx (Nat.not_lt_zero x)
  | cons l ls ih =>
    cases j with
    | zero => exact absurd hij (Nat.not_lt_zero i)
    | succ j =>
      rw [List.take_succ_cons, List.sum_cons]
      cases i with
      | zero =>
        have hlt : x < l := hx
        rw [List.take_zero, List.sum_nil]
        omega
      | succ i =>
        have htail := ih hx (Nat.lt_of_succ_lt_succ hij)
        rw [List.take_succ_cons, List.sum_cons]
        omega

def monthLengths (year : Nat) : List Nat :=
  [31, if IsLeap year then 29 else 28, 31, 30, 31, 30, 31, 31, 30, 31, 30, 31]

/-- The months make up the year. -/
theorem sum_monthLengths (year : Nat) :
    (monthLengths year).sum = if IsLeap year then 366 else 365 := by
  rw [monthLengths]
  split <;> rfl

theorem length_le_of_mem_monthLengths {year l : Nat} (h : l ∈ monthLengths year) : l ≤ 31 := by
  rw [monthLengths] at h
  split at h <;> revert l <;> decide

/-! ### Dates -/

structure Date where
  year : Nat
  month : Nat
  day : Nat
  deriving DecidableEq, Repr

namespace Date

/-- There is such a date. -/
structure Valid (d : Date) : Prop where
  year : 1 ≤ d.year
  month : 1 ≤ d.month ∧ d.month ≤ 12
  day : 1 ≤ d.day ∧ d.day ≤ (monthLengths d.year).getD (d.month - 1) 0

/-- The days before a date. -/
def count (d : Date) : Nat :=
  daysBefore d.year + ((monthLengths d.year).take (d.month - 1)).sum + (d.day - 1)

def Before (d e : Date) : Prop :=
  d.year < e.year ∨ d.year = e.year ∧ (d.month < e.month ∨ d.month = e.month ∧ d.day < e.day)

theorem Valid.day_le {d : Date} (h : d.Valid) : d.day ≤ 31 := by
  have hlt : d.month - 1 < (monthLengths d.year).length := by
    have := h.month
    change d.month - 1 < 12
    omega
  have hlength := h.day.2
  rw [List.getD_eq_getElem _ _ hlt] at hlength
  exact hlength.trans (length_le_of_mem_monthLengths (List.getElem_mem hlt))

/-- A date is in its year. -/
theorem Valid.count_lt {d : Date} (h : d.Valid) : d.count < daysBefore (d.year + 1) := by
  have hday : d.day - 1 < (monthLengths d.year).getD (d.month - 1) 0 := by
    have := h.day
    omega
  have hmonth : d.month - 1 < 12 := by
    have := h.month
    omega
  have hsum := sum_take_lt hday hmonth
  rw [daysBefore_succ h.year, ← sum_monthLengths, count]
  have htake : (monthLengths d.year).take 12 = monthLengths d.year := rfl
  rw [htake] at hsum
  omega

/-- An earlier date has a smaller count. -/
theorem Valid.count_lt_count {d e : Date} (hd : d.Valid) (h : d.Before e) :
    d.count < e.count := by
  have hday : d.day - 1 < (monthLengths d.year).getD (d.month - 1) 0 := by
    have := hd.day
    omega
  have hdm := hd.month
  have hdd := hd.day
  rcases h with hyear | ⟨hyear, hmonth | ⟨hmonth, hlt⟩⟩
  · have hmono : daysBefore (d.year + 1) ≤ daysBefore e.year := daysBefore_mono hyear
    have hlt := hd.count_lt
    have hle : daysBefore e.year ≤ e.count := by
      rw [count, Nat.add_assoc]
      exact Nat.le_add_right _ _
    omega
  · have hsum := sum_take_lt (j := e.month - 1) hday (by omega)
    rw [count, count, ← hyear]
    omega
  · rw [count, count, ← hyear, ← hmonth]
    omega

/-- Of two dates one is earlier, or they are the same. -/
theorem before_trichotomy (d e : Date) : d.Before e ∨ d = e ∨ e.Before d := by
  rcases d with ⟨y, m, n⟩
  rcases e with ⟨y', m', n'⟩
  simp only [Before, mk.injEq]
  omega

end Date

/-- The date of a count of days. -/
def dateOf (n : Nat) : Date :=
  let place := placeOf (monthLengths (yearOf n)) (n - daysBefore (yearOf n))
  { year := yearOf n, month := place.1 + 1, day := place.2 + 1 }

/-- The place of a day in its year. -/
private theorem placeOf_year (n : Nat) :
    (dateOf n).day - 1 < (monthLengths (yearOf n)).getD ((dateOf n).month - 1) 0 ∧
      ((monthLengths (yearOf n)).take ((dateOf n).month - 1)).sum + ((dateOf n).day - 1) =
        n - daysBefore (yearOf n) := by
  apply placeOf_spec
  obtain ⟨hlow, hhigh⟩ := yearOf_spec n
  rw [daysBefore_succ (yearOf_pos n), ← sum_monthLengths] at hhigh
  omega

theorem dateOf_valid (n : Nat) : (dateOf n).Valid where
  year := yearOf_pos n
  month := by
    refine ⟨Nat.le_add_left 1 _, ?_⟩
    by_contra hmonth
    have hday := (placeOf_year n).1
    have hlength : (monthLengths (yearOf n)).length ≤ (dateOf n).month - 1 := by
      change 12 ≤ (dateOf n).month - 1
      omega
    rw [List.getD_eq_default _ _ hlength] at hday
    exact Nat.not_lt_zero _ hday
  day := by
    have hday := (placeOf_year n).1
    refine ⟨Nat.le_add_left 1 _, ?_⟩
    change (dateOf n).day ≤ (monthLengths (yearOf n)).getD ((dateOf n).month - 1) 0
    omega

/-- A count of days is the count of its date. -/
theorem count_dateOf (n : Nat) : (dateOf n).count = n := by
  have hsum := (placeOf_year n).2
  have hlow := (yearOf_spec n).1
  rw [Date.count]
  change daysBefore (yearOf n) + ((monthLengths (yearOf n)).take ((dateOf n).month - 1)).sum +
    ((dateOf n).day - 1) = n
  omega

/-- Dates come in the order of the days. -/
theorem dateOf_before {n m : Nat} (h : n < m) : (dateOf n).Before (dateOf m) := by
  rcases Date.before_trichotomy (dateOf n) (dateOf m) with hlt | heq | hgt
  · exact hlt
  · have hcount := congrArg Date.count heq
    rw [count_dateOf, count_dateOf] at hcount
    omega
  · have hcount := (dateOf_valid m).count_lt_count hgt
    rw [count_dateOf, count_dateOf] at hcount
    omega

example : dateOf (daysBefore 2000 + 59) = ⟨2000, 2, 29⟩ := by decide

end IcsGateway.Lib
