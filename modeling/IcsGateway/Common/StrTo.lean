import IcsGateway.Common.ComUtil
import IcsGateway.Lib.InputStream

/-!
# Numbers read with `StrTo`

`StrTo` reads a value between blanks from a text, and takes it if the stream is at its end then
(`Common/ComUtil.h:167`). It does not look at whether the value could be read: at the end of the
text stands also what holds nothing, a sign alone, or a number that does not fit.
-/

namespace IcsGateway.ComUtil

open Lib

/-- `operator>>(int&)`: a number that does not fit becomes the nearest that does. -/
def intOfDigits (neg : Bool) (n : Nat) : Int32 × Bool :=
  let v : Int := if neg then -n else n
  if v < -2 ^ 31 then (Int32.minValue, true)
  else if 2 ^ 31 - 1 < v then (Int32.maxValue, true)
  else (Int32.ofInt v, false)

/-- `ComUtil::StrTo(const COMStr&, T)` over the operator that reads a `T`; `memory` is what the
stack holds at `obj`; `Common/ComUtil.h:167`. -/
def strTo {T : Type} (read : T → InputStream → T × InputStream) (guarded : Bool) (memory : T)
    (str : COMStr) (d : T) : T :=
  let iss := (InputStream.ofText str.toList).ws isspace guarded
  let (obj, iss) := read memory iss
  let iss := iss.ws isspace guarded
  if !iss.eof then d else obj

/-- `StrTo<int>`. The flag tells whether `ws` leaves a stream with a flag alone, as the standard
says, or reads on, as libraries before that wording do. -/
def strToInt (guarded : Bool) (memory : Int32) (str : COMStr) (d : Int32) : Int32 :=
  strTo (fun old iss ↦ iss.extract isspace intOfDigits 0 old) guarded memory str d

/-! ### What a text spells -/

/-- The number of a sign and digits. -/
def signed (sg : Option Bool) (ds : List Char) : Int :=
  if sg = some true then -(Nat.ofDigitChars 10 ds 0 : Int) else Nat.ofDigitChars 10 ds 0

/-- Nothing but white space. -/
def Blank (cs : List Char) : Prop := ∀ c ∈ cs, isspace c = true

instance (cs : List Char) : Decidable (Blank cs) :=
  List.decidableBAll (fun c ↦ isspace c = true) cs

/-- An optionally signed decimal numeral between white space, none behind it where `tight`. -/
def Spells (tight : Bool) (cs : List Char) (v : Int) : Prop :=
  ∃ ws sg ds rest, Cut isspace cs ws sg ds rest ∧ Blank rest ∧ (tight = true → rest = []) ∧
    ds ≠ [] ∧ signed sg ds = v

/-- A sign without digits between white space, none behind it where `tight`. -/
def LoneSign (tight : Bool) (cs : List Char) : Prop :=
  ∃ ws neg rest, Cut isspace cs ws (some neg) [] rest ∧ Blank rest ∧ (tight = true → rest = [])

/-- The number of an `int` is that `int`, and any other text stands for the default, whatever the
stack held. -/
def StrToRight (guarded : Bool) (s : COMStr) (d : Int32) : Prop :=
  ∀ memory, (∀ v : Int32, Spells false s.toList v.toInt → strToInt guarded memory s d = v) ∧
    ((∀ v : Int32, ¬ Spells false s.toList v.toInt) → strToInt guarded memory s d = d)

/-- What a number that does not fit becomes. -/
def clampInt (v : Int) : Int32 := if v < 0 then Int32.minValue else Int32.maxValue

/-- An `int` can hold it. -/
def Fits (v : Int) : Prop := -2 ^ 31 ≤ v ∧ v ≤ 2 ^ 31 - 1

instance (v : Int) : Decidable (Fits v) := inferInstanceAs (Decidable (_ ∧ _))

/-! ### What is read -/

/-- White space has low codes. -/
theorem le_of_isspace {c : Char} (h : isspace c = true) : c.toNat ≤ 32 := by
  rw [isspace, Bool.or_eq_true, Bool.and_eq_true, decide_eq_true_eq, decide_eq_true_eq,
    decide_eq_true_eq] at h
  rcases h with rfl | hcode
  · decide
  · omega

/-- White space holds no digit and no sign. -/
theorem blanks_isspace : Blanks isspace := by
  intro c hc
  have hcode := le_of_isspace hc
  have hne : ∀ d : Char, 33 ≤ d.toNat → c ≠ d := by
    rintro d hd rfl
    omega
  refine ⟨?_, hne '+' (by decide), hne '-' (by decide)⟩
  apply eq_false_of_ne_true
  intro hdigit
  rw [Char.isDigit, Bool.and_eq_true, decide_eq_true_eq, decide_eq_true_eq] at hdigit
  have hlow : 48 ≤ c.toNat := hdigit.1
  omega

/-- The number that the operator makes of the digits. -/
private theorem ite_sign (sg : Option Bool) (ds : List Char) :
    (if (sg == some true) = true then -(Nat.ofDigitChars 10 ds 0 : Int)
      else Nat.ofDigitChars 10 ds 0) = signed sg ds := by
  rw [signed]
  simp only [beq_iff_eq]

/-- The operator on a number that fits. -/
private theorem intOfDigits_of_fits {sg : Option Bool} {ds : List Char}
    (h : Fits (signed sg ds)) :
    intOfDigits (sg == some true) (Nat.ofDigitChars 10 ds 0) =
      (Int32.ofInt (signed sg ds), false) := by
  rw [intOfDigits, ite_sign, if_neg (by have := h.1; omega), if_neg (by have := h.2; omega)]

/-- The operator on a number that does not. -/
private theorem intOfDigits_of_not_fits {sg : Option Bool} {ds : List Char}
    (h : ¬ Fits (signed sg ds)) :
    intOfDigits (sg == some true) (Nat.ofDigitChars 10 ds 0) =
      (clampInt (signed sg ds), true) := by
  rw [Fits] at h
  rw [intOfDigits, ite_sign, clampInt]
  by_cases hlow : signed sg ds < -2 ^ 31
  · rw [if_pos hlow, if_pos (by omega)]
  · rw [if_neg hlow, if_pos (by omega), if_neg (by omega)]

/-- A value is taken at the end of the text. -/
private theorem taken_iff (guarded failed : Bool) (rest : List Char) {T : Type} (obj d : T) :
    (if !(({ rest := rest, eof := rest.isEmpty, fail := failed } : InputStream).ws isspace
        guarded).eof then d else obj) =
      if rest = [] ∨ Blank rest ∧ ¬ (guarded = true ∧ failed = true) then obj else d := by
  have heof := InputStream.eof_ws_iff isspace guarded rest failed
  by_cases hend : rest = [] ∨ Blank rest ∧ ¬ (guarded = true ∧ failed = true)
  · rw [heof.mpr hend, if_pos hend]
    rfl
  · rw [eq_false_of_ne_true fun he ↦ hend (heof.mp he), if_neg hend]
    rfl

/-- What `StrTo` gives for a text, by its parts. -/
theorem strToInt_of_cut {s : COMStr} {ws ds rest : List Char} {sg : Option Bool}
    (h : Cut isspace s.toList ws sg ds rest) (guarded : Bool) (memory d : Int32) :
    strToInt guarded memory s d =
      if ds = [] ∧ sg = none ∧ rest = [] then memory
      else if rest = [] ∨ Blank rest ∧ (guarded = true → ds ≠ [] ∧ Fits (signed sg ds)) then
        if ds = [] then 0 else (intOfDigits (sg == some true) (Nat.ofDigitChars 10 ds 0)).1
      else d := by
  rw [strToInt, strTo]
  simp only [InputStream.ws_ofText, h.dropWhile_blank blanks_isspace]
  by_cases hnil : ds = [] ∧ sg = none ∧ rest = []
  · rw [if_pos hnil, Cut.behind_blanks_eq_nil_iff.mpr hnil]
    cases guarded <;> rfl
  · have hbody : (signText sg ++ (ds ++ rest)).isEmpty = false := by
      rw [List.isEmpty_eq_false_iff]
      exact fun hb ↦ hnil (Cut.behind_blanks_eq_nil_iff.mp hb)
    have hextract := InputStream.extract_ofText blanks_isspace h.behind_blanks intOfDigits 0 memory
    rw [hbody, if_neg hnil]
    rw [InputStream.ofText] at hextract
    simp only [hextract]
    by_cases hds : ds = []
    · have hsome : ¬ (sg = none ∧ rest = []) := fun hn ↦ hnil ⟨hds, hn⟩
      simp only [if_pos hds, if_neg hsome, taken_iff]
      have hcond : ¬ (guarded = true ∧ True) ↔
          (guarded = true → ds ≠ [] ∧ Fits (signed sg ds)) := by
        simp [hds]
      simp only [hcond]
    · simp only [if_neg hds, taken_iff]
      have hcond : ¬ (guarded = true ∧
            (intOfDigits (sg == some true) (Nat.ofDigitChars 10 ds 0)).2 = true) ↔
          (guarded = true → ds ≠ [] ∧ Fits (signed sg ds)) := by
        by_cases hfits : Fits (signed sg ds)
        · simp [intOfDigits_of_fits hfits, hds, hfits]
        · simp [intOfDigits_of_not_fits hfits, hds, hfits]
      simp only [hcond]

/-! ### When it is right -/

section

variable {cs ws ds rest : List Char} {sg : Option Bool}

/-- White space alone has no parts. -/
private theorem blank_iff (h : Cut isspace cs ws sg ds rest) :
    Blank cs ↔ ds = [] ∧ sg = none ∧ rest = [] := by
  rw [← Cut.behind_blanks_eq_nil_iff, ← h.dropWhile_blank blanks_isspace, Blank,
    List.dropWhile_eq_nil_iff]

/-- What a text spells, by its parts. -/
private theorem spells_iff (h : Cut isspace cs ws sg ds rest) (tight : Bool) (v : Int) :
    Spells tight cs v ↔
      Blank rest ∧ (tight = true → rest = []) ∧ ds ≠ [] ∧ signed sg ds = v := by
  constructor
  · rintro ⟨ws', sg', ds', rest', h', hspells⟩
    obtain ⟨rfl, rfl, rfl⟩ := h.unique blanks_isspace h'
    exact hspells
  · intro hspells
    exact ⟨ws, sg, ds, rest, h, hspells⟩

/-- A sign that stands alone, by the parts of the text. -/
private theorem loneSign_iff (h : Cut isspace cs ws sg ds rest) (tight : Bool) :
    LoneSign tight cs ↔ ds = [] ∧ sg ≠ none ∧ Blank rest ∧ (tight = true → rest = []) := by
  constructor
  · rintro ⟨ws', neg, rest', h', hrest⟩
    obtain ⟨rfl, rfl, rfl⟩ := h.unique blanks_isspace h'
    exact ⟨rfl, Option.some_ne_none neg, hrest⟩
  · rintro ⟨rfl, hsg, hrest⟩
    obtain ⟨neg, rfl⟩ := Option.ne_none_iff_exists'.mp hsg
    exact ⟨ws, neg, rest, h, hrest⟩

/-- The end of the text behind a value that could not be read. -/
private theorem end_iff (guarded : Bool) (rest : List Char) {p : Prop} (hp : ¬ p) :
    rest = [] ∨ Blank rest ∧ (guarded = true → p) ↔
      Blank rest ∧ (guarded = true → rest = []) := by
  constructor
  · rintro (rfl | ⟨hblank, hguard⟩)
    · exact ⟨by simp [Blank], fun _ ↦ rfl⟩
    · exact ⟨hblank, fun hg ↦ absurd (hguard hg) hp⟩
  · rintro ⟨hblank, hguard⟩
    cases guarded with
    | true => exact .inl (hguard rfl)
    | false => exact .inr ⟨hblank, fun hg ↦ absurd hg Bool.false_ne_true⟩

/-- Every `int` fits. -/
private theorem fits_toInt (v : Int32) : Fits v.toInt := by
  have hlow := v.le_toInt
  have hhigh := v.toInt_lt
  exact ⟨hlow, by omega⟩

end

/-- A text that spells no `int` stands for the default. -/
private theorem right_iff_default {s : COMStr} {guarded : Bool} {d : Int32}
    (h : ∀ v : Int32, ¬ Spells false s.toList v.toInt) :
    StrToRight guarded s d ↔ ∀ memory, strToInt guarded memory s d = d := by
  constructor
  · intro hright memory
    exact (hright memory).2 h
  · intro hd memory
    exact ⟨fun v hv ↦ absurd hv (h v), fun _ ↦ hd memory⟩

section

variable {s : COMStr} {ws ds rest : List Char} {sg : Option Bool}

/-- Of nothing but white space comes what the stack held. -/
private theorem not_right_of_blank (h : Cut isspace s.toList ws sg ds rest)
    (hnil : ds = [] ∧ sg = none ∧ rest = []) (guarded : Bool) (d : Int32) :
    ¬ StrToRight guarded s d := by
  have hnone : ∀ v : Int32, ¬ Spells false s.toList v.toInt := by
    intro v hv
    exact ((spells_iff h _ _).mp hv).2.2.1 hnil.1
  rw [right_iff_default hnone]
  intro hright
  have hd := hright (d + 1)
  rw [strToInt_of_cut h, if_pos hnil] at hd
  exact absurd hd (by simp)

/-- Without digits, zero comes of a sign that stands alone. -/
private theorem right_iff_of_noDigits (h : Cut isspace s.toList ws sg ds rest) (hds : ds = [])
    (hnil : ¬ (sg = none ∧ rest = [])) (guarded : Bool) (d : Int32) :
    StrToRight guarded s d ↔ (LoneSign guarded s.toList → d = 0) := by
  have hnone : ∀ v : Int32, ¬ Spells false s.toList v.toInt := by
    intro v hv
    exact ((spells_iff h _ _).mp hv).2.2.1 hds
  have hno : ¬ (ds = [] ∧ sg = none ∧ rest = []) := fun hn ↦ hnil hn.2
  have hdigits : ¬ (ds ≠ [] ∧ Fits (signed sg ds)) := fun hn ↦ hn.1 hds
  rw [right_iff_default hnone, loneSign_iff h]
  simp only [strToInt_of_cut h, if_neg hno, end_iff guarded rest hdigits, if_pos hds]
  by_cases hend : Blank rest ∧ (guarded = true → rest = [])
  · have hsg : sg ≠ none := by
      intro hsg
      cases hrest : rest with
      | nil => exact hnil ⟨hsg, hrest⟩
      | cons c tail =>
        have hc : isspace c = true := hend.1 c (by rw [hrest]; exact List.mem_cons_self)
        have hc' : isspace c = false := (h.bare hsg hds c (by rw [hrest]; rfl)).1
        rw [hc] at hc'
        cases hc'
    simp only [if_pos hend]
    constructor
    · intro hzero _
      exact (hzero 0).symm
    · intro hzero _
      exact (hzero ⟨hds, hsg, hend⟩).symm
  · simp only [if_neg hend, implies_true, true_iff]
    intro hlone
    exact absurd hlone.2.2 hend

/-- A number that fits is given where it ends the text. -/
private theorem right_of_fits (h : Cut isspace s.toList ws sg ds rest) (hds : ds ≠ [])
    (hfits : Fits (signed sg ds)) (guarded : Bool) (d : Int32) : StrToRight guarded s d := by
  have hno : ¬ (ds = [] ∧ sg = none ∧ rest = []) := fun hn ↦ hds hn.1
  have hval : ∀ memory, strToInt guarded memory s d =
      if rest = [] ∨ Blank rest then Int32.ofInt (signed sg ds) else d := by
    intro memory
    have hguard : (guarded = true → ds ≠ [] ∧ Fits (signed sg ds)) := fun _ ↦ ⟨hds, hfits⟩
    rw [strToInt_of_cut h, if_neg hno, if_neg hds, intOfDigits_of_fits hfits]
    simp only [and_iff_left hguard]
  intro memory
  rw [hval]
  constructor
  · intro v hv
    obtain ⟨hblank, -, -, hsigned⟩ := (spells_iff h _ _).mp hv
    rw [if_pos (.inr hblank), hsigned, Int32.ofInt_toInt]
  · intro hnone
    have hrest : ¬ (rest = [] ∨ Blank rest) := by
      intro hrest
      have hblank : Blank rest := by
        rcases hrest with rfl | hblank
        · simp [Blank]
        · exact hblank
      have hint : (Int32.ofInt (signed sg ds)).toInt = signed sg ds := by
        rw [Int32.toInt_ofInt_of_le hfits.1 (by have := hfits.2; omega)]
      apply hnone (Int32.ofInt (signed sg ds))
      rw [spells_iff h, hint]
      exact ⟨hblank, nofun, hds, rfl⟩
    rw [if_neg hrest]

/-- A number that does not fit becomes the nearest that does. -/
private theorem right_iff_of_not_fits (h : Cut isspace s.toList ws sg ds rest) (hds : ds ≠ [])
    (hfits : ¬ Fits (signed sg ds)) (guarded : Bool) (d : Int32) :
    StrToRight guarded s d ↔ ∀ v, Spells guarded s.toList v → d = clampInt v := by
  have hnone : ∀ v : Int32, ¬ Spells false s.toList v.toInt := by
    intro v hv
    rw [((spells_iff h _ _).mp hv).2.2.2] at hfits
    exact hfits (fits_toInt v)
  have hno : ¬ (ds = [] ∧ sg = none ∧ rest = []) := fun hn ↦ hds hn.1
  have hdigits : ¬ (ds ≠ [] ∧ Fits (signed sg ds)) := fun hn ↦ hfits hn.2
  rw [right_iff_default hnone]
  simp only [strToInt_of_cut h, if_neg hno, if_neg hds, end_iff guarded rest hdigits,
    intOfDigits_of_not_fits hfits, spells_iff h]
  by_cases hend : Blank rest ∧ (guarded = true → rest = [])
  · simp only [if_pos hend]
    constructor
    · rintro hclamp v ⟨-, -, -, rfl⟩
      exact (hclamp 0).symm
    · intro hclamp _
      exact (hclamp _ ⟨hend.1, hend.2, hds, rfl⟩).symm
  · simp only [if_neg hend, implies_true, true_iff]
    rintro v ⟨hblank, htight, -⟩
    exact absurd ⟨hblank, htight⟩ hend

end

/-- `StrTo<int>` gives the number of the text or the default exactly when the text does not end
with something that could not be read: nothing but white space, a sign alone while the default is
not zero, or a number that does not fit while the default is not what it becomes. -/
theorem strTo_right_iff (guarded : Bool) (s : COMStr) (d : Int32) :
    StrToRight guarded s d ↔
      ¬ Blank s.toList ∧ (LoneSign guarded s.toList → d = 0) ∧
        ∀ v, Spells guarded s.toList v → ¬ Fits v → d = clampInt v := by
  obtain ⟨ws, sg, ds, rest, h⟩ := Cut.exists_cut isspace s.toList
  rw [blank_iff h]
  by_cases hds : ds = []
  · have hspells : ∀ v, ¬ Spells guarded s.toList v := fun v hv ↦
      ((spells_iff h _ _).mp hv).2.2.1 hds
    by_cases hnil : sg = none ∧ rest = []
    · have hright := not_right_of_blank h ⟨hds, hnil⟩ guarded d
      simp only [hright, hds, hnil, and_self, not_true, false_and]
    · rw [right_iff_of_noDigits h hds hnil]
      simp only [hnil, hspells, and_false, not_false_iff, true_and, false_implies, implies_true,
        and_true]
  · have hlone : ¬ LoneSign guarded s.toList := fun hl ↦ hds ((loneSign_iff h _).mp hl).1
    by_cases hfits : Fits (signed sg ds)
    · have hright := right_of_fits h hds hfits guarded d
      have hall : ∀ v, Spells guarded s.toList v → ¬ Fits v → d = clampInt v := by
        intro v hv hno
        rw [((spells_iff h _ _).mp hv).2.2.2] at hfits
        exact absurd hfits hno
      simp only [hright, hds, hlone, false_and, not_false_iff, false_implies, true_and, true_iff]
      exact hall
    · rw [right_iff_of_not_fits h hds hfits]
      simp only [hds, hlone, false_and, not_false_iff, false_implies, true_and]
      constructor
      · intro hall v hv _
        exact hall v hv
      · intro hall v hv
        apply hall v hv
        rw [← ((spells_iff h _ _).mp hv).2.2.2]
        exact hfits

/-- An empty text gives what the stack held. -/
theorem not_strToRight_empty :
    ¬ ∀ (guarded : Bool) (s : COMStr) (d : Int32), StrToRight guarded s d := by
  intro hall
  have hcut : Cut isspace "".toList [] none [] [] := by
    constructor <;> simp [signText]
  exact not_right_of_blank hcut ⟨rfl, rfl, rfl⟩ true 0 (hall true "" 0)

end IcsGateway.ComUtil
