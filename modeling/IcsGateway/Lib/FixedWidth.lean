import Mathlib.Data.List.DropRight
import Mathlib.Logic.Function.Basic
import Mathlib.Tactic.Ring

/-!
# Fields of fixed width

Numbers written with a fixed number of digits, and texts made of such fields and of separators.
Such a text orders as the numbers in its fields do, field by field, and what a scanner reads from
it are these numbers.
-/

namespace IcsGateway.Lib

/-! ### Digits -/

/-- The last `w` decimal digits of `n`. -/
def fixed : Nat → Nat → List Char
  | 0, _ => []
  | w + 1, n => Nat.digitChar (n / 10 ^ w % 10) :: fixed w n

theorem length_fixed (w n : Nat) : (fixed w n).length = w := by
  induction w with
  | zero => rfl
  | succ w ih => rw [fixed, List.length_cons, ih]

theorem isDigit_of_mem_fixed {w n : Nat} {c : Char} (h : c ∈ fixed w n) : c.isDigit = true := by
  induction w with
  | zero => exact absurd h List.not_mem_nil
  | succ w ih =>
    cases List.mem_cons.mp h with
    | inl heq =>
      rw [heq, Nat.isDigit_digitChar]
      exact decide_eq_true (Nat.mod_lt _ (by decide))
    | inr htail => exact ih htail

theorem fixed_one (n : Nat) : fixed 1 n = [Nat.digitChar (n % 10)] := by
  rw [fixed, fixed, Nat.pow_zero, Nat.div_one]

/-- The first digit is a field of its own. -/
theorem fixed_succ (w n : Nat) : fixed (w + 1) n = fixed 1 (n / 10 ^ w) ++ fixed w n := by
  rw [fixed_one, fixed]
  rfl

/-- The last digit is taken off at the end. -/
theorem fixed_snoc (w n : Nat) :
    fixed (w + 1) n = fixed w (n / 10) ++ [Nat.digitChar (n % 10)] := by
  induction w with
  | zero => exact fixed_one n
  | succ w ih =>
    have hdiv : n / 10 ^ (w + 1) = n / 10 / 10 ^ w := by
      rw [Nat.pow_succ, Nat.mul_comm, Nat.div_div_eq_div_mul]
    rw [fixed, ih, hdiv]
    rfl

/-- A number with `w + 1` digits is written with them. -/
theorem toDigits_eq_fixed (w n : Nat) (hlow : w ≠ 0 → 10 ^ w ≤ n) (hhigh : n < 10 ^ (w + 1)) :
    Nat.toDigits 10 n = fixed (w + 1) n := by
  induction w generalizing n with
  | zero =>
    have hn : n < 10 := hhigh
    rw [Nat.toDigits_of_lt_base hn, fixed_one, Nat.mod_eq_of_lt hn]
  | succ w ih =>
    have hle : 10 * 10 ^ w ≤ n := by
      rw [Nat.mul_comm, ← Nat.pow_succ]
      exact hlow (Nat.succ_ne_zero w)
    have hlt : n < 10 * 10 ^ (w + 1) := by
      rw [Nat.mul_comm, ← Nat.pow_succ]
      exact hhigh
    have hpos : 0 < 10 ^ w := Nat.pow_pos (by decide)
    rw [Nat.toDigits_of_base_le (by decide) (by omega), fixed_snoc, ih (n / 10)]
    · intro _
      omega
    · omega

/-- A number with zeros before it, where it has fewer than `w` digits. -/
def padded (w n : Nat) : List Char :=
  List.replicate (w - (Nat.toDigits 10 n).length) '0' ++ Nat.toDigits 10 n

theorem padded_eq_fixed {w n : Nat} (hw : 0 < w) (h : n < 10 ^ w) : padded w n = fixed w n := by
  induction w with
  | zero => exact absurd hw (Nat.lt_irrefl 0)
  | succ w ih =>
    by_cases hlong : w = 0 ∨ 10 ^ w ≤ n
    · have hdigits := toDigits_eq_fixed w n (fun h ↦ hlong.resolve_left h) h
      rw [padded, hdigits, length_fixed, Nat.sub_self]
      rfl
    · rw [not_or, Nat.not_le] at hlong
      have hshort := ih (Nat.pos_of_ne_zero hlong.1) hlong.2
      have hlength : (Nat.toDigits 10 n).length ≤ w :=
        (Nat.length_toDigits_le_iff (by decide) (Nat.pos_of_ne_zero hlong.1)).mpr hlong.2
      rw [padded, Nat.succ_sub hlength, List.replicate_succ, List.cons_append, fixed,
        Nat.div_eq_of_lt hlong.2, ← hshort]
      rfl

/-- Digits order as the numbers do, whatever follows them. -/
theorem fixed_lt {w n m : Nat} (h : n < m) (hm : m < 10 ^ w) (a b : List Char) :
    fixed w n ++ a < fixed w m ++ b := by
  induction w generalizing n m a b with
  | zero =>
    rw [Nat.pow_zero] at hm
    omega
  | succ w ih =>
    rw [fixed_snoc, fixed_snoc, List.append_assoc, List.append_assoc]
    have hm' : m / 10 < 10 ^ w := by
      rw [Nat.pow_succ] at hm
      omega
    have hdiv : n / 10 ≤ m / 10 := Nat.div_le_div_right (Nat.le_of_lt h)
    rcases Nat.lt_or_eq_of_le hdiv with hlt | heq
    · exact ih hlt hm' _ _
    · rw [heq]
      apply List.append_left_lt
      apply List.cons_lt_cons_iff.mpr
      left
      have hmod : n % 10 < m % 10 := by omega
      apply Char.lt_def.mpr
      have hcode (d : Nat) (hd : d < 10) := Nat.toNat_digitChar_of_lt_ten hd
      change (Nat.digitChar (n % 10)).toNat < (Nat.digitChar (m % 10)).toNat
      rw [hcode _ (Nat.mod_lt _ (by decide)), hcode _ (Nat.mod_lt _ (by decide))]
      omega

/-! ### Formats -/

/-- A part of a format: a field, or a character that stands for itself. -/
inductive Item (ι : Type) where
  | field (i : ι)
  | char (c : Char)

section
variable {ι : Type} (width : ι → Nat)

/-- The numbers `v` in the fields of a format. -/
def printFields (v : ι → Nat) : List (Item ι) → List Char
  | [] => []
  | .field i :: fmt => fixed (width i) (v i) ++ printFields v fmt
  | .char c :: fmt => c :: printFields v fmt

/-- In the first field in which they differ `v` has the smaller number. -/
def Earlier (v u : ι → Nat) : List (Item ι) → Prop
  | [] => False
  | .field i :: fmt => v i < u i ∨ v i = u i ∧ Earlier v u fmt
  | .char _ :: fmt => Earlier v u fmt

variable {width}

theorem mem_printFields {v : ι → Nat} {fmt : List (Item ι)} {c : Char}
    (h : c ∈ printFields width v fmt) : c.isDigit = true ∨ .char c ∈ fmt := by
  induction fmt with
  | nil => exact absurd h List.not_mem_nil
  | cons item fmt ih =>
    cases item with
    | field i =>
      cases List.mem_append.mp h with
      | inl hfield => exact Or.inl (isDigit_of_mem_fixed hfield)
      | inr htail => exact (ih htail).imp_right (List.mem_cons_of_mem _)
    | char d =>
      cases List.mem_cons.mp h with
      | inl heq => exact Or.inr (heq ▸ List.mem_cons_self)
      | inr htail => exact (ih htail).imp_right (List.mem_cons_of_mem _)

/-- Texts of one format order as their numbers. -/
theorem printFields_lt {v u : ι → Nat} (hu : ∀ i, u i < 10 ^ width i) {fmt : List (Item ι)}
    (h : Earlier v u fmt) (a b : List Char) :
    printFields width v fmt ++ a < printFields width u fmt ++ b := by
  induction fmt with
  | nil => exact False.elim h
  | cons item fmt ih =>
    cases item with
    | char c => exact List.cons_lt_cons_iff.mpr (Or.inr ⟨rfl, ih h⟩)
    | field i =>
      rw [printFields, printFields, List.append_assoc, List.append_assoc]
      cases h with
      | inl hlt => exact fixed_lt hlt (hu i) _ _
      | inr htail =>
        rw [htail.1]
        exact List.append_left_lt (ih htail.2)

end

/-! ### Scanning -/

/-- The number at the front, of at most `n` digits and of no more than stay below `hi`, behind the
digits that make `v`; and what follows it. -/
def readDigits (hi : Nat) : Nat → Nat → List Char → Nat × List Char
  | 0, v, cs => (v, cs)
  | _ + 1, v, [] => (v, [])
  | n + 1, v, c :: cs =>
    if c.isDigit ∧ v * 10 ≤ hi then readDigits hi n (v * 10 + (c.toNat - 48)) cs else (v, c :: cs)

section
variable {ι : Type} [DecidableEq ι] (space : Char → Bool) (width lo hi : ι → Nat)

/-- What a text in a format says about the fields, over what was known of them. A blank in the
format stands for any number of them, and blanks before a field are passed over. -/
def scanFields : List (Item ι) → List Char → (ι → Nat) → Option (ι → Nat)
  | [], _, u => some u
  | .char c :: fmt, cs, u =>
    if space c then scanFields fmt (cs.dropWhile space) u
    else if cs.head? = some c then scanFields fmt cs.tail u
    else none
  | .field i :: fmt, cs, u =>
    let cs := cs.dropWhile space
    if cs.head?.any Char.isDigit then
      let (n, rest) := readDigits (hi i) (width i) 0 cs
      if lo i ≤ n ∧ n ≤ hi i then scanFields fmt rest (Function.update u i n) else none
    else none

end

/-- Digits are read as the number they were written for. -/
theorem readDigits_fixed (hi w v n : Nat) (rest : List Char)
    (h : v * 10 ^ w + n % 10 ^ w ≤ hi) :
    readDigits hi w v (fixed w n ++ rest) = (v * 10 ^ w + n % 10 ^ w, rest) := by
  induction w generalizing v with
  | zero => rw [Nat.pow_zero, Nat.mul_one, Nat.mod_one]; rfl
  | succ w ih =>
    have hd : n / 10 ^ w % 10 < 10 := Nat.mod_lt _ (by decide)
    have hsplit : v * 10 ^ (w + 1) + n % 10 ^ (w + 1) =
        (v * 10 + n / 10 ^ w % 10) * 10 ^ w + n % 10 ^ w := by
      rw [Nat.mod_pow_succ, Nat.pow_succ]
      ring
    have hdigit : (Nat.digitChar (n / 10 ^ w % 10)).isDigit = true := by
      rw [Nat.isDigit_digitChar]
      exact decide_eq_true hd
    have hle : v * 10 ≤ hi := by
      have hone : 1 ≤ 10 ^ w := Nat.pow_pos (by decide)
      calc v * 10 ≤ v * 10 * 10 ^ w := Nat.le_mul_of_pos_right _ hone
        _ ≤ (v * 10 + n / 10 ^ w % 10) * 10 ^ w := Nat.mul_le_mul_right _ (Nat.le_add_right _ _)
        _ ≤ hi := Nat.le_trans (Nat.le_add_right _ _) (hsplit ▸ h)
    rw [fixed, List.cons_append, readDigits, if_pos ⟨hdigit, hle⟩,
      Nat.toNat_digitChar_sub_48_of_lt_ten hd, ih _ (hsplit ▸ h), hsplit]

/-- A field begins with a digit. -/
private theorem head_fixed {w : Nat} (hw : 0 < w) (n : Nat) (rest : List Char) :
    ∃ c cs, fixed w n ++ rest = c :: cs ∧ c.isDigit = true := by
  cases w with
  | zero => exact absurd hw (Nat.lt_irrefl 0)
  | succ w =>
    refine ⟨_, _, rfl, ?_⟩
    exact isDigit_of_mem_fixed (w := w + 1) (n := n) List.mem_cons_self

section
variable {ι : Type} [DecidableEq ι] {space : Char → Bool} {width lo hi v : ι → Nat}

/-- The numbers of a text are read from it, also where blanks at its front are gone: each field is
right that is in the format or was right before. -/
theorem scanFields_printFields (hspace : ∀ c, c.isDigit = true → space c = false)
    (hwidth : ∀ i, 0 < width i ∧ v i < 10 ^ width i) (hv : ∀ i, lo i ≤ v i ∧ v i ≤ hi i)
    (fmt : List (Item ι)) (u : ι → Nat) (cs : List Char)
    (hcs : cs = printFields width v fmt ∨ cs = (printFields width v fmt).dropWhile space) :
    ∃ u', scanFields space width lo hi fmt cs u = some u' ∧
      ∀ i, .field i ∈ fmt ∨ u i = v i → u' i = v i := by
  induction fmt generalizing u cs with
  | nil =>
    refine ⟨u, rfl, ?_⟩
    intro i hi
    exact hi.resolve_left List.not_mem_nil
  | cons item fmt ih =>
    cases item with
    | char c =>
      have hmem (i : ι) (h : Item.field i ∈ Item.char c :: fmt ∨ u i = v i) :
          Item.field i ∈ fmt ∨ u i = v i := by
        apply h.imp_left
        intro hi
        exact (List.mem_cons.mp hi).resolve_left fun h ↦ nomatch h
      by_cases hc : space c = true
      · have hdrop : cs.dropWhile space = (printFields width v fmt).dropWhile space := by
          rcases hcs with rfl | rfl
          · exact List.dropWhile_cons_of_pos hc
          · rw [List.dropWhile_idempotent]
            exact List.dropWhile_cons_of_pos hc
        obtain ⟨u', hscan, hu'⟩ := ih u _ (Or.inr hdrop)
        refine ⟨u', ?_, fun i hi ↦ hu' i (hmem i hi)⟩
        rw [scanFields, if_pos hc, hscan]
      · have hcs' : cs = c :: printFields width v fmt := by
          rcases hcs with rfl | rfl
          · rfl
          · exact List.dropWhile_cons_of_neg hc
        obtain ⟨u', hscan, hu'⟩ := ih u _ (Or.inl rfl)
        refine ⟨u', ?_, fun i hi ↦ hu' i (hmem i hi)⟩
        rw [scanFields, if_neg hc, hcs', List.head?_cons, if_pos rfl, List.tail_cons, hscan]
    | field i =>
      obtain ⟨c, tail, hfront, hc⟩ := head_fixed (hwidth i).1 (v i) (printFields width v fmt)
      have hkeep : (printFields width v (.field i :: fmt)).dropWhile space =
          fixed (width i) (v i) ++ printFields width v fmt := by
        rw [printFields, hfront]
        exact List.dropWhile_cons_of_neg (Bool.eq_false_iff.mp (hspace c hc))
      have hdrop : cs.dropWhile space = fixed (width i) (v i) ++ printFields width v fmt := by
        rcases hcs with rfl | rfl
        · exact hkeep
        · rw [List.dropWhile_idempotent, hkeep]
      have hmod : v i % 10 ^ width i = v i := Nat.mod_eq_of_lt (hwidth i).2
      have hread : readDigits (hi i) (width i) 0 (cs.dropWhile space) =
          (v i, printFields width v fmt) := by
        rw [hdrop, readDigits_fixed, hmod, Nat.zero_mul, Nat.zero_add]
        rw [hmod, Nat.zero_mul, Nat.zero_add]
        exact (hv i).2
      have hdigit : (cs.dropWhile space).head?.any Char.isDigit = true := by
        rw [hdrop, hfront]
        exact hc
      obtain ⟨u', hscan, hu'⟩ := ih (Function.update u i (v i)) _ (Or.inl rfl)
      refine ⟨u', ?_, ?_⟩
      · simp only [scanFields, hdigit, hread, if_true, if_pos (hv i), hscan]
      · intro j hj
        apply hu'
        by_cases hji : j = i
        · right
          rw [hji, Function.update_self]
        · rw [Function.update_of_ne hji]
          apply hj.imp_left
          intro hmem
          apply (List.mem_cons.mp hmem).resolve_left
          intro heq
          exact hji (Item.field.inj heq)

end

end IcsGateway.Lib
