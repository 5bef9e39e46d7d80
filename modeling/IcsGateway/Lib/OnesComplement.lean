import Mathlib.Data.Nat.ModEq

/-!
# Ones'-complement sums

Sums in which a carry out of the highest bit is added at the lowest. With words of `w` bits they
are sums modulo `m = 2 ^ w - 1`, in which zero has two representations: only a sum of zeros is 0,
any other multiple of `m` is `m`.
-/

namespace IcsGateway.Lib

/-- The sum of two words up to `m`, with the carry brought around. -/
def endAround (m a b : Nat) : Nat := if a + b ≤ m then a + b else a + b - m

/-- The sum of words. -/
def onesSum (m : Nat) (ws : List Nat) : Nat := ws.foldl (endAround m) 0

/-- A word stands for a sum: it has the same remainder, and is zero only for zero. -/
structure Represents (m r n : Nat) : Prop where
  le : r ≤ m
  mod : r ≡ n [MOD m]
  zero : r = 0 ↔ n = 0

variable {m r r' n b : Nat}

/-- A sum is represented in one way. -/
theorem Represents.unique (h : Represents m r n) (h' : Represents m r' n) : r = r' := by
  have hmod : r ≡ r' [MOD m] := h.mod.trans h'.mod.symm
  have hzero : r = 0 ↔ r' = 0 := h.zero.trans h'.zero.symm
  have hcase (x y : Nat) (hx : x = m) (hy : y ≤ m) (hxy : x ≡ y [MOD m]) (hz : x = 0 ↔ y = 0) :
      x = y := by
    by_cases hym : y = m
    · rw [hx, hym]
    · have hy0 : y ≡ 0 [MOD m] := by
        have hx0 : x ≡ 0 [MOD m] := by
          rw [hx]
          exact (Nat.modEq_zero_iff_dvd).mpr (dvd_refl m)
        exact hxy.symm.trans hx0
      have hy' : y = 0 := Nat.ModEq.eq_of_lt_of_lt hy0 (by omega) (by omega)
      rw [hz.mpr hy', hy']
  by_cases hr : r = m
  · exact hcase r r' hr h'.le hmod hzero
  · by_cases hr' : r' = m
    · exact (hcase r' r hr' h.le hmod.symm hzero.symm).symm
    · have hle := h.le
      have hle' := h'.le
      exact Nat.ModEq.eq_of_lt_of_lt hmod (by omega) (by omega)

/-- Adding a word to a representation. -/
theorem Represents.endAround (h : Represents m r n) (hb : b ≤ m) :
    Represents m (endAround m r b) (n + b) := by
  have hsum : r + b ≡ n + b [MOD m] := h.mod.add_right b
  have hzero := h.zero
  have hle := h.le
  rw [Lib.endAround]
  by_cases hcarry : r + b ≤ m
  · rw [if_pos hcarry]
    exact ⟨hcarry, hsum, by omega⟩
  · rw [if_neg hcarry]
    have hback : r + b - m ≡ r + b [MOD m] := by
      have hm : (r + b - m) + m = r + b := by omega
      rw [← hm, Nat.add_sub_cancel]
      exact (Nat.add_modEq_right).symm
    exact ⟨by omega, hback.trans hsum, by omega⟩

/-- The sum of words represents their sum. -/
theorem onesSum_represents {ws : List Nat} (h : ∀ w ∈ ws, w ≤ m) :
    Represents m (onesSum m ws) ws.sum := by
  have hfold (ws : List Nat) (h : ∀ w ∈ ws, w ≤ m) (r n : Nat) (hr : Represents m r n) :
      Represents m (ws.foldl (Lib.endAround m) r) (n + ws.sum) := by
    induction ws generalizing r n with
    | nil => exact hr
    | cons w ws ih =>
      obtain ⟨hw, hws⟩ := List.forall_mem_cons.mp h
      rw [List.foldl_cons, List.sum_cons, ← Nat.add_assoc]
      exact ih hws _ _ (hr.endAround hw)
  have hall := hfold ws h 0 0 ⟨Nat.zero_le m, rfl, Iff.rfl⟩
  rw [Nat.zero_add] at hall
  exact hall

/-- A sum with the complement of its representation added is represented by `m`. -/
theorem Represents.add_complement (h : Represents m r n) (hm : 0 < m) :
    Represents m m (n + (m - r)) := by
  have hle := h.le
  have hzero := h.zero
  refine ⟨Nat.le_refl m, ?_, by omega⟩
  have hsum : r + (m - r) ≡ n + (m - r) [MOD m] := h.mod.add_right (m - r)
  rw [Nat.add_sub_cancel' hle] at hsum
  exact hsum

end IcsGateway.Lib
