import Mathlib.Logic.Function.Basic

/-!
# Files by name

A file system as what each path holds, with the operations that write one path or rename one
path to another. Paths and contents are arbitrary.
-/

namespace IcsGateway.Lib

/-- What each path holds, if there is a file. -/
abbrev Files (P C : Type) := P → Option C

namespace Files

variable {P C : Type} [DecidableEq P]

/-- Create or truncate a file and write it. -/
def write (fs : Files P C) (p : P) (c : C) : Files P C := Function.update fs p (some c)

/-- Append to a file, which is created if there is none. -/
def append (fs : Files P (List C)) (p : P) (c : List C) : Files P (List C) :=
  fs.write p ((fs p).getD [] ++ c)

/-- Rename a file over whatever the new name holds; nothing happens without a file. -/
def rename (fs : Files P C) (src dst : P) : Files P C :=
  match fs src with
  | none => fs
  | some c => write (Function.update fs src none) dst c

/-- The file just written. -/
@[simp] theorem write_self (fs : Files P C) (p : P) (c : C) : fs.write p c p = some c :=
  Function.update_self ..

/-- The other files stay. -/
theorem write_of_ne (fs : Files P C) {p q : P} (c : C) (h : q ≠ p) : fs.write p c q = fs q :=
  Function.update_of_ne h ..

/-- A file that is appended to exists. -/
@[simp] theorem append_self (fs : Files P (List C)) (p : P) (c : List C) :
    fs.append p c p = some ((fs p).getD [] ++ c) :=
  write_self ..

/-- The other files stay. -/
theorem append_of_ne (fs : Files P (List C)) {p q : P} (c : List C) (h : q ≠ p) :
    fs.append p c q = fs q :=
  write_of_ne fs _ h

/-- Appending twice. -/
theorem append_append (fs : Files P (List C)) (p : P) (c c' : List C) :
    (fs.append p c).append p c' = fs.append p (c ++ c') := by
  rw [append, append_self, Option.getD_some, append, append, write, write, write,
    Function.update_idem, List.append_assoc]

/-- The new name holds what the old one held. -/
theorem rename_dst (fs : Files P C) {src : P} (dst : P) (h : (fs src).isSome) :
    fs.rename src dst dst = fs src := by
  obtain ⟨c, hc⟩ := Option.isSome_iff_exists.mp h
  simp only [rename, hc, write_self]

/-- The other files stay. -/
theorem rename_of_ne (fs : Files P C) {src dst q : P} (hsrc : q ≠ src) (hdst : q ≠ dst) :
    fs.rename src dst q = fs q := by
  cases hc : fs src with
  | none => simp only [rename, hc]
  | some c =>
    simp only [rename, hc]
    rw [write_of_ne _ _ hdst]
    exact Function.update_of_ne hsrc ..

/-- The old name holds nothing. -/
theorem rename_src (fs : Files P C) {src dst : P} (h : src ≠ dst) :
    fs.rename src dst src = none := by
  cases hc : fs src with
  | none => simp only [rename, hc]
  | some c =>
    simp only [rename, hc]
    rw [write_of_ne _ _ h]
    exact Function.update_self ..

/-! ### Numbered files -/

section Numbered

variable (names : Nat → P)

/-- The first of `n` numbered files from `i` that is missing, `i + n` if none is. -/
def firstFree (fs : Files P C) (i : Nat) : Nat → Nat
  | 0 => i
  | n + 1 => if (fs (names i)).isSome then firstFree fs (i + 1) n else i

/-- Rename each of the files `1, .., n` to the number before its own, in order. -/
def shiftDown (fs : Files P C) (n : Nat) : Files P C :=
  (List.range' 1 n).foldl (fun fs i ↦ fs.rename (names i) (names (i - 1))) fs

omit [DecidableEq P] in
/-- Of files numbered without a gap the first free number is their count. -/
theorem firstFree_eq {fs : Files P C} {k : Nat}
    (h : ∀ i, (fs (names i)).isSome ↔ i < k) (i n : Nat) (hi : i ≤ k) :
    firstFree names fs i n = min k (i + n) := by
  induction n generalizing i with
  | zero =>
    rw [firstFree]
    omega
  | succ n ih =>
    rw [firstFree]
    split
    · next hsome =>
      have hlt : i < k := (h i).mp hsome
      rw [ih (i + 1) hlt]
      omega
    · next hnone =>
      have hle : ¬ i < k := fun hlt ↦ hnone ((h i).mpr hlt)
      omega

variable {names}

private theorem shiftDown_succ (fs : Files P C) (n : Nat) :
    shiftDown names fs (n + 1) =
      (shiftDown names fs n).rename (names (n + 1)) (names n) := by
  rw [shiftDown, List.range'_1_concat, List.foldl_append]
  simp only [List.foldl_cons, List.foldl_nil, Nat.add_comm 1 n, Nat.add_sub_cancel]
  rfl

/-- The files that are not renamed stay. -/
theorem shiftDown_of_ne (fs : Files P C) (n : Nat) {p : P} (h : ∀ i ≤ n, p ≠ names i) :
    shiftDown names fs n p = fs p := by
  induction n with
  | zero => rfl
  | succ n ih =>
    rw [shiftDown_succ, rename_of_ne _ (h (n + 1) (Nat.le_refl _)) (h n (Nat.le_succ n))]
    exact ih fun i hi ↦ h i (Nat.le_succ_of_le hi)

/-- Each number below `n` holds what the next one held: no file overwrites one that is still to be
renamed. -/
theorem shiftDown_lt (hinj : Function.Injective names) (fs : Files P C) (n : Nat)
    (hall : ∀ i, 1 ≤ i → i ≤ n → (fs (names i)).isSome) {i : Nat} (hi : i < n) :
    shiftDown names fs n (names i) = fs (names (i + 1)) := by
  induction n with
  | zero => exact absurd hi (Nat.not_lt_zero i)
  | succ n ih =>
    rw [shiftDown_succ]
    by_cases hin : i = n
    · subst hin
      have hstay : shiftDown names fs i (names (i + 1)) = fs (names (i + 1)) := by
        apply shiftDown_of_ne
        intro j hj heq
        have := hinj heq
        omega
      rw [rename_dst, hstay]
      rw [hstay]
      exact hall (i + 1) (Nat.le_add_left ..) (Nat.le_refl _)
    · have hlt : i < n := by omega
      have hsrc : names i ≠ names (n + 1) := fun heq ↦ by
        have := hinj heq
        omega
      have hdst : names i ≠ names n := fun heq ↦ hin (hinj heq)
      rw [rename_of_ne _ hsrc hdst]
      exact ih (fun j h1 hj ↦ hall j h1 (Nat.le_succ_of_le hj)) hlt

end Numbered

end Files

end IcsGateway.Lib
