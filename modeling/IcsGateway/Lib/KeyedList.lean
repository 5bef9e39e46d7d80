import Mathlib.Data.List.Nodup

/-!
# Lists with a key for each element

A list that stands for a map from keys to elements, in the order of insertion: an element is
added at the end unless its key is taken, and the first element of a key is removed. The map is
well defined while no key is repeated.
-/

namespace IcsGateway.Lib.KeyedList

variable {α κ : Type} [DecidableEq κ] (key : α → κ)

/-- Append an element whose key is new. -/
def record (xs : List α) (x : α) : List α := if key x ∈ xs.map key then xs else xs ++ [x]

/-- Remove the first element of a key. -/
def erase (k : κ) : List α → List α
  | [] => []
  | x :: xs => if k = key x then xs else x :: erase k xs

/-- The element of a key. -/
def find (k : κ) (xs : List α) : Option α := xs.find? fun x ↦ key x = k

variable {key}

/-- No key is repeated after an element is added. -/
theorem nodup_record {xs : List α} {x : α} (h : (xs.map key).Nodup) :
    ((record key xs x).map key).Nodup := by
  unfold record
  split
  · exact h
  · next hx =>
    rw [List.map_append, List.map_singleton]
    rw [← List.concat_eq_append]
    exact h.concat hx

/-- The elements after one is added. -/
theorem forall_mem_record {p : α → Prop} {xs : List α} {x : α} (h : ∀ y ∈ xs, p y) (hx : p x) :
    ∀ y ∈ record key xs x, p y := by
  intro y hy
  unfold record at hy
  split at hy
  · exact h y hy
  · rcases List.mem_append.mp hy with hy | hy
    · exact h y hy
    · rw [List.mem_singleton.mp hy]
      exact hx

/-- What is left after a removal stood in the list, in the same order. -/
theorem erase_sublist (k : κ) (xs : List α) : (erase key k xs).Sublist xs := by
  induction xs with
  | nil => exact .slnil
  | cons x xs ih =>
    rw [erase]
    split
    · exact List.sublist_cons_self x xs
    · exact ih.cons_cons x

/-- A key that no element has removes nothing. -/
theorem erase_of_not_mem {k : κ} {xs : List α} (h : k ∉ xs.map key) : erase key k xs = xs := by
  induction xs with
  | nil => rfl
  | cons x xs ih =>
    rw [List.map_cons, List.mem_cons, not_or] at h
    rw [erase, if_neg h.1, ih h.2]

/-- An element of a list without repeated keys is the one of its key. -/
theorem find_of_mem {xs : List α} (h : (xs.map key).Nodup) {x : α} (hx : x ∈ xs) :
    find key (key x) xs = some x := by
  induction xs with
  | nil => cases hx
  | cons y xs ih =>
    rw [List.map_cons, List.nodup_cons] at h
    rw [find, List.find?_cons]
    rcases List.mem_cons.mp hx with rfl | hx
    · rw [decide_eq_true rfl]
    · have hne : key y ≠ key x := fun he ↦ h.1 (he ▸ List.mem_map_of_mem hx)
      rw [decide_eq_false hne]
      exact ih h.2 hx

/-- A key that no element has finds none. -/
theorem find_of_not_mem {k : κ} {xs : List α} (h : k ∉ xs.map key) : find key k xs = none := by
  rw [find, List.find?_eq_none]
  intro x hx
  rw [decide_eq_true_eq]
  rintro rfl
  exact h (List.mem_map_of_mem hx)

end IcsGateway.Lib.KeyedList
