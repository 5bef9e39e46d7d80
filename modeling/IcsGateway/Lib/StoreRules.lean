import IcsGateway.Lib.KeyStore

/-!
# Programs that write allowed values

Threads that share a store can rely on each other where each writes only what all allow: a
predicate says which values may stand under a key and which may be in its list. A program that,
given allowed values, writes only allowed ones keeps the store allowed with every operation, so
whatever the others do in between it goes on with allowed values.
-/

namespace IcsGateway.Lib

variable {κ ν : Type}

namespace Store

variable [DecidableEq κ]

/-- Take an element out of the list of a key. -/
def erase (s : Store κ ν) (k : κ) (i : Nat) : Store κ ν :=
  { s with lists := fun k' ↦ if k' = k then (s.lists k').eraseIdx i else s.lists k' }

/-- The other lists stay when one is pushed to. -/
theorem lists_push_of_ne (s : Store κ ν) {k k' : κ} (v : ν) (h : k' ≠ k) :
    (s.push k v).lists k' = s.lists k' :=
  if_neg h

/-- All values and all elements of lists are allowed. -/
structure Holds (val elem : κ → ν → Prop) (s : Store κ ν) : Prop where
  vals : ∀ k, val k (s.vals k)
  lists : ∀ k, ∀ v ∈ s.lists k, elem k v

variable {val elem : κ → ν → Prop} {s : Store κ ν}

/-- An allowed value is set. -/
theorem Holds.set (h : s.Holds val elem) {k : κ} {v : ν} (hv : val k v) :
    (s.set k v).Holds val elem := by
  refine ⟨?_, h.lists⟩
  intro k'
  by_cases hk : k' = k
  · subst hk
    rw [vals_set_self]
    exact hv
  · rw [vals_set_of_ne s v hk]
    exact h.vals k'

/-- An allowed element is pushed. -/
theorem Holds.push (h : s.Holds val elem) {k : κ} {v : ν} (hv : elem k v) :
    (s.push k v).Holds val elem := by
  refine ⟨h.vals, ?_⟩
  intro k' v' hv'
  by_cases hk : k' = k
  · subst hk
    rw [lists_push_self] at hv'
    rcases List.mem_cons.mp hv' with rfl | hv'
    · exact hv
    · exact h.lists k' v' hv'
  · rw [lists_push_of_ne s v hk] at hv'
    exact h.lists k' v' hv'

/-- An element is taken out. -/
theorem Holds.erase (h : s.Holds val elem) (k : κ) (i : Nat) : (s.erase k i).Holds val elem := by
  refine ⟨h.vals, ?_⟩
  intro k' v hv
  apply h.lists k' v
  rw [Store.erase] at hv
  by_cases hk : k' = k
  · simp only [if_pos hk] at hv
    exact List.mem_of_mem_eraseIdx hv
  · simp only [if_neg hk] at hv
    exact hv

end Store

namespace Prog

variable {ε α β : Type}

/-- Given allowed values, a program writes only allowed values and elements, and returns a
result that meets a condition if it returns one. -/
def Writes (val elem : κ → ν → Prop) (post : α → Prop) : Prog κ ν ε α → Prop
  | .done (.ok a) => post a
  | .done (.error _) => True
  | .get k next => ∀ v, val k v → (next v).Writes val elem post
  | .set k v next => val k v ∧ next.Writes val elem post
  | .push k v next => elem k v ∧ next.Writes val elem post

variable {val elem : κ → ν → Prop} {post : α → Prop}

/-- One program after another. -/
theorem Writes.bind {post' : β → Prop} {p : Prog κ ν ε α} {f : α → Prog κ ν ε β}
    (hp : p.Writes val elem post) (hf : ∀ a, post a → (f a).Writes val elem post') :
    (p >>= f).Writes val elem post' := by
  change (p.bind f).Writes val elem post'
  induction p with
  | done r =>
    cases r with
    | ok a => exact hf a hp
    | error e => trivial
  | get k next ih => exact fun v hv ↦ ih v (hp v hv)
  | set k v next ih => exact ⟨hp.1, ih hp.2⟩
  | push k v next ih => exact ⟨hp.1, ih hp.2⟩

variable [DecidableEq κ]

/-- An operation of such a program keeps the store allowed, and what is left of the program is
such a program. -/
theorem Writes.step {p : Prog κ ν ε α} {s : Store κ ν} (hp : p.Writes val elem post)
    (hs : s.Holds val elem) :
    (p.step s).1.Writes val elem post ∧ (p.step s).2.Holds val elem := by
  cases p with
  | done r => exact ⟨hp, hs⟩
  | get k next => exact ⟨hp _ (hs.vals k), hs⟩
  | set k v next => exact ⟨hp.2, hs.set hp.1⟩
  | push k v next => exact ⟨hp.2, hs.push hp.1⟩

/-- So do all of them. -/
theorem Writes.exec {p : Prog κ ν ε α} {s : Store κ ν} (hp : p.Writes val elem post)
    (hs : s.Holds val elem) : (p.exec s).2.Holds val elem := by
  induction p generalizing s with
  | done r => exact hs
  | get k next ih => exact ih _ (hp _ (hs.vals k)) hs
  | set k v next ih => exact ih hp.2 (hs.set hp.1)
  | push k v next ih => exact ih hp.2 (hs.push hp.1)

end Prog
end IcsGateway.Lib
