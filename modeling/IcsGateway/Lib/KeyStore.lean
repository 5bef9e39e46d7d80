/-!
# Programs over a key-value store

A thread that works on a shared store does one atomic operation at a time, and other threads
may work on the store in between. `Prog` is such a thread's program, as the tree of its
operations: `step` does the next one, `exec` does all of them without interruption.
-/

namespace IcsGateway.Lib

/-- Values and lists by key. -/
structure Store (κ ν : Type) where
  vals : κ → ν
  lists : κ → List ν

namespace Store

variable {κ ν : Type} [DecidableEq κ]

/-- Replace the value of a key. -/
def set (s : Store κ ν) (k : κ) (v : ν) : Store κ ν :=
  { s with vals := fun k' ↦ if k' = k then v else s.vals k' }

/-- Put a value in front of the list of a key. -/
def push (s : Store κ ν) (k : κ) (v : ν) : Store κ ν :=
  { s with lists := fun k' ↦ if k' = k then v :: s.lists k' else s.lists k' }

/-- The value just set. -/
@[simp] theorem vals_set_self (s : Store κ ν) (k : κ) (v : ν) : (s.set k v).vals k = v :=
  if_pos rfl

/-- The values of the other keys stay. -/
theorem vals_set_of_ne (s : Store κ ν) {k k' : κ} (v : ν) (h : k' ≠ k) :
    (s.set k v).vals k' = s.vals k' :=
  if_neg h

/-- Setting a value touches no list. -/
@[simp] theorem lists_set (s : Store κ ν) (k : κ) (v : ν) : (s.set k v).lists = s.lists := rfl

/-- The list just pushed to. -/
@[simp] theorem lists_push_self (s : Store κ ν) (k : κ) (v : ν) :
    (s.push k v).lists k = v :: s.lists k :=
  if_pos rfl

/-- Pushing touches no value. -/
@[simp] theorem vals_push (s : Store κ ν) (k : κ) (v : ν) : (s.push k v).vals = s.vals := rfl

end Store

/-- A program over a store: a result, or an operation and what follows it. -/
inductive Prog (κ ν ε α : Type) where
  | done (r : Except ε α)
  | get (k : κ) (next : ν → Prog κ ν ε α)
  | set (k : κ) (v : ν) (next : Prog κ ν ε α)
  | push (k : κ) (v : ν) (next : Prog κ ν ε α)

namespace Prog

variable {κ ν ε α β : Type}

/-- The result of a computation that does not touch the store. -/
def ofExcept (r : Except ε α) : Prog κ ν ε α := .done r

/-- One program after another; a stop stops both. -/
def bind (p : Prog κ ν ε α) (f : α → Prog κ ν ε β) : Prog κ ν ε β :=
  match p with
  | .done (.ok a) => f a
  | .done (.error e) => .done (.error e)
  | .get k next => .get k fun v ↦ (next v).bind f
  | .set k v next => .set k v (next.bind f)
  | .push k v next => .push k v (next.bind f)

instance : Monad (Prog κ ν ε) where
  pure a := .done (.ok a)
  bind := bind

variable [DecidableEq κ]

/-- The next operation. -/
def step (p : Prog κ ν ε α) (s : Store κ ν) : Prog κ ν ε α × Store κ ν :=
  match p with
  | .done r => (.done r, s)
  | .get k next => (next (s.vals k), s)
  | .set k v next => (next, s.set k v)
  | .push k v next => (next, s.push k v)

/-- All operations, uninterrupted. -/
def exec (p : Prog κ ν ε α) (s : Store κ ν) : Except ε α × Store κ ν :=
  match p with
  | .done r => (r, s)
  | .get k next => (next (s.vals k)).exec s
  | .set k v next => next.exec (s.set k v)
  | .push k v next => next.exec (s.push k v)

/-- A step is the beginning of the execution. -/
theorem exec_step (p : Prog κ ν ε α) (s : Store κ ν) :
    (p.step s).1.exec (p.step s).2 = p.exec s := by
  cases p <;> rfl

/-- Executing one program after another. -/
theorem exec_bind (p : Prog κ ν ε α) (f : α → Prog κ ν ε β) (s : Store κ ν) :
    (p >>= f).exec s =
      match p.exec s with
      | (.ok a, s') => (f a).exec s'
      | (.error e, s') => (.error e, s') := by
  change (p.bind f).exec s = _
  induction p generalizing s with
  | done r => cases r <;> rfl
  | get k next ih => exact ih (s.vals k) s
  | set k v next ih => exact ih (s.set k v)
  | push k v next ih => exact ih (s.push k v)

end Prog
end IcsGateway.Lib
