import IcsGateway.Lib.Transition

/-!
# Processes that end and start again

A process serves a request, or starts, by a sequence of effects, and can end after any of
them; what it held in memory is gone then. `Refines` says, for one request and one start at a
time, what the process keeps of a specification that has no effects and no memory; `Refines.run`
carries it over every run.
-/

namespace IcsGateway.Lib

/-- A process over states `σ`: its effects `ε` for requests `ρ`, and its start from a memory
`β`. -/
structure CrashMachine (σ ρ β ω ε : Type) where
  perform : σ → ε → σ
  /-- The effects of a request, in the state it finds. -/
  serve : σ → ρ → List ε
  /-- A new process: what the old one held in memory is replaced. -/
  fresh : σ → β → σ
  /-- The effects of a start; none is a start that fails. -/
  start : σ → β → Option (List ε)
  /-- What the surroundings change. -/
  outside : σ → ω → σ

/-- What can happen to a process: a request, served or cut off after some effects, a start,
complete or cut off, and a change outside. -/
inductive CrashEvent (ρ β ω : Type) where
  | request (r : ρ)
  | endsIn (r : ρ) (k : Nat)
  | start (b : β)
  | endsInStart (b : β) (k : Nat)
  | outside (w : ω)

namespace CrashMachine

variable {σ ρ β ω ε τ : Type}

/-- One event; the truth value says whether the process is there. -/
def step (M : CrashMachine σ ρ β ω ε) (s : Bool × σ) : CrashEvent ρ β ω → Bool × σ
  | .request r => if s.1 then (true, run M.perform s.2 (M.serve s.2 r)) else s
  | .endsIn r k => if s.1 then (false, run M.perform s.2 ((M.serve s.2 r).take k)) else s
  | .start b =>
    if s.1 then s
    else match M.start (M.fresh s.2 b) b with
      | some es => (true, run M.perform (M.fresh s.2 b) es)
      | none => (false, M.fresh s.2 b)
  | .endsInStart b k =>
    if s.1 then s
    else (false, run M.perform (M.fresh s.2 b) (((M.start (M.fresh s.2 b) b).getD []).take k))
  | .outside w => (s.1, M.outside s.2 w)

end CrashMachine

/-- What a request leaves in a specification: served, and cut off after some effects. -/
structure CrashSpec (τ ρ : Type) where
  served : τ → ρ → τ
  cut : τ → ρ → Nat → τ

/-- One event of the specification: starts and changes outside leave it alone. -/
def CrashSpec.step {τ ρ β ω : Type} (S : CrashSpec τ ρ) (t : Bool × τ) :
    CrashEvent ρ β ω → Bool × τ
  | .request r => if t.1 then (true, S.served t.2 r) else t
  | .endsIn r k => if t.1 then (false, S.cut t.2 r k) else t
  | .start _ => (true, t.2)
  | .endsInStart _ _ => t
  | .outside _ => t

namespace CrashMachine

variable {σ ρ β ω ε τ : Type}

/-- The process keeps the specification: `Up` while it is there, `Down` while it is not. -/
structure Refines (M : CrashMachine σ ρ β ω ε) (S : CrashSpec τ ρ) (Up Down : τ → σ → Prop) :
    Prop where
  served : ∀ t s r, Up t s → Up (S.served t r) (run M.perform s (M.serve s r))
  cut : ∀ t s r k, Up t s → Down (S.cut t r k) (run M.perform s ((M.serve s r).take k))
  fresh : ∀ t s b, Down t s → Down t (M.fresh s b)
  started : ∀ t s b, Down t s → ∃ es, M.start (M.fresh s b) b = some es ∧
    Up t (run M.perform (M.fresh s b) es) ∧ ∀ k, Down t (run M.perform (M.fresh s b) (es.take k))
  outside_up : ∀ t s w, Up t s → Up t (M.outside s w)
  outside_down : ∀ t s w, Down t s → Down t (M.outside s w)

/-- What holds of the specification and the process at every moment. -/
def Agrees (Up Down : τ → σ → Prop) (t : Bool × τ) (s : Bool × σ) : Prop :=
  t.1 = s.1 ∧ if s.1 then Up t.2 s.2 else Down t.2 s.2

variable {M : CrashMachine σ ρ β ω ε} {S : CrashSpec τ ρ} {Up Down : τ → σ → Prop}

/-- One event keeps the agreement. -/
theorem Refines.step (h : M.Refines S Up Down) {t : Bool × τ} {s : Bool × σ}
    (ha : Agrees Up Down t s) (e : CrashEvent ρ β ω) :
    Agrees Up Down (S.step t e) (M.step s e) := by
  obtain ⟨there, t⟩ := t
  obtain ⟨up, s⟩ := s
  obtain ⟨rfl, hs⟩ := ha
  cases there with
  | true =>
    cases e with
    | request r => exact ⟨rfl, h.served t s r hs⟩
    | endsIn r k => exact ⟨rfl, h.cut t s r k hs⟩
    | start b => exact ⟨rfl, hs⟩
    | endsInStart b k => exact ⟨rfl, hs⟩
    | outside w => exact ⟨rfl, h.outside_up t s w hs⟩
  | false =>
    cases e with
    | request r => exact ⟨rfl, hs⟩
    | endsIn r k => exact ⟨rfl, hs⟩
    | start b =>
      obtain ⟨es, hes, hup, -⟩ := h.started t s b hs
      simp only [CrashMachine.step, CrashSpec.step, Bool.false_eq_true, if_false, hes]
      exact ⟨rfl, hup⟩
    | endsInStart b k =>
      obtain ⟨es, hes, -, hdown⟩ := h.started t s b hs
      simp only [CrashMachine.step, CrashSpec.step, Bool.false_eq_true, if_false, hes,
        Option.getD_some]
      exact ⟨rfl, hdown k⟩
    | outside w => exact ⟨rfl, h.outside_down t s w hs⟩

/-- Every run keeps the agreement. -/
theorem Refines.run (h : M.Refines S Up Down) (es : List (CrashEvent ρ β ω)) {t : Bool × τ}
    {s : Bool × σ} (ha : Agrees Up Down t s) :
    Agrees Up Down (Lib.run S.step t es) (Lib.run M.step s es) := by
  have hstep : ∀ t s e, Agrees Up Down t s → Agrees Up Down (S.step t e) (M.step s e) := by
    intro t s e ha
    exact h.step ha e
  exact run_related hstep es ha

end CrashMachine

end IcsGateway.Lib
