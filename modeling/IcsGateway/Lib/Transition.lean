import Mathlib.Data.List.Induction

/-!
# Runs of a step function

A system that takes one event after another, and the induction principles its proofs use: an
invariant of every step is an invariant of every run, and an invariant of the steps that meet a
condition is one of the runs whose steps all meet it. The same of a relation between two systems
that take the same events.
-/

namespace IcsGateway.Lib

variable {σ τ ε : Type}

/-- The state after a sequence of events. -/
def run (step : σ → ε → σ) (s : σ) : List ε → σ
  | [] => s
  | e :: es => run step (step s e) es

/-- Every event of the sequence meets a condition in the state it finds. -/
def Guarded (step : σ → ε → σ) (guard : σ → ε → Prop) (s : σ) : List ε → Prop
  | [] => True
  | e :: es => guard s e ∧ Guarded step guard (step s e) es

/-- Running two sequences one after the other. -/
theorem run_append (step : σ → ε → σ) (s : σ) (es es' : List ε) :
    run step s (es ++ es') = run step (run step s es) es' := by
  induction es generalizing s with
  | nil => rfl
  | cons e es ih => exact ih (step s e)

/-- The condition on a sequence made of two. -/
theorem guarded_append {step : σ → ε → σ} {guard : σ → ε → Prop} (s : σ) (es es' : List ε) :
    Guarded step guard s (es ++ es') ↔
      Guarded step guard s es ∧ Guarded step guard (run step s es) es' := by
  induction es generalizing s with
  | nil => exact (iff_of_eq (true_and _)).symm
  | cons e es ih =>
    rw [List.cons_append, Guarded, Guarded, run, ih, and_assoc]

/-- A condition all events meet by themselves. -/
theorem guarded_of_forall {step : σ → ε → σ} {p : ε → Prop} {s : σ} {es : List ε}
    (hp : ∀ e ∈ es, p e) : Guarded step (fun _ e ↦ p e) s es := by
  induction es generalizing s with
  | nil => trivial
  | cons e es ih =>
    exact ⟨hp e (List.mem_cons_self ..), ih fun e' he' ↦ hp e' (List.mem_cons_of_mem _ he')⟩

/-- A condition the events meet by themselves can be added to the guard. -/
theorem Guarded.and {step : σ → ε → σ} {guard : σ → ε → Prop} {p : ε → Prop} {s : σ}
    {es : List ε} (hg : Guarded step guard s es) (hp : ∀ e ∈ es, p e) :
    Guarded step (fun s e ↦ guard s e ∧ p e) s es := by
  induction es generalizing s with
  | nil => trivial
  | cons e es ih =>
    exact ⟨⟨hg.1, hp e (List.mem_cons_self ..)⟩,
      ih hg.2 fun e' he' ↦ hp e' (List.mem_cons_of_mem _ he')⟩

/-- What every guarded step preserves, every guarded run preserves. -/
theorem run_invariant_of_guarded {step : σ → ε → σ} {guard : σ → ε → Prop} {inv : σ → Prop}
    (hstep : ∀ s e, guard s e → inv s → inv (step s e)) {s : σ} (es : List ε)
    (hg : Guarded step guard s es) (h : inv s) : inv (run step s es) := by
  induction es generalizing s with
  | nil => exact h
  | cons e es ih => exact ih hg.2 (hstep s e hg.1 h)

/-- What every step preserves, every run preserves. -/
theorem run_invariant {step : σ → ε → σ} {inv : σ → Prop}
    (hstep : ∀ s e, inv s → inv (step s e)) {s : σ} (es : List ε) (h : inv s) :
    inv (run step s es) := by
  induction es generalizing s with
  | nil => exact h
  | cons e es ih => exact ih (hstep s e h)

/-- What every step of a run preserves, from where the run has come to, the run preserves. -/
theorem run_invariant_of_prefix {step : σ → ε → σ} {s : σ} {inv : σ → Prop} (es : List ε)
    (hstep : ∀ before e, before ++ [e] <+: es → inv (run step s before) →
      inv (step (run step s before) e)) (h : inv s) : inv (run step s es) := by
  induction es using List.reverseRecOn with
  | nil => exact h
  | append_singleton es e ih =>
    rw [run_append]
    apply hstep es e (List.prefix_refl _)
    exact ih fun before e' hbefore ↦ hstep before e' (hbefore.trans (List.prefix_append es [e]))

/-- What every guarded step keeps between two systems, every guarded run keeps between them. -/
theorem run_related_of_guarded {step : σ → ε → σ} {step' : τ → ε → τ} {guard : σ → ε → Prop}
    {rel : σ → τ → Prop}
    (hstep : ∀ s t e, guard s e → rel s t → rel (step s e) (step' t e)) {s : σ} {t : τ}
    (es : List ε) (hg : Guarded step guard s es) (h : rel s t) :
    rel (run step s es) (run step' t es) := by
  induction es generalizing s t with
  | nil => exact h
  | cons e es ih => exact ih hg.2 (hstep s t e hg.1 h)

/-- What every step keeps between two systems, every run keeps between them. -/
theorem run_related {step : σ → ε → σ} {step' : τ → ε → τ} {rel : σ → τ → Prop}
    (hstep : ∀ s t e, rel s t → rel (step s e) (step' t e)) {s : σ} {t : τ} (es : List ε)
    (h : rel s t) : rel (run step s es) (run step' t es) := by
  have hg : Guarded step (fun _ _ ↦ True) s es :=
    guarded_of_forall (p := fun _ ↦ True) fun _ _ ↦ trivial
  exact run_related_of_guarded (fun s t e _ ↦ hstep s t e) es hg h

end IcsGateway.Lib
