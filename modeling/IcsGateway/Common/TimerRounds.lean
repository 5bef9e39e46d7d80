import IcsGateway.Lib.Transition
import IcsGateway.Common.Timer

/-!
# The sleeps of timers

A round sleeps for what is left of its interval since the second the static variable holds. That
is the second in which the round began, unless another round has begun since then.
-/

namespace IcsGateway.ComTimer

open Lib

/-- The round sleeps for what is left of its interval, and not at all once that is over. -/
def Round.Right (r : Round) : Prop :=
  r.sleep.map UInt32.toNat = timeLeft r.interval ((r.ended - r.began) * 1000000)

namespace Process

/-- The round whose sleep is computed in an event. -/
def computes (s : Process) : Event → Option Round
  | .step i =>
    match s.runners i with
    | some r =>
      if r.pc = .calling then
        some ⟨(s.timers r.owner).interval, r.began, s.clock,
          sleepTime (s.timers r.owner).interval s.clock s.t1⟩
      else none
    | none => none
  | _ => none

/-- A computed sleep is recorded, and nothing else is. -/
theorem rounds_step (s : Process) (e : Event) :
    (s.step e).rounds = s.rounds ++ (s.computes e).toList := by
  cases e with
  | tick secs => exact (List.append_nil _).symm
  | start timer interval =>
    rw [step, start]
    split <;> exact (List.append_nil _).symm
  | create timer created =>
    simp only [step, create]
    split
    · exact (List.append_nil _).symm
    · split <;> exact (List.append_nil _).symm
  | stop timer => exact (List.append_nil _).symm
  | step i =>
    rw [step, computes]
    cases s.runners i with
    | none => exact (List.append_nil _).symm
    | some r =>
      simp only [goOn]
      cases r.pc with
      | top => exact (List.append_nil _).symm
      | calling => rfl
      | asleep =>
        simp only
        split <;> exact (List.append_nil _).symm
      | done => exact (List.append_nil _).symm

/-- Rounds last less than 4294 seconds. -/
def Short (s : Process) (e : Event) : Prop :=
  ∀ r ∈ s.computes e, r.ended - r.began < 4294

/-- The static variable holds the second in which the round began, or one since which the interval
is over anyway. -/
def OwnStart (s : Process) (e : Event) : Prop :=
  ∀ r ∈ s.computes e, s.t1 = r.began ∨ r.interval.toNat < (s.clock - s.t1) * 1000000

/-- The static variable holds a second that has come, and none before a round that is running. -/
structure Recorded (s : Process) : Prop where
  t1_le : s.t1 ≤ s.clock
  began_le : ∀ i r, s.runners i = some r → r.pc = .calling → r.began ≤ s.t1

/-- Every event keeps this. -/
theorem recorded_step (s : Process) (e : Event) (h : s.Recorded) : (s.step e).Recorded := by
  cases e with
  | tick secs => exact ⟨Nat.le_trans h.t1_le (Nat.le_add_right _ _), h.began_le⟩
  | start timer interval =>
    rw [step, start]
    split <;> exact ⟨h.t1_le, h.began_le⟩
  | create timer created =>
    rw [step, create]
    simp only
    split
    · exact h
    · split
      · refine ⟨h.t1_le, ?_⟩
        intro i r hr hpc
        by_cases hi : i = s.created
        · have hnew : r = ⟨timer, .top, s.clock⟩ :=
            (Option.some.inj ((if_pos hi).symm.trans hr)).symm
          rw [hnew] at hpc
          cases hpc
        · exact h.began_le i r ((if_neg hi).symm.trans hr) hpc
      · exact ⟨h.t1_le, h.began_le⟩
  | stop timer => exact ⟨h.t1_le, h.began_le⟩
  | step i =>
    rw [step]
    cases hr : s.runners i with
    | none => exact h
    | some r =>
      -- a thread set to another place than the callbacks is no new case
      have hset : ∀ r' : Runner, r'.pc ≠ .calling → ∀ j q,
          (if j = i then some r' else s.runners j) = some q → q.pc = .calling →
            q.began ≤ s.t1 := by
        intro r' hpc' j q hq hpc
        by_cases hj : j = i
        · rw [if_pos hj] at hq
          cases hq
          exact absurd hpc hpc'
        · rw [if_neg hj] at hq
          exact h.began_le j q hq hpc
      simp only [goOn]
      cases hpc : r.pc with
      | top =>
        refine ⟨Nat.le_refl _, ?_⟩
        intro j q hq hqpc
        by_cases hj : j = i
        · have hq' : q = ⟨r.owner, .calling, s.clock⟩ :=
            (Option.some.inj ((if_pos hj).symm.trans hq)).symm
          subst hq'
          exact Nat.le_refl _
        · exact Nat.le_trans (h.began_le j q ((if_neg hj).symm.trans hq) hqpc) h.t1_le
      | calling => exact ⟨h.t1_le, hset { r with pc := .asleep } (by simp)⟩
      | asleep =>
        simp only
        split
        · exact ⟨h.t1_le, hset { r with pc := .top } (by simp)⟩
        · exact ⟨h.t1_le, hset { r with pc := .done } (by simp)⟩
      | done => exact h

/-- A computed sleep is right exactly if the static variable is. -/
theorem right_iff_ownStart {s : Process} (h : s.Recorded) {e : Event} (hshort : s.Short e) :
    (∀ r ∈ s.computes e, r.Right) ↔ s.OwnStart e := by
  have hone : ∀ r ∈ s.computes e,
      (r.Right ↔ s.t1 = r.began ∨ r.interval.toNat < (s.clock - s.t1) * 1000000) := by
    intro r hr
    have hlt := hshort r hr
    cases e with
    | step i =>
      simp only [computes] at hr
      cases hq : s.runners i with
      | none =>
        rw [hq] at hr
        cases hr
      | some q =>
        rw [hq] at hr
        simp only at hr
        split at hr
        · next hpc =>
          cases hr
          have hbegan := h.began_le i q hq hpc
          have ht1 := h.t1_le
          rw [Round.Right]
          simp only at hlt ⊢
          rw [sleepTime_eq_timeLeft _ (by omega), timeLeft_eq_iff _ (by omega)]
          omega
        · cases hr
    | _ => cases hr
  constructor
  · intro hright r hr
    exact (hone r hr).mp (hright r hr)
  · intro hown r hr
    exact (hone r hr).mpr (hown r hr)

/-- So are those of a run. -/
private theorem rounds_right_iff (es : List Event) {s : Process} (hs : s.Recorded)
    (hshort : Guarded step Short s es) :
    (∀ r ∈ (run step s es).rounds, r.Right) ↔
      (∀ r ∈ s.rounds, r.Right) ∧ Guarded step OwnStart s es := by
  induction es generalizing s with
  | nil => simp only [run, Guarded, and_true]
  | cons e es ih =>
    have hsplit : (∀ r ∈ (s.step e).rounds, r.Right) ↔
        (∀ r ∈ s.rounds, r.Right) ∧ s.OwnStart e := by
      rw [rounds_step, List.forall_mem_append, ← right_iff_ownStart hs hshort.1]
      simp only [Option.mem_toList, Option.mem_def]
    rw [run, ih (recorded_step s e hs) hshort.2, hsplit, Guarded, and_assoc]

/-- In a run of rounds below 4294 seconds, every round sleeps for what is left of its interval
since it began exactly if, whenever a sleep is computed, the static variable still holds the
second in which that round began, or the interval is over even since the second it holds. -/
theorem run_sleeps_right_iff (clock : Nat) (es : List Event)
    (hshort : Guarded step Short (initial clock) es) :
    (∀ r ∈ (run step (initial clock) es).rounds, r.Right) ↔
      Guarded step OwnStart (initial clock) es := by
  have hinitial : (initial clock).Recorded := by
    refine ⟨Nat.le_refl _, ?_⟩
    intro i r hr
    cases hr
  rw [rounds_right_iff es hinitial hshort]
  simp [initial]

/-- A timer of five seconds runs its callbacks for two. -/
def oneTimer : List Event :=
  [.start 0 5000000, .create 0 true, .step 0, .tick 2, .step 0]

/-- Its one round sleeps for the three that are left. -/
theorem run_sleeps_right_iff_oneTimer :
    (run step (initial 0) oneTimer).rounds.length = 1 ∧
      ∀ r ∈ (run step (initial 0) oneTimer).rounds, r.Right := by
  have hnone : ∀ {p : Round → Prop}, ∀ r ∈ (none : Option Round), p r := fun r hr ↦ by cases hr
  have hshort : Guarded step Short (initial 0) oneTimer := by
    refine ⟨hnone, hnone, hnone, hnone, ?_, trivial⟩
    intro r hr
    cases hr
    decide
  refine ⟨by decide, ?_⟩
  apply (run_sleeps_right_iff 0 oneTimer hshort).mpr
  refine ⟨hnone, hnone, hnone, hnone, ?_, trivial⟩
  intro r hr
  cases hr
  exact .inl rfl

/-- Two timers of five seconds; the second begins a round while the first is in its callbacks. -/
def twoTimers : List Event :=
  [.start 0 5000000, .create 0 true, .step 0, .tick 2, .start 1 5000000, .create 1 true, .step 1,
    .tick 1, .step 0]

/-- The first timer's round of three seconds sleeps for four more. -/
theorem not_right_twoTimers : Guarded step Short (initial 0) twoTimers ∧
    ∃ r ∈ (run step (initial 0) twoTimers).rounds,
      r.interval = 5000000 ∧ r.began = 0 ∧ r.ended = 3 ∧ r.sleep = some 4000000 ∧ ¬ r.Right := by
  have hnone : ∀ {p : Round → Prop}, ∀ r ∈ (none : Option Round), p r := fun r hr ↦ by cases hr
  constructor
  · refine ⟨hnone, hnone, hnone, hnone, hnone, hnone, hnone, hnone, ?_, trivial⟩
    intro r hr
    cases hr
    decide
  · refine ⟨_, List.mem_singleton_self _, rfl, rfl, rfl, by decide, ?_⟩
    rw [Round.Right]
    decide

end Process
end IcsGateway.ComTimer
