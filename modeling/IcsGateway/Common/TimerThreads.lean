import IcsGateway.Lib.Transition
import IcsGateway.Common.Timer

/-!
# The threads of a timer

`Stop` does not wait for the thread, and `Start` makes a new one whenever the flag is reset. So a
timer has one thread at a time exactly as long as each `Start` finds the earlier threads returned.
-/

namespace IcsGateway.ComTimer.Process

open Lib

/-- A thread of the timer that has not returned. -/
def Alive (s : Process) (timer i : Nat) : Prop :=
  ∃ r, s.runners i = some r ∧ r.owner = timer ∧ r.pc ≠ .done

/-- A thread of the timer that can still start a round: it stands before one, or the flag it will
look at is set. -/
def MayStartRound (s : Process) (timer i : Nat) : Prop :=
  ∃ r, s.runners i = some r ∧ r.owner = timer ∧
    (r.pc = .top ∨ r.pc ≠ .done ∧ (s.timers timer).state = .timerRunning)

/-- Such a thread has not returned. -/
theorem MayStartRound.alive {s : Process} {timer i : Nat} (h : s.MayStartRound timer i) :
    s.Alive timer i := by
  obtain ⟨r, hr, howner, hpc⟩ := h
  refine ⟨r, hr, howner, ?_⟩
  rcases hpc with hpc | hpc
  · rw [hpc]
    decide
  · exact hpc.1

/-! ### One thread for each timer -/

/-- A `Start` that sets the flag finds every earlier thread of its timer returned, and no other
`Start` about to make one. -/
def StartsAlone (s : Process) : Event → Prop
  | .start timer _ => (s.timers timer).state ≠ .timerRunning →
      (s.timers timer).starting = 0 ∧ ∀ i, ¬ s.Alive timer i
  | _ => True

/-- Each timer has one thread or one `Start` about to make it, at most. -/
structure Single (s : Process) : Prop where
  fresh : ∀ i, s.created ≤ i → s.runners i = none
  starting_le : ∀ timer, (s.timers timer).starting ≤ 1
  not_alive : ∀ timer, (s.timers timer).starting ≠ 0 → ∀ i, ¬ s.Alive timer i
  unique : ∀ timer i j, s.Alive timer i → s.Alive timer j → i = j

/-- A thread that goes on keeps its timer, and does not come back. -/
private theorem alive_of_goOn {s : Process} {i : Nat} {r : Runner} (hr : s.runners i = some r)
    {timer j : Nat} (h : (s.goOn i r).Alive timer j) : s.Alive timer j := by
  have hset : ∀ r' : Runner, r'.owner = r.owner → r.pc ≠ .done →
      ∀ {r₁ : Runner}, (if j = i then some r' else s.runners j) = some r₁ →
        r₁.owner = timer → r₁.pc ≠ .done → s.Alive timer j := by
    intro r' howner hpc r₁ hr₁ howner₁ hpc₁
    by_cases hj : j = i
    · rw [if_pos hj] at hr₁
      cases hr₁
      exact ⟨r, hj ▸ hr, howner ▸ howner₁, hpc⟩
    · rw [if_neg hj] at hr₁
      exact ⟨r₁, hr₁, howner₁, hpc₁⟩
  obtain ⟨r₁, hr₁, howner₁, hpc₁⟩ := h
  rw [goOn] at hr₁
  cases hpc : r.pc with
  | top =>
    rw [hpc] at hr₁
    exact hset { r with pc := .calling, began := s.clock } rfl (by simp [hpc]) hr₁ howner₁ hpc₁
  | calling =>
    rw [hpc] at hr₁
    exact hset { r with pc := .asleep } rfl (by simp [hpc]) hr₁ howner₁ hpc₁
  | asleep =>
    simp only [hpc] at hr₁
    split at hr₁
    · exact hset { r with pc := .top } rfl (by simp [hpc]) hr₁ howner₁ hpc₁
    · exact hset { r with pc := .done } rfl (by simp [hpc]) hr₁ howner₁ hpc₁
  | done =>
    rw [hpc] at hr₁
    exact ⟨r₁, hr₁, howner₁, hpc₁⟩

/-- Threads that are not touched are alive as before. -/
private theorem alive_congr {s s' : Process} (h : s'.runners = s.runners) {timer i : Nat} :
    s'.Alive timer i ↔ s.Alive timer i := by
  rw [Alive, Alive, h]

/-- A `Start` that makes its timer's only thread. -/
private theorem single_start {s : Process} (h : s.Single) {timer : Nat} {interval : UInt32}
    (hg : s.StartsAlone (.start timer interval)) : (s.start timer interval).Single := by
  rw [start]
  by_cases hrun : (s.timers timer).state = .timerRunning
  · simp only [if_pos hrun]
    exact h
  · simp only [if_neg hrun]
    obtain ⟨hzero, hdone⟩ := hg hrun
    refine ⟨h.fresh, ?_, ?_, h.unique⟩
    · intro τ
      rw [timers_setTimer]
      split
      · simp [hzero]
      · exact h.starting_le τ
    · intro τ hτ i
      rw [timers_setTimer] at hτ
      rw [alive_congr (runners_setTimer ..)]
      split at hτ
      · next he =>
        subst he
        exact hdone i
      · exact h.not_alive τ hτ i

/-- The `Start` that was about to make a thread is done with it. -/
private theorem starting_create {s : Process} (h : s.Single) {timer : Nat}
    (hzero : (s.timers timer).starting ≠ 0) (created : Bool) (τ : Nat) :
    ((s.create timer created).timers τ).starting =
      if τ = timer then 0 else (s.timers τ).starting := by
  have hone : (s.timers timer).starting - 1 = 0 := by
    have hle := h.starting_le timer
    omega
  rw [create]
  simp only [if_neg hzero]
  cases created with
  | false =>
    simp only [Bool.false_eq_true, ↓reduceIte, timers_setTimer]
    split
    · exact hone
    · rfl
  | true =>
    simp only [↓reduceIte, setTimer, timers_setRunner]
    split
    · exact hone
    · rfl

/-- A thread alive then is the new one, or it was alive before and has another timer. -/
private theorem alive_create {s : Process} (h : s.Single) {timer : Nat}
    (hzero : (s.timers timer).starting ≠ 0) {created : Bool} {τ i : Nat}
    (ha : (s.create timer created).Alive τ i) :
    (τ = timer ∧ i = s.created) ∨ (τ ≠ timer ∧ s.Alive τ i) := by
  have hold : s.Alive τ i → τ ≠ timer ∧ s.Alive τ i := by
    intro hi
    refine ⟨?_, hi⟩
    rintro rfl
    exact h.not_alive τ hzero i hi
  obtain ⟨r, hr, howner, hpc⟩ := ha
  cases created with
  | false =>
    simp only [create, if_neg hzero, Bool.false_eq_true, ↓reduceIte, runners_setTimer] at hr
    exact .inr (hold ⟨r, hr, howner, hpc⟩)
  | true =>
    simp only [create, if_neg hzero, ↓reduceIte, setTimer, setRunner] at hr
    by_cases hi : i = s.created
    · rw [if_pos hi] at hr
      cases hr
      exact .inl ⟨howner.symm, hi⟩
    · rw [if_neg hi] at hr
      exact .inr (hold ⟨r, hr, howner, hpc⟩)

/-- No thread beyond the ones made. -/
private theorem fresh_create {s : Process} (h : s.Single) {timer : Nat}
    (hzero : (s.timers timer).starting ≠ 0) (created : Bool) {i : Nat}
    (hi : (s.create timer created).created ≤ i) : (s.create timer created).runners i = none := by
  rw [create] at hi ⊢
  simp only [if_neg hzero] at hi ⊢
  cases created with
  | false => exact h.fresh i hi
  | true =>
    have hle : s.created + 1 ≤ i := hi
    change (if i = s.created then _ else s.runners i) = none
    rw [if_neg (by omega)]
    exact h.fresh i (by omega)

/-- The thread is made, or not. -/
private theorem single_create {s : Process} (h : s.Single) (timer : Nat) (created : Bool) :
    (s.create timer created).Single := by
  by_cases hzero : (s.timers timer).starting = 0
  · rw [create]
    simp only [if_pos hzero]
    exact h
  · refine ⟨fun i hi ↦ fresh_create h hzero created hi, ?_, ?_, ?_⟩
    · intro τ
      rw [starting_create h hzero]
      split
      · exact Nat.zero_le 1
      · exact h.starting_le τ
    · intro τ hτ i hi
      rw [starting_create h hzero] at hτ
      split at hτ
      · exact hτ rfl
      · next hne =>
        rcases alive_create h hzero hi with ⟨he, -⟩ | ⟨-, hi⟩
        · exact hne he
        · exact h.not_alive τ hτ i hi
    · intro τ i j hi hj
      rcases alive_create h hzero hi with ⟨he, rfl⟩ | ⟨hne, hi⟩
      · rcases alive_create h hzero hj with ⟨-, rfl⟩ | ⟨hne, -⟩
        · rfl
        · exact absurd he hne
      · rcases alive_create h hzero hj with ⟨he, -⟩ | ⟨-, hj⟩
        · exact absurd he hne
        · exact h.unique τ i j hi hj

/-- Every event keeps it. -/
theorem single_step (s : Process) (e : Event) (hg : s.StartsAlone e) (h : s.Single) :
    (s.step e).Single := by
  cases e with
  | tick secs => exact ⟨h.fresh, h.starting_le, h.not_alive, h.unique⟩
  | start timer interval => exact single_start h hg
  | create timer created => exact single_create h timer created
  | stop timer =>
    have hstarting : ∀ τ, ((s.stop timer).timers τ).starting = (s.timers τ).starting := by
      intro τ
      rw [stop, timers_setTimer]
      split
      · next he => rw [he]
      · rfl
    refine ⟨h.fresh, ?_, ?_, h.unique⟩
    · intro τ
      rw [step, hstarting]
      exact h.starting_le τ
    · intro τ hτ i
      rw [step, hstarting] at hτ
      exact h.not_alive τ hτ i
  | step i =>
    rw [step]
    cases hr : s.runners i with
    | none => exact h
    | some r =>
      obtain ⟨htimers, hcreated, hothers⟩ := goOn_frame s i r
      simp only
      refine ⟨?_, ?_, ?_, ?_⟩
      · intro j hj
        rw [hcreated] at hj
        have hne : j ≠ i := by
          rintro rfl
          rw [h.fresh j hj] at hr
          cases hr
        rw [hothers j hne]
        exact h.fresh j hj
      · intro τ
        rw [htimers]
        exact h.starting_le τ
      · intro τ hτ j hj
        rw [htimers] at hτ
        exact h.not_alive τ hτ j (alive_of_goOn hr hj)
      · intro τ j k hj hk
        exact h.unique τ j k (alive_of_goOn hr hj) (alive_of_goOn hr hk)

/-- In a run whose `Start` calls find every earlier thread of their timer returned, no timer ever
has two threads that can start a round. -/
theorem run_mayStartRound_unique (clock : Nat) (es : List Event)
    (hg : Guarded step StartsAlone (initial clock) es) (timer i j : Nat)
    (hi : (run step (initial clock) es).MayStartRound timer i)
    (hj : (run step (initial clock) es).MayStartRound timer j) : i = j := by
  have hinitial : (initial clock).Single := by
    refine ⟨fun _ _ ↦ rfl, fun _ ↦ Nat.zero_le 1, fun _ h ↦ absurd rfl h, ?_⟩
    rintro timer i j ⟨r, hr, -⟩
    cases hr
  have hsingle := run_invariant_of_guarded single_step es hg hinitial
  exact hsingle.unique timer i j hi.alive hj.alive

/-- A timer is stopped, its thread returns, and it is started again. -/
def stoppedAndStarted : List Event :=
  [.start 0 1000000, .create 0 true, .step 0, .stop 0, .step 0, .step 0, .start 0 1000000,
    .create 0 true]

/-- The second thread is its only one. -/
theorem run_mayStartRound_unique_again :
    (run step (initial 0) stoppedAndStarted).MayStartRound 0 1 ∧
      ∀ i, (run step (initial 0) stoppedAndStarted).MayStartRound 0 i → i = 1 := by
  have hsecond : (run step (initial 0) stoppedAndStarted).MayStartRound 0 1 :=
    ⟨_, rfl, rfl, .inl rfl⟩
  refine ⟨hsecond, ?_⟩
  intro i hi
  refine run_mayStartRound_unique 0 stoppedAndStarted ?_ 0 i 1 hi hsecond
  refine ⟨?_, trivial, trivial, trivial, trivial, trivial, ?_, trivial, trivial⟩
  · intro _
    refine ⟨rfl, ?_⟩
    rintro i ⟨r, hr, -⟩
    cases hr
  · intro _
    refine ⟨rfl, ?_⟩
    rintro i ⟨r, hr, -, hpc⟩
    by_cases h0 : i = 0
    · subst h0
      cases hr
      exact hpc rfl
    · simp [step, start, stop, create, goOn, initial, setTimer, setRunner, ComTimer.new, h0] at hr

/-- A `Start` that finds the flag reset and an earlier thread not returned yet makes a second
thread that can start a round. -/
theorem restart_two {s : Process} (hfresh : s.runners s.created = none) {timer i : Nat}
    (hi : s.Alive timer i) (hstop : (s.timers timer).state ≠ .timerRunning) (interval : UInt32) :
    (run step s [.start timer interval, .create timer true]).MayStartRound timer i ∧
      (run step s [.start timer interval, .create timer true]).MayStartRound timer s.created ∧
      i ≠ s.created := by
  obtain ⟨r, hr, howner, hpc⟩ := hi
  have hne : i ≠ s.created := by
    rintro rfl
    rw [hfresh] at hr
    cases hr
  have hrun : run step s [.start timer interval, .create timer true] =
      { (((s.setTimer timer ⟨.timerRunning, interval, (s.timers timer).starting + 1⟩).setRunner
        s.created ⟨timer, .top, s.clock⟩).setTimer timer
          ⟨.timerRunning, interval, (s.timers timer).starting⟩) with
        created := s.created + 1 } := by
    simp [run, step, start, create, hstop, setTimer, setRunner]
  rw [hrun]
  refine ⟨⟨r, ?_, howner, .inr ⟨hpc, ?_⟩⟩, ⟨⟨timer, .top, s.clock⟩, ?_, rfl, .inl rfl⟩, hne⟩
  · exact (if_neg hne).trans hr
  · exact congrArg ComTimer.state (if_pos rfl)
  · exact if_pos rfl

/-- The thread of a timer that is stopped and started again within a round goes on beside the new
one. -/
theorem not_unique_restart :
    (run step (initial 0) [.start 0 1000000, .create 0 true, .step 0, .stop 0,
      .start 0 1000000, .create 0 true]).MayStartRound 0 0 ∧
    (run step (initial 0) [.start 0 1000000, .create 0 true, .step 0, .stop 0,
      .start 0 1000000, .create 0 true]).MayStartRound 0 1 :=
  ⟨⟨_, rfl, rfl, .inr ⟨by decide, rfl⟩⟩, ⟨_, rfl, rfl, .inl rfl⟩⟩

end IcsGateway.ComTimer.Process
