import Mathlib.Algebra.Group.Nat.Defs

/-!
# Timers

A `ComTimer` runs its callbacks round after round in a thread of its own, and sleeps for what is
left of its interval in between (`Common/ComUtil.h:276–361`). `Stop` sets a flag the thread looks
at after its sleep; `Start` sets it again and makes a new thread. The start of a round is kept in
a static variable that all timers of the process share.
-/

namespace IcsGateway

/-- `ComTimerState`. -/
inductive ComTimerState where
  | timerStop
  | timerRunning
  deriving DecidableEq, Repr

/-- A timer, and the `Start` calls on it that have set the flag but not made their thread yet. -/
structure ComTimer where
  state : ComTimerState
  interval : UInt32
  starting : Nat

/-- A new timer; `Common/ComUtil.h:314`. -/
def ComTimer.new : ComTimer := { state := .timerStop, interval := 0, starting := 0 }

namespace ComTimer

/-! ### The remaining time -/

/-- `span`: the microseconds since `t1`, which is not after `now`. The model wraps from 2³² on,
where the conversion is undefined. -/
def span (now t1 : Nat) : UInt32 := UInt32.ofNat ((now - t1) * 1000000)

/-- `remain`, with the wrapping subtraction of `uint`. -/
def remain (interval : UInt32) (now t1 : Nat) : UInt32 := interval - span now t1

/-- The argument of `usleep`, if it is called; `Common/ComUtil.h:295–299`. -/
def sleepTime (interval : UInt32) (now t1 : Nat) : Option UInt32 :=
  if interval ≥ remain interval now t1 then some (remain interval now t1) else none

/-- What is left of an interval after `elapsed` microseconds, none if it is over. -/
def timeLeft (interval : UInt32) (elapsed : Nat) : Option Nat :=
  if elapsed ≤ interval.toNat then some (interval.toNat - elapsed) else none

/-- After more time something else is left, unless the interval was over. -/
theorem timeLeft_eq_iff (interval : UInt32) {a b : Nat} (h : a ≤ b) :
    timeLeft interval a = timeLeft interval b ↔ a = b ∨ interval.toNat < a := by
  rw [timeLeft, timeLeft]
  by_cases ha : a ≤ interval.toNat
  · rw [if_pos ha]
    by_cases hb : b ≤ interval.toNat
    · rw [if_pos hb, Option.some.injEq]
      omega
    · rw [if_neg hb]
      constructor
      · intro he
        cases he
      · omega
  · rw [if_neg ha, if_neg fun hb ↦ ha (Nat.le_trans h hb)]
    simp only [true_iff]
    omega

/-- Below 2³² microseconds the wrapping subtraction gives what is left: once the interval is
over it wraps to more than the interval. -/
theorem sleepTime_eq_timeLeft (interval : UInt32) {now t1 : Nat}
    (h : (now - t1) * 1000000 < 2 ^ 32) :
    (sleepTime interval now t1).map UInt32.toNat = timeLeft interval ((now - t1) * 1000000) := by
  have hspan : (span now t1).toNat = (now - t1) * 1000000 := by
    rw [span, UInt32.toNat_ofNat', Nat.mod_eq_of_lt h]
  have hremain : (remain interval now t1).toNat =
      (2 ^ 32 - (now - t1) * 1000000 + interval.toNat) % 2 ^ 32 := by
    rw [remain, UInt32.toNat_sub, hspan]
  have hlt := interval.toNat_lt
  rw [sleepTime, timeLeft]
  by_cases hle : (now - t1) * 1000000 ≤ interval.toNat
  · have hleft : (remain interval now t1).toNat = interval.toNat - (now - t1) * 1000000 := by
      omega
    have hge : interval ≥ remain interval now t1 := by
      rw [ge_iff_le, UInt32.le_iff_toNat_le, hleft]
      omega
    rw [if_pos hge, if_pos hle, Option.map_some, hleft]
  · have hge : ¬ interval ≥ remain interval now t1 := by
      rw [ge_iff_le, UInt32.le_iff_toNat_le, hremain]
      omega
    rw [if_neg hge, if_neg hle, Option.map_none]

/-! ### Threads -/

/-- Where a thread stands in `Run`; `Common/ComUtil.h:283–303`. -/
inductive Pc where
  /-- Before `t1 = time(0)`. -/
  | top
  /-- In the callbacks. -/
  | calling
  /-- In `usleep`, or before the loop condition. -/
  | asleep
  /-- Returned. -/
  | done
  deriving DecidableEq, Repr

/-- A thread of a timer, with the second in which its round began. -/
structure Runner where
  owner : Nat
  pc : Pc
  began : Nat

/-- A round whose sleep has been computed: the interval, the seconds in which it began and in
which its callbacks were done, and the sleep. -/
structure Round where
  interval : UInt32
  began : Nat
  ended : Nat
  sleep : Option UInt32

/-- A process with its timers and their threads; `t1` is the static variable of `Run`. -/
structure Process where
  clock : Nat
  t1 : Nat
  timers : Nat → ComTimer
  runners : Nat → Option Runner
  created : Nat
  rounds : List Round

/-- What can happen. -/
inductive Event where
  /-- Seconds go by. -/
  | tick (secs : Nat)
  /-- `Start`, up to `pthread_create`. -/
  | start (timer : Nat) (interval : UInt32)
  /-- `pthread_create` in `Start`, and the `Stop` that follows where it fails. -/
  | create (timer : Nat) (created : Bool)
  /-- `Stop`. -/
  | stop (timer : Nat)
  /-- A thread goes on. -/
  | step (runner : Nat)

namespace Process

/-- A timer is replaced. -/
def setTimer (s : Process) (timer : Nat) (t : ComTimer) : Process :=
  { s with timers := fun i ↦ if i = timer then t else s.timers i }

/-- A thread is replaced. -/
def setRunner (s : Process) (i : Nat) (r : Runner) : Process :=
  { s with runners := fun j ↦ if j = i then some r else s.runners j }

/-- `Start`, up to `pthread_create`; `Common/ComUtil.h:336–341`. -/
def start (s : Process) (timer : Nat) (interval : UInt32) : Process :=
  let t := s.timers timer
  if t.state = .timerRunning then s
  else s.setTimer timer ⟨.timerRunning, interval, t.starting + 1⟩

/-- `pthread_create` in a `Start` call, if there is one that stands there;
`Common/ComUtil.h:342–344`. -/
def create (s : Process) (timer : Nat) (created : Bool) : Process :=
  let t := s.timers timer
  if t.starting = 0 then s
  else if created then
    { (s.setRunner s.created ⟨timer, .top, s.clock⟩).setTimer timer
        { t with starting := t.starting - 1 } with created := s.created + 1 }
  else s.setTimer timer { t with state := .timerStop, starting := t.starting - 1 }

/-- `Stop`; `Common/ComUtil.h:357`. -/
def stop (s : Process) (timer : Nat) : Process :=
  s.setTimer timer { s.timers timer with state := .timerStop }

/-- A thread goes on in `Run`; `Common/ComUtil.h:288–300`. -/
def goOn (s : Process) (i : Nat) (r : Runner) : Process :=
  match r.pc with
  | .top => { s.setRunner i { r with pc := .calling, began := s.clock } with t1 := s.clock }
  | .calling =>
    let interval := (s.timers r.owner).interval
    { s.setRunner i { r with pc := .asleep } with
      rounds := s.rounds ++ [⟨interval, r.began, s.clock, sleepTime interval s.clock s.t1⟩] }
  | .asleep =>
    if (s.timers r.owner).state = .timerRunning then s.setRunner i { r with pc := .top }
    else s.setRunner i { r with pc := .done }
  | .done => s

/-- One event. -/
def step (s : Process) : Event → Process
  | .tick secs => { s with clock := s.clock + secs }
  | .start timer interval => s.start timer interval
  | .create timer created => s.create timer created
  | .stop timer => s.stop timer
  | .step i =>
    match s.runners i with
    | some r => s.goOn i r
    | none => s

/-- A process before any timer is started. -/
def initial (clock : Nat) : Process where
  clock := clock
  t1 := clock
  timers _ := .new
  runners _ := none
  created := 0
  rounds := []

/-- A timer is looked up as replaced; the others are unchanged. -/
theorem timers_setTimer (s : Process) (timer i : Nat) (t : ComTimer) :
    (s.setTimer timer t).timers i = if i = timer then t else s.timers i := rfl

/-- Replacing a timer leaves the threads. -/
@[simp] theorem runners_setTimer (s : Process) (timer : Nat) (t : ComTimer) :
    (s.setTimer timer t).runners = s.runners := rfl

/-- Replacing a thread leaves the timers. -/
@[simp] theorem timers_setRunner (s : Process) (i : Nat) (r : Runner) :
    (s.setRunner i r).timers = s.timers := rfl

/-- A thread that goes on changes no timer and makes no thread. -/
theorem goOn_frame (s : Process) (i : Nat) (r : Runner) :
    (s.goOn i r).timers = s.timers ∧ (s.goOn i r).created = s.created ∧
      ∀ j, j ≠ i → (s.goOn i r).runners j = s.runners j := by
  rw [goOn]
  cases r.pc with
  | top => exact ⟨rfl, rfl, fun j hj ↦ if_neg hj⟩
  | calling => exact ⟨rfl, rfl, fun j hj ↦ if_neg hj⟩
  | asleep =>
    simp only
    split
    · exact ⟨rfl, rfl, fun j hj ↦ if_neg hj⟩
    · exact ⟨rfl, rfl, fun j hj ↦ if_neg hj⟩
  | done => exact ⟨rfl, rfl, fun _ _ ↦ rfl⟩

end Process
end ComTimer
end IcsGateway
