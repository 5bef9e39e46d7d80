import IcsGateway.Common.Timer
import IcsGateway.Common.LoadOutcome

/-!
# The periods of the two timers

The watchdog of the manager and the report of the bridge run on timers of their own, with periods
that the configuration gives in seconds (`Manager/ManagerWatchDog.cpp:23`, `Bridge/Bridge.cpp:27`).
`ComTimer::Start` takes microseconds; the product is one of 32 bits, and no `Load` looks at the
value it reads.
-/

namespace IcsGateway

open Lib

/-- The functions that are called back. -/
inductive TimerCallback where
  | watchdog
  | dataPointProcessor
  deriving DecidableEq, Repr

/-- A process with the callbacks of its timers. -/
structure TimedProcess where
  process : ComTimer.Process
  callbacks : Nat → List TimerCallback

namespace TimedProcess

/-- The state of a timer. -/
def state (s : TimedProcess) (timer : Nat) : ComTimerState := (s.process.timers timer).state

/-- A timer that does not run gets a callback and is started, with a period in seconds. -/
def startSeconds (timer : Nat) (callback : TimerCallback) (secs : UInt32) (s : TimedProcess) :
    Bool × TimedProcess :=
  if s.state timer = .timerRunning then (false, s)
  else
    (true,
      { process := s.process.start timer (secs * 1000000)
        callbacks := fun i ↦
          if i = timer then s.callbacks i ++ [callback] else s.callbacks i })

/-- A call that starts a timer gives it a period of so many seconds. -/
def ArmsSeconds (timer : Nat) (secs : UInt32) (s : TimedProcess) (r : Bool × TimedProcess) :
    Prop :=
  s.state timer ≠ .timerRunning →
    (r.2.process.timers timer).interval.toNat = secs.toNat * 1000000

/-- The product does not wrap exactly up to 4294 seconds. -/
private theorem toNat_mul_million_iff (secs : UInt32) :
    (secs * 1000000).toNat = secs.toNat * 1000000 ↔ secs.toNat ≤ 4294 := by
  have hmul : (secs * 1000000).toNat = secs.toNat * 1000000 % 2 ^ 32 := UInt32.toNat_mul ..
  rw [hmul]
  omega

/-- What is handed to `ComTimer::Start`. -/
theorem interval_startSeconds {timer : Nat} {s : TimedProcess}
    (h : s.state timer ≠ .timerRunning) (callback : TimerCallback) (secs : UInt32) :
    ((startSeconds timer callback secs s).2.process.timers timer).interval = secs * 1000000 := by
  have hstate : ¬ (s.process.timers timer).state = .timerRunning := h
  rw [startSeconds, if_neg h]
  show ((s.process.start timer (secs * 1000000)).timers timer).interval = secs * 1000000
  rw [ComTimer.Process.start, if_neg hstate, ComTimer.Process.timers_setTimer, if_pos rfl]

/-- The period comes out right exactly up to 4294 seconds, or where nothing is started. -/
private theorem armsSeconds_startSeconds_iff (timer : Nat) (callback : TimerCallback)
    (secs : UInt32) (s : TimedProcess) :
    ArmsSeconds timer secs s (startSeconds timer callback secs s) ↔
      s.state timer = .timerRunning ∨ secs.toNat ≤ 4294 := by
  rw [ArmsSeconds]
  by_cases hrun : s.state timer = .timerRunning
  · constructor
    · intro _
      exact .inl hrun
    · intro _ hne
      exact absurd hrun hne
  · rw [interval_startSeconds hrun, toNat_mul_million_iff]
    constructor
    · intro h
      exact .inr (h hrun)
    · intro h _
      exact h.resolve_left hrun

end TimedProcess

/-- `ManagerWatchDog::Start` on the timer `wdtimer`; `Manager/ManagerWatchDog.cpp:23`. -/
def ManagerWatchDog.start (wdtimer : Nat) (manager : ManagerConfig_T) (s : TimedProcess) :
    Bool × TimedProcess :=
  TimedProcess.startSeconds wdtimer .watchdog manager.watchdogInterval s

/-- `Bridge::StartTimer` on the timer `dptimer`; `Bridge/Bridge.cpp:27`. -/
def Bridge.startTimer (dptimer : Nat) (collector : CollectorConfig_T) (s : TimedProcess) :
    Bool × TimedProcess :=
  TimedProcess.startSeconds dptimer .dataPointProcessor collector.dataReportInterval s

/-! ### What the decoders let through -/

/-- Every number of 32 bits is read as it stands. -/
private theorem getNullableValue_uint (P : Poco) {o : Object} {k : COMStr} {n : UInt32}
    (h : Object.get o k = .int n.toNat) :
    Object.getNullableValue P.convertUInt o k = .ok (some n) := by
  have hrange : (0 : Int) ≤ n.toNat ∧ (n.toNat : Int) < 2 ^ 32 := by
    have := n.toNat_lt
    omega
  have hconv : P.convertUInt (.int n.toNat) = .ok n := by
    rw [Poco.convertUInt, if_pos hrange, Int.toNat_natCast, UInt32.ofNat_toNat]
  rw [Object.getNullableValue, Object.isNull, h, hconv]
  rfl

/-- A property that is null, or converts, is read without a throw. -/
private theorem getNullableValue_ok {τ : Type} {conv : Var → Except Exn τ} {o : Object}
    {k : COMStr} (h : Object.isNull o k = false → ∃ x, conv (Object.get o k) = .ok x) :
    ∃ x, Object.getNullableValue conv o k = .ok x := by
  rw [Object.getNullableValue]
  cases hnull : Object.isNull o k with
  | true => exact ⟨none, rfl⟩
  | false =>
    obtain ⟨x, hx⟩ := h hnull
    rw [hx]
    exact ⟨some x, rfl⟩

/-- `Load` takes any interval of the watchdog. -/
theorem ManagerConfig_T.watchdogInterval_load (P : Poco) (memory : ProcessConfig)
    (c : ManagerConfig_T) {o : Object} {n : UInt32} (hconv : Converts (reads P) o)
    (hget : Object.get o "WatchdogInterval" = .int n.toNat) :
    ((load P memory).exec ⟨c, some o⟩).2.fields.watchdogInterval = n := by
  simp only [Converts, reads, List.forall_mem_cons] at hconv
  obtain ⟨hhost, hsoft, hport, -, hsys, -⟩ := hconv
  obtain ⟨host, hhost⟩ := getNullableValue_ok hhost
  obtain ⟨soft, hsoft⟩ := getNullableValue_ok hsoft
  obtain ⟨port, hport⟩ := getNullableValue_ok hport
  obtain ⟨sys, hsys⟩ := getNullableValue_ok hsys
  have hread : assigned o (reads P) .watchdogInterval = some n := by
    simp only [reads, assigned, hhost, hsoft, hport, hsys, getNullableValue_uint P hget]
    rfl
  rw [(loadsBy P memory).fields]
  show layout.get (layout.overlay (assigned o (reads P)) (clear c)) .watchdogInterval = n
  rw [Layout.get_overlay, hread]
  rfl

/-- `Load` takes any interval of the reports. -/
theorem CollectorConfig_T.dataReportInterval_load (P : Poco) (memory : Nat → Nat → AlarmConfig)
    (dev : DeviceConfig) (c : CollectorConfig_T) {o : Object} {n : UInt32}
    (hget : Object.get o "data_report_interval" = .int n.toNat) :
    ((load P memory dev).exec ⟨c, some o⟩).2.fields.dataReportInterval = n := by
  have hread : assigned o (reads P) .dataReportInterval = some n := by
    rw [reads, assigned, getNullableValue_uint P hget]
    rfl
  rw [(loadsBy P memory dev).fields]
  show layout.get (layout.overlay (assigned o (reads P)) (clear c)) .dataReportInterval = n
  rw [Layout.get_overlay, hread]
  rfl

/-! ### The periods -/

/-- Both timers get the configured period exactly up to 4294 seconds, or where they run already
and nothing is started. -/
theorem start_armsSeconds_iff (wdtimer dptimer : Nat) (manager : ManagerConfig_T)
    (collector : CollectorConfig_T) (s t : TimedProcess) :
    TimedProcess.ArmsSeconds wdtimer manager.watchdogInterval s
        (ManagerWatchDog.start wdtimer manager s) ∧
      TimedProcess.ArmsSeconds dptimer collector.dataReportInterval t
        (Bridge.startTimer dptimer collector t) ↔
    (s.state wdtimer = .timerRunning ∨ manager.watchdogInterval.toNat ≤ 4294) ∧
      (t.state dptimer = .timerRunning ∨ collector.dataReportInterval.toNat ≤ 4294) := by
  rw [ManagerWatchDog.start, Bridge.startTimer, TimedProcess.armsSeconds_startSeconds_iff,
    TimedProcess.armsSeconds_startSeconds_iff]

/-- An interval of 4295 seconds becomes one of 32704 microseconds. -/
theorem watchdog_4295 :
    ¬ ∀ (manager : ManagerConfig_T) (collector : CollectorConfig_T) (s t : TimedProcess),
      TimedProcess.ArmsSeconds 0 manager.watchdogInterval s
          (ManagerWatchDog.start 0 manager s) ∧
        TimedProcess.ArmsSeconds 0 collector.dataReportInterval t
          (Bridge.startTimer 0 collector t) := by
  intro h
  have harms := (h ⟨"", "", 0, 4295, 0, []⟩ ⟨60, []⟩
    ⟨ComTimer.Process.initial 0, fun _ ↦ []⟩ ⟨ComTimer.Process.initial 0, fun _ ↦ []⟩).1
  rw [ManagerWatchDog.start, TimedProcess.armsSeconds_startSeconds_iff] at harms
  exact absurd harms (by decide)

end IcsGateway
