import IcsGateway.Lib.Transition
import IcsGateway.Common.RegistrationConfig

/-!
# The data set of an MQTT connection

`M2CMQTTDataSet` keeps the state of its connection and the second of the last change in two
members, which `Connect`, `Disconnect` and two callbacks of the client set, and not always both
(`M2C_MQTT/M2CMQTTDataSet.cpp`). `Publish` ends the process by both.
-/

namespace IcsGateway

open Lib

/-- `3rd.party.raspi/include/ComDataModel.h:27`. -/
inductive ComDataSetState where
  | dataSetInit
  | dataSetConnected
  | dataSetError
  deriving DecidableEq, Repr

/-- A connection: the members it has from `ComDataSet` and its own, with the client by the two
arguments it is made from; `M2C_MQTT/M2CMQTTDataSet.h:14`. -/
structure M2CMQTTDataSet where
  mState : ComDataSetState
  mStateTime : Nat
  mHost : COMStr
  mPort : UInt32
  isSSL : Bool
  client : Option (COMStr × COMStr)
  subscribeTopics : COMStr
  topicData : COMStr
  url : COMStr
  name : COMStr
  isFirstConnect : Bool
  deriving DecidableEq, Repr

namespace M2CMQTTDataSet

/-- The constructor, in second `now`; `M2C_MQTT/M2CMQTTDataSet.h:62` and
`3rd.party.raspi/include/ComDataModel.h:47`. -/
def create (cfg : MqttBrokerConfig_T) (subcribes : COMStr) (now : Nat) : M2CMQTTDataSet where
  mState := .dataSetInit
  mStateTime := now
  mHost := cfg.host
  -- an `int` passed as a `uint`
  mPort := cfg.port.toUInt32
  isSSL := cfg.isSec
  client := none
  subscribeTopics := subcribes
  topicData := cfg.topicData
  url := ""
  name := ""
  isFirstConnect := true

/-- `ComDataSet::StateSecs`; `3rd.party.raspi/include/ComDataModel.h:58`. -/
def stateSecs (now : Nat) (d : M2CMQTTDataSet) : Int := now - d.mStateTime

/-- `Connect` up to the answer it waits for, and whether it waits for one. A configuration that
is not ready stops only a data set other than `pub`; `M2C_MQTT/M2CMQTTDataSet.cpp:15–62`. -/
def beginConnect (config : Option MqttBrokerConfig_T) (isPub : Bool) (name : COMStr)
    (d : M2CMQTTDataSet) : Bool × M2CMQTTDataSet :=
  let d := { d with
    name := name
    url := (if d.isSSL then "ssl://" else "tcp://") ++ d.mHost ++ ":" ++ toString d.mPort.toNat }
  if (config.any fun c ↦ !c.isReady) && !isPub then (false, d)
  else (true, { d with client := some (d.url, name) })

/-- The connection of `pub` is always attempted. -/
theorem beginConnect_pub (config : Option MqttBrokerConfig_T) (name : COMStr)
    (d : M2CMQTTDataSet) : ∃ url, d.beginConnect config true name =
      (true, { d with name := name, url := url, client := some (url, name) }) := by
  rw [beginConnect]
  simp

/-- The rest of `Connect`: no answer within ten seconds or an exception, or a connection;
`M2C_MQTT/M2CMQTTDataSet.cpp:63–90`. -/
def endConnect (answered : Bool) (d : M2CMQTTDataSet) : M2CMQTTDataSet :=
  if answered then { d with isFirstConnect := false }
  else { d with client := none, mState := .dataSetInit }

/-- The callback `connected`; `M2C_MQTT/M2CMQTTDataSet.h:92`. -/
def connected (now : Nat) (d : M2CMQTTDataSet) : M2CMQTTDataSet :=
  if d.mState ≠ .dataSetConnected then { d with mState := .dataSetConnected, mStateTime := now }
  else d

/-- The callback `connection_lost`; `M2C_MQTT/M2CMQTTDataSet.h:100`. -/
def connectionLost (now : Nat) (d : M2CMQTTDataSet) : M2CMQTTDataSet :=
  if d.mState ≠ .dataSetInit then { d with mState := .dataSetInit, mStateTime := now } else d

/-- `Disconnect`, with a client that throws or does not; `M2C_MQTT/M2CMQTTDataSet.cpp:175`. -/
def disconnect (throws : Bool) (d : M2CMQTTDataSet) : M2CMQTTDataSet :=
  if d.client.isSome && throws then d
  else { d with client := none, mState := .dataSetInit }

/-- What a call of `Publish` comes to: it returns false, it ends the process, or it hands a
payload to the client for a topic. -/
inductive Published where
  | refused
  | exits
  | sends (topic payload : COMStr)
  deriving DecidableEq, Repr

/-- `Publish`; `M2C_MQTT/M2CMQTTDataSet.cpp:193`. -/
def publish (now : Nat) (msg topic : COMStr) (d : M2CMQTTDataSet) : Published :=
  if d.client = none then .refused
  else if d.mState ≠ .dataSetConnected then
    if d.stateSecs now > 300 then .exits else .refused
  else .sends (if topic = "" then d.topicData else topic) msg

/-- A message of an unconnected data set ends the process after more than 300 seconds. -/
theorem publish_eq_exits_iff (now : Nat) (msg topic : COMStr) (d : M2CMQTTDataSet) :
    d.publish now msg topic = .exits ↔
      d.client ≠ none ∧ d.mState ≠ .dataSetConnected ∧ d.mStateTime + 300 < now := by
  unfold publish stateSecs
  by_cases hc : d.client = none
  · simp [hc]
  · by_cases hs : d.mState = .dataSetConnected
    · simp [hc, hs]
    · simp only [hc, hs, if_false, ne_eq, not_false_eq_true, if_true, true_and]
      split
      · have : d.mStateTime + 300 < now := by omega
        simp [this]
      · have : ¬ d.mStateTime + 300 < now := by omega
        simp [this]

/-! ### Every order of events -/

/-- What happens around a data set, with what the rest of the process supplies: `Connect` is
called and later answered, the client calls back, `Disconnect` and `Publish` are called. -/
inductive Event where
  | tick (secs : Nat)
  | connect (config : Option MqttBrokerConfig_T) (isPub : Bool) (name : COMStr)
  | answer (answered : Bool)
  | connected
  | connectionLost
  | disconnect (throws : Bool)
  | publish (msg topic : COMStr)

/-- A data set in its process: the clock, the calls of `Connect` that wait for an answer, and
whether the process has ended. -/
structure Process where
  dataSet : M2CMQTTDataSet
  clock : Nat
  waiting : Nat
  exited : Bool

namespace Process

/-- A data set has just been made. -/
def initial (cfg : MqttBrokerConfig_T) (subcribes : COMStr) (clock : Nat) : Process :=
  ⟨create cfg subcribes clock, clock, 0, false⟩

/-- An event while the process runs. -/
def act (s : Process) : Event → Process
  | .tick secs => { s with clock := s.clock + secs }
  | .connect config isPub name =>
    let (waits, d) := s.dataSet.beginConnect config isPub name
    { s with dataSet := d, waiting := if waits then s.waiting + 1 else s.waiting }
  | .answer answered =>
    if s.waiting = 0 then s
    else { s with dataSet := s.dataSet.endConnect answered, waiting := s.waiting - 1 }
  | .connected => { s with dataSet := s.dataSet.connected s.clock }
  | .connectionLost => { s with dataSet := s.dataSet.connectionLost s.clock }
  | .disconnect throws => { s with dataSet := s.dataSet.disconnect throws }
  | .publish msg topic => { s with exited := s.dataSet.publish s.clock msg topic = .exits }

/-- An event; a process that has ended stays as it is. -/
def step (s : Process) (e : Event) : Process := if s.exited then s else s.act e

/-- A call of `Publish` ends the process. -/
def Exits (s : Process) : Prop :=
  s.exited = false ∧ ∃ msg topic, s.dataSet.publish s.clock msg topic = .exits

/-- In every second of the run in which the data set was connected, and in the one in which it
was made, more than 300 seconds were still to come. -/
def LongLost (s : Process) (es : List Event) : Prop :=
  ∀ pre, pre <+: es → pre = [] ∨ (run step s pre).dataSet.mState = .dataSetConnected →
    (run step s pre).clock + 300 < (run step s es).clock

/-- A connection given up by `Disconnect` or by an unanswered `Connect` was made in this very
second. -/
def Stamped (s : Process) : Event → Prop
  | .answer answered => answered = false → 0 < s.waiting →
      s.dataSet.mState = .dataSetConnected → s.dataSet.mStateTime = s.clock
  | .disconnect throws => s.dataSet.client = none ∨ throws = false →
      s.dataSet.mState = .dataSetConnected → s.dataSet.mStateTime = s.clock
  | _ => True

/-- Second `t` has come, and an unconnected data set has been so in a later second at most. -/
structure Since (t : Nat) (s : Process) : Prop where
  le_clock : t ≤ s.clock
  le_stateTime : s.dataSet.mState = .dataSetConnected ∨ t ≤ s.dataSet.mStateTime

/-- Giving up a connection of this very second leaves the second of its state. -/
private theorem since_reset {t : Nat} {s : Process} (h : s.Since t)
    (hs : s.dataSet.mState = .dataSetConnected → s.dataSet.mStateTime = s.clock) :
    t ≤ s.dataSet.mStateTime := by
  cases h.le_stateTime with
  | inl hc =>
    have ht := h.le_clock
    have hst := hs hc
    omega
  | inr ht => exact ht

/-- Every event that stamps what it gives up keeps this. -/
theorem since_step (t : Nat) (s : Process) (e : Event) (hs : s.Stamped e) (h : s.Since t) :
    (s.step e).Since t := by
  unfold step
  split
  · exact h
  cases e with
  | tick secs => exact ⟨Nat.le_trans h.le_clock (Nat.le_add_right _ _), h.le_stateTime⟩
  | connect config isPub name =>
    refine ⟨h.le_clock, ?_⟩
    simp only [act, beginConnect]
    split <;> exact h.le_stateTime
  | answer answered =>
    simp only [act]
    split
    · exact h
    · next hw =>
      refine ⟨h.le_clock, ?_⟩
      simp only [endConnect]
      split
      · exact h.le_stateTime
      · next ha => exact .inr (since_reset h (hs (Bool.eq_false_iff.mpr ha) (by omega)))
  | connected =>
    refine ⟨h.le_clock, ?_⟩
    simp only [act, M2CMQTTDataSet.connected]
    split
    · exact .inl rfl
    · next hc => exact .inl (Decidable.not_not.mp hc)
  | connectionLost =>
    refine ⟨h.le_clock, ?_⟩
    simp only [act, M2CMQTTDataSet.connectionLost]
    split
    · exact .inr h.le_clock
    · exact h.le_stateTime
  | disconnect throws =>
    refine ⟨h.le_clock, ?_⟩
    simp only [act, M2CMQTTDataSet.disconnect]
    split
    · exact h.le_stateTime
    · next hthrows =>
      apply Or.inr
      apply since_reset h
      apply hs
      cases hc : s.dataSet.client with
      | none => exact .inl rfl
      | some c =>
        rw [hc] at hthrows
        exact .inr (Bool.eq_false_iff.mpr hthrows)
  | publish msg topic => exact ⟨h.le_clock, h.le_stateTime⟩

/-- In every run in which a connection is given up by `Disconnect` or an unanswered `Connect`
only in the second it was made, `Publish` ends the process only if the data set has not been
connected for more than 300 seconds, counted from the last second it was, or from the one it was
made in. -/
theorem run_exits_longLost (cfg : MqttBrokerConfig_T) (subcribes : COMStr) (clock : Nat)
    (es : List Event) (hes : Guarded step Stamped (initial cfg subcribes clock) es)
    (hexits : (run step (initial cfg subcribes clock) es).Exits) :
    LongLost (initial cfg subcribes clock) es := by
  rintro pre ⟨suf, rfl⟩ hpre
  rw [run_append] at hexits ⊢
  have hsuf := ((guarded_append _ pre suf).mp hes).2
  have hsince : (run step (initial cfg subcribes clock) pre).Since
      (run step (initial cfg subcribes clock) pre).clock := by
    refine ⟨Nat.le_refl _, ?_⟩
    cases hpre with
    | inl hnil =>
      subst hnil
      exact .inr (Nat.le_refl _)
    | inr hc => exact .inl hc
  have hend := run_invariant_of_guarded (since_step _) suf hsuf hsince
  obtain ⟨-, msg, topic, hp⟩ := hexits
  obtain ⟨-, hnot, hlate⟩ := (publish_eq_exits_iff _ _ _ _).mp hp
  cases hend.le_stateTime with
  | inl hc => exact absurd hc hnot
  | inr ht => omega

/-- The cloud's broker. -/
def cloud : MqttBrokerConfig_T where
  host := "cloud"
  port := 1883
  isSec := false
  topicData := "data_channel"
  topicDataQoS := 1
  topicCtrl := "message_delivery"
  topicCtrlQoS := 1
  subQoS := 1
  queue := "device_log"
  queueCtrl := "receive_cmd"
  state := 1

/-- A connection that is made and, after ten seconds, lost for more than 300. -/
def lost : List Event :=
  [.connect (some cloud) true "d_PUB", .connected, .answer true, .tick 10, .connectionLost,
    .tick 301]

/-- It ends the process in time. -/
theorem run_exits_longLost_lost : LongLost (initial cloud "d" 0) lost := by
  apply run_exits_longLost cloud "d" 0 lost
  · exact ⟨trivial, trivial, (fun h ↦ by cases h), trivial, trivial, trivial, trivial⟩
  · exact ⟨rfl, "m", "", by decide⟩

/-- A connection of 1000 seconds is closed and opened again. -/
def reopened : List Event :=
  [.connect (some cloud) true "d_PUB", .connected, .answer true, .tick 1000, .disconnect false,
    .connect (some cloud) true "d_PUB"]

/-- The first message after that ends the process, in the second of the disconnection. -/
theorem not_longLost_reopened :
    (run step (initial cloud "d" 0) reopened).Exits ∧
      ¬ LongLost (initial cloud "d" 0) reopened := by
  constructor
  · exact ⟨rfl, "m", "", by decide⟩
  · intro h
    have hlate := h (reopened.take 4) (List.take_prefix _ _) (.inr rfl)
    revert hlate
    decide

/-- Any other connection given up leads to an early end of the process: it is enough to connect
again and to send a message at most 300 seconds later. -/
theorem exits_early_of_not_stamped {s : Process} {e : Event} (hrun : s.exited = false)
    (htime : s.dataSet.mStateTime ≤ s.clock) (he : ¬ s.Stamped e) :
    ∃ secs ≤ 300, (run step s [e, .connect none true "", .tick secs]).Exits := by
  -- what is given up is a connection of an earlier second, and the second stays
  have hreset : s.dataSet.mStateTime < s.clock ∧ (s.step e).exited = false ∧
      (s.step e).clock = s.clock ∧
      (s.step e).dataSet = { s.dataSet with client := none, mState := .dataSetInit } := by
    cases e with
    | answer answered =>
      simp only [Stamped, Classical.not_imp] at he
      obtain ⟨ha, hw, -, hne⟩ := he
      subst ha
      refine ⟨by omega, ?_⟩
      simp [step, act, endConnect, hrun, Nat.pos_iff_ne_zero.mp hw]
    | disconnect throws =>
      simp only [Stamped, Classical.not_imp] at he
      obtain ⟨ht, -, hne⟩ := he
      refine ⟨by omega, ?_⟩
      cases ht with
      | inl hc => simp [step, act, M2CMQTTDataSet.disconnect, hrun, hc]
      | inr ht => simp [step, act, M2CMQTTDataSet.disconnect, hrun, ht]
    | _ => exact absurd trivial he
  obtain ⟨hlt, hexited, hclock, hdata⟩ := hreset
  refine ⟨s.dataSet.mStateTime + 301 - s.clock, by omega, ?_⟩
  have hrest : run step s [e, .connect none true "", .tick (s.dataSet.mStateTime + 301 - s.clock)] =
      ⟨(((s.step e).dataSet.beginConnect none true "").2), s.clock +
        (s.dataSet.mStateTime + 301 - s.clock), (s.step e).waiting + 1, false⟩ := by
    simp only [run]
    generalize s.step e = t at hexited hclock
    simp [step, act, beginConnect, hexited, hclock]
  rw [hrest, hdata]
  refine ⟨rfl, "", "", ?_⟩
  rw [publish_eq_exits_iff]
  refine ⟨by simp [beginConnect], by simp [beginConnect], ?_⟩
  show s.dataSet.mStateTime + 300 < s.clock + (s.dataSet.mStateTime + 301 - s.clock)
  omega

end Process
end M2CMQTTDataSet
end IcsGateway
