import IcsGateway.M2C.DataSet

/-!
# Making the first connection

`M2C_MQTT::initialize` tries to connect until it has connected once. Every round loads the
registration and the broker anew into two static objects, but looks at the entries that the process
read when it started, and connects a data set made from the objects of the first round
(`M2C_MQTT/M2CMQTT.cpp:20–70`).
-/

namespace IcsGateway

open Lib

/-- `ComConfig::Init` of the two classes, which reads an object anew from what Redis holds. -/
structure ConfigInit (ρ : Type) where
  regInfo : ρ → RegistrationInfo_T → RegistrationInfo_T
  mqttCfg : ρ → MqttBrokerConfig_T → MqttBrokerConfig_T

namespace M2C_MQTT

variable {ρ : Type}

/-- A callback of the client, with its second. -/
inductive Callback where
  | connected (now : Nat)
  | connectionLost (now : Nat)

/-- The data set after a callback. -/
def Callback.act (d : M2CMQTTDataSet) : Callback → M2CMQTTDataSet
  | .connected now => d.connected now
  | .connectionLost now => d.connectionLost now

/-- What a round finds outside: what Redis holds, the time, the callbacks while it waits for an
answer, and whether it gets one. -/
structure Outside (ρ : Type) where
  store : ρ
  now : Nat
  callbacks : List Callback
  answered : Bool

/-- What a round has loaded, the data set as it attempts to connect, and what it reports to the
watchdog. -/
structure Round where
  regInfo : RegistrationInfo_T
  mqttCfg : MqttBrokerConfig_T
  attempt : Option M2CMQTTDataSet
  report : Option (Bool × COMStr)

/-- The process: the static objects of `M2CMQTTDataSet` with the two key files and `pub`, the
entries of `MQTTConfig`, and the thread of `initialize` with its rounds. -/
structure Process where
  regInfo : RegistrationInfo_T
  mqttCfg : MqttBrokerConfig_T
  pubKeyFile : COMStr
  prvKeyFile : COMStr
  pub : Option M2CMQTTDataSet
  entryRegInfo : RegistrationInfo_T
  entryMQTT : MqttBrokerConfig_T
  running : Bool
  rounds : List Round

namespace Process

/-- The process before the first round. -/
def initial (regInfo entryRegInfo : RegistrationInfo_T) (mqttCfg entryMQTT : MqttBrokerConfig_T)
    (pubKeyFile prvKeyFile : COMStr) : Process :=
  ⟨regInfo, mqttCfg, pubKeyFile, prvKeyFile, none, entryRegInfo, entryMQTT, true, []⟩

/-- `M2CMQTTDataSet::RefreshCfg`; `M2C_MQTT/M2CMQTTDataSet.h:55`. -/
def refreshCfg (I : ConfigInit ρ) (store : ρ) (s : Process) : Process :=
  let regInfo := I.regInfo store s.regInfo
  { s with
    regInfo := regInfo
    mqttCfg := I.mqttCfg store s.mqttCfg
    pubKeyFile := regInfo.publicKey
    prvKeyFile := regInfo.privateKey }

/-- `M2CMQTTDataSet::PUB`; `M2C_MQTT/M2CMQTTDataSet.h:165`. -/
def makePub (now : Nat) (s : Process) : M2CMQTTDataSet :=
  s.pub.getD (.create s.mqttCfg s.regInfo.devID now)

/-- A round that connects; `M2C_MQTT/M2CMQTT.cpp:34–55`. -/
def connectPub (o : Outside ρ) (d : M2CMQTTDataSet) (s : Process) : Process :=
  let (waits, d) := d.beginConnect (some s.mqttCfg) true (s.entryRegInfo.devID ++ "_PUB")
  let connects := waits && o.answered
  { s with
    pub := some (if waits then (o.callbacks.foldl Callback.act d).endConnect o.answered else d)
    running := !connects
    rounds := s.rounds ++ [⟨s.regInfo, s.mqttCfg, if waits then some d else none,
      some (connects, if connects then "MQTT public channel is connected"
        else "MQTT public channel connection failed")⟩] }

/-- A round after `RefreshCfg`; `all_cnn` stays true, and the loop ends, with a connection or if
there was one; `M2C_MQTT/M2CMQTT.cpp:27–64`. -/
def tryPub (o : Outside ρ) (s : Process) : Process :=
  let d := s.makePub o.now
  if d.mState = .dataSetInit ∧ d.isFirstConnect = true then
    if s.entryMQTT.host ≠ "" ∧ s.entryRegInfo.devID ≠ "" then s.connectPub o d
    else
      { s with
        pub := some d
        rounds := s.rounds ++ [⟨s.regInfo, s.mqttCfg, none,
          some (false, "MQTT public channel host is not defined")⟩] }
  else
    { s with
      pub := some d
      running := false
      rounds := s.rounds ++ [⟨s.regInfo, s.mqttCfg, none, none⟩] }

/-- A round of `M2C_MQTT::initialize`; `M2C_MQTT/M2CMQTT.cpp:25`. -/
def round (I : ConfigInit ρ) (s : Process) (o : Outside ρ) : Process :=
  if s.running then (s.refreshCfg I o.store).tryPub o else s

end Process

/-- The round connects with what it has loaded, and does connect if that names a host and a
device. -/
def Round.Right (r : Round) : Prop :=
  (∀ d ∈ r.attempt, d.mHost = r.mqttCfg.host ∧ (d.mPort.toNat : Int) = r.mqttCfg.port.toInt ∧
    d.subscribeTopics = r.regInfo.devID ∧ d.name = r.regInfo.devID ++ "_PUB") ∧
  (r.mqttCfg.host ≠ "" → r.regInfo.devID ≠ "" → r.attempt ≠ none)

namespace Process

/-- The static objects agree with the entries and with the data set, if there is one; with entries
that name no host or no device, the objects name no host or no device either. -/
def Fits (s : Process) : Prop :=
  if s.entryMQTT.host ≠ "" ∧ s.entryRegInfo.devID ≠ "" then
    s.entryRegInfo.devID = s.regInfo.devID ∧ 0 ≤ s.mqttCfg.port.toInt ∧
      ∀ d ∈ s.pub, d.mHost = s.mqttCfg.host ∧ (d.mPort.toNat : Int) = s.mqttCfg.port.toInt ∧
        d.subscribeTopics = s.regInfo.devID
  else s.mqttCfg.host = "" ∨ s.regInfo.devID = ""

/-- So they do with what the next round loads. -/
def Agrees (I : ConfigInit ρ) (s : Process) (o : Outside ρ) : Prop :=
  s.running = true → (s.refreshCfg I o.store).Fits

/-- While the loop runs, the data set is not connected and never was. -/
def Unconnected (s : Process) : Prop :=
  s.running = true → ∀ d ∈ s.pub, d.mState = .dataSetInit ∧ d.isFirstConnect = true

/-- A port passed as a `uint` stays itself unless it is negative. -/
private theorem toNat_toUInt32_eq_iff (port : Int32) :
    (port.toUInt32.toNat : Int) = port.toInt ↔ 0 ≤ port.toInt := by
  have hnat : port.toUInt32.toNat = port.toBitVec.toNat := rfl
  have hint : port.toInt = port.toBitVec.toInt := rfl
  rw [hnat, hint, BitVec.toInt_eq_toNat_cond]
  have hlt := port.toBitVec.isLt
  split <;> omega

/-- The data set of a round agrees with what the round loads if the one before it did, or if it is
new. -/
private theorem makePub_agrees_iff (s : Process) (now : Nat) :
    ((s.makePub now).mHost = s.mqttCfg.host ∧
      ((s.makePub now).mPort.toNat : Int) = s.mqttCfg.port.toInt ∧
      (s.makePub now).subscribeTopics = s.regInfo.devID) ↔
    0 ≤ s.mqttCfg.port.toInt ∧ ∀ d ∈ s.pub, d.mHost = s.mqttCfg.host ∧
      (d.mPort.toNat : Int) = s.mqttCfg.port.toInt ∧ d.subscribeTopics = s.regInfo.devID := by
  unfold makePub
  cases s.pub with
  | none => simp [M2CMQTTDataSet.create, toNat_toUInt32_eq_iff]
  | some d =>
    simp only [Option.getD_some, Option.mem_some_iff, forall_eq']
    constructor
    · intro h
      exact ⟨by have hport := h.2.1; omega, h⟩
    · exact fun h ↦ h.2

/-- A round that connects attempts to, with the members of the data set. -/
theorem connectPub_eq (o : Outside ρ) (d : M2CMQTTDataSet) (s : Process) :
    ∃ url report, s.connectPub o d =
      let name := s.entryRegInfo.devID ++ "_PUB"
      let d := { d with name := name, url := url, client := some (url, name) }
      { s with
        pub := some ((o.callbacks.foldl Callback.act d).endConnect o.answered)
        running := !o.answered
        rounds := s.rounds ++ [⟨s.regInfo, s.mqttCfg, some d, report⟩] } := by
  obtain ⟨url, hbegin⟩ := M2CMQTTDataSet.beginConnect_pub (some s.mqttCfg)
    (s.entryRegInfo.devID ++ "_PUB") d
  rw [connectPub, hbegin]
  simp only [Bool.true_and, if_true]
  exact ⟨url, _, rfl⟩

/-- The data set of a round is unconnected if the one before it was. -/
private theorem makePub_unconnected {s : Process} (h : s.Unconnected) (hr : s.running = true)
    (now : Nat) :
    (s.makePub now).mState = .dataSetInit ∧ (s.makePub now).isFirstConnect = true := by
  unfold makePub
  cases hs : s.pub with
  | none => exact ⟨rfl, rfl⟩
  | some d => exact h hr d hs

/-- A round connects rightly exactly if the static objects agree with what it uses. -/
theorem right_tryPub_iff (o : Outside ρ) {s : Process} (h : s.Unconnected)
    (hr : s.running = true) :
    ∃ r, (s.tryPub o).rounds = s.rounds ++ [r] ∧ (r.Right ↔ s.Fits) := by
  simp only [tryPub, makePub_unconnected h hr o.now, and_self, if_true]
  split
  · next hentry =>
    obtain ⟨url, report, hconnect⟩ := connectPub_eq o (s.makePub o.now) s
    rw [hconnect]
    refine ⟨_, rfl, ?_⟩
    have hname : s.entryRegInfo.devID ++ "_PUB" = s.regInfo.devID ++ "_PUB" ↔
        s.entryRegInfo.devID = s.regInfo.devID := String.append_left_inj _
    have hagrees := makePub_agrees_iff s o.now
    rw [Fits, if_pos hentry, ← hagrees, ← hname]
    simp only [Round.Right, Option.mem_some_iff, forall_eq', ne_eq, reduceCtorEq,
      not_false_eq_true, implies_true, and_true]
    constructor
    · rintro ⟨hhost, hport, htopic, hdev⟩
      exact ⟨hdev, hhost, hport, htopic⟩
    · rintro ⟨hdev, hhost, hport, htopic⟩
      exact ⟨hhost, hport, htopic, hdev⟩
  · next hentry =>
    refine ⟨_, rfl, ?_⟩
    rw [Fits, if_neg hentry, Round.Right]
    simp only [Option.not_mem_none, false_implies, implies_true, true_and, ne_eq,
      not_true_eq_false, imp_false]
    constructor
    · intro hr
      by_cases hh : s.mqttCfg.host = ""
      · exact .inl hh
      · exact .inr (Decidable.not_not.mp (hr hh))
    · intro hor hh
      exact Decidable.not_not.mpr (hor.resolve_left hh)

/-- Callbacks leave `IsFirstConnect`. -/
private theorem isFirstConnect_callbacks (cs : List Callback) (d : M2CMQTTDataSet) :
    (cs.foldl Callback.act d).isFirstConnect = d.isFirstConnect := by
  induction cs generalizing d with
  | nil => rfl
  | cons c cs ih =>
    rw [List.foldl_cons, ih]
    cases c with
    | connected now =>
      simp only [Callback.act, M2CMQTTDataSet.connected]
      split <;> rfl
    | connectionLost now =>
      simp only [Callback.act, M2CMQTTDataSet.connectionLost]
      split <;> rfl

/-- A round that goes on leaves the data set unconnected. -/
theorem unconnected_tryPub (o : Outside ρ) {s : Process} (h : s.Unconnected)
    (hr : s.running = true) : (s.tryPub o).Unconnected := by
  have hd := makePub_unconnected h hr o.now
  simp only [tryPub, hd, and_self, if_true]
  split
  · obtain ⟨url, report, hconnect⟩ := connectPub_eq o (s.makePub o.now) s
    rw [hconnect]
    intro hgo d hmem
    have hno : o.answered = false := by simpa using hgo
    cases hmem
    rw [hno]
    refine ⟨rfl, ?_⟩
    exact (isFirstConnect_callbacks _ _).trans hd.2
  · intro _ d hmem
    cases hmem
    exact hd

/-- So is a run of rounds. -/
private theorem rounds_right_iff (I : ConfigInit ρ) (os : List (Outside ρ)) {s : Process}
    (h : s.Unconnected) :
    (∀ r ∈ (run (round I) s os).rounds, r.Right) ↔
      (∀ r ∈ s.rounds, r.Right) ∧ Guarded (round I) (Agrees I) s os := by
  induction os generalizing s with
  | nil => simp only [run, Guarded, and_true]
  | cons o os ih =>
    rw [run, Guarded]
    by_cases hr : s.running = true
    · have hround : s.round I o = (s.refreshCfg I o.store).tryPub o := if_pos hr
      have hload : (s.refreshCfg I o.store).Unconnected := h
      obtain ⟨r, hrounds, hright⟩ := right_tryPub_iff o hload hr
      have hagrees : s.Agrees I o ↔ r.Right :=
        ⟨fun ha ↦ hright.mpr (ha hr), fun ha _ ↦ hright.mp ha⟩
      rw [hround, ih (unconnected_tryPub o hload hr), hrounds, hagrees, List.forall_mem_append,
        List.forall_mem_singleton, and_assoc]
      rfl
    · have hround : s.round I o = s := if_neg hr
      have hagrees : s.Agrees I o := fun ha ↦ absurd ha hr
      rw [hround, ih h]
      simp only [hagrees, true_and]

/-- Every attempt of the loop uses the broker, the topic and the device of its own round, and every
round that loads a host and a device makes one, exactly if every round loads what the data set was
made from and the entries name the same device, or name no host or no device while no round loads
both. -/
theorem run_attempts_right_iff (I : ConfigInit ρ) (regInfo entryRegInfo : RegistrationInfo_T)
    (mqttCfg entryMQTT : MqttBrokerConfig_T) (pubKeyFile prvKeyFile : COMStr)
    (os : List (Outside ρ)) :
    let s := initial regInfo entryRegInfo mqttCfg entryMQTT pubKeyFile prvKeyFile
    (∀ r ∈ (run (round I) s os).rounds, r.Right) ↔ Guarded (round I) (Agrees I) s os := by
  intro s
  have hs : s.Unconnected := by
    intro _ d hd
    cases hd
  rw [rounds_right_iff I os hs]
  simp [s, initial]

/-- A registration that names a device. -/
def device (devID : COMStr) : RegistrationInfo_T where
  name := ""
  restAPI := ""
  restAPIVer := "v2"
  productID := "TBD"
  model := ""
  protocol := "MQTT"
  devID := devID
  registerState := "None"
  token := ""
  otpSecret := ""
  publicKey := ""
  privateKey := ""
  isLocked := false

/-- A broker at another host. -/
def moved : MqttBrokerConfig_T := { M2CMQTTDataSet.Process.cloud with host := "moved" }

/-- Redis holds the two objects themselves. -/
def objects : ConfigInit (RegistrationInfo_T × MqttBrokerConfig_T) := ⟨fun r _ ↦ r.1, fun r _ ↦ r.2⟩

/-- The broker moves after the first attempt, and the second is made to the old host. The other
process starts without a registration and never attempts to connect. -/
theorem not_right_moved :
    (∃ r ∈ (run (round objects)
        (initial (device "d") (device "d") M2CMQTTDataSet.Process.cloud
          M2CMQTTDataSet.Process.cloud "" "")
        [⟨(device "d", M2CMQTTDataSet.Process.cloud), 0, [], false⟩,
          ⟨(device "d", moved), 14, [], true⟩]).rounds,
      r.mqttCfg.host = "moved" ∧ (∃ d ∈ r.attempt, d.url = "tcp://cloud:1883") ∧ ¬ r.Right) ∧
    ∃ r ∈ (run (round objects)
        (initial (device "") (device "") M2CMQTTDataSet.Process.cloud
          M2CMQTTDataSet.Process.cloud "" "")
        [⟨(device "d", M2CMQTTDataSet.Process.cloud), 0, [], true⟩]).rounds,
      r.mqttCfg.host = "cloud" ∧ r.regInfo.devID = "d" ∧ r.attempt = none ∧ ¬ r.Right := by
  constructor
  · refine ⟨_, List.mem_cons_of_mem _ (List.mem_singleton_self _), rfl, ⟨_, rfl, by decide⟩, ?_⟩
    intro h
    exact absurd (h.1 _ rfl).1 (by decide)
  · refine ⟨_, List.mem_singleton_self _, rfl, rfl, rfl, ?_⟩
    intro h
    exact h.2 (by decide) (by decide) rfl

end Process
end M2C_MQTT
end IcsGateway
