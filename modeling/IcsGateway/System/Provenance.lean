import IcsGateway.Bridge.ExactlyOnce
import IcsGateway.System.LinkDelivery
import IcsGateway.System.Pipeline

/-!
# Where published data come from

Whatever the order of steps, however messages overtake each other, are overwritten or published
again, the data published are reports, and under every device type a report has no tags or those
of one round of the sensor process.
-/

namespace IcsGateway.Pipeline

open Lib Bridge

/-! ### What the data of a type can be -/

/-- The identifier that the sensor process gives itself; `M2M_SENSOR/SensorDevice.cpp:122`. -/
def sensorID : COMStr := "c78ferf4-c5an-8983-1e2d-kio3nhenbwec"

/-- The tags of an array in a message of the sensor process, as they are read back. -/
def readTags (os : List Object) : List Var := os.map fun o ↦ (Var.object .value o).reparse

/-- Nothing has been measured. -/
def NoData (o : Object) : Prop := ∀ key ∈ tagKeys, Bridge.tags o key = []

/-- The four tag lists are those of one round among some events. -/
def Measured (es : List Event) (o : Object) : Prop :=
  ∃ sensors relays getTemp timeStamp devID room outdoor,
    Event.round sensors relays getTemp timeStamp devID ∈ es ∧
    SensorDevice.devices sensors = some (room, outdoor) ∧
    Bridge.tags o "error_tags" =
      readTags (SensorDevice.tags sensors relays (getTemp room.path) (getTemp outdoor.path)).1 ∧
    Bridge.tags o "good_tags" =
      readTags (SensorDevice.tags sensors relays (getTemp room.path) (getTemp outdoor.path)).2 ∧
    Bridge.tags o "low_alarm" = [] ∧ Bridge.tags o "high_alarm" = []

/-- Under a type stands an object without data, or with those of a round, which only the type
of the first device with the identifier of the sensor process can have. -/
def HasData (cfg : BridgeConfig) (es : List Event) (report : Object) (t : COMStr) : Prop :=
  ∃ o, Object.get report t = .object .ptr o ∧ (NoData o ∨
    ((cfg.collector.findBySubId sensorID).map (·.deviceType) = some t ∧ Measured es o))

/-- A report has, under every device type, no data or those of a round. -/
def Reports (P : Poco) (cfg : BridgeConfig) (es : List Event) (text : COMStr) : Prop :=
  ∃ report : Object, text = P.stringify (.object .value report) ∧
    ∀ t ∈ cfg.collector.devices.map (·.deviceType), HasData cfg es report t

/-- What the library is relied on for: the empty data are the text of their object, and the
messages of the rounds and the data stored for them are read back. -/
structure Reads (P : Poco) (es : List Event) : Prop where
  empty : P.parse emptyData = .ok (.object .ptr emptyDataObject)
  sent : ∀ sensors relays getTemp timeStamp devID msg,
    Event.round sensors relays getTemp timeStamp devID ∈ es →
    SensorDevice.round sensors relays getTemp timeStamp devID [] = some msg →
    P.ReadsBackValue msg ∧ P.ReadsBackValue (collectDataPoint (Object.reparse msg))

/-! ### The message of a round -/

/-- The shared object is empty or a message. -/
def Shared (dataPoint : Object) : Prop :=
  dataPoint = [] ∨ ∃ timeStamp devID tags, dataPoint = SensorDevice.message timeStamp devID [] tags

/-- A message replaces all that the shared object has. -/
theorem message_of_shared {dataPoint : Object} (h : Shared dataPoint) (timeStamp devID : COMStr)
    (tags : List Object × List Object) :
    SensorDevice.message timeStamp devID dataPoint tags =
      SensorDevice.message timeStamp devID [] tags := by
  rcases h with rfl | ⟨timeStamp', devID', tags', rfl⟩
  · rfl
  · simp [SensorDevice.message, Object.set]

/-- The message of a round does not depend on the shared object. -/
theorem round_of_shared {dataPoint : Object} (h : Shared dataPoint)
    (sensors : List SensorAlarmConfig) (relays : List DefaultRelayState)
    (getTemp : List Char → Rat) (timeStamp devID : COMStr) :
    SensorDevice.round sensors relays getTemp timeStamp devID dataPoint =
      SensorDevice.round sensors relays getTemp timeStamp devID [] := by
  rw [SensorDevice.round, SensorDevice.round]
  simp only [message_of_shared h]

/-- The tags of a message, stored and read back, are the tags of the round. -/
theorem measured_of_round {es : List Event} {sensors : List SensorAlarmConfig}
    {relays : List DefaultRelayState} {getTemp : List Char → Rat} {timeStamp devID : COMStr}
    {msg : Object} (hmem : Event.round sensors relays getTemp timeStamp devID ∈ es)
    (hround : SensorDevice.round sensors relays getTemp timeStamp devID [] = some msg) :
    Measured es (Object.reparse (collectDataPoint (Object.reparse msg))) := by
  rw [SensorDevice.round, Option.map_eq_some_iff] at hround
  obtain ⟨⟨room, outdoor⟩, hdevices, hmsg⟩ := hround
  have htags : ∀ key ∈ tagKeys, ∀ os, msg.lookup key = some (SensorDevice.objects os) →
      Bridge.tags (Object.reparse (collectDataPoint (Object.reparse msg))) key = readTags os := by
    intro key hkey os hlookup
    have hread : Bridge.tags (Object.reparse msg) key = readTags os := by
      rw [Bridge.tags, Object.getArray, Object.lookup_reparse, hlookup]
      simp only [SensorDevice.objects, Option.map_some, Var.reparse, Option.getD_some,
        reparseVals_eq_map, List.map_map]
      rfl
    rw [tags_reparse_collectDataPoint _ hkey, hread, readTags, List.map_map]
    simp only [Function.comp_def, Var.reparse_reparse]
  refine ⟨sensors, relays, getTemp, timeStamp, devID, room, outdoor, hmem, hdevices, ?_⟩
  rw [← hmsg] at htags ⊢
  refine ⟨htags _ (by decide) _ rfl, htags _ (by decide) _ rfl, htags _ (by decide) [] rfl,
    htags _ (by decide) [] rfl⟩

/-! ### What may stand in Redis -/

section Allowed

variable (P : Poco) (cfg : BridgeConfig) (es : List Event)

/-- A text on the bus is the message of a round. -/
def Sent (text : COMStr) : Prop :=
  ∃ sensors relays getTemp timeStamp devID msg,
    Event.round sensors relays getTemp timeStamp devID ∈ es ∧
    SensorDevice.round sensors relays getTemp timeStamp devID [] = some msg ∧
    text = P.stringify (.object .value msg)

/-- A text stored for a type is that of data measured. -/
def Stored (t text : COMStr) : Prop :=
  (cfg.collector.findBySubId sensorID).map (·.deviceType) = some t ∧
    ∃ o, P.parse text = .ok (.object .ptr o) ∧ Measured es o

/-- The values that may stand under a key. -/
def AllowedVal (k v : COMStr) : Prop := ∀ t, k = collectorKey t → v = "" ∨ Stored P cfg es t v

/-- The elements a list may have. -/
def AllowedElem (k v : COMStr) : Prop :=
  (k = dataBus → Sent P es v) ∧ (k = m2cDataQueue → Reports P cfg es v)

end Allowed

section Bridge

variable {P : Poco} {cfg : BridgeConfig} {es : List Event}

/-- The type just set, and the others, stay so. -/
theorem HasData.set {report : Object} {types : List COMStr} {t : COMStr} {o : Object}
    (h : ∀ t' ∈ types, HasData cfg es report t')
    (ho : NoData o ∨
      ((cfg.collector.findBySubId sensorID).map (·.deviceType) = some t ∧ Measured es o)) :
    ∀ t' ∈ types ++ [t], HasData cfg es (Object.set report t (.object .ptr o)) t' := by
  intro t' ht'
  by_cases he : t' = t
  · subst he
    exact ⟨o, Object.get_set_self _ _ _, ho⟩
  · rw [HasData, Object.get_set_of_ne _ _ he]
    rcases List.mem_append.mp ht' with ht' | ht'
    · exact h t' ht'
    · exact absurd (List.mem_singleton.mp ht') he

/-- The loop over the devices reads allowed data and clears them. -/
theorem writes_dataPoints (hP : Reads P es) (devices : List DeviceConfig) :
    ∀ (report : Object) (types : List COMStr), (∀ t ∈ types, HasData cfg es report t) →
      (dataPoints P report devices).Writes (AllowedVal P cfg es) (AllowedElem P cfg es)
        fun report' ↦ ∀ t ∈ types ++ devices.map (·.deviceType), HasData cfg es report' t := by
  induction devices with
  | nil =>
    intro report types h t ht
    rw [List.map_nil, List.append_nil] at ht
    exact h t ht
  | cons dev rest ih =>
    intro report types h
    -- the data of the device go into the report, and the loop goes on
    have hnext : ∀ data o, P.parse data = .ok (.object .ptr o) →
        (NoData o ∨ ((cfg.collector.findBySubId sensorID).map (·.deviceType) = some dev.deviceType ∧
          Measured es o)) →
        (do
          let result ← Prog.ofExcept (P.parse data)
          let jData ← Prog.ofExcept result.extractObject
          dataPoints P (Object.set report dev.deviceType (.object .ptr jData)) rest :
            RedisProg Object).Writes (AllowedVal P cfg es) (AllowedElem P cfg es)
          fun report' ↦
            ∀ t ∈ types ++ (dev :: rest).map (·.deviceType), HasData cfg es report' t := by
      intro data o hparse ho
      rw [hparse]
      have hrest := ih _ _ (HasData.set h ho)
      rw [List.append_assoc] at hrest
      exact hrest
    rw [dataPoints]
    intro v hv
    by_cases hempty : v = ""
    · simp only [if_pos hempty]
      exact hnext emptyData _ hP.empty (.inl fun _ ↦ Bridge.tags_emptyDataObject)
    · simp only [if_neg hempty]
      rcases hv dev.deviceType rfl with hv | ⟨htype, o, hparse, ho⟩
      · exact absurd hv hempty
      · exact ⟨fun _ _ ↦ .inl rfl, hnext v o hparse (.inr ⟨htype, ho⟩)⟩

/-- A tick reads allowed data and pushes a report. -/
theorem writes_dataPointProcessor (hP : Reads P es) (timeStamp : COMStr) :
    (dataPointProcessor P cfg timeStamp).Writes (AllowedVal P cfg es) (AllowedElem P cfg es)
      fun _ ↦ True := by
  rw [dataPointProcessor]
  have hnone : ∀ t ∈ ([] : List COMStr), HasData cfg es (header cfg timeStamp) t :=
    fun t ht ↦ absurd ht List.not_mem_nil
  refine (writes_dataPoints hP cfg.collector.devices (header cfg timeStamp) [] hnone).bind ?_
  intro report hreport
  rw [List.nil_append] at hreport
  rw [pushReport]
  split
  · trivial
  · refine ⟨⟨?_, fun _ ↦ ⟨report, rfl, hreport⟩⟩, ?_, trivial⟩
    · intro hkey
      exact absurd hkey (by decide)
    · intro t ht
      exact absurd ht.symm (collectorKey_ne_liveDataKey t)

/-- The listener stores data measured, under the type of the sensor process. -/
theorem holds_listen (hP : Reads P es) {redis : Redis}
    (h : redis.Holds (AllowedVal P cfg es) (AllowedElem P cfg es)) {text : COMStr}
    (hsent : Sent P es text) :
    (listen P cfg.collector redis text).Holds (AllowedVal P cfg es) (AllowedElem P cfg es) := by
  cases haccepted : accepted P cfg.collector text with
  | none =>
    rw [listen_of_not_accepted haccepted]
    exact h
  | some dm =>
    obtain ⟨d, jmsg⟩ := dm
    rw [listen_of_accepted haccepted]
    apply h.set
    intro t ht
    right
    obtain ⟨sensors, relays, getTemp, timeStamp, devID, msg, hmem, hround, rfl⟩ := hsent
    obtain ⟨hread, hstored⟩ := hP.sent _ _ _ _ _ _ hmem hround
    rw [accepted, hread] at haccepted
    simp only [bind, Except.bind, Var.extractObject, Option.map_eq_some_iff] at haccepted
    obtain ⟨d', hd', he⟩ := haccepted
    cases he
    refine ⟨?_, _, hstored, measured_of_round hmem hround⟩
    have htext : Object.text P (Object.reparse msg) "sub_device_id" = sensorID := by
      rw [SensorDevice.round, Option.map_eq_some_iff] at hround
      obtain ⟨⟨room, outdoor⟩, -, rfl⟩ := hround
      rfl
    rw [htext] at hd'
    rw [hd', Option.map_some, collectorKey_inj.mp ht]

end Bridge

/-! ### Runs -/

/-- The sensors of all rounds are found: else the process reads addresses never assigned. -/
def Found (es : List Event) : Prop :=
  ∀ sensors relays getTemp timeStamp devID,
    Event.round sensors relays getTemp timeStamp devID ∈ es → SensorDevice.devices sensors ≠ none

/-- What holds in a run on some events. -/
structure Inv (P : Poco) (cfg : BridgeConfig) (mqtt : MqttBrokerConfig_T) (es : List Event)
    (s : Gateway) : Prop where
  shared : Shared s.dataPoint
  redis : s.bridge.redis.Holds (AllowedVal P cfg es) (AllowedElem P cfg es)
  timer : ∀ p, s.bridge.timer = some p →
    p.Writes (AllowedVal P cfg es) (AllowedElem P cfg es) fun _ ↦ True
  topicData : s.client.dataSet.topicData = mqtt.topicData
  published : ∀ p ∈ s.published, p.1 = mqtt.topicData ∧ Reports P cfg es p.2

section Steps

variable {P : Poco} {cfg : BridgeConfig} {mqtt : MqttBrokerConfig_T} {es : List Event}
  {s : Gateway}

/-- Nothing has been measured. -/
theorem inv_initial (P : Poco) (cfg : BridgeConfig) (mqtt : MqttBrokerConfig_T) (es : List Event)
    (subscribes : COMStr) (clock : Nat) : Inv P cfg mqtt es (initial mqtt subscribes clock) :=
  ⟨.inl rfl, ⟨fun _ _ _ ↦ .inl rfl, nofun⟩, nofun, rfl, nofun⟩

/-- A round. -/
theorem inv_round (hfound : Found es) {sensors : List SensorAlarmConfig}
    {relays : List DefaultRelayState} {getTemp : List Char → Rat} {timeStamp devID : COMStr}
    (hmem : Event.round sensors relays getTemp timeStamp devID ∈ es) (h : Inv P cfg mqtt es s) :
    Inv P cfg mqtt es (s.round P sensors relays getTemp timeStamp devID) := by
  rw [Gateway.round, round_of_shared h.shared]
  cases hround : SensorDevice.round sensors relays getTemp timeStamp devID [] with
  | none =>
    rw [SensorDevice.round, Option.map_eq_none_iff] at hround
    exact absurd hround (hfound _ _ _ _ _ hmem)
  | some msg =>
    refine ⟨.inr ?_, h.redis.push ⟨?_, ?_⟩, h.timer, h.topicData, h.published⟩
    · rw [SensorDevice.round, Option.map_eq_some_iff] at hround
      obtain ⟨_, -, rfl⟩ := hround
      exact ⟨_, _, _, rfl⟩
    · exact fun _ ↦ ⟨sensors, relays, getTemp, timeStamp, devID, msg, hmem, hround, rfl⟩
    · intro hkey
      exact absurd hkey (by decide)

/-- A message of the bus is handled. -/
theorem inv_collect (hP : Reads P es) (i : Nat) (h : Inv P cfg mqtt es s) :
    Inv P cfg mqtt es (s.collect P cfg i) := by
  unfold Gateway.collect
  split
  · exact h
  · next msg hmsg =>
    have hsent := (h.redis.lists dataBus msg (List.mem_of_getElem? hmsg)).1 rfl
    exact ⟨h.shared, (holds_listen hP h.redis hsent).erase dataBus i, h.timer, h.topicData,
      h.published⟩

/-- The timer thread begins a tick, or does its next operation. -/
theorem inv_bridge (hP : Reads P es) {e : Bridge.Event} (he : ∀ msg, e ≠ .message msg)
    (h : Inv P cfg mqtt es s) :
    Inv P cfg mqtt es { s with bridge := Bridge.step P cfg s.bridge e } := by
  cases e with
  | message msg => exact absurd rfl (he msg)
  | tick timeStamp =>
    cases htimer : s.bridge.timer with
    | some p =>
      simp only [Bridge.step, htimer]
      exact h
    | none =>
      simp only [Bridge.step, htimer]
      refine ⟨h.shared, h.redis, ?_, h.topicData, h.published⟩
      intro p hp
      cases hp
      exact writes_dataPointProcessor hP timeStamp
  | timer =>
    cases htimer : s.bridge.timer with
    | none =>
      simp only [Bridge.step, htimer]
      exact h
    | some p =>
      have hnone : ∀ q : RedisProg Unit, none = some q →
          q.Writes (AllowedVal P cfg es) (AllowedElem P cfg es) fun _ ↦ True :=
        fun q hq ↦ absurd hq (Option.some_ne_none q).symm
      obtain ⟨hwrites, hholds⟩ := (h.timer p htimer).step h.redis
      simp only [Bridge.step, htimer]
      rcases hstep : p.step s.bridge.redis with ⟨p', redis'⟩
      rw [hstep] at hwrites hholds
      split
      · next he =>
        cases he
        exact ⟨h.shared, hholds, hnone, h.topicData, h.published⟩
      · next he =>
        cases he
        exact ⟨h.shared, hholds, hnone, h.topicData, h.published⟩
      · next he =>
        cases he
        refine ⟨h.shared, hholds, ?_, h.topicData, h.published⟩
        intro q hq
        cases hq
        exact hwrites

/-- A message of the queue is handled. -/
theorem inv_publish (i : Nat) (delivered : Bool) (h : Inv P cfg mqtt es s) :
    Inv P cfg mqtt es (s.publish i delivered) := by
  unfold Gateway.publish
  split
  · exact h
  · split
    · exact h
    · next msg hmsg =>
      split
      · exact h
      · exact ⟨h.shared, h.redis, h.timer, h.topicData, h.published⟩
      · next topic payload hsends =>
        obtain ⟨rfl, htopic⟩ := M2C_MQTT.publish_eq_sends hsends
        have hreports := (h.redis.lists m2cDataQueue payload (List.mem_of_getElem? hmsg)).2 rfl
        have hpublished : ∀ p ∈ s.published ++ [(topic, payload)],
            p.1 = mqtt.topicData ∧ Reports P cfg es p.2 := by
          intro p hp
          rcases List.mem_append.mp hp with hp | hp
          · exact h.published p hp
          · cases List.mem_singleton.mp hp
            exact ⟨htopic.trans h.topicData, hreports⟩
        cases delivered with
        | true =>
          exact ⟨h.shared, h.redis.erase m2cDataQueue i, h.timer, h.topicData, hpublished⟩
        | false => exact ⟨h.shared, h.redis, h.timer, h.topicData, hpublished⟩

/-- Any event. -/
theorem inv_step (hP : Reads P es) (hfound : Found es) {e : Event} (he : e ∈ es)
    (h : Inv P cfg mqtt es s) : Inv P cfg mqtt es (step P cfg s e) := by
  cases e with
  | round sensors relays getTemp timeStamp devID => exact inv_round hfound he h
  | respawn => exact ⟨.inl rfl, h.redis, h.timer, h.topicData, h.published⟩
  | collect i => exact inv_collect hP i h
  | tick timeStamp => exact inv_bridge hP nofun h
  | timer => exact inv_bridge hP nofun h
  | client e =>
    exact ⟨h.shared, h.redis, h.timer, (CloudLink.topicData_step s.client e).trans h.topicData,
      h.published⟩
  | publish i delivered => exact inv_publish i delivered h

end Steps

/-- The message of the round. -/
def oneMessage : Object :=
  SensorDevice.message "0" "d378e0b5" []
    (SensorDevice.tags SensorDevice.shippedSensors SensorDevice.shippedRelays 21 21)

/-- An operation of a tick that does not end it. -/
theorem step_timer {P : Poco} {cfg : BridgeConfig} {p p' : RedisProg Unit} {redis redis' : Redis}
    (hstep : p.step redis = (p', redis')) (hgoes : ∀ r, p' ≠ .done r) (h : History) :
    Bridge.step P cfg ⟨redis, some p, h⟩ .timer = ⟨redis', some p', h.observe p⟩ := by
  simp only [Bridge.step, hstep]
  cases p' with
  | done r => exact absurd rfl (hgoes r)
  | _ => rfl

end IcsGateway.Pipeline
