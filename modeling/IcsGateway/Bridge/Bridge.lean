import IcsGateway.Lib.KeyStore
import IcsGateway.Common.ComConfig

/-!
# The Bridge

The listener thread stores the tags of each collected message in Redis under the type of its
device; the timer thread reads the types one by one, clears what it read and pushes one
report to the queue of the cloud process (`Bridge/Bridge.cpp`). Both are programs over the
Redis store, so that their operations can be interleaved.
-/

namespace IcsGateway

open Lib

/-- The local Redis. -/
abbrev Redis := Store COMStr COMStr

/-- Code that works on Redis. -/
abbrev RedisProg := Prog COMStr COMStr Exn

/-- What the Bridge reads of its configuration. -/
structure BridgeConfig where
  name : COMStr
  devID : COMStr
  collector : CollectorConfig_T

namespace Bridge

/-- `REDIS_COLLECTOR_PREFIX + DeviceType`; `Common/ComDefinition.h:104`. -/
def collectorKey (deviceType : COMStr) : COMStr := "collector_" ++ deviceType

/-- `REDIS_M2C_DATA_QUEUE + NodeKeys::MQTT`; `Common/ComDefinition.h:100`. -/
def m2cDataQueue : COMStr := "M2C_DATA_" ++ "MQTT"

/-- `REDIS_LIVE_DATA_KEY`; `Common/ComDefinition.h:101`. -/
def liveDataKey : COMStr := "live_data"

/-- The data of a type whose key is empty; `Bridge/Bridge.cpp:56`. -/
def emptyData : COMStr :=
  "\x7b\"good_tags\":[],\"error_tags\":[],\"low_alarm\":[],\"high_alarm\":[]\x7d"

/-! ### The timer thread -/

/-- The loop over the devices; `Bridge/Bridge.cpp:51–65`. -/
def dataPoints (P : Poco) (dataPoint : Object) : List DeviceConfig → RedisProg Object
  | [] => pure dataPoint
  | dev :: rest =>
    .get (collectorKey dev.deviceType) fun data ↦
      let next (data : COMStr) : RedisProg Object := do
        let result ← Prog.ofExcept (P.parse data)
        let jData ← Prog.ofExcept result.extractObject
        dataPoints P (Object.set dataPoint dev.deviceType (.object .ptr jData)) rest
      if data = "" then next emptyData
      else .set (collectorKey dev.deviceType) "" (next data)

/-- The members every report begins with; `Bridge/Bridge.cpp:47–50`. -/
def header (cfg : BridgeConfig) (timeStamp : COMStr) : Object :=
  Object.set (Object.set (Object.set [] "time_stamp" (.str timeStamp)) "name" (.str cfg.name))
    "master_device_id" (.str cfg.devID)

/-- Pushing the report; `Bridge/Bridge.cpp:67–79`. -/
def pushReport (P : Poco) (cfg : BridgeConfig) (dataPoint : Object) : RedisProg Unit :=
  let msg := P.stringify (.object .value dataPoint)
  if cfg.devID = "" then pure ()
  else .push m2cDataQueue msg (.set liveDataKey msg (pure ()))

/-- `DataPointProcessor`, for the text of the clock; `Bridge/Bridge.cpp:41`. -/
def dataPointProcessor (P : Poco) (cfg : BridgeConfig) (timeStamp : COMStr) : RedisProg Unit := do
  let dataPoint ← dataPoints P (header cfg timeStamp) cfg.collector.devices
  pushReport P cfg dataPoint

/-! ### The listener thread -/

/-- One tag list, copied from the message into the data point unless it is there and not an
array; `Bridge/Bridge.cpp:111–116`. The first component is the message, to which `JGET_ARR`
adds an absent list. -/
def copyTags (key : COMStr) (msgAndPoint : Object × Object) : Object × Object :=
  let (jTags, jmsg) := JGET_ARR msgAndPoint.1 key
  match jTags.vals with
  | none => (jmsg, msgAndPoint.2)
  | some vs => (jmsg, Object.set msgAndPoint.2 key (.array .ptr vs))

/-- The data point stored for a message; `Bridge/Bridge.cpp:109–137`. -/
def collectDataPoint (jmsg : Object) : Object :=
  (copyTags "high_alarm" (copyTags "low_alarm" (copyTags "error_tags"
    (copyTags "good_tags" (jmsg, []))))).2

/-- `ProcessCollectData`; `Bridge/Bridge.cpp:82`. Both `catch` blocks return, and so does the
test for the invalid device. -/
def processCollectData (P : Poco) (cfg : CollectorConfig_T) (msg : COMStr) : RedisProg Bool :=
  match (do (← P.parse msg).extractObject : Except Exn Object) with
  | .error _ => pure true
  | .ok jmsg => do
    let subId ← Prog.ofExcept (JGET P.convertStr "" (some jmsg) "sub_device_id")
    match cfg.findBySubId subId with
    | none => pure true
    | some d =>
      .set (collectorKey d.deviceType) (P.stringify (.object .value (collectDataPoint jmsg)))
        (pure true)

/-! ### What a message is stored as -/

/-- The tags a message or a data point has under a key. -/
def tags (o : Object) (key : COMStr) : List Var := (Object.getArray o key).getD []

/-- The keys of the four tag lists. -/
def tagKeys : List COMStr := ["good_tags", "error_tags", "low_alarm", "high_alarm"]

private theorem copyTags_eq (key : COMStr) (st : Object × Object) :
    copyTags key st = ((JGET_ARR st.1 key).2,
      match (JGET_ARR st.1 key).1.vals with
      | none => st.2
      | some vs => Object.set st.2 key (.array .ptr vs)) := by
  rw [copyTags]
  simp only
  split <;> rfl

private theorem lookup_copyTags_self {key : COMStr} {st : Object × Object}
    (h : st.2.lookup key = none) :
    (copyTags key st).2.lookup key = (JGET_ARR st.1 key).1.vals.map (.array .ptr) := by
  rw [copyTags_eq]
  cases (JGET_ARR st.1 key).1.vals with
  | none => exact h
  | some vs => simp only [Object.lookup_set, ↓reduceIte, Option.map_some]

private theorem lookup_copyTags_of_ne {key k : COMStr} (h : k ≠ key) (st : Object × Object) :
    (copyTags key st).2.lookup k = st.2.lookup k := by
  rw [copyTags_eq]
  cases (JGET_ARR st.1 key).1.vals with
  | none => rfl
  | some vs => simp only [Object.lookup_set, if_neg h]

private theorem JGET_ARR_copyTags_of_ne {key k : COMStr} (h : k ≠ key) (st : Object × Object) :
    (JGET_ARR (copyTags key st).1 k).1 = (JGET_ARR st.1 k).1 := by
  apply JGET_ARR_congr
  rw [copyTags_eq]
  exact lookup_JGET_ARR h

/-- Under each of the four keys the data point has what the message has there, by pointer. -/
theorem lookup_collectDataPoint (jmsg : Object) {key : COMStr} (h : key ∈ tagKeys) :
    (collectDataPoint jmsg).lookup key = (JGET_ARR jmsg key).1.vals.map (.array .ptr) := by
  simp only [tagKeys, List.mem_cons, List.not_mem_nil, or_false] at h
  rw [collectDataPoint]
  rcases h with rfl | rfl | rfl | rfl
  · rw [lookup_copyTags_of_ne (by decide), lookup_copyTags_of_ne (by decide),
      lookup_copyTags_of_ne (by decide), lookup_copyTags_self rfl]
  · rw [lookup_copyTags_of_ne (by decide), lookup_copyTags_of_ne (by decide),
      lookup_copyTags_self, JGET_ARR_copyTags_of_ne (by decide)]
    rw [lookup_copyTags_of_ne (by decide)]
    rfl
  · rw [lookup_copyTags_of_ne (by decide), lookup_copyTags_self,
      JGET_ARR_copyTags_of_ne (by decide), JGET_ARR_copyTags_of_ne (by decide)]
    rw [lookup_copyTags_of_ne (by decide), lookup_copyTags_of_ne (by decide)]
    rfl
  · rw [lookup_copyTags_self, JGET_ARR_copyTags_of_ne (by decide),
      JGET_ARR_copyTags_of_ne (by decide), JGET_ARR_copyTags_of_ne (by decide)]
    rw [lookup_copyTags_of_ne (by decide), lookup_copyTags_of_ne (by decide),
      lookup_copyTags_of_ne (by decide)]
    rfl

/-- The stored tags, read back, are the tags of the message. -/
theorem tags_reparse_collectDataPoint (jmsg : Object) {key : COMStr} (h : key ∈ tagKeys) :
    tags (Object.reparse (collectDataPoint jmsg)) key = (tags jmsg key).map Var.reparse := by
  rw [tags, tags, ← getD_vals_JGET_ARR jmsg, Object.getArray, Object.lookup_reparse,
    lookup_collectDataPoint jmsg h]
  cases (JGET_ARR jmsg key).1.vals with
  | none => rfl
  | some vs => simp [Var.reparse, reparseVals_eq_map]

/-- A message that is stored: its device and its object. -/
def accepted (P : Poco) (cfg : CollectorConfig_T) (msg : COMStr) :
    Option (DeviceConfig × Object) :=
  match (do (← P.parse msg).extractObject : Except Exn Object) with
  | .error _ => none
  | .ok jmsg => (cfg.findBySubId (Object.text P jmsg "sub_device_id")).map (·, jmsg)

/-- The listener stores the data point of an accepted message, and does nothing else. -/
theorem processCollectData_eq (P : Poco) (cfg : CollectorConfig_T) (msg : COMStr) :
    processCollectData P cfg msg =
      match accepted P cfg msg with
      | none => pure true
      | some (d, jmsg) =>
        .set (collectorKey d.deviceType) (P.stringify (.object .value (collectDataPoint jmsg)))
          (pure true) := by
  rw [processCollectData, accepted]
  cases (do (← P.parse msg).extractObject : Except Exn Object) with
  | error e => rfl
  | ok jmsg =>
    simp only [JGET_convertStr]
    change (match cfg.findBySubId (Object.text P jmsg "sub_device_id") with
      | none => pure true
      | some d => _) = _
    cases cfg.findBySubId (Object.text P jmsg "sub_device_id") <;> rfl

/-- The device of an accepted message is configured. -/
theorem mem_of_accepted {P : Poco} {cfg : CollectorConfig_T} {msg : COMStr} {d : DeviceConfig}
    {jmsg : Object} (h : accepted P cfg msg = some (d, jmsg)) : d ∈ cfg.devices := by
  rw [accepted] at h
  split at h
  · cases h
  · rw [Option.map_eq_some_iff] at h
    obtain ⟨d', hd, he⟩ := h
    cases he
    exact List.mem_of_find?_eq_some hd

end Bridge
end IcsGateway
