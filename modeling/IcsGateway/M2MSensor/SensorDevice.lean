import Mathlib.Data.List.Induction
import Mathlib.Data.List.Nodup
import IcsGateway.Common.ComConfig
import IcsGateway.M2MSensor.DS18B20

/-!
# Collecting the sensors

`SensorDevice::StartCollecting` looks for its two devices among the configured sensors once, and
then sends one message in each round: the sensors whose tags begin like that of a device, and the
relays (`M2M_SENSOR/SensorDevice.cpp:30`).
-/

namespace IcsGateway

open ComUtil

/-- A string as `c_str` gives it. -/
def cString (s : COMStr) : COMStr := String.ofList (cStr s.toList)

/-- `strncmp(s.c_str(), t, n) == 0`. -/
def strncmpEq (s t : COMStr) (n : Nat) : Bool := (cStr s.toList).take n = (cStr t.toList).take n

namespace SensorDevice

/-- The tag of the sensor in the room. -/
def isRoom (s : SensorAlarmConfig) : Bool := strncmpEq s.tag "RoomTemperature" 15

/-- The tag of the sensor outside. -/
def isOutdoor (s : SensorAlarmConfig) : Bool := strncmpEq s.tag "OutdoorTemperature" 18

/-- The addresses of the two devices, each of the last sensor with such a tag;
`M2M_SENSOR/SensorDevice.cpp:86–94`. -/
def addresses (sensors : List SensorAlarmConfig) : Option COMStr × Option COMStr :=
  sensors.foldl (fun (room, outdoor) s ↦
    if isRoom s then (some (cString s.address), outdoor)
    else if isOutdoor s then (room, some (cString s.address))
    else (room, outdoor)) (none, none)

/-- The devices; none where the address of one has not been assigned;
`M2M_SENSOR/SensorDevice.cpp:95`. -/
def devices (sensors : List SensorAlarmConfig) : Option (DS18B20 × DS18B20) := do
  let room ← (addresses sensors).1
  let outdoor ← (addresses sensors).2
  some (.new room, .new outdoor)

/-- The tags of sensors, each in an object of its own. -/
def tagObjs (sensors : List SensorAlarmConfig) (value : Var) : List Object :=
  sensors.map fun s ↦ Object.set [] (cString s.tag) value

/-- The tags of one device are added to `error_tags` or to `good_tags`;
`M2M_SENSOR/SensorDevice.cpp:125–167`. -/
def addSensors (sensors : List SensorAlarmConfig) (temp : Rat) (tags : List Object × List Object) :
    List Object × List Object :=
  if temp = -2 ∨ temp = -1 then (tags.1 ++ tagObjs sensors (.str "Not read data"), tags.2)
  else (tags.1, tags.2 ++ tagObjs sensors (.double temp))

/-- The object of a relay; `M2M_SENSOR/SensorDevice.cpp:169–177`. -/
def relayObj (r : DefaultRelayState) : Object :=
  if r.index = 1 then Object.set [] (cString r.tag) (.int r.state.toInt)
  else if r.index = 2 then Object.set [] (cString r.tag) (.int r.state.toInt)
  else []

/-- `error_tags` and `good_tags` of a round. -/
def tags (sensors : List SensorAlarmConfig) (relays : List DefaultRelayState)
    (romTemp outDoorTemp : Rat) : List Object × List Object :=
  let (error, good) := addSensors (sensors.filter isOutdoor) outDoorTemp
    (addSensors (sensors.filter isRoom) romTemp ([], []))
  (error, good ++ relays.map relayObj)

/-- The objects of an array in a message. -/
def objects (os : List Object) : Var := .array .value (os.map (Var.object .value))

/-- The message of a round, in the object that all rounds share;
`M2M_SENSOR/SensorDevice.cpp:120–182`. -/
def message (timeStamp devID : COMStr) (dataPoint : Object) (tags : List Object × List Object) :
    Object :=
  let dataPoint := Object.set dataPoint "time_stamp" (.str timeStamp)
  let dataPoint := Object.set dataPoint "name" (.str "sensor")
  let dataPoint := Object.set dataPoint "sub_device_id"
    (.str "c78ferf4-c5an-8983-1e2d-kio3nhenbwec")
  let dataPoint := Object.set dataPoint "master_device_id" (.str devID)
  let dataPoint := Object.set dataPoint "error_tags" (objects tags.1)
  let dataPoint := Object.set dataPoint "good_tags" (objects tags.2)
  let dataPoint := Object.set dataPoint "high_alarm" (objects [])
  Object.set dataPoint "low_alarm" (objects [])

/-- One round, with what `getTemp` returns for the file at a path; none when the devices have not
been found. -/
def round (sensors : List SensorAlarmConfig) (relays : List DefaultRelayState)
    (getTemp : List Char → Rat) (timeStamp devID : COMStr) (dataPoint : Object) : Option Object :=
  (devices sensors).map fun (w1Device1, w1Device2) ↦
    message timeStamp devID dataPoint
      (tags sensors relays (getTemp w1Device1.path) (getTemp w1Device2.path))

/-! ### What the message is for -/

/-- The tags of an array in a message, with their values. -/
def entries (msg : Object) (key : COMStr) : Object :=
  match Object.get msg key with
  | .array _ vs => vs.flatMap fun
    | .object _ o => o
    | _ => []
  | _ => []

/-- How often a tag stands in an array. -/
def occurrences (msg : Object) (key tag : COMStr) : Nat := ((entries msg key).map (·.1)).count tag

/-- Every tag stands in the message once, with the value of the sensor at its own address or the
state of the relay, and no other tag does. -/
structure Complete (sensors : List SensorAlarmConfig) (relays : List DefaultRelayState)
    (getTemp : List Char → Rat) (msg : Object) : Prop where
  sensor_once : ∀ s ∈ sensors, occurrences msg "good_tags" s.tag +
    occurrences msg "error_tags" s.tag = 1
  sensor_value : ∀ s ∈ sensors, ∀ v, (s.tag, v) ∈ entries msg "good_tags" →
    v = .double (getTemp (DS18B20.file s.address))
  relay_once : ∀ r ∈ relays, occurrences msg "good_tags" r.tag = 1
  relay_state : ∀ r ∈ relays, (r.tag, Var.int r.state.toInt) ∈ entries msg "good_tags"
  no_other : ∀ e ∈ entries msg "good_tags" ++ entries msg "error_tags",
    e.1 ∈ sensors.map (·.tag) ++ relays.map (·.tag)

/-- The relays that have a place in the message. -/
def shown (relays : List DefaultRelayState) : List DefaultRelayState :=
  relays.filter fun r ↦ r.index = 1 ∨ r.index = 2

/-- The sensors that have a place in the message. -/
def collected (sensors : List SensorAlarmConfig) : List SensorAlarmConfig :=
  sensors.filter fun s ↦ isRoom s || isOutdoor s

/-- There is a sensor for each device, the sensors of a device have one address, which is short,
and the tags that have a place in the message are distinct. -/
structure Sound (sensors : List SensorAlarmConfig) (relays : List DefaultRelayState) : Prop where
  room : ∃ s ∈ sensors, isRoom s = true
  outdoor : ∃ s ∈ sensors, isOutdoor s = true
  one_address : ∀ s ∈ collected sensors, ∀ s' ∈ collected sensors, isRoom s = isRoom s' →
    s.address = s'.address
  short_address : ∀ s ∈ collected sensors, s.address.toList.length ≤ 16
  plain : (∀ s ∈ collected sensors, '\x00' ∉ s.address.toList ∧ '\x00' ∉ s.tag.toList) ∧
    ∀ r ∈ shown relays, '\x00' ∉ r.tag.toList
  distinct : ((collected sensors).map (·.tag) ++ (shown relays).map (·.tag)).Nodup

/-- Sensors and relays that all have a place in the message. -/
structure Covered (sensors : List SensorAlarmConfig) (relays : List DefaultRelayState) :
    Prop where
  room : ∃ s ∈ sensors, isRoom s = true
  outdoor : ∃ s ∈ sensors, isOutdoor s = true
  kind : ∀ s ∈ sensors, isRoom s = true ∨ isOutdoor s = true
  one_address : ∀ s ∈ sensors, ∀ s' ∈ sensors, isRoom s = isRoom s' → s.address = s'.address
  short_address : ∀ s ∈ sensors, s.address.toList.length ≤ 16
  plain : (∀ s ∈ sensors, '\x00' ∉ s.address.toList ∧ '\x00' ∉ s.tag.toList) ∧
    ∀ r ∈ relays, '\x00' ∉ r.tag.toList
  distinct : (sensors.map (·.tag) ++ (shown relays).map (·.tag)).Nodup
  relay : ∀ r ∈ relays, ∃ r' ∈ shown relays, r'.tag = r.tag ∧ r'.state = r.state

/-! ### Strings and paths -/

end SensorDevice

/-- A string without the character that ends it. -/
theorem cString_of_plain {s : COMStr} (h : '\x00' ∉ s.toList) : cString s = s := by
  have hall : cStr s.toList = s.toList := by
    rw [cStr, List.takeWhile_eq_self_iff]
    intro c hc
    rw [decide_eq_true_eq]
    rintro rfl
    exact h hc
  rw [cString, hall, String.ofList_toList]

/-- A string as `c_str` gives it has none. -/
theorem plain_cString (s : COMStr) : '\x00' ∉ (cString s).toList := by
  rw [cString, String.toList_ofList, cStr]
  intro h
  have hne := List.all_eq_true.mp List.all_takeWhile _ h
  exact of_decide_eq_true hne rfl

/-- It is compared like the string. -/
theorem strncmpEq_cString (s t : COMStr) (n : Nat) :
    strncmpEq (cString s) t n = strncmpEq s t n := by
  have hall : cStr (cString s).toList = cStr s.toList := by
    rw [cString, String.toList_ofList, cStr, cStr, List.takeWhile_takeWhile]
    simp
  rw [strncmpEq, hall, strncmpEq]

namespace DS18B20

private theorem length_bus : bus.toList.length = 20 := by decide +kernel

private theorem length_tempFile : tempFile.toList.length = 9 := by decide +kernel

/-- Files have the names of their devices. -/
theorem file_inj {a b : COMStr} (h : file a = file b) : a = b :=
  String.toList_inj.mp (List.append_cancel_right (List.append_cancel_left h))

/-- The path of a device is its file when the address is short. -/
theorem path_new {a : COMStr} (hlength : a.toList.length ≤ 16) (hplain : '\x00' ∉ a.toList) :
    (new (cString a)).path = file a := by
  have hfile : (file a).length ≤ 45 := by
    rw [file, List.length_append, List.length_append, length_bus, length_tempFile]
    omega
  rw [cString_of_plain hplain, new, List.take_of_length_le hfile]

/-- Only then is it the file of a device. -/
theorem of_path_eq_file {a b : COMStr} (h : (new (cString a)).path = file b) :
    b.toList.length ≤ 16 ∧ '\x00' ∉ b.toList := by
  rw [new] at h
  constructor
  · have hlength : (file b).length ≤ 45 := by
      rw [← h]
      exact List.length_take_le 45 _
    rw [file, List.length_append, List.length_append, length_bus, length_tempFile] at hlength
    omega
  · intro hmem
    have hfile : '\x00' ∈ file b := List.mem_append_right _ (List.mem_append_left _ hmem)
    rw [← h] at hfile
    rcases List.mem_append.mp (List.mem_of_mem_take hfile) with hpath | hpath
    · revert hpath
      decide +kernel
    · rcases List.mem_append.mp hpath with hpath | hpath
      · exact plain_cString a hpath
      · revert hpath
        decide +kernel

end DS18B20

namespace SensorDevice

/-- No tag is that of both devices. -/
theorem isRoom_eq_false {s : SensorAlarmConfig} (h : isOutdoor s = true) : isRoom s = false := by
  rw [isOutdoor, strncmpEq, decide_eq_true_eq] at h
  rw [isRoom, strncmpEq, decide_eq_false_iff_not]
  intro hroom
  have hshort := congrArg (List.take 15) h
  rw [List.take_take, List.take_take] at hshort
  exact absurd (hroom.symm.trans hshort) (by decide +kernel)

/-- The device of a kind of tags is that of the last sensor with such a tag. -/
private theorem addresses_eq (sensors : List SensorAlarmConfig) : addresses sensors =
    ((sensors.filter isRoom).getLast?.map fun s ↦ cString s.address,
      (sensors.filter isOutdoor).getLast?.map fun s ↦ cString s.address) := by
  rw [addresses]
  induction sensors using List.reverseRecOn with
  | nil => rfl
  | append_singleton sensors s ih =>
    rw [List.foldl_append, ih, List.foldl_cons, List.foldl_nil, List.filter_append,
      List.filter_append]
    cases hroom : isRoom s with
    | true =>
      have hout : isOutdoor s = false := by
        rw [← Bool.not_eq_true]
        intro hout
        rw [isRoom_eq_false hout] at hroom
        cases hroom
      simp [hroom, hout]
    | false =>
      cases hout : isOutdoor s with
      | true => simp [hroom, hout]
      | false => simp [hroom, hout]

/-! ### The entries of a message -/

/-- The entries of sensors. -/
private def sensorEntries (sensors : List SensorAlarmConfig) (value : Var) : Object :=
  sensors.map fun s ↦ (cString s.tag, value)

/-- The entries of relays. -/
private def relayEntries (relays : List DefaultRelayState) : Object :=
  (shown relays).map fun r ↦ (cString r.tag, .int r.state.toInt)

private theorem flatten_tagObjs (sensors : List SensorAlarmConfig) (value : Var) :
    (tagObjs sensors value).flatten = sensorEntries sensors value := by
  rw [tagObjs, sensorEntries]
  induction sensors with
  | nil => rfl
  | cons s sensors ih => exact congrArg (_ :: ·) ih

private theorem flatten_relayObj (relays : List DefaultRelayState) :
    (relays.map relayObj).flatten = relayEntries relays := by
  rw [relayEntries, shown]
  induction relays with
  | nil => rfl
  | cons r relays ih =>
    rw [List.map_cons, List.flatten_cons, ih, relayObj]
    by_cases h₁ : r.index = 1
    · simp [h₁, Object.set]
    · by_cases h₂ : r.index = 2
      · simp [h₂, Object.set]
      · simp [h₁, h₂]

/-- A temperature that `getTemp` returns for a failed reading. -/
def IsError (temp : Rat) : Prop := temp = -2 ∨ temp = -1

instance (temp : Rat) : Decidable (IsError temp) := inferInstanceAs (Decidable (_ ∨ _))

/-- The entries of an array are those of its objects. -/
private theorem entries_of_get {msg : Object} {key : COMStr} {os : List Object}
    (h : Object.get msg key = objects os) : entries msg key = os.flatten := by
  rw [entries, h, objects]
  clear h
  induction os with
  | nil => rfl
  | cons o os ih => exact congrArg (o ++ ·) ih

section Entries

variable (sensors : List SensorAlarmConfig) (relays : List DefaultRelayState) (t₁ t₂ : Rat)
  (timeStamp devID : COMStr) (dataPoint : Object)

/-- The objects of both arrays: those of the room, those outside, and the relays. -/
private theorem flatten_tags :
    (tags sensors relays t₁ t₂).1.flatten =
      (if IsError t₁ then sensorEntries (sensors.filter isRoom) (.str "Not read data") else []) ++
        (if IsError t₂ then sensorEntries (sensors.filter isOutdoor) (.str "Not read data")
        else []) ∧
    (tags sensors relays t₁ t₂).2.flatten =
      (if IsError t₁ then [] else sensorEntries (sensors.filter isRoom) (.double t₁)) ++
        ((if IsError t₂ then [] else sensorEntries (sensors.filter isOutdoor) (.double t₂)) ++
          relayEntries relays) := by
  simp only [← flatten_tagObjs, ← flatten_relayObj]
  unfold tags addSensors IsError
  by_cases h₁ : t₁ = -2 ∨ t₁ = -1
  · by_cases h₂ : t₂ = -2 ∨ t₂ = -1
    · simp [h₁, h₂]
    · simp [h₁, h₂]
  · by_cases h₂ : t₂ = -2 ∨ t₂ = -1
    · simp [h₁, h₂]
    · simp [h₁, h₂]

/-- What is in `error_tags`. -/
private theorem entries_error :
    entries (message timeStamp devID dataPoint (tags sensors relays t₁ t₂)) "error_tags" =
      (if IsError t₁ then sensorEntries (sensors.filter isRoom) (.str "Not read data") else []) ++
        if IsError t₂ then sensorEntries (sensors.filter isOutdoor) (.str "Not read data")
        else [] := by
  have hget : Object.get (message timeStamp devID dataPoint (tags sensors relays t₁ t₂))
      "error_tags" = objects (tags sensors relays t₁ t₂).1 := by
    unfold message
    rw [Object.get_set_of_ne _ _ (by decide), Object.get_set_of_ne _ _ (by decide),
      Object.get_set_of_ne _ _ (by decide), Object.get_set_self]
  rw [entries_of_get hget]
  exact (flatten_tags sensors relays t₁ t₂).1

/-- What is in `good_tags`. -/
private theorem entries_good :
    entries (message timeStamp devID dataPoint (tags sensors relays t₁ t₂)) "good_tags" =
      (if IsError t₁ then [] else sensorEntries (sensors.filter isRoom) (.double t₁)) ++
        ((if IsError t₂ then [] else sensorEntries (sensors.filter isOutdoor) (.double t₂)) ++
          relayEntries relays) := by
  have hget : Object.get (message timeStamp devID dataPoint (tags sensors relays t₁ t₂))
      "good_tags" = objects (tags sensors relays t₁ t₂).2 := by
    unfold message
    rw [Object.get_set_of_ne _ _ (by decide), Object.get_set_of_ne _ _ (by decide),
      Object.get_set_self]
  rw [entries_of_get hget]
  exact (flatten_tags sensors relays t₁ t₂).2

end Entries

/-- The result of a round, with the last sensor of each kind. -/
private theorem round_eq_some_iff {sensors : List SensorAlarmConfig}
    {relays : List DefaultRelayState} {getTemp : List Char → Rat} {timeStamp devID : COMStr}
    {dataPoint msg : Object} :
    round sensors relays getTemp timeStamp devID dataPoint = some msg ↔
      ∃ a b, (sensors.filter isRoom).getLast? = some a ∧
        (sensors.filter isOutdoor).getLast? = some b ∧
        msg = message timeStamp devID dataPoint (tags sensors relays
          (getTemp (DS18B20.new (cString a.address)).path)
          (getTemp (DS18B20.new (cString b.address)).path)) := by
  rw [round, devices, addresses_eq]
  cases (sensors.filter isRoom).getLast? with
  | none => simp
  | some a =>
    cases (sensors.filter isOutdoor).getLast? with
    | none => simp
    | some b => simp [eq_comm]

/-! ### Complete messages -/

/-- The keys of sensors whose tags are plain. -/
private theorem keys_sensorEntries (sensors : List SensorAlarmConfig)
    (h : ∀ s ∈ sensors, '\x00' ∉ s.tag.toList) (value : Var) :
    (sensorEntries sensors value).map (·.1) = sensors.map (·.tag) := by
  rw [sensorEntries, List.map_map]
  apply List.map_congr_left
  intro s hs
  exact cString_of_plain (h s hs)

/-- The keys of relays whose tags are plain. -/
private theorem keys_relayEntries {relays : List DefaultRelayState}
    (h : ∀ r ∈ relays, '\x00' ∉ r.tag.toList) :
    (relayEntries relays).map (·.1) = (shown relays).map (·.tag) := by
  rw [relayEntries, List.map_map]
  apply List.map_congr_left
  intro r hr
  exact cString_of_plain (h r (List.mem_of_mem_filter hr))

/-- The sensors are those of the room and those outside. -/
private theorem count_tags {sensors : List SensorAlarmConfig}
    (hkind : ∀ s ∈ sensors, isRoom s = true ∨ isOutdoor s = true) (tag : COMStr) :
    ((sensors.filter isRoom).map (·.tag)).count tag +
      ((sensors.filter isOutdoor).map (·.tag)).count tag = (sensors.map (·.tag)).count tag := by
  induction sensors with
  | nil => rfl
  | cons s sensors ih =>
    obtain ⟨hs, hsensors⟩ := List.forall_mem_cons.mp hkind
    cases hout : isOutdoor s with
    | true =>
      rw [List.filter_cons_of_neg (by rw [isRoom_eq_false hout]; exact Bool.false_ne_true),
        List.filter_cons_of_pos hout, List.map_cons, List.map_cons, List.count_cons,
        List.count_cons, ← Nat.add_assoc, ih hsensors]
    | false =>
      have hroom : isRoom s = true := by
        rw [hout] at hs
        exact hs.resolve_right Bool.false_ne_true
      have hout' : ¬ isOutdoor s = true := by
        rw [hout]
        exact Bool.false_ne_true
      rw [List.filter_cons_of_pos hroom, List.filter_cons_of_neg hout', List.map_cons,
        List.map_cons, List.count_cons, List.count_cons, Nat.add_right_comm, ih hsensors]

/-- A message over all its tags: those of the sensors and those of the relays shown. -/
private theorem occurrences_add {sensors : List SensorAlarmConfig} {relays : List DefaultRelayState}
    (hkind : ∀ s ∈ sensors, isRoom s = true ∨ isOutdoor s = true)
    (hsensors : ∀ s ∈ sensors, '\x00' ∉ s.tag.toList)
    (hrelays : ∀ r ∈ relays, '\x00' ∉ r.tag.toList) (t₁ t₂ : Rat) (timeStamp devID : COMStr)
    (dataPoint : Object) (tag : COMStr) :
    occurrences (message timeStamp devID dataPoint (tags sensors relays t₁ t₂)) "good_tags" tag +
      occurrences (message timeStamp devID dataPoint (tags sensors relays t₁ t₂)) "error_tags" tag =
    (sensors.map (·.tag) ++ (shown relays).map (·.tag)).count tag := by
  have hroom (v : Var) := keys_sensorEntries (sensors.filter isRoom)
    (fun s hs ↦ hsensors s (List.mem_of_mem_filter hs)) v
  have hout (v : Var) := keys_sensorEntries (sensors.filter isOutdoor)
    (fun s hs ↦ hsensors s (List.mem_of_mem_filter hs)) v
  rw [occurrences, occurrences, entries_good, entries_error, List.count_append,
    ← count_tags hkind, ← keys_relayEntries hrelays, List.map_append, List.map_append,
    List.map_append, List.count_append, List.count_append, List.count_append]
  by_cases h₁ : IsError t₁
  · by_cases h₂ : IsError t₂
    · simp only [h₁, h₂, if_true, hroom, hout, List.map_nil, List.count_nil]
      omega
    · simp only [h₁, h₂, if_true, if_false, hroom, hout, List.map_nil, List.count_nil]
      omega
  · by_cases h₂ : IsError t₂
    · simp only [h₁, h₂, if_true, if_false, hroom, hout, List.map_nil, List.count_nil]
      omega
    · simp only [h₁, h₂, if_false, hroom, hout, List.map_nil, List.count_nil]
      omega

/-- An entry of `good_tags` is that of a sensor of one of the devices or of a relay shown. -/
private theorem of_mem_entries_good {sensors : List SensorAlarmConfig}
    {relays : List DefaultRelayState} {t₁ t₂ : Rat} {timeStamp devID : COMStr} {dataPoint : Object}
    {tag : COMStr} {v : Var} (h : (tag, v) ∈ entries
      (message timeStamp devID dataPoint (tags sensors relays t₁ t₂)) "good_tags") :
    (∃ s ∈ sensors, isRoom s = true ∧ cString s.tag = tag ∧ v = .double t₁) ∨
      (∃ s ∈ sensors, isOutdoor s = true ∧ cString s.tag = tag ∧ v = .double t₂) ∨
        ∃ r ∈ shown relays, cString r.tag = tag ∧ v = .int r.state.toInt := by
  rw [entries_good, List.mem_append, List.mem_append] at h
  rcases h with h | h | h
  · split at h
    · cases h
    · obtain ⟨s, hs, he⟩ := List.mem_map.mp h
      obtain ⟨hmem, hroom⟩ := List.mem_filter.mp hs
      cases he
      exact .inl ⟨s, hmem, hroom, rfl, rfl⟩
  · split at h
    · cases h
    · obtain ⟨s, hs, he⟩ := List.mem_map.mp h
      obtain ⟨hmem, hout⟩ := List.mem_filter.mp hs
      cases he
      exact .inr (.inl ⟨s, hmem, hout, rfl, rfl⟩)
  · obtain ⟨r, hr, he⟩ := List.mem_map.mp h
    cases he
    exact .inr (.inr ⟨r, hr, rfl, rfl⟩)

/-- An entry of `error_tags` is that of a sensor of one of the devices. -/
private theorem of_mem_entries_error {sensors : List SensorAlarmConfig}
    {relays : List DefaultRelayState} {t₁ t₂ : Rat} {timeStamp devID : COMStr} {dataPoint : Object}
    {e : COMStr × Var} (h : e ∈ entries
      (message timeStamp devID dataPoint (tags sensors relays t₁ t₂)) "error_tags") :
    ∃ s ∈ sensors, cString s.tag = e.1 := by
  have hsensor {p : SensorAlarmConfig → Bool}
      (he : e ∈ sensorEntries (sensors.filter p) (.str "Not read data")) :
      ∃ s ∈ sensors, cString s.tag = e.1 := by
    obtain ⟨s, hs, rfl⟩ := List.mem_map.mp he
    exact ⟨s, List.mem_of_mem_filter hs, rfl⟩
  rw [entries_error, List.mem_append] at h
  rcases h with h | h
  · split at h
    · exact hsensor h
    · cases h
  · split at h
    · exact hsensor h
    · cases h

/-- A sensor of the first device has its entry if the device is read, -/
private theorem mem_entries_room {sensors : List SensorAlarmConfig} {s : SensorAlarmConfig}
    {t₁ : Rat} (hs : s ∈ sensors) (hroom : isRoom s = true) (hplain : '\x00' ∉ s.tag.toList)
    (h₁ : ¬ IsError t₁) (relays : List DefaultRelayState) (t₂ : Rat) (timeStamp devID : COMStr)
    (dataPoint : Object) : (s.tag, Var.double t₁) ∈ entries
      (message timeStamp devID dataPoint (tags sensors relays t₁ t₂)) "good_tags" := by
  rw [entries_good, if_neg h₁]
  apply List.mem_append_left
  refine List.mem_map.mpr ⟨s, List.mem_filter.mpr ⟨hs, hroom⟩, ?_⟩
  rw [cString_of_plain hplain]

/-- and so has one of the second. -/
private theorem mem_entries_outdoor {sensors : List SensorAlarmConfig} {s : SensorAlarmConfig}
    {t₂ : Rat} (hs : s ∈ sensors) (hout : isOutdoor s = true) (hplain : '\x00' ∉ s.tag.toList)
    (h₂ : ¬ IsError t₂) (relays : List DefaultRelayState) (t₁ : Rat) (timeStamp devID : COMStr)
    (dataPoint : Object) : (s.tag, Var.double t₂) ∈ entries
      (message timeStamp devID dataPoint (tags sensors relays t₁ t₂)) "good_tags" := by
  rw [entries_good, if_neg h₂]
  apply List.mem_append_right
  apply List.mem_append_left
  refine List.mem_map.mpr ⟨s, List.mem_filter.mpr ⟨hs, hout⟩, ?_⟩
  rw [cString_of_plain hplain]

/-- A relay that is shown always has its own. -/
private theorem mem_entries_relay {relays : List DefaultRelayState} {r : DefaultRelayState}
    (hr : r ∈ shown relays) (hplain : '\x00' ∉ r.tag.toList) (sensors : List SensorAlarmConfig)
    (t₁ t₂ : Rat) (timeStamp devID : COMStr) (dataPoint : Object) :
    (r.tag, Var.int r.state.toInt) ∈ entries
      (message timeStamp devID dataPoint (tags sensors relays t₁ t₂)) "good_tags" := by
  rw [entries_good]
  apply List.mem_append_right
  apply List.mem_append_right
  refine List.mem_map.mpr ⟨r, hr, ?_⟩
  rw [cString_of_plain hplain]

/-- Where the tags are plain, an entry is of one of them. -/
private theorem mem_tags_of_mem_entries {sensors : List SensorAlarmConfig}
    {relays : List DefaultRelayState} (hsensors : ∀ s ∈ sensors, '\x00' ∉ s.tag.toList)
    (hrelays : ∀ r ∈ relays, '\x00' ∉ r.tag.toList) {t₁ t₂ : Rat} {timeStamp devID : COMStr}
    {dataPoint : Object} {tag : COMStr} {v : Var} (h : (tag, v) ∈
      entries (message timeStamp devID dataPoint (tags sensors relays t₁ t₂)) "good_tags" ++
        entries (message timeStamp devID dataPoint (tags sensors relays t₁ t₂)) "error_tags") :
    tag ∈ sensors.map (·.tag) ++ relays.map (·.tag) := by
  have hsensor {s : SensorAlarmConfig} (hs : s ∈ sensors) (htag : cString s.tag = tag) :
      tag ∈ sensors.map (·.tag) ++ relays.map (·.tag) := by
    rw [cString_of_plain (hsensors s hs)] at htag
    exact List.mem_append_left _ (List.mem_map.mpr ⟨s, hs, htag⟩)
  rcases List.mem_append.mp h with h | h
  · rcases of_mem_entries_good h with ⟨s, hs, -, htag, -⟩ | ⟨s, hs, -, htag, -⟩ |
      ⟨r, hr, htag, -⟩
    · exact hsensor hs htag
    · exact hsensor hs htag
    · have hr' := List.mem_of_mem_filter hr
      rw [cString_of_plain (hrelays r hr')] at htag
      exact List.mem_append_right _ (List.mem_map.mpr ⟨r, hr', htag⟩)
  · obtain ⟨s, hs, htag⟩ := of_mem_entries_error h
    exact hsensor hs htag

/-- There is a last one of those of which something holds. -/
private theorem exists_getLast?_filter {sensors : List SensorAlarmConfig}
    {p : SensorAlarmConfig → Bool} (hp : ∃ s ∈ sensors, p s = true) :
    ∃ a, (sensors.filter p).getLast? = some a ∧ a ∈ sensors ∧ p a = true := by
  obtain ⟨s, hs, hps⟩ := hp
  have hne : sensors.filter p ≠ [] := List.ne_nil_of_mem (List.mem_filter.mpr ⟨hs, hps⟩)
  refine ⟨_, List.getLast?_eq_some_getLast hne, ?_⟩
  exact List.mem_filter.mp (List.getLast_mem hne)

/-- Covered sensors and relays make complete messages. -/
private theorem Covered.complete {sensors : List SensorAlarmConfig}
    {relays : List DefaultRelayState} (h : Covered sensors relays) (getTemp : List Char → Rat)
    (timeStamp devID : COMStr) (dataPoint : Object) :
    ∃ msg, round sensors relays getTemp timeStamp devID dataPoint = some msg ∧
      Complete sensors relays getTemp msg := by
  obtain ⟨a, ha, hamem, haroom⟩ := exists_getLast?_filter h.room
  obtain ⟨b, hb, hbmem, hbout⟩ := exists_getLast?_filter h.outdoor
  have hpath {s : SensorAlarmConfig} (hs : s ∈ sensors) :
      (DS18B20.new (cString s.address)).path = DS18B20.file s.address :=
    DS18B20.path_new (h.short_address s hs) (h.plain.1 s hs).1
  have hplain : ∀ s ∈ sensors, '\x00' ∉ s.tag.toList := fun s hs ↦ (h.plain.1 s hs).2
  obtain ⟨msg, hmsg⟩ : ∃ msg, msg = message timeStamp devID dataPoint (tags sensors relays
      (getTemp (DS18B20.file a.address)) (getTemp (DS18B20.file b.address))) := ⟨_, rfl⟩
  have honce {tag : COMStr} (htag : tag ∈ sensors.map (·.tag) ++ (shown relays).map (·.tag)) :
      occurrences msg "good_tags" tag + occurrences msg "error_tags" tag = 1 := by
    rw [hmsg, occurrences_add h.kind hplain h.plain.2, List.count_eq_one_of_mem h.distinct htag]
  have hsame {s s' : SensorAlarmConfig} (hs : s ∈ sensors) (hs' : s' ∈ sensors)
      (htag : s.tag = s'.tag) : s = s' :=
    List.inj_on_of_nodup_map (List.nodup_append.mp h.distinct).1 hs hs' htag
  have happart {s : SensorAlarmConfig} {r : DefaultRelayState} (hs : s ∈ sensors)
      (hr : r ∈ shown relays) : s.tag ≠ r.tag :=
    (List.nodup_append.mp h.distinct).2.2 _ (List.mem_map_of_mem hs) _ (List.mem_map_of_mem hr)
  have hrelay : ∀ r ∈ relays, (r.tag, Var.int r.state.toInt) ∈ entries msg "good_tags" := by
    intro r hr
    obtain ⟨r', hr', htag, hstate⟩ := h.relay r hr
    rw [hmsg, ← htag, ← hstate]
    exact mem_entries_relay hr' (h.plain.2 r' (List.mem_of_mem_filter hr')) ..
  refine ⟨_, round_eq_some_iff.mpr ⟨a, b, ha, hb, rfl⟩, ?_⟩
  rw [hpath hamem, hpath hbmem, ← hmsg]
  refine ⟨?_, ?_, ?_, hrelay, ?_⟩
  · intro s hs
    exact honce (List.mem_append_left _ (List.mem_map_of_mem hs))
  · intro s hs v hv
    rw [hmsg] at hv
    rcases of_mem_entries_good hv with ⟨s', hs', hroom, htag, rfl⟩ | ⟨s', hs', hout, htag, rfl⟩ |
      ⟨r, hr, htag, rfl⟩
    · rw [cString_of_plain (hplain s' hs')] at htag
      obtain rfl := hsame hs' hs htag
      rw [h.one_address s' hs a hamem (hroom.trans haroom.symm)]
    · rw [cString_of_plain (hplain s' hs')] at htag
      obtain rfl := hsame hs' hs htag
      rw [h.one_address s' hs b hbmem ((isRoom_eq_false hout).trans (isRoom_eq_false hbout).symm)]
    · rw [cString_of_plain (h.plain.2 r (List.mem_of_mem_filter hr))] at htag
      exact absurd htag.symm (happart hs hr)
  · intro r hr
    obtain ⟨r', hr', htag, -⟩ := h.relay r hr
    have htotal := honce (List.mem_append_right _ (List.mem_map.mpr ⟨r', hr', htag⟩))
    have hpos : 0 < occurrences msg "good_tags" r.tag :=
      List.count_pos_iff.mpr (List.mem_map.mpr ⟨_, hrelay r hr, rfl⟩)
    omega
  · rintro ⟨tag, v⟩ he
    rw [hmsg] at he
    exact mem_tags_of_mem_entries hplain h.plain.2 he

/-- Where messages are complete, tags are plain, all sensors are of the two devices, -/
private theorem kinds_of_complete {sensors : List SensorAlarmConfig}
    {relays : List DefaultRelayState} {getTemp : List Char → Rat} {t₁ t₂ : Rat}
    {timeStamp devID : COMStr} {dataPoint : Object} (h₁ : ¬ IsError t₁) (h₂ : ¬ IsError t₂)
    (h : Complete sensors relays getTemp
      (message timeStamp devID dataPoint (tags sensors relays t₁ t₂))) :
    (∀ s ∈ sensors, '\x00' ∉ s.tag.toList ∧ (isRoom s = true ∨ isOutdoor s = true)) ∧
      ∀ r ∈ relays, '\x00' ∉ r.tag.toList := by
  have hkind {s s' : SensorAlarmConfig} (htag : cString s'.tag = s.tag) :
      isRoom s = isRoom s' ∧ isOutdoor s = isOutdoor s' := by
    rw [isRoom, isOutdoor, ← htag, strncmpEq_cString, strncmpEq_cString]
    exact ⟨rfl, rfl⟩
  refine ⟨?_, ?_⟩
  · intro s hs
    have hone := h.sensor_once s hs
    have herror : occurrences (message timeStamp devID dataPoint (tags sensors relays t₁ t₂))
        "error_tags" s.tag = 0 := by
      rw [occurrences, entries_error, if_neg h₁, if_neg h₂]
      rfl
    have hmem : s.tag ∈ (entries (message timeStamp devID dataPoint
        (tags sensors relays t₁ t₂)) "good_tags").map (·.1) := by
      apply List.count_pos_iff.mp
      rw [occurrences] at hone
      omega
    obtain ⟨⟨tag, v⟩, hv, he⟩ := List.mem_map.mp hmem
    obtain rfl : tag = s.tag := he
    rcases of_mem_entries_good hv with ⟨s', -, hroom, htag, -⟩ | ⟨s', -, hout, htag, -⟩ |
      ⟨r, -, -, hint⟩
    · exact ⟨htag ▸ plain_cString s'.tag, .inl ((hkind htag).1.trans hroom)⟩
    · exact ⟨htag ▸ plain_cString s'.tag, .inr ((hkind htag).2.trans hout)⟩
    · -- the value of a sensor is no state
      rw [h.sensor_value s hs v hv] at hint
      cases hint
  · intro r hr
    rcases of_mem_entries_good (h.relay_state r hr) with ⟨s', -, -, htag, -⟩ | ⟨s', -, -, htag, -⟩ |
      ⟨r', -, htag, -⟩
    · exact htag ▸ plain_cString s'.tag
    · exact htag ▸ plain_cString s'.tag
    · exact htag ▸ plain_cString r'.tag

/-- and none of the tags shown is there twice. -/
private theorem nodup_of_complete {sensors : List SensorAlarmConfig}
    {relays : List DefaultRelayState} {getTemp : List Char → Rat} {t₁ t₂ : Rat}
    {timeStamp devID : COMStr} {dataPoint : Object} (h₁ : ¬ IsError t₁) (h₂ : ¬ IsError t₂)
    (hkind : ∀ s ∈ sensors, isRoom s = true ∨ isOutdoor s = true)
    (hsensors : ∀ s ∈ sensors, '\x00' ∉ s.tag.toList)
    (hrelays : ∀ r ∈ relays, '\x00' ∉ r.tag.toList)
    (h : Complete sensors relays getTemp
      (message timeStamp devID dataPoint (tags sensors relays t₁ t₂))) :
    (sensors.map (·.tag) ++ (shown relays).map (·.tag)).Nodup := by
  rw [List.nodup_iff_count_le_one]
  intro tag
  by_cases htag : tag ∈ sensors.map (·.tag) ++ (shown relays).map (·.tag)
  · rw [← occurrences_add hkind hsensors hrelays t₁ t₂ timeStamp devID dataPoint]
    rcases List.mem_append.mp htag with htag | htag
    · obtain ⟨s, hs, rfl⟩ := List.mem_map.mp htag
      exact (h.sensor_once s hs).le
    · obtain ⟨r, hr, rfl⟩ := List.mem_map.mp htag
      rw [h.relay_once r (List.mem_of_mem_filter hr), occurrences, entries_error,
        if_neg h₁, if_neg h₂]
      rfl
  · rw [List.count_eq_zero.mpr htag]
    exact Nat.zero_le 1

/-- A path that gives the temperatures of a file, whatever they are, is that file. -/
private theorem eq_of_forall_getTemp {path file : List Char}
    (h : ∀ getTemp : List Char → Rat, (∀ p, ¬ IsError (getTemp p)) →
      Var.double (getTemp path) = .double (getTemp file)) : path = file := by
  by_contra hne
  have hvalue := h (fun p ↦ if p = path then 1 else 2) (by
    intro p
    split
    · decide
    · decide)
  rw [if_pos rfl, if_neg (Ne.symm hne)] at hvalue
  cases hvalue

/-- Sensors and relays whose messages are always complete are covered. -/
private theorem covered_of_complete {sensors : List SensorAlarmConfig}
    {relays : List DefaultRelayState}
    (h : ∀ getTemp timeStamp devID dataPoint, ∃ msg,
      round sensors relays getTemp timeStamp devID dataPoint = some msg ∧
        Complete sensors relays getTemp msg) : Covered sensors relays := by
  obtain ⟨_, hround, hzero⟩ := h (fun _ ↦ 0) "" "" []
  obtain ⟨a, b, ha, hb, rfl⟩ := round_eq_some_iff.mp hround
  have hall (getTemp : List Char → Rat) : Complete sensors relays getTemp
      (message "" "" [] (tags sensors relays (getTemp (DS18B20.new (cString a.address)).path)
        (getTemp (DS18B20.new (cString b.address)).path))) := by
    obtain ⟨_, hround', hcomplete⟩ := h getTemp "" "" []
    obtain ⟨a', b', ha', hb', rfl⟩ := round_eq_some_iff.mp hround'
    rw [ha] at ha'
    rw [hb] at hb'
    cases ha'
    cases hb'
    exact hcomplete
  have hgood : ¬ IsError 0 := by decide
  obtain ⟨hsensors, hrelays⟩ := kinds_of_complete hgood hgood hzero
  have hplain : ∀ s ∈ sensors, '\x00' ∉ s.tag.toList := fun s hs ↦ (hsensors s hs).1
  have hkind : ∀ s ∈ sensors, isRoom s = true ∨ isOutdoor s = true := fun s hs ↦ (hsensors s hs).2
  obtain ⟨hamem, haroom⟩ := List.mem_filter.mp (List.mem_of_getLast? ha)
  obtain ⟨hbmem, hbout⟩ := List.mem_filter.mp (List.mem_of_getLast? hb)
  have hroompath {s : SensorAlarmConfig} (hs : s ∈ sensors) (hroom : isRoom s = true) :
      (DS18B20.new (cString a.address)).path = DS18B20.file s.address := by
    apply eq_of_forall_getTemp
    intro getTemp hok
    apply (hall getTemp).sensor_value s hs
    exact mem_entries_room hs hroom (hplain s hs) (hok _) ..
  have houtpath {s : SensorAlarmConfig} (hs : s ∈ sensors) (hout : isOutdoor s = true) :
      (DS18B20.new (cString b.address)).path = DS18B20.file s.address := by
    apply eq_of_forall_getTemp
    intro getTemp hok
    apply (hall getTemp).sensor_value s hs
    exact mem_entries_outdoor hs hout (hplain s hs) (hok _) ..
  have haddress : ∀ s ∈ sensors, s.address.toList.length ≤ 16 ∧ '\x00' ∉ s.address.toList := by
    intro s hs
    rcases hkind s hs with hroom | hout
    · exact DS18B20.of_path_eq_file (hroompath hs hroom)
    · exact DS18B20.of_path_eq_file (houtpath hs hout)
  refine ⟨⟨a, hamem, haroom⟩, ⟨b, hbmem, hbout⟩, hkind, ?_, fun s hs ↦ (haddress s hs).1,
    ⟨fun s hs ↦ ⟨(haddress s hs).2, hplain s hs⟩, hrelays⟩, ?_, ?_⟩
  · intro s hs s' hs' hsame
    cases hroom : isRoom s with
    | true =>
      rw [hroom] at hsame
      exact DS18B20.file_inj ((hroompath hs hroom).symm.trans (hroompath hs' hsame.symm))
    | false =>
      rw [hroom] at hsame
      have hout := (hkind s hs).resolve_left (by rw [hroom]; exact Bool.false_ne_true)
      have hout' := (hkind s' hs').resolve_left (by rw [← hsame]; exact Bool.false_ne_true)
      exact DS18B20.file_inj ((houtpath hs hout).symm.trans (houtpath hs' hout'))
  · exact nodup_of_complete hgood hgood hkind hplain hrelays hzero
  · intro r hr
    rcases of_mem_entries_good (hzero.relay_state r hr) with ⟨_, _, _, _, hv⟩ | ⟨_, _, _, _, hv⟩ |
      ⟨r', hr', htag, hv⟩
    · cases hv
    · cases hv
    · rw [cString_of_plain (hrelays r' (List.mem_of_mem_filter hr'))] at htag
      exact ⟨r', hr', htag, Int32.toInt_inj.mp (Var.int.inj hv).symm⟩

/-- Messages are complete, whatever the temperatures, exactly for sensors and relays that are
covered. -/
theorem forall_complete_iff {sensors : List SensorAlarmConfig} {relays : List DefaultRelayState} :
    (∀ getTemp timeStamp devID dataPoint, ∃ msg,
      round sensors relays getTemp timeStamp devID dataPoint = some msg ∧
        Complete sensors relays getTemp msg) ↔ Covered sensors relays := by
  constructor
  · exact covered_of_complete
  · intro h getTemp timeStamp devID dataPoint
    exact h.complete getTemp timeStamp devID dataPoint

/-! ### What is collected -/

private theorem filter_collected {p : SensorAlarmConfig → Bool}
    (hp : ∀ s, p s = true → (isRoom s || isOutdoor s) = true) (sensors : List SensorAlarmConfig) :
    (collected sensors).filter p = sensors.filter p := by
  rw [collected, List.filter_filter]
  apply List.filter_congr
  intro s _
  cases h : p s with
  | false => rfl
  | true => rw [hp s h, Bool.and_true]

private theorem filter_room (sensors : List SensorAlarmConfig) :
    (collected sensors).filter isRoom = sensors.filter isRoom := by
  apply filter_collected
  intro s h
  rw [h, Bool.true_or]

private theorem filter_outdoor (sensors : List SensorAlarmConfig) :
    (collected sensors).filter isOutdoor = sensors.filter isOutdoor := by
  apply filter_collected
  intro s h
  rw [h, Bool.or_true]

private theorem shown_shown (relays : List DefaultRelayState) :
    shown (shown relays) = shown relays := by
  rw [shown, shown, List.filter_filter]
  simp

/-- Sensors and relays without a place leave no entry. -/
private theorem entries_collected (sensors : List SensorAlarmConfig)
    (relays : List DefaultRelayState) (t₁ t₂ : Rat) (timeStamp devID : COMStr)
    (dataPoint : Object) :
    entries (message timeStamp devID dataPoint (tags (collected sensors) (shown relays) t₁ t₂))
        "good_tags" =
      entries (message timeStamp devID dataPoint (tags sensors relays t₁ t₂)) "good_tags" ∧
    entries (message timeStamp devID dataPoint (tags (collected sensors) (shown relays) t₁ t₂))
        "error_tags" =
      entries (message timeStamp devID dataPoint (tags sensors relays t₁ t₂)) "error_tags" := by
  rw [entries_good, entries_good, entries_error, entries_error, filter_room, filter_outdoor,
    relayEntries, relayEntries, shown_shown]
  exact ⟨rfl, rfl⟩

/-- Messages with the same entries are complete together. -/
private theorem Complete.congr {sensors : List SensorAlarmConfig}
    {relays : List DefaultRelayState} {getTemp : List Char → Rat} {msg msg' : Object}
    (h : Complete sensors relays getTemp msg)
    (hgood : entries msg "good_tags" = entries msg' "good_tags")
    (herror : entries msg "error_tags" = entries msg' "error_tags") :
    Complete sensors relays getTemp msg' := by
  obtain ⟨honce, hvalue, hrelay, hstate, hother⟩ := h
  simp only [occurrences, hgood, herror] at honce hvalue hrelay hstate hother
  exact ⟨honce, hvalue, hrelay, hstate, hother⟩

/-- What has a place in the messages of a sound configuration is covered. -/
private theorem Sound.covered {sensors : List SensorAlarmConfig}
    {relays : List DefaultRelayState} (h : Sound sensors relays) :
    Covered (collected sensors) (shown relays) := by
  have hmem {s : SensorAlarmConfig} (hs : s ∈ sensors)
      (hkind : (isRoom s || isOutdoor s) = true) : s ∈ collected sensors :=
    List.mem_filter.mpr ⟨hs, hkind⟩
  obtain ⟨a, ha, haroom⟩ := h.room
  obtain ⟨b, hb, hbout⟩ := h.outdoor
  refine ⟨⟨a, hmem ha (by rw [haroom, Bool.true_or]), haroom⟩,
    ⟨b, hmem hb (by rw [hbout, Bool.or_true]), hbout⟩, ?_, h.one_address, h.short_address, h.plain,
    ?_, ?_⟩
  · intro s hs
    exact Bool.or_eq_true_iff.mp (List.mem_filter.mp hs).2
  · rw [shown_shown]
    exact h.distinct
  · intro r hr
    rw [shown_shown]
    exact ⟨r, hr, rfl, rfl⟩

/-- Of a sound configuration, the sensors of the two devices and the relays 1 and 2 are reported,
each once and for itself, and nothing else is. -/
theorem round_complete {sensors : List SensorAlarmConfig} {relays : List DefaultRelayState}
    (h : Sound sensors relays) (getTemp : List Char → Rat) (timeStamp devID : COMStr)
    (dataPoint : Object) :
    ∃ msg, round sensors relays getTemp timeStamp devID dataPoint = some msg ∧
      Complete (collected sensors) (shown relays) getTemp msg := by
  obtain ⟨_, hround, hcomplete⟩ := h.covered.complete getTemp timeStamp devID dataPoint
  obtain ⟨a, b, ha, hb, rfl⟩ := round_eq_some_iff.mp hround
  rw [filter_room] at ha
  rw [filter_outdoor] at hb
  obtain ⟨hgood, herror⟩ := entries_collected sensors relays
    (getTemp (DS18B20.new (cString a.address)).path)
    (getTemp (DS18B20.new (cString b.address)).path) timeStamp devID dataPoint
  exact ⟨_, round_eq_some_iff.mpr ⟨a, b, ha, hb, rfl⟩, hcomplete.congr hgood herror⟩

/-- A sensor of a tag. -/
def sensorOf (tag address : COMStr) : SensorAlarmConfig where
  desc := ""
  tag := tag
  state := 1
  high := 35
  low := 0
  level := "Warning"
  address := address

/-- A relay of a tag. -/
def relayOf (tag : COMStr) (index : Int32) : DefaultRelayState where
  desc := ""
  tag := tag
  state := 0
  gpio := 23
  index := index

/-- The sensors that the gateway comes with; `Config/Config-1.0.1:97`. -/
def shippedSensors : List SensorAlarmConfig :=
  [sensorOf "RoomTemperature" "28-3c01d6079af5", sensorOf "OutdoorTemperature" "28-3c01d607ca0f"]

/-- The relays that it comes with; `Config/Config-1.0.1:125`. -/
def shippedRelays : List DefaultRelayState :=
  [relayOf "AirCondition1State" 1, relayOf "AirCondition2State" 2]

/-- They are reported. -/
theorem round_complete_shipped : ∃ msg,
    round shippedSensors shippedRelays (fun _ ↦ 21) "0" "gateway" [] = some msg ∧
      Complete (collected shippedSensors) (shown shippedRelays) (fun _ ↦ 21) msg :=
  round_complete ⟨by decide +kernel, by decide +kernel, by decide +kernel, by decide +kernel,
    by decide +kernel, by decide +kernel⟩ (fun _ ↦ 21) "0" "gateway" []

/-- A sensor of another kind next to them is not. -/
theorem not_complete_humidity : ¬ ∀ getTemp timeStamp devID dataPoint, ∃ msg,
    round (shippedSensors ++ [sensorOf "Humidity" "28-000000000001"]) shippedRelays getTemp
        timeStamp devID dataPoint = some msg ∧
      Complete (shippedSensors ++ [sensorOf "Humidity" "28-000000000001"]) shippedRelays getTemp
        msg := by
  intro h
  have hkind := (covered_of_complete h).kind _ (List.mem_append_right _ (List.mem_singleton_self _))
  revert hkind
  decide +kernel

end SensorDevice
end IcsGateway
