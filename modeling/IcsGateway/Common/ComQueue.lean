import IcsGateway.Base.Json
import IcsGateway.Common.RegistrationConfig
import IcsGateway.Lib.KeyStore

/-!
# Events and audits

What the processes push to the two queues of the local Redis that the MQTT process publishes
(`Common/ComQueue.cpp`). An event or an audit has fixed fields, parameters under names of the
caller's choice, and data, which are set in this order.
-/

namespace IcsGateway

open Lib

/-- What `ComProcessInfo` has of the process; `3rd.party.raspi/include/ComProcessInfo.h:7`. -/
structure ComProcessInfo where
  user : COMStr
  userType : COMStr
  privilege : UInt32
  ssh : COMStr
  lastCmd : COMStr

namespace COM_Queue

/-- `MQTT_EVENT_QUEUE`; `Common/ComQueue.h:14`. -/
def mqttEventQueue : COMStr := "mqtt_events"

/-- `MQTT_AUDIT_QUEUE`; `Common/ComQueue.h:16`. -/
def mqttAuditQueue : COMStr := "mqtt_audits"

/-- An event or an audit, as its caller gives it. -/
structure Notice where
  code : COMStr
  level : COMStr
  message : COMStr
  params : ComMap COMStr

/-- Properties set one after another. -/
def setAll (o : Object) (fields : List (COMStr × Var)) : Object :=
  fields.foldl (fun o p ↦ Object.set o p.1 p.2) o

/-- The parameters as properties. -/
def Notice.fields (n : Notice) : List (COMStr × Var) := n.params.map fun p ↦ (p.1, .str p.2)

/-- The fixed fields of an event or an audit. -/
def header (devID timeStamp : COMStr) (n : Notice) : List (COMStr × Var) :=
  [("master_device_id", .str devID), ("code", .str n.code), ("level", .str n.level),
    ("message", .str n.message), ("time_stamp", .str timeStamp)]

/-- The data of an event; `Common/ComQueue.cpp:59`. -/
def eventData : List (COMStr × Var) := [("data", .object .value [])]

/-- The data of an audit; `Common/ComQueue.cpp:116–131`. -/
def auditData (info : ComProcessInfo) : List (COMStr × Var) :=
  [("data_system", .object .value
      [("ssh", .str info.ssh), ("user", .str info.user), ("user_type", .str info.userType),
        ("privilege", .int info.privilege.toNat), ("last_cmd", .str info.lastCmd)]),
    ("data_extension", .object .value
      [("outdoor_temp", .str info.ssh), ("longitude", .str info.user),
        ("latitude", .str info.userType), ("status_speaker", .int info.privilege.toNat),
        ("3g_wavelength", .str info.lastCmd), ("data_in_the_sim", .str info.lastCmd)])]

/-- `objNotify`, for its data. -/
def notify (devID timeStamp : COMStr) (data : List (COMStr × Var)) (n : Notice) : Object :=
  setAll (setAll (setAll [] (header devID timeStamp n)) n.fields) data

/-- `objEvent`, printed. -/
def text (P : Poco) (key : COMStr) (notify : Object) : COMStr :=
  P.stringify (.object .value (Object.set [] key (.object .value notify)))

/-- The text of an event. -/
def eventText (P : Poco) (devID timeStamp : COMStr) (n : Notice) : COMStr :=
  text P "event_log" (notify devID timeStamp eventData n)

/-- The text of an audit. -/
def auditText (P : Poco) (devID timeStamp : COMStr) (info : ComProcessInfo) (n : Notice) :
    COMStr :=
  text P "audit_log" (notify devID timeStamp (auditData info) n)

/-- `PushEvent` with the identifier of the registration, and the text of the clock. The value
returned, which no caller reads, is left out; `Common/ComQueue.cpp:34,79`. -/
def pushEvent (P : Poco) (reg : RegistrationInfo_T) (timeStamp : COMStr) (n : Notice) :
    Prog COMStr COMStr Exn Unit :=
  if reg.devID = "" then pure ()
  else .push mqttEventQueue (eventText P reg.devID timeStamp n) (pure ())

/-- `PushAudit` with the identifier of the registration, and the text of the clock. The value
returned, which no caller reads, is left out; `Common/ComQueue.cpp:74,84`. -/
def pushAudit (P : Poco) (reg : RegistrationInfo_T) (info : ComProcessInfo) (timeStamp : COMStr)
    (n : Notice) : Prog COMStr COMStr Exn Unit :=
  if reg.devID = "" then pure ()
  else if reg.protocol = "MQTT" then
    .push mqttAuditQueue (auditText P reg.devID timeStamp info n) (pure ())
  else pure ()

/-! ### What an event or an audit says -/

/-- Properties with distinct names: each has the value set, the others are as before. -/
theorem lookup_setAll (o : Object) {fields : List (COMStr × Var)}
    (hkeys : (fields.map (·.1)).Nodup) (k : COMStr) :
    (setAll o fields).lookup k = (fields.lookup k).or (o.lookup k) := by
  induction fields generalizing o with
  | nil => rfl
  | cons p fields ih =>
    obtain ⟨a, v⟩ := p
    rw [List.map_cons, List.nodup_cons] at hkeys
    rw [setAll, List.foldl_cons]
    change (setAll (Object.set o a v) fields).lookup k = _
    rw [ih _ hkeys.2, Object.lookup_set, List.lookup_cons]
    by_cases hk : k = a
    · subst hk
      have hnone : fields.lookup k = none := by
        rw [List.lookup_eq_none_iff]
        intro p hp
        rw [bne_iff_ne, ne_eq]
        intro he
        exact hkeys.1 (List.mem_map.mpr ⟨p, hp, he.symm⟩)
      simp [hnone]
    · have hb : (k == a) = false := by simpa using hk
      simp only [if_neg hk, hb]

/-- Regular properties make a regular object. -/
theorem regular_setAll {o : Object} {held : Held} {fields : List (COMStr × Var)}
    (ho : (Var.object held o).Regular) (hfields : ∀ p ∈ fields, p.2.Regular) :
    (Var.object held (setAll o fields)).Regular := by
  induction fields generalizing o with
  | nil => exact ho
  | cons p fields ih =>
    rw [List.forall_mem_cons] at hfields
    exact ih (Object.regular_set ho hfields.1) hfields.2

/-- The fields of a notice have the values of its parameters. -/
theorem Notice.lookup_fields (n : Notice) (k : COMStr) :
    n.fields.lookup k = (n.params.lookup k).map .str := by
  rw [Notice.fields]
  induction n.params with
  | nil => rfl
  | cons p params ih =>
    rw [List.map_cons, List.lookup_cons, List.lookup_cons]
    cases k == p.1 with
    | true => rfl
    | false => exact ih

/-- What stands under a name: the data, else the parameter, else the fixed field. -/
def field (devID timeStamp : COMStr) (data : List (COMStr × Var)) (n : Notice) (k : COMStr) :
    Option Var :=
  (data.lookup k).or (((n.params.lookup k).map .str).or ((header devID timeStamp n).lookup k))

/-- A text is that of an object with one property, an object whose properties are given. -/
def Says (P : Poco) (text key : COMStr) (f : COMStr → Option Var) : Prop :=
  ∃ notify : Object, P.parse text = .ok (.object .ptr [(key, .object .ptr notify)]) ∧
    ∀ k, notify.lookup k = (f k).map Var.reparse

section Says

variable {P : Poco} {devID timeStamp : COMStr} {data : List (COMStr × Var)} {n : Notice}

/-- The names of the fixed fields are distinct. -/
theorem nodup_header (devID timeStamp : COMStr) (n : Notice) :
    ((header devID timeStamp n).map (·.1)).Nodup := by
  change (["master_device_id", "code", "level", "message", "time_stamp"] : List COMStr).Nodup
  decide

/-- The properties of the object that is printed. -/
theorem lookup_notify (hparams : n.params.Sorted) (hdata : (data.map (·.1)).Nodup) (k : COMStr) :
    (notify devID timeStamp data n).lookup k = field devID timeStamp data n k := by
  have hfields : (n.fields.map (·.1)).Nodup := by
    rw [Notice.fields, List.map_map]
    exact hparams.nodup
  rw [notify, lookup_setAll _ hdata, lookup_setAll _ hfields,
    lookup_setAll _ (nodup_header devID timeStamp n), n.lookup_fields, List.lookup_nil,
    Option.or_none, field]

/-- It is regular. -/
theorem regular_notify {held : Held} (hdata : ∀ p ∈ data, p.2.Regular) :
    (Var.object held (notify devID timeStamp data n)).Regular := by
  rw [notify]
  refine regular_setAll (regular_setAll (regular_setAll ⟨List.nodup_nil, trivial⟩ ?_) ?_) hdata
  · simp [header, Var.Regular]
  · intro p hp
    rw [Notice.fields] at hp
    obtain ⟨q, -, rfl⟩ := List.mem_map.mp hp
    trivial

/-- The text of an event or an audit says what the object has. -/
theorem says_text (hP : ∀ o, (Var.object .value o).Regular → P.ReadsBackValue o)
    (hparams : n.params.Sorted) (hkeys : (data.map (·.1)).Nodup)
    (hdata : ∀ p ∈ data, p.2.Regular) (key : COMStr) :
    Says P (text P key (notify devID timeStamp data n)) key (field devID timeStamp data n) := by
  refine ⟨Object.reparse (notify devID timeStamp data n), ?_, ?_⟩
  · refine hP [(key, .object .value (notify devID timeStamp data n))] ?_
    exact ⟨List.nodup_singleton _, regular_notify hdata, trivial⟩
  · intro k
    rw [Object.lookup_reparse, lookup_notify hparams hkeys]

/-- So does that of an audit. -/
theorem says_auditText (hP : ∀ o, (Var.object .value o).Regular → P.ReadsBackValue o)
    {info : ComProcessInfo} (hparams : n.params.Sorted) :
    Says P (auditText P devID timeStamp info n) "audit_log"
      (field devID timeStamp (auditData info) n) := by
  refine says_text hP hparams ?_ ?_ _
  · change (["data_system", "data_extension"] : List COMStr).Nodup
    decide
  · simp [auditData, Var.Regular, RegularFields]

end Says

/-- What a push to a queue does: it pushes one text that says what is given, or nothing. -/
def Pushes (P : Poco) (p : Prog COMStr COMStr Exn Unit) (pushed : Prop) (queue key : COMStr)
    (f : COMStr → Option Var) : Prop :=
  ∀ s : Store COMStr COMStr, (¬ pushed → p.exec s = (.ok (), s)) ∧
    (pushed → ∃ text, p.exec s = (.ok (), s.push queue text) ∧ Says P text key f)

/-- Of a registered device, events are pushed, and audits where the protocol is MQTT. No parameter
replaces the data, and any may replace a fixed field. -/
theorem push_text (P : Poco) (hP : ∀ o, (Var.object .value o).Regular → P.ReadsBackValue o)
    (reg : RegistrationInfo_T) (info : ComProcessInfo) (timeStamp : COMStr) (n : Notice)
    (hparams : n.params.Sorted) :
    Pushes P (pushEvent P reg timeStamp n) (reg.devID ≠ "") mqttEventQueue "event_log"
        (field reg.devID timeStamp eventData n) ∧
      Pushes P (pushAudit P reg info timeStamp n) (reg.devID ≠ "" ∧ reg.protocol = "MQTT")
        mqttAuditQueue "audit_log" (field reg.devID timeStamp (auditData info) n) := by
  constructor
  · intro s
    rw [pushEvent]
    refine ⟨fun h ↦ ?_, fun h ↦ ?_⟩
    · rw [if_pos (not_not.mp h)]
      rfl
    · rw [if_neg h]
      refine ⟨_, rfl, says_text hP hparams ?_ ?_ _⟩
      · exact List.nodup_singleton _
      · simp [eventData, Var.Regular, RegularFields]
  · intro s
    rw [pushAudit]
    refine ⟨fun h ↦ ?_, fun h ↦ ?_⟩
    · by_cases hdev : reg.devID = ""
      · rw [if_pos hdev]
        rfl
      · rw [if_neg hdev, if_neg fun hprotocol ↦ h ⟨hdev, hprotocol⟩]
        rfl
    · rw [if_neg h.1, if_pos h.2]
      exact ⟨_, rfl, says_auditText hP hparams⟩

/-- A gateway that is registered for MQTT. -/
def registered : RegistrationInfo_T where
  name := ""
  restAPI := ""
  restAPIVer := ""
  productID := ""
  model := ""
  protocol := "MQTT"
  devID := "d378e0b5"
  registerState := ""
  token := ""
  otpSecret := ""
  publicKey := ""
  privateKey := ""
  isLocked := false

/-- A process of the root user. -/
def rootProcess : ComProcessInfo := ⟨"root", "local", 0, "", "it5-manager"⟩

/-- Parameters under the names of a fixed field and of the data of an audit. -/
def clashing : Notice :=
  ⟨"system_info", "info", "System Information", [("code", "0"), ("data_system", "none")]⟩

/-- The first replaces the field, the second does not replace the data. -/
theorem push_text_clashing :
    Pushes Poco.json (pushAudit Poco.json registered rootProcess "0" clashing) True
        mqttAuditQueue "audit_log" (field "d378e0b5" "0" (auditData rootProcess) clashing) ∧
      field "d378e0b5" "0" (auditData rootProcess) clashing "code" = some (.str "0") ∧
      field "d378e0b5" "0" (auditData rootProcess) clashing "data_system" =
        (auditData rootProcess).lookup "data_system" := by
  have hsorted : clashing.params.Sorted := by
    rw [ComMap.Sorted]
    decide
  have hpushes := (push_text Poco.json (fun _ ↦ Poco.json_readsBackValue) registered rootProcess
    "0" clashing hsorted).2
  have htrue : (registered.devID ≠ "" ∧ registered.protocol = "MQTT") = True := by decide
  rw [htrue] at hpushes
  exact ⟨hpushes, rfl, rfl⟩

end COM_Queue
end IcsGateway
