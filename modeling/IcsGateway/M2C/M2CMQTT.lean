import IcsGateway.M2C.Consume
import IcsGateway.M2C.DataSet
import IcsGateway.Manager.DownlinkHandler

/-!
# What the MQTT process publishes

The queues of the local Redis and the responses of the Manager are handed on to the public
connection, each kind with its own topic (`M2C_MQTT/M2CMQTT.cpp`). All but the data are
published only with a configuration that is ready, or, for the responses, from a message that
is read as an object.
-/

namespace IcsGateway.M2C_MQTT

open Lib M2CMQTTDataSet

/-- `ProcessDev2Cloud_DATA`; `M2C_MQTT/M2CMQTT.cpp:93`. The data set is null or the public
one. -/
def processDev2CloudDATA (now : Nat) (ds : Option M2CMQTTDataSet) (msg : COMStr) : Published :=
  match ds with
  | some ds => ds.publish now msg ""
  | none => .refused

/-- A text for a topic, from a configuration that is ready. -/
def publishReady (mqtt : MqttBrokerConfig_T) (now : Nat) (pub : M2CMQTTDataSet)
    (msg topic : COMStr) : Published :=
  if mqtt.isReady then pub.publish now msg topic else .refused

/-- `ProcessDev2Cloud_CTRL`; `M2C_MQTT/M2CMQTT.cpp:115`. -/
def processDev2CloudCTRL (mqtt : MqttBrokerConfig_T) (now : Nat) (pub : M2CMQTTDataSet)
    (msg : COMStr) : Published :=
  publishReady mqtt now pub msg mqtt.topicCtrl

/-- `ProcessEventQueue`; `M2C_MQTT/M2CMQTT.cpp:125`. -/
def processEventQueue (mqtt : MqttBrokerConfig_T) (now : Nat) (pub : M2CMQTTDataSet)
    (msg : COMStr) : Published :=
  publishReady mqtt now pub msg "events"

/-- `ProcessAuditQueue`; `M2C_MQTT/M2CMQTT.cpp:135`. -/
def processAuditQueue (mqtt : MqttBrokerConfig_T) (now : Nat) (pub : M2CMQTTDataSet)
    (msg : COMStr) : Published :=
  publishReady mqtt now pub msg "audit_log"

/-- The text `ProcessIPC` publishes for a message of the Manager, none where it publishes
nothing; `M2C_MQTT/M2CMQTT.cpp:154–172`. Both `catch` blocks only log. -/
def responseText (P : Poco) (packet : ComIPCMsg) : Option COMStr :=
  let text : Except Exn (Option COMStr) := do
    let result ← P.parse packet.content
    let pdat ← result.extractObject
    if packet.type = "cloud_resp" then
      let _ret ← JGET P.convertStr "" (some pdat) "Result"
      let _info ← JGET P.convertStr "" (some pdat) "Info"
      pure (some (P.stringify (.object .ptr pdat)))
    else pure none
  match text with
  | .ok text => text
  | .error _ => none

/-- `ProcessIPC`; `M2C_MQTT/M2CMQTT.cpp:150`. -/
def processIPC (P : Poco) (mqtt : MqttBrokerConfig_T) (now : Nat) (pub : M2CMQTTDataSet)
    (packet : ComIPCMsg) : Published :=
  match responseText P packet with
  | some strrsp => pub.publish now strrsp mqtt.topicCtrl
  | none => .refused

/-- A response that is read as an object is printed again; anything else is dropped. -/
theorem responseText_eq_some_iff {P : Poco} {packet : ComIPCMsg} {text : COMStr} :
    responseText P packet = some text ↔ packet.type = "cloud_resp" ∧
      ∃ o, P.parse packet.content = .ok (.object .ptr o) ∧ text = P.stringify (.object .ptr o) := by
  unfold responseText
  cases hp : P.parse packet.content with
  | error e => simp [bind, Except.bind]
  | ok v =>
    cases hv : v.extractObject with
    | error e =>
      have hne : ∀ o, v ≠ .object .ptr o := by
        rintro o rfl
        cases hv
      simp [bind, Except.bind, hv, hne]
    | ok o =>
      cases Var.eq_of_extractObject hv
      by_cases ht : packet.type = "cloud_resp"
      · simp [bind, Except.bind, pure, Except.pure, Var.extractObject, ht, JGET_convertStr,
          eq_comm]
      · simp [bind, Except.bind, pure, Except.pure, Var.extractObject, ht]

/-- The text of a response that is read as an object. -/
theorem responseText_of_parse {P : Poco} {content : COMStr} {o : Object}
    (h : P.parse content = .ok (.object .ptr o)) :
    responseText P ⟨"cloud_resp", content⟩ = some (P.stringify (.object .ptr o)) :=
  responseText_eq_some_iff.mpr ⟨rfl, o, h, rfl⟩

/-- What is handed to the client is the text given, and goes to its topic, or to the topic of
the data if it has none. -/
theorem publish_eq_sends {now : Nat} {msg topic topic' payload : COMStr} {d : M2CMQTTDataSet}
    (h : d.publish now msg topic = .sends topic' payload) :
    payload = msg ∧ topic' = (if topic = "" then d.topicData else topic) := by
  unfold M2CMQTTDataSet.publish at h
  split at h
  · cases h
  · split at h
    · split at h <;> cases h
    · cases h
      exact ⟨rfl, rfl⟩

end IcsGateway.M2C_MQTT
