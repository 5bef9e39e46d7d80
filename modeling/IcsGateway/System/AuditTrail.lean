import IcsGateway.Lib.StoreRules
import IcsGateway.M2C.M2CMQTT
import IcsGateway.Manager.ManagerWatchDog

/-!
# The way of the audits to the cloud

The watch dog of the Manager and the MQTT process push audits to a list of the local Redis, and
the MQTT process publishes them. Either process may end and be started again at any time.
-/

namespace IcsGateway.AuditTrail

open Lib COM_Queue ManagerWatchDog

/-- What the processes read of their configuration. -/
structure Config extends ManagerWatchDog.Config where
  /-- `MQTTConfig::MQTT()`. -/
  mqtt : MqttBrokerConfig_T
  /-- `ComProcessInfo` of the MQTT process. -/
  mqttInfo : ComProcessInfo

/-- Audits reach the queue. -/
def Config.Registered (cfg : Config) : Prop := cfg.reg.devID ≠ "" ∧ cfg.reg.protocol = "MQTT"

instance (cfg : Config) : Decidable cfg.Registered := inferInstanceAs (Decidable (_ ∧ _))

/-- The time of a Manager from its first call of the watch dog on, which no code reads. -/
structure Life where
  /-- The time of the start. -/
  since : Int
  /-- The times of the calls that pushed an audit of the system, the last first. -/
  reports : List Int
  /-- The time of the last call. -/
  ticked : Int

/-- The processes, what they share, and what has happened, which no code reads. -/
structure Trail where
  redis : Redis
  dog : ManagerWatchDog
  /-- The public connection, in the MQTT process. -/
  client : M2CMQTTDataSet.Process
  /-- The audits handed to the client, with their topic. -/
  published : List (COMStr × COMStr)
  /-- The audits pushed. -/
  audits : List Audit
  /-- The texts popped from the queue. -/
  delivered : List COMStr
  /-- That of the Manager, after its first call of the watch dog. -/
  life : Option Life

/-- What can happen. -/
inductive Event where
  /-- The timer of the Manager calls the watch dog. -/
  | tick (t : Tick)
  /-- The Manager is started again. -/
  | respawn
  /-- A process sets the state of the gateway. -/
  | setState (state : COMStr)
  /-- A process pushes a text that the watch dog logs. -/
  | note (text : COMStr)
  /-- Around the connection: its callbacks, and the messages of other queues published. -/
  | client (e : M2CMQTTDataSet.Event) (timeStamp : COMStr)
  /-- The MQTT process audits its connection, made -/
  | connected (timeStamp : COMStr)
  /-- or not, with the text of an exception. -/
  | failed (what timeStamp : COMStr)
  /-- It handles a message of the queue, which is popped if `Publish` returns true: when the
  client reports it delivered in time. -/
  | publish (i : Nat) (delivered : Bool) (timeStamp : COMStr)
  /-- It is started again, after some seconds. -/
  | restart (subscribes : COMStr) (secs : Nat)

/-- A connection made; `M2C_MQTT/M2CMQTT.cpp:40`. -/
def connectedNotice : Notice := ⟨"device_state", "info", "MQTT primary cloud is connected", []⟩

/-- A connection that threw; `M2C_MQTT/M2CMQTTDataSet.cpp:132`. -/
def failedNotice (what : COMStr) : Notice :=
  ⟨"component_failure", "critical", "MQTT connection exception " ++ what, []⟩

/-- A connection lost for so long that the process ends; `M2C_MQTT/M2CMQTTDataSet.cpp:206`. -/
def lostNotice (secs : Int) : Notice :=
  ⟨"component_failure", "critical",
    "MQTT lost connection in more than " ++ toString secs ++ ".000000 seconds", []⟩

/-- `SetGlobalState`; `Common/ComState.cpp:12`. -/
def setGlobalState (state : COMStr) (redis : Redis) : Redis := redis.set gatewayState state

/-- The audits of the system among some. -/
def systemAudits (as : List Audit) : List Audit := as.filter (·.notice.code = "system_info")

namespace Trail

/-- The first trail: the lists of Redis are empty. -/
def initial (cfg : Config) (vals : COMStr → COMStr) (subscribes : COMStr) (clock : Nat) :
    Trail where
  redis := ⟨vals, fun _ ↦ []⟩
  dog := .fresh
  client := M2CMQTTDataSet.Process.initial cfg.mqtt subscribes clock
  published := []
  audits := []
  delivered := []
  life := none

/-- Some audits were pushed, if the gateway is registered. -/
def record (cfg : Config) (as : List Audit) (s : Trail) : Trail :=
  if cfg.Registered then { s with audits := s.audits ++ as } else s

/-- `COM_AUDIT` in the MQTT process. -/
def audit (cfg : Config) (n : Notice) (timeStamp : COMStr) (s : Trail) : Trail :=
  let a : Audit := ⟨n, timeStamp, cfg.mqttInfo⟩
  { s with redis := COM_AUDIT cfg.poco cfg.reg a s.redis }.record cfg [a]

/-- The watch dog is called. -/
def tick (cfg : Config) (t : Tick) (s : Trail) : Trail :=
  let as := ManagerWatchDog.audits cfg.toConfig t s.dog (s.redis.vals gatewayState)
  let reports := if cfg.Registered then (systemAudits as).map fun _ ↦ t.now else []
  let (dog, redis) := watchdog cfg.toConfig t s.dog s.redis
  { s with
    dog := dog
    redis := redis
    life := some (match s.life with
      | none => ⟨t.first, reports, t.now⟩
      | some l => ⟨l.since, reports ++ l.reports, t.now⟩) }.record cfg as

/-- The MQTT process ends, with an audit; `M2C_MQTT/M2CMQTTDataSet.cpp:205–209`. -/
def exit (cfg : Config) (timeStamp : COMStr) (s : Trail) : Trail :=
  { s.audit cfg (lostNotice (s.client.dataSet.stateSecs s.client.clock)) timeStamp with
    client := { s.client with exited := true } }

/-- Something happens around the connection. -/
def around (cfg : Config) (e : M2CMQTTDataSet.Event) (timeStamp : COMStr) (s : Trail) : Trail :=
  if !s.client.exited && (s.client.step e).exited then s.exit cfg timeStamp
  else { s with client := s.client.step e }

/-- The MQTT process handles a message; `M2C_MQTT/M2CMQTT.cpp:135`. -/
def publish (cfg : Config) (i : Nat) (delivered : Bool) (timeStamp : COMStr) (s : Trail) : Trail :=
  if s.client.exited then s
  else match (s.redis.lists mqttAuditQueue)[i]? with
    | none => s
    | some msg =>
      match M2C_MQTT.processAuditQueue cfg.mqtt s.client.clock s.client.dataSet msg with
      | .refused => s
      | .exits => s.exit cfg timeStamp
      | .sends topic payload =>
        let s := { s with published := s.published ++ [(topic, payload)] }
        if delivered then { s with
          redis := s.redis.erase mqttAuditQueue i
          delivered := s.delivered ++ [msg] }
        else s

end Trail

/-- One event. -/
def step (cfg : Config) (s : Trail) : Event → Trail
  | .tick t => s.tick cfg t
  | .respawn => { s with dog := .fresh, life := none }
  | .setState state => { s with redis := setGlobalState state s.redis }
  | .note text => { s with redis := s.redis.push "SystemInfor" text }
  | .client e timeStamp => s.around cfg e timeStamp
  | .connected timeStamp =>
    if s.client.exited then s else s.audit cfg connectedNotice timeStamp
  | .failed what timeStamp =>
    if s.client.exited then s else s.audit cfg (failedNotice what) timeStamp
  | .publish i delivered timeStamp => s.publish cfg i delivered timeStamp
  | .restart subscribes secs => { s with
      client := M2CMQTTDataSet.Process.initial cfg.mqtt subscribes (s.client.clock + secs) }

/-- The clock is not set back between two calls of the watch dog, and not by a century ahead. -/
def Clocked (s : Trail) : Event → Prop
  | .tick t => s.dog.sysreportTime.getD t.first ≤ t.now ∧
      t.now < s.dog.sysreportTime.getD t.first + 2 ^ 32
  | _ => True

/-- A call of the watch dog comes in time after the one before. -/
def Punctual (w : Int) (s : Trail) : Event → Prop
  | .tick t => t.now ≤ (s.life.elim t.first (·.ticked)) + w
  | _ => True

end IcsGateway.AuditTrail
