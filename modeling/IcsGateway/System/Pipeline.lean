import IcsGateway.Bridge.Threads
import IcsGateway.Lib.StoreRules
import IcsGateway.M2C.M2CMQTT
import IcsGateway.M2MSensor.SensorDevice

/-!
# The way of the data from the sensors to the cloud

The sensor process pushes a message for each round to the data bus; the listener of the Bridge
stores the tags of the messages, its timer thread makes reports of what is stored and pushes them
to the queue of the MQTT process, which publishes them. The bus and the queue are lists of the
local Redis. The processes take their steps in any order, and take the messages of a list in any
order.
-/

namespace IcsGateway.Pipeline

open Lib

/-- `REDIS_CH_MCAST_DATA`; `Common/ComDefinition.h:106`. -/
def dataBus : COMStr := "local_data_bus"

/-- The processes and what they share. -/
structure Gateway where
  /-- The object all rounds of the sensor process share. -/
  dataPoint : Object
  /-- The Bridge, with the local Redis. -/
  bridge : Bridge.Threads
  /-- The public connection, in the MQTT process. -/
  client : M2CMQTTDataSet.Process
  /-- The data handed to the client, with their topic. -/
  published : List (COMStr × COMStr)

/-- What can happen. -/
inductive Event where
  /-- A round of the sensor process, with its configuration, what `getTemp` returns for the file
  at a path, and the text of the clock. -/
  | round (sensors : List SensorAlarmConfig) (relays : List DefaultRelayState)
      (getTemp : List Char → Rat) (timeStamp devID : COMStr)
  /-- The sensor process is started again. -/
  | respawn
  /-- The listener of the Bridge handles a message of the bus, and it is popped. -/
  | collect (i : Nat)
  /-- The timer thread of the Bridge begins a tick. -/
  | tick (timeStamp : COMStr)
  /-- It does the next operation of the tick. -/
  | timer
  /-- Around the connection: its callbacks, and the messages of other queues published. -/
  | client (e : M2CMQTTDataSet.Event)
  /-- The MQTT process handles a message of its queue, which is popped if `Publish` returns true:
  when the client reports it delivered in time. -/
  | publish (i : Nat) (delivered : Bool)

/-- The first gateway: nothing is in Redis. -/
def initial (mqtt : MqttBrokerConfig_T) (subscribes : COMStr) (clock : Nat) : Gateway where
  dataPoint := []
  bridge := Bridge.start ⟨fun _ ↦ "", fun _ ↦ []⟩
  client := .initial mqtt subscribes clock
  published := []

namespace Gateway

/-- A change of the local Redis by another process than the Bridge. -/
def withRedis (f : Redis → Redis) (s : Gateway) : Gateway :=
  { s with bridge := { s.bridge with redis := f s.bridge.redis } }

/-- A round sends its message to the bus, if the sensors have been found;
`M2M_SENSOR/SensorDevice.cpp:111–186`. -/
def round (P : Poco) (sensors : List SensorAlarmConfig) (relays : List DefaultRelayState)
    (getTemp : List Char → Rat) (timeStamp devID : COMStr) (s : Gateway) : Gateway :=
  match SensorDevice.round sensors relays getTemp timeStamp devID s.dataPoint with
  | none => s
  | some msg =>
    { s with dataPoint := msg }.withRedis (·.push dataBus (P.stringify (.object .value msg)))

/-- The listener handles a message; `Bridge/Bridge.cpp:82`. -/
def collect (P : Poco) (cfg : BridgeConfig) (i : Nat) (s : Gateway) : Gateway :=
  match (s.bridge.redis.lists dataBus)[i]? with
  | none => s
  | some msg =>
    { s with bridge := Bridge.step P cfg s.bridge (.message msg) }.withRedis (·.erase dataBus i)

/-- The MQTT process handles a message; `M2C_MQTT/M2CMQTT.cpp:93`. -/
def publish (i : Nat) (delivered : Bool) (s : Gateway) : Gateway :=
  if s.client.exited then s
  else match (s.bridge.redis.lists Bridge.m2cDataQueue)[i]? with
    | none => s
    | some msg =>
      match M2C_MQTT.processDev2CloudDATA s.client.clock (some s.client.dataSet) msg with
      | .refused => s
      | .exits => { s with client := { s.client with exited := true } }
      | .sends topic payload =>
        let s := { s with published := s.published ++ [(topic, payload)] }
        if delivered then s.withRedis (·.erase Bridge.m2cDataQueue i) else s

end Gateway

/-- One event. -/
def step (P : Poco) (cfg : BridgeConfig) (s : Gateway) : Event → Gateway
  | .round sensors relays getTemp timeStamp devID =>
    s.round P sensors relays getTemp timeStamp devID
  | .respawn => { s with dataPoint := [] }
  | .collect i => s.collect P cfg i
  | .tick timeStamp => { s with bridge := Bridge.step P cfg s.bridge (.tick timeStamp) }
  | .timer => { s with bridge := Bridge.step P cfg s.bridge .timer }
  | .client e => { s with client := s.client.step e }
  | .publish i delivered => s.publish i delivered

end IcsGateway.Pipeline
