import IcsGateway.Lib.Ledger
import IcsGateway.M2C.M2CMQTT
import IcsGateway.Manager.Consumer

/-!
# The link between the cloud and the Manager

The MQTT process consumes the messages of the broker, replies to them and forwards requests to
the Manager; the Manager handles them and sends responses back, which the MQTT process publishes.
The two processes and the messages between them take their steps in any order: messages overtake
each other and get lost, the connection comes and goes, and the MQTT process ends and is started
again.
-/

namespace IcsGateway.CloudLink

open Lib M2CDownlink ManagerDownlinkHandler

/-- The configuration of the MQTT process. -/
structure Config where
  poco : Poco
  /-- `MQTTConfig::RegInfo().DevID`. -/
  devID : COMStr
  /-- `MQTTConfig::MQTT()`. -/
  mqtt : MqttBrokerConfig_T

/-- What the consumer of a message finds around it: its response callback is
`ProcessDev2Cloud_CTRL`, which throws nothing; `M2C_MQTT/M2CMQTT.cpp:42`. -/
def Config.env (cfg : Config) (exec : COMStr → Except Exn Unit) (now : Nat → ComUtil.Utc) :
    Env where
  poco := cfg.poco
  devID := cfg.devID
  res := some fun _ ↦ .ok ()
  exec := exec
  now := now

/-- The two processes and the messages between them. A request has the number of the forwarded
messages before it, which goes with its response. -/
structure Link where
  /-- The public connection, in the MQTT process. -/
  client : M2CMQTTDataSet.Process
  manager : ManagerState
  /-- The messages on their way to the Manager. -/
  toManager : List (Nat × ComIPCMsg)
  /-- The responses on their way to the MQTT process. -/
  toMQTT : List (Nat × ComIPCMsg)
  /-- The replies handed to the client, with the message replied to and the topic. -/
  replies : List (COMStr × COMStr × COMStr)
  /-- The responses handed to the client, with their topic. -/
  responses : List (Nat × COMStr × COMStr)
  /-- The commands carried out in the MQTT process. -/
  executed : List COMStr
  /-- The messages forwarded. -/
  forwarded : List COMStr
  /-- The requests lost on their way. -/
  lost : List Nat
  /-- The requests handled for which no response was handed to the client. -/
  dropped : List Nat

namespace Link

/-- A Manager and an MQTT process that have just started. -/
def initial (cfg : Config) (manager : ManagerState) (subscribes : COMStr) (clock : Nat) : Link where
  client := M2CMQTTDataSet.Process.initial cfg.mqtt subscribes clock
  manager := manager
  toManager := []
  toMQTT := []
  replies := []
  responses := []
  executed := []
  forwarded := []
  lost := []
  dropped := []

/-- The MQTT process ends. -/
def exit (s : Link) : Link := { s with client := { s.client with exited := true } }

/-- One effect of a message in the MQTT process, while it runs. -/
def perform (cfg : Config) (msg : COMStr) (s : Link) (e : Effect) : Link :=
  if s.client.exited then s
  else match e with
    | .reply text =>
      match M2C_MQTT.processDev2CloudCTRL cfg.mqtt s.client.clock s.client.dataSet text with
      | .refused => s
      | .exits => s.exit
      | .sends topic payload => { s with replies := s.replies ++ [(msg, topic, payload)] }
    | .exec command => { s with executed := s.executed ++ [command] }
    | .forward type content => { s with
        toManager := s.toManager ++ [(s.forwarded.length, ⟨type, content⟩)]
        forwarded := s.forwarded ++ [msg] }

/-- The Manager handles one of the messages on their way, and what it sends to the MQTT process
is on its way back. -/
def handle (cfg : Config) (i : Nat) (now : ComUtil.Utc) (memory : Bool) (s : Link) : Link :=
  match s.toManager[i]? with
  | none => s
  | some (n, packet) =>
    let manager := ((processMGRDownlinkMsg cfg.poco now memory packet).exec s.manager).2
    let new := (forMQTT manager.sent).drop (forMQTT s.manager.sent).length
    { s with
      manager := manager
      toManager := s.toManager.eraseIdx i
      toMQTT := s.toMQTT ++ new.map fun packet ↦ (n, packet)
      dropped := if new = [] then s.dropped ++ [n] else s.dropped }

/-- The MQTT process handles one of the responses on their way, while it runs. -/
def respond (cfg : Config) (i : Nat) (s : Link) : Link :=
  if s.client.exited then s
  else match s.toMQTT[i]? with
    | none => s
    | some (n, packet) =>
      let s := { s with toMQTT := s.toMQTT.eraseIdx i }
      match M2C_MQTT.processIPC cfg.poco cfg.mqtt s.client.clock s.client.dataSet packet with
      | .refused => { s with dropped := s.dropped ++ [n] }
      | .exits => { s.exit with dropped := s.dropped ++ [n] }
      | .sends topic payload => { s with responses := s.responses ++ [(n, topic, payload)] }

/-- A request on its way is lost. -/
def loseRequest (i : Nat) (s : Link) : Link :=
  match s.toManager[i]? with
  | none => s
  | some (n, _) => { s with toManager := s.toManager.eraseIdx i, lost := s.lost ++ [n] }

/-- A response on its way is lost. -/
def loseResponse (i : Nat) (s : Link) : Link :=
  match s.toMQTT[i]? with
  | none => s
  | some (n, _) => { s with toMQTT := s.toMQTT.eraseIdx i, dropped := s.dropped ++ [n] }

section Running

variable {cfg : Config} {s : Link}

/-- A reply the client takes. -/
theorem perform_reply (hrun : s.client.exited = false) (msg : COMStr) {text topic payload : COMStr}
    (h : M2C_MQTT.processDev2CloudCTRL cfg.mqtt s.client.clock s.client.dataSet text =
      .sends topic payload) :
    s.perform cfg msg (.reply text) =
      { s with replies := s.replies ++ [(msg, topic, payload)] } := by
  simp only [perform, hrun, Bool.false_eq_true, if_false, h]

/-- A message forwarded. -/
theorem perform_forward (hrun : s.client.exited = false) (msg type content : COMStr) :
    s.perform cfg msg (.forward type content) = { s with
      toManager := s.toManager ++ [(s.forwarded.length, ⟨type, content⟩)]
      forwarded := s.forwarded ++ [msg] } := by
  simp only [perform, hrun, Bool.false_eq_true, if_false]

/-- The only response on its way, where the client takes it. -/
theorem respond_of_sends (hrun : s.client.exited = false) {n : Nat} {packet : ComIPCMsg}
    (hto : s.toMQTT = [(n, packet)]) {topic payload : COMStr}
    (h : M2C_MQTT.processIPC cfg.poco cfg.mqtt s.client.clock s.client.dataSet packet =
      .sends topic payload) :
    s.respond cfg 0 =
      { s with toMQTT := [], responses := s.responses ++ [(n, topic, payload)] } := by
  simp only [respond, hrun, Bool.false_eq_true, if_false, hto, List.getElem?_cons_zero, h,
    List.eraseIdx_cons_zero]

end Running

end Link

/-- What can happen, with what the rest of the gateway supplies. -/
inductive Event where
  /-- Around the connection: its callbacks, and the messages of other queues published. -/
  | client (e : M2CMQTTDataSet.Event)
  /-- A message of the broker is consumed. -/
  | consume (msg : COMStr) (exec : COMStr → Except Exn Unit) (now : Nat → ComUtil.Utc)
  | handle (i : Nat) (now : ComUtil.Utc) (memory : Bool)
  | respond (i : Nat)
  /-- The watch dog of the MQTT process reports its status to the Manager. -/
  | indicate (content : COMStr) (now : ComUtil.Utc) (memory : Bool)
  /-- A message of the Bridge reaches the Manager. -/
  | bridge (packet : ComIPCMsg)
  | loseRequest (i : Nat)
  | loseResponse (i : Nat)
  /-- The MQTT process is started again, after some seconds. -/
  | restart (subscribes : COMStr) (secs : Nat)

open Link in
/-- A step of the link. -/
def step (cfg : Config) (s : Link) : Event → Link
  | .client e => { s with client := s.client.step e }
  | .consume msg exec now =>
    if s.client.exited then s
    else (effects (cfg.env exec now) msg).foldl (perform cfg msg) s
  | .handle i now memory => s.handle cfg i now memory
  | .respond i => s.respond cfg i
  | .indicate content now memory => { s with
      manager := ((processMGRDownlinkMsg cfg.poco now memory ⟨"StatusInd", content⟩).exec
        s.manager).2 }
  | .bridge packet => { s with manager := ((processBridgeMsg cfg.poco packet).exec s.manager).2 }
  | .loseRequest i => s.loseRequest i
  | .loseResponse i => s.loseResponse i
  | .restart subscribes secs => { s with
      client := M2CMQTTDataSet.Process.initial cfg.mqtt subscribes (s.client.clock + secs) }

/-- The message consumed, if any, is handled without undefined behaviour: it is no message for
this device without a command. -/
def Defined (cfg : Config) (_ : Link) : Event → Prop
  | .consume msg exec now =>
    ((processDownlinkConsume (cfg.env exec now) msg).exec .start).1 ≠ .error .undefined
  | _ => True

end IcsGateway.CloudLink
