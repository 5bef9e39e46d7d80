import IcsGateway.Common.ComConfig
import IcsGateway.Common.WatchDog

/-!
# The Manager's downlink handler

Cloud requests reach the Manager as `cloud_req` messages, are dispatched on the first token
of their command, and are answered with a `cloud_resp`
(`Manager/ManagerDownlinkHandler.cpp`). The state holds what the handler reads and writes:
configuration, GPIO levels, the local Redis, the messages sent and the processes respawned.
-/

namespace IcsGateway

open Lib

/-- A message between the processes of the gateway. -/
structure ComIPCMsg where
  type : COMStr
  content : COMStr
  deriving DecidableEq, Repr

/-- The members of `RegistrationInfo_T` the handler reads; `Common/ComConfig.h:129`. -/
structure RegInfo where
  devID : COMStr
  protocol : COMStr

/-- What the Manager's handlers read and write. -/
structure ManagerState where
  manager : ComConfig ManagerConfig_T
  regInfo : RegInfo
  dFRelayState : ComConfig DefaultRelayState_T
  /-- The value last written to each GPIO pin. -/
  pins : Int32 → Int32
  /-- The string keys of the local Redis, absent ones being empty. -/
  redis : COMStr → COMStr
  /-- `ManagerWatchDog::M2CMQTT`. -/
  m2cMQTT : WatchDogSection
  /-- The messages sent to other processes, with their targets. -/
  sent : List (ComIPCMsg × List COMStr)
  /-- The processes respawned. -/
  respawned : List COMStr

namespace ManagerDownlinkHandler

/-- Code of the Manager. -/
abbrev M := Eff Halt ManagerState

/-- A library call that may throw. -/
def call {α : Type} (r : Except Exn α) : M α := Eff.ofExcept (r.mapError Halt.threw)

/-! ### Effects -/

/-- `digitalWrite` of wiringPi. -/
def digitalWrite (pin value : Int32) : M Unit :=
  modify fun s ↦ { s with pins := fun p ↦ if p = pin then value else s.pins p }

/-- `ManagerIPCSend`. -/
def managerIPCSend (type content : COMStr) (targets : List COMStr) : M Unit :=
  modify fun s ↦ { s with sent := s.sent ++ [(⟨type, content⟩, targets)] }

/-- `ComProcess::Respawn`. -/
def respawn (proto : COMStr) : M Unit :=
  modify fun s ↦ { s with respawned := s.respawned ++ [proto] }

/-- `ManagerConfig::DFRelayState().Save()`: `JSave`, and the document printed to Redis. -/
def saveDFRelayState (P : Poco) : M Unit :=
  modify fun s ↦
    let cfg := (DefaultRelayState_T.jSave.exec s.dFRelayState).2
    { s with
      dFRelayState := cfg
      redis := match cfg.jConf with
        | none => s.redis
        | some o => fun k ↦
          if k = "DEFAULT_RELAY" then P.stringify (.object .ptr o) else s.redis k }

/-- The relay list of the running configuration. -/
def setDFRelay (rs : List DefaultRelayState) : M Unit :=
  modify fun s ↦ { s with dFRelayState :=
    { s.dFRelayState with fields := { s.dFRelayState.fields with dFRelay := rs } } }

/-! ### `CloudSetAirCState` -/

/-- The loop over `data`; `Manager/ManagerDownlinkHandler.cpp:205–216`. `index` and `state`
keep their values over an element that does not give them; none is the `return false` on an
empty element. -/
def readDataIn (P : Poco) (index state : Int32) : List Var → Except Exn (Option (Int32 × Int32))
  | [] => .ok (some (index, state))
  | v :: vs => do
    let jdata ← deref v.getObject
    if jdata.length = 0 then .ok none
    else
      let state ← JGET P.convertInt state (some jdata) "state"
      let index ← JGET P.convertInt index (some jdata) "index"
      readDataIn P index state vs

/-- The loop over the relays; `Manager/ManagerDownlinkHandler.cpp:231–244`. `done` are the
relays passed, and `data` the object the response carries. -/
def relayLoop (P : Poco) (index state : Int32) (done : List DefaultRelayState) (data : Object) :
    List DefaultRelayState → M Object
  | [] => pure data
  | r :: rest =>
    if index = r.index then
      if state = r.state then
        relayLoop P index state (done ++ [r])
          (Object.set data "info" (.str "State cmd equal state current")) rest
      else do
        setDFRelay (done ++ { r with state := state } :: rest)
        digitalWrite r.gpio state
        saveDFRelayState P
        respawn "SENSOR"
        relayLoop P index state (done ++ [{ r with state := state }]) data rest
    else relayLoop P index state (done ++ [r]) data rest

/-- `CloudSetAirCState`, with the elements it leaves in `aOutput`;
`Manager/ManagerDownlinkHandler.cpp:191`. The array `JGET_ARR` may add to the request is not
read again. -/
def cloudSetAirCState (P : Poco) (pInput : Object) (aOutput : List Var) : M (Bool × List Var) := do
  let vs ← call (deref (JGET_ARR pInput "data").1.vals)
  match ← call (readDataIn P (-1) (-1) vs) with
  | none => pure (false, aOutput)
  | some (index, state) =>
    if state ≠ 1 ∧ state ≠ 0 then pure (false, aOutput)
    else if index ≤ 0 ∨ index > 2 then pure (false, aOutput)
    else
      let data ← relayLoop P index state [] [] (← get).dFRelayState.fields.dFRelay
      pure (true, aOutput ++ [.object .value data])

/-! ### The other commands -/

/-- `CloudGetVersion`; `Manager/ManagerDownlinkHandler.cpp:176`. -/
def cloudGetVersion (aOutput : List Var) : M (Bool × List Var) := do
  let data : Object := [("version", .str (← get).manager.fields.softVer)]
  pure (true, aOutput ++ [.object .value data])

/-- `CloudGetAlarmConfig`; `Manager/ManagerDownlinkHandler.cpp:256`. -/
def cloudGetAlarmConfig (P : Poco) (aOutput : List Var) : M (Bool × List Var) := do
  let alarmConfig := (← get).redis "COLLECTOR_CONFIG"
  let result ← call (P.parse alarmConfig)
  let jData ← call result.extractObject
  pure (true, aOutput ++ [.object .ptr jData])

/-- `ProcessCloudReqest`; `Manager/ManagerDownlinkHandler.cpp:144`. An empty command has no
token to look at. -/
def processCloudReqest (P : Poco) (command : COMStr) (pInput : Object) (aOutput : List Var) :
    M (Bool × List Var) :=
  match ComUtil.split command ';' with
  | [] => throw .undefined
  | cmd :: _ =>
    if cmd = "get_version" then cloudGetVersion aOutput
    else if cmd = "set_air_conditional_status" then cloudSetAirCState P pInput aOutput
    else if cmd = "get_alarm_config" then cloudGetAlarmConfig P aOutput
    else pure (false, aOutput)

/-! ### Messages -/

/-- The response to a cloud request; `Manager/ManagerDownlinkHandler.cpp:97–104`. -/
def cloudResp (uuid devID command : COMStr) (now : ComUtil.Utc) (isSuccess : Bool)
    (aOut : List Var) : Object :=
  [("ban_tin_id", .str uuid), ("cum_loa_id", .str devID), ("che_do_phat", .str command),
    ("thoi_gian_xu_ly", .str (ComUtil.utcNowString now)), ("ket_qua", .bool isSuccess),
    ("thong_bao", .str (if isSuccess then "thanh_cong" else "that_bai")),
    ("du_lieu", .array .value aOut)]

/-- The `try` block of `ProcessMGRDownlinkMsg`; `Manager/ManagerDownlinkHandler.cpp:81–127`.
`now` is the clock and `memory` what the stack holds where `FromJson` declares its state. -/
def processMGRDownlinkBody (P : Poco) (now : ComUtil.Utc) (memory : Bool) (packet : ComIPCMsg) :
    M Bool := do
  let result ← call (P.parse packet.content)
  let pIn ← call result.extractObject
  if packet.type = "cloud_req" then
    let uuid ← call (JGET P.convertStr "" (some pIn) "ban_tin_id")
    let command ← call (JGET P.convertStr "" (some pIn) "che_do_phat")
    let _broadcastType ← call (JGET P.convertStr "" (some pIn) "kieu_phat")
    let (isSuccess, aOut) ← processCloudReqest P command pIn []
    let regInfo := (← get).regInfo
    let strrsp := P.stringify (.object .value
      (cloudResp uuid regInfo.devID command now isSuccess aOut))
    if regInfo.protocol = "MQTT" then managerIPCSend "cloud_resp" strrsp ["MQTT"]
    pure isSuccess
  else if packet.type = "StatusInd" then
    let s ← get
    if s.regInfo.protocol = "MQTT" then
      let r := (WatchDogSection.fromJson P memory packet.content).exec s.m2cMQTT
      set { s with m2cMQTT := r.2 }
      let _ ← call r.1
      managerIPCSend "StatusInd" packet.content ["CLI"]
    pure true
  else pure false

/-- `ProcessMGRDownlinkMsg`; `Manager/ManagerDownlinkHandler.cpp:73`. Both `catch` blocks set
the status and send nothing. -/
def processMGRDownlinkMsg (P : Poco) (now : ComUtil.Utc) (memory : Bool) (packet : ComIPCMsg) :
    M Bool :=
  tryCatch (processMGRDownlinkBody P now memory packet) fun
    | .threw _ => pure false
    | .undefined => throw .undefined

/-! ### Start -/

/-- The configuration a persisted text gives. -/
def loadDFRelayState (P : Poco) (memory : DefaultRelayState) (text : COMStr) :
    Except Exn (ComConfig DefaultRelayState_T) := do
  let result ← P.parse text
  let jConf ← result.extractObject
  .ok ((DefaultRelayState_T.load P memory).exec ⟨.new, some jConf⟩).2

/-- The loop that drives the relays at start; `Manager/Manager.cpp:59–62`. -/
def driveRelays : List DefaultRelayState → M Unit
  | [] => pure ()
  | r :: rest => do
    digitalWrite r.gpio r.state
    driveRelays rest

/-- `Manager::Initialize` as far as the relays go: the configuration is loaded and the pins
are driven; `Manager/Manager.cpp:24,54–62`. -/
def managerInitialize (P : Poco) (memory : DefaultRelayState) : M Unit := do
  let cfg ← call (loadDFRelayState P memory ((← get).redis "DEFAULT_RELAY"))
  modify fun s ↦ { s with dFRelayState := cfg }
  driveRelays cfg.fields.dFRelay

end ManagerDownlinkHandler
end IcsGateway
