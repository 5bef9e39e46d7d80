import IcsGateway.Common.ComConfig

/-!
# Configuration objects without a list

The registration, the broker and the logging configuration are read and written member by member
(`Common/ComConfig.cpp:215–356,482–530`). `Load` resets the members first, reads each that the
document gives, and passes one of two texts through `StrRemove`.
-/

namespace IcsGateway

open Lib

variable {F ψ : Type} [DecidableEq ψ] {tyF : ψ → Type}

/-- `ComUtil::StrRemove`: it compares with a local variable that is never set, which holds
`memory`, and not with its argument; `Common/ComUtil.cpp:268`. -/
def ComUtil.strRemove (memory : Char) (str : COMStr) : COMStr :=
  String.ofList (str.toList.filter fun c ↦ c ≠ memory)

/-- `Load` of a class without a list: nothing for a null document, else the members are reset and
then read. -/
def loadFields (clear : F → F) (reads : Option Object → Eff Exn F Unit) :
    Eff Exn (ComConfig F) Bool := do
  let s ← get
  match s.jConf with
  | none => pure false
  | some jc =>
    set { s with fields := clear s.fields }
    onFields (reads (some jc))
    pure true

/-- `JSave` of such a class. -/
def saveFields (L : Layout F tyF) (writes : List (Jset tyF)) : Eff Exn (ComConfig F) Bool := do
  let s ← get
  match s.jConf with
  | none => pure false
  | some j =>
    set { s with jConf := some (writeFields L s.fields writes j) }
    pure true

/-! ### `RegistrationInfo_T` -/

/-- The registration of the device; `Common/ComConfig.h:133`. -/
structure RegistrationInfo_T where
  name : COMStr
  restAPI : COMStr
  restAPIVer : COMStr
  productID : COMStr
  model : COMStr
  protocol : COMStr
  devID : COMStr
  registerState : COMStr
  token : COMStr
  otpSecret : COMStr
  publicKey : COMStr
  privateKey : COMStr
  isLocked : Bool

namespace RegistrationInfo_T

/-- The members of `RegistrationInfo_T`. -/
inductive Field where
  | name
  | restAPI
  | restAPIVer
  | productID
  | model
  | protocol
  | devID
  | registerState
  | token
  | otpSecret
  | publicKey
  | privateKey
  | isLocked
  deriving DecidableEq

/-- The type of a member. -/
abbrev Field.type : Field → Type
  | .isLocked => Bool
  | .name => COMStr
  | .restAPI => COMStr
  | .restAPIVer => COMStr
  | .productID => COMStr
  | .model => COMStr
  | .protocol => COMStr
  | .devID => COMStr
  | .registerState => COMStr
  | .token => COMStr
  | .otpSecret => COMStr
  | .publicKey => COMStr
  | .privateKey => COMStr

/-- `RegistrationInfo_T` by member. -/
def layout : Layout RegistrationInfo_T Field.type where
  get r f := match f with
    | .name => r.name
    | .restAPI => r.restAPI
    | .restAPIVer => r.restAPIVer
    | .productID => r.productID
    | .model => r.model
    | .protocol => r.protocol
    | .devID => r.devID
    | .registerState => r.registerState
    | .token => r.token
    | .otpSecret => r.otpSecret
    | .publicKey => r.publicKey
    | .privateKey => r.privateKey
    | .isLocked => r.isLocked
  build vs := ⟨vs .name, vs .restAPI, vs .restAPIVer, vs .productID, vs .model, vs .protocol,
    vs .devID, vs .registerState, vs .token, vs .otpSecret, vs .publicKey, vs .privateKey,
    vs .isLocked⟩
  get_build vs := by funext f; cases f <;> rfl
  build_get _ := rfl

/-- The members of a new object; `Common/ComConfig.h:138–150`. -/
def new : RegistrationInfo_T :=
  { name := "", restAPI := "", restAPIVer := "v2", productID := "TBD", model := "DEV-001",
    protocol := "MQTT", devID := "", registerState := "None", token := "", otpSecret := "",
    publicKey := "", privateKey := "", isLocked := false }

/-- `RegistrationInfo_T::Clear`: it does not reset `Protocol`; `Common/ComConfig.cpp:215`. -/
def clear (c : RegistrationInfo_T) : RegistrationInfo_T :=
  { name := "", productID := "TBD", devID := "", restAPI := "", restAPIVer := "v2",
    registerState := "None", model := "", token := "", publicKey := "", privateKey := "",
    otpSecret := "", isLocked := false, protocol := c.protocol }

/-- `Common/ComConfig.cpp:241–243`. -/
def readsName (P : Poco) : List (Jget Field.type) :=
  [⟨"name", .name, P.convertStr⟩, ⟨"Model", .model, P.convertStr⟩,
    ⟨"RestAPI", .restAPI, P.convertStr⟩]

/-- `Common/ComConfig.cpp:245–254`. -/
def readsRest (P : Poco) : List (Jget Field.type) :=
  [⟨"RestAPIVer", .restAPIVer, P.convertStr⟩, ⟨"ProductID", .productID, P.convertStr⟩,
    ⟨"DevID", .devID, P.convertStr⟩, ⟨"Protocol", .protocol, P.convertStr⟩,
    ⟨"RegisterState", .registerState, P.convertStr⟩, ⟨"Token", .token, P.convertStr⟩,
    ⟨"PublicKey", .publicKey, P.convertStr⟩, ⟨"PrivateKey", .privateKey, P.convertStr⟩,
    ⟨"OTPSecret", .otpSecret, P.convertStr⟩, ⟨"IsLocked", .isLocked, Poco.convertBool⟩]

/-- `Common/ComConfig.cpp:269–281`. -/
def writes : List (Jset Field.type) :=
  [⟨"name", .name, .str⟩, ⟨"Model", .model, .str⟩, ⟨"RestAPI", .restAPI, .str⟩,
    ⟨"RestAPIVer", .restAPIVer, .str⟩, ⟨"ProductID", .productID, .str⟩, ⟨"DevID", .devID, .str⟩,
    ⟨"Protocol", .protocol, .str⟩, ⟨"RegisterState", .registerState, .str⟩,
    ⟨"Token", .token, .str⟩, ⟨"PublicKey", .publicKey, .str⟩, ⟨"PrivateKey", .privateKey, .str⟩,
    ⟨"IsLocked", .isLocked, .bool⟩, ⟨"OTPSecret", .otpSecret, .str⟩]

/-- The reads of `RegistrationInfo_T::Load`. -/
def reads (P : Poco) (memory : Char) (jc : Option Object) : Eff Exn RegistrationInfo_T Unit := do
  readFields layout jc (readsName P)
  modify fun c ↦ { c with restAPI := ComUtil.strRemove memory c.restAPI }
  readFields layout jc (readsRest P)

/-- `RegistrationInfo_T::Load`; `Common/ComConfig.cpp:231`. -/
def load (P : Poco) (memory : Char) : Eff Exn (ComConfig RegistrationInfo_T) Bool :=
  loadFields clear (reads P memory)

/-- `RegistrationInfo_T::JSave`; `Common/ComConfig.cpp:259`. -/
def jSave : Eff Exn (ComConfig RegistrationInfo_T) Bool := saveFields layout writes

end RegistrationInfo_T

/-! ### `MqttBrokerConfig_T` -/

/-- The broker; `Common/ComConfig.h:164`. -/
structure MqttBrokerConfig_T where
  host : COMStr
  port : Int32
  isSec : Bool
  topicData : COMStr
  topicDataQoS : UInt32
  topicCtrl : COMStr
  topicCtrlQoS : UInt32
  subQoS : UInt32
  queue : COMStr
  queueCtrl : COMStr
  state : Int32

namespace MqttBrokerConfig_T

/-- The members of `MqttBrokerConfig_T`. -/
inductive Field where
  | host
  | port
  | isSec
  | topicData
  | topicDataQoS
  | topicCtrl
  | topicCtrlQoS
  | subQoS
  | queue
  | queueCtrl
  | state
  deriving DecidableEq

/-- The type of a member. -/
abbrev Field.type : Field → Type
  | .host => COMStr
  | .port => Int32
  | .isSec => Bool
  | .topicData => COMStr
  | .topicDataQoS => UInt32
  | .topicCtrl => COMStr
  | .topicCtrlQoS => UInt32
  | .subQoS => UInt32
  | .queue => COMStr
  | .queueCtrl => COMStr
  | .state => Int32

/-- `MqttBrokerConfig_T` by member. -/
def layout : Layout MqttBrokerConfig_T Field.type where
  get r f := match f with
    | .host => r.host
    | .port => r.port
    | .isSec => r.isSec
    | .topicData => r.topicData
    | .topicDataQoS => r.topicDataQoS
    | .topicCtrl => r.topicCtrl
    | .topicCtrlQoS => r.topicCtrlQoS
    | .subQoS => r.subQoS
    | .queue => r.queue
    | .queueCtrl => r.queueCtrl
    | .state => r.state
  build vs := ⟨vs .host, vs .port, vs .isSec, vs .topicData, vs .topicDataQoS, vs .topicCtrl,
    vs .topicCtrlQoS, vs .subQoS, vs .queue, vs .queueCtrl, vs .state⟩
  get_build vs := by funext f; cases f <;> rfl
  build_get _ := rfl

/-- `MqttBrokerConfig_T::Clear`; `Common/ComConfig.cpp:290`. -/
def clear (c : MqttBrokerConfig_T) : MqttBrokerConfig_T :=
  { host := "", port := 0, topicData := "data_channel", topicDataQoS := 1,
    topicCtrl := "message_delivery", topicCtrlQoS := 1, subQoS := 1, queue := "device_log",
    queueCtrl := "receive_cmd", state := 0, isSec := c.isSec }

/-- `Common/ComConfig.cpp:319`. -/
def readsHost (P : Poco) : List (Jget Field.type) := [⟨"host", .host, P.convertStr⟩]

/-- `Common/ComConfig.cpp:321–330`. -/
def readsRest (P : Poco) : List (Jget Field.type) :=
  [⟨"port", .port, P.convertInt⟩, ⟨"topic_data", .topicData, P.convertStr⟩,
    ⟨"topic_qos", .topicDataQoS, P.convertUInt⟩, ⟨"topic_ctrl", .topicCtrl, P.convertStr⟩,
    ⟨"topic_ctrl_qos", .topicCtrlQoS, P.convertUInt⟩, ⟨"sub_qos", .subQoS, P.convertUInt⟩,
    ⟨"queue", .queue, P.convertStr⟩, ⟨"queue_ctrl", .queueCtrl, P.convertStr⟩,
    ⟨"state", .state, P.convertInt⟩]

/-- `Common/ComConfig.cpp:344–353`. -/
def writes : List (Jset Field.type) :=
  [⟨"host", .host, .str⟩, ⟨"port", .port, fun i ↦ .int i.toInt⟩, ⟨"topic_data", .topicData, .str⟩,
    ⟨"topic_qos", .topicDataQoS, fun u ↦ .int u.toNat⟩, ⟨"topic_ctrl", .topicCtrl, .str⟩,
    ⟨"topic_ctrl_qos", .topicCtrlQoS, fun u ↦ .int u.toNat⟩,
    ⟨"sub_qos", .subQoS, fun u ↦ .int u.toNat⟩, ⟨"queue", .queue, .str⟩,
    ⟨"queue_ctrl", .queueCtrl, .str⟩, ⟨"state", .state, fun i ↦ .int i.toInt⟩]

/-- The reads of `MqttBrokerConfig_T::Load`. -/
def reads (P : Poco) (memory : Char) (jc : Option Object) : Eff Exn MqttBrokerConfig_T Unit := do
  readFields layout jc (readsHost P)
  modify fun c ↦ { c with host := ComUtil.strRemove memory c.host }
  readFields layout jc (readsRest P)

/-- `MqttBrokerConfig_T::Load`, of the document and not of its draft; `Common/ComConfig.cpp:309`. -/
def load (P : Poco) (memory : Char) : Eff Exn (ComConfig MqttBrokerConfig_T) Bool :=
  loadFields clear (reads P memory)

/-- `MqttBrokerConfig_T::JSave`; `Common/ComConfig.cpp:335`. -/
def jSave : Eff Exn (ComConfig MqttBrokerConfig_T) Bool := saveFields layout writes

/-- `MqttBrokerConfig_T::IsReady`; `Common/ComConfig.cpp:358`. -/
def isReady (c : MqttBrokerConfig_T) : Bool :=
  c.state ≠ 0 && !(c.host = "" || c.port = 0 || c.topicData = "" || c.queue = "")

end MqttBrokerConfig_T

/-! ### `LogConfig_T` -/

/-- The logging; `Common/ComConfig.h:224`. -/
structure LogConfig_T where
  logDir : COMStr
  logLevel : Int32
  pocoLogLevel : Int32
  logMbSize : Int32
  compMask : UInt32
  prioMask : UInt32
  outMask : UInt32
  filePath : COMStr

namespace LogConfig_T

/-- The members of `LogConfig_T`. -/
inductive Field where
  | logDir
  | logLevel
  | pocoLogLevel
  | logMbSize
  | compMask
  | prioMask
  | outMask
  | filePath
  deriving DecidableEq

/-- The type of a member. -/
abbrev Field.type : Field → Type
  | .logDir => COMStr
  | .logLevel => Int32
  | .pocoLogLevel => Int32
  | .logMbSize => Int32
  | .compMask => UInt32
  | .prioMask => UInt32
  | .outMask => UInt32
  | .filePath => COMStr

/-- `LogConfig_T` by member. -/
def layout : Layout LogConfig_T Field.type where
  get r f := match f with
    | .logDir => r.logDir
    | .logLevel => r.logLevel
    | .pocoLogLevel => r.pocoLogLevel
    | .logMbSize => r.logMbSize
    | .compMask => r.compMask
    | .prioMask => r.prioMask
    | .outMask => r.outMask
    | .filePath => r.filePath
  build vs := ⟨vs .logDir, vs .logLevel, vs .pocoLogLevel, vs .logMbSize, vs .compMask,
    vs .prioMask, vs .outMask, vs .filePath⟩
  get_build vs := by funext f; cases f <;> rfl
  build_get _ := rfl

/-- `LogConfig_T::Clear`: it does not reset the masks and the file; `Common/ComConfig.cpp:482`. -/
def clear (c : LogConfig_T) : LogConfig_T :=
  { c with logDir := "", logLevel := 0, pocoLogLevel := 8, logMbSize := 5 }

/-- `Common/ComConfig.cpp:500–507`. -/
def reads (P : Poco) : List (Jget Field.type) :=
  [⟨"logDir", .logDir, P.convertStr⟩, ⟨"logMbSize", .logMbSize, P.convertInt⟩,
    ⟨"logLevel", .logLevel, P.convertInt⟩, ⟨"pocoLogLevel", .pocoLogLevel, P.convertInt⟩,
    ⟨"PrioMask", .prioMask, P.convertUInt⟩, ⟨"CompMask", .compMask, P.convertUInt⟩,
    ⟨"OutMask", .outMask, P.convertUInt⟩, ⟨"LogOutFile", .filePath, P.convertStr⟩]

/-- `Common/ComConfig.cpp:520–527`. -/
def writes : List (Jset Field.type) :=
  [⟨"logDir", .logDir, .str⟩, ⟨"logMbSize", .logMbSize, fun i ↦ .int i.toInt⟩,
    ⟨"logLevel", .logLevel, fun i ↦ .int i.toInt⟩,
    ⟨"pocoLogLevel", .pocoLogLevel, fun i ↦ .int i.toInt⟩,
    ⟨"PrioMask", .prioMask, fun u ↦ .int u.toNat⟩, ⟨"CompMask", .compMask, fun u ↦ .int u.toNat⟩,
    ⟨"OutMask", .outMask, fun u ↦ .int u.toNat⟩, ⟨"LogOutFile", .filePath, .str⟩]

/-- `LogConfig_T::Load`; `Common/ComConfig.cpp:490`. -/
def load (P : Poco) : Eff Exn (ComConfig LogConfig_T) Bool :=
  loadFields clear fun jc ↦ readFields layout jc (reads P)

/-- `LogConfig_T::JSave`; `Common/ComConfig.cpp:512`. -/
def jSave : Eff Exn (ComConfig LogConfig_T) Bool := saveFields layout writes

end LogConfig_T

end IcsGateway
