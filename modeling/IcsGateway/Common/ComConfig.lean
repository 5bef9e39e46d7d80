import IcsGateway.Lib.RecordReuse
import IcsGateway.Base.Fields
import IcsGateway.Common.ComUtil

/-!
# Configuration objects

A configuration object keeps its members beside the JSON document they come from
(`JConf`); `Load` reads the document into the members and `JSave` writes them back
(`Common/ComConfig.cpp`). The classes that own one list of records share the shape of both
functions: `ListConfig` is that shape, and each class is its own keys, record and list.
-/

namespace IcsGateway

open Lib

/-- A configuration object: its members and its document, which may be null. -/
structure ComConfig (F : Type) where
  fields : F
  jConf : Option Object

variable {F ρ ψ φ : Type} [DecidableEq ψ] [DecidableEq φ] {tyF : ψ → Type} {ty : φ → Type}

/-- Statements that touch the members only. -/
def onFields {α : Type} (m : Eff Exn F α) : Eff Exn (ComConfig F) α := do
  let s ← get
  set { s with fields := (m.exec s.fields).2 }
  Eff.ofExcept (m.exec s.fields).1

/-- The loop of `Load` over the array under a key: `JGET_ARR`, then one record variable `r`
read from every element in turn and pushed to the list. False when the array is null. -/
def loadArray (key : COMStr) (body : Nat → Var → Eff Exn ρ (Bool × Var)) (r : ρ)
    (push : List ρ → F → F) : Eff Exn (ComConfig F) Bool := do
  let s ← get
  match s.jConf with
  | none => pure false
  | some jc =>
    let (p, jc') := JGET_ARR jc key
    match p.vals with
    | none =>
      set { s with jConf := some jc' }
      pure false
    | some vs =>
      let d := decodeList body 0 r vs
      set ({ fields := push d.out s.fields, jConf := some (p.store jc' key d.elems) } :
        ComConfig F)
      match d.stop with
      | some x => throw x
      | none => pure true

/-- The loop of `JSave` over a list: `JGET_ARR`, then, unless the array is null, `clear` and
one `add` for every record. -/
def saveArray (key : COMStr) (encode : ρ → Var) (rs : List ρ) (j : Object) : Object :=
  let (p, j') := JGET_ARR j key
  match p.vals with
  | none => j'
  | some _ => p.store j' key (rs.map encode)

/-- What a class with one list of records gives to the shared `JSave`. -/
structure ListSaver (F ρ : Type) {ψ : Type} (tyF : ψ → Type) where
  /-- The members. -/
  layout : Layout F tyF
  /-- The `set` statements on the document. -/
  writes : List (Jset tyF)
  /-- The key of the list. -/
  key : COMStr
  list : F → List ρ
  /-- The object added for a record. -/
  encode : ρ → Var

/-- What a class with one list of records gives to the shared `Load`. -/
structure ListConfig (F ρ : Type) {ψ : Type} (tyF : ψ → Type) extends ListSaver F ρ tyF where
  clear : F → F
  /-- The `JGET` statements on the document. -/
  reads : List (Jget tyF)
  /-- The body of the loop over the list. -/
  body : Nat → Var → Eff Exn ρ (Bool × Var)
  /-- The record variable as declared before the loop. -/
  record : ρ
  /-- The pushes onto the list. -/
  push : List ρ → F → F

/-- `Load`. The classes end it without a `return` once the list is read: `none` is that
indeterminate result, and `some false` the null document or list. -/
def ListConfig.load (C : ListConfig F ρ tyF) : Eff Exn (ComConfig F) (Option Bool) := do
  let s ← get
  match s.jConf with
  | none => pure (some false)
  | some jc =>
    set { s with fields := C.clear s.fields }
    onFields (readFields C.layout (some jc) C.reads)
    let got ← loadArray C.key C.body C.record C.push
    pure (if got then none else some false)

/-- `JSave`. -/
def ListSaver.jSave (C : ListSaver F ρ tyF) : Eff Exn (ComConfig F) Bool := do
  let s ← get
  match s.jConf with
  | none => pure false
  | some j =>
    let j' := saveArray C.key C.encode (C.list s.fields)
      (writeFields C.layout s.fields C.writes j)
    set { s with jConf := some j' }
    pure true

/-- A record variable as the language declares it: the members with an initialiser, and the
content of its memory elsewhere. -/
def declared (L : Layout ρ ty) (initialisers : Given ty) (memory : ρ) : ρ :=
  L.overlay initialisers memory

/-- `pobj = jarr->getObject(i)`, a run of `JGET` on it, and the record is pushed. -/
def pushRecord (L : Layout ρ ty) (reads : List (Jget ty)) (_i : Nat) (v : Var) :
    Eff Exn ρ (Bool × Var) := do
  readFields L v.getObject reads
  pure (true, v)

/-- `JSON::Object obj(true)`, a run of `set` on it, and `jarr->add(obj)`. -/
def addRecord (L : Layout ρ ty) (writes : List (Jset ty)) (r : ρ) : Var :=
  .object .value (writeFields L r writes [])

/-! ### `ManagerConfig_T` -/

/-- A child process; `Common/ComConfig.h:36`. -/
structure ProcessConfig where
  proto : COMStr
  command : COMStr
  isRespawn : Bool
  maxSpawnTimes : UInt32
  priority : Int32
  respawnDelay : UInt32
  deriving DecidableEq, Repr

namespace ProcessConfig

/-- The members of `ProcessConfig`. -/
inductive Field where
  | proto
  | command
  | isRespawn
  | maxSpawnTimes
  | priority
  | respawnDelay
  deriving DecidableEq

/-- The type of a member. -/
abbrev Field.type : Field → Type
  | .proto => COMStr
  | .command => COMStr
  | .isRespawn => Bool
  | .maxSpawnTimes => UInt32
  | .priority => Int32
  | .respawnDelay => UInt32

/-- `ProcessConfig` by member. -/
def layout : Layout ProcessConfig Field.type where
  get r f := match f with
    | .proto => r.proto
    | .command => r.command
    | .isRespawn => r.isRespawn
    | .maxSpawnTimes => r.maxSpawnTimes
    | .priority => r.priority
    | .respawnDelay => r.respawnDelay
  build vs := ⟨vs .proto, vs .command, vs .isRespawn, vs .maxSpawnTimes, vs .priority,
    vs .respawnDelay⟩
  get_build vs := by funext f; cases f <;> rfl
  build_get _ := rfl

/-- The members with an initialiser; `Common/ComConfig.h:38–43`. -/
def initialisers : Given Field.type
  | .proto => some ""
  | .command => some ""
  | .priority => some 100
  | .respawnDelay => some 30
  | .isRespawn => none
  | .maxSpawnTimes => none

/-- `Common/ComConfig.cpp:56–61`. -/
def reads (P : Poco) : List (Jget Field.type) :=
  [⟨"Protocol", .proto, P.convertStr⟩, ⟨"Command", .command, P.convertStr⟩,
    ⟨"Priority", .priority, P.convertInt⟩, ⟨"MaxSpawnTimes", .maxSpawnTimes, P.convertUInt⟩,
    ⟨"IsRespawn", .isRespawn, Poco.convertBool⟩,
    ⟨"RespawnDelay", .respawnDelay, P.convertUInt⟩]

/-- `Common/ComConfig.cpp:90–95`. -/
def writes : List (Jset Field.type) :=
  [⟨"Protocol", .proto, .str⟩, ⟨"Command", .command, .str⟩,
    ⟨"MaxSpawnTimes", .maxSpawnTimes, fun u ↦ .int u.toNat⟩, ⟨"IsRespawn", .isRespawn, .bool⟩,
    ⟨"Priority", .priority, fun i ↦ .int i.toInt⟩,
    ⟨"RespawnDelay", .respawnDelay, fun u ↦ .int u.toNat⟩]

end ProcessConfig

/-- The Manager's configuration; `Common/ComConfig.h:48`. -/
structure ManagerConfig_T where
  host : COMStr
  softVer : COMStr
  port : UInt32
  watchdogInterval : UInt32
  sysReportInterval : UInt32
  children : List ProcessConfig

namespace ManagerConfig_T

/-- The members of `ManagerConfig_T`. -/
inductive Field where
  | host
  | softVer
  | port
  | watchdogInterval
  | sysReportInterval
  | children
  deriving DecidableEq

/-- The type of a member. -/
abbrev Field.type : Field → Type
  | .host => COMStr
  | .softVer => COMStr
  | .port => UInt32
  | .watchdogInterval => UInt32
  | .sysReportInterval => UInt32
  | .children => List ProcessConfig

/-- `ManagerConfig_T` by member. -/
def layout : Layout ManagerConfig_T Field.type where
  get r f := match f with
    | .host => r.host
    | .softVer => r.softVer
    | .port => r.port
    | .watchdogInterval => r.watchdogInterval
    | .sysReportInterval => r.sysReportInterval
    | .children => r.children
  build vs := ⟨vs .host, vs .softVer, vs .port, vs .watchdogInterval, vs .sysReportInterval,
    vs .children⟩
  get_build vs := by funext f; cases f <;> rfl
  build_get _ := rfl

/-- `PRODUCT_VERSION`, of a build that sets no version; `Common/Product.h:24`. -/
def productVersion : COMStr := "00.00.00"

/-- `ManagerConfig_T::Clear`; `Common/ComConfig.cpp:21`. -/
def clear (_ : ManagerConfig_T) : ManagerConfig_T :=
  { host := "127.0.0.1", port := 6789, softVer := productVersion, watchdogInterval := 60,
    sysReportInterval := 60, children := [] }

/-- `Common/ComConfig.cpp:41–45`. -/
def reads (P : Poco) : List (Jget Field.type) :=
  [⟨"Host", .host, P.convertStr⟩, ⟨"SoftVer", .softVer, P.convertStr⟩,
    ⟨"Port", .port, P.convertUInt⟩, ⟨"WatchdogInterval", .watchdogInterval, P.convertUInt⟩,
    ⟨"SysReportInterval", .sysReportInterval, P.convertUInt⟩]

/-- `Common/ComConfig.cpp:76–80`. -/
def writes : List (Jset Field.type) :=
  [⟨"Host", .host, .str⟩, ⟨"SoftVer", .softVer, .str⟩,
    ⟨"Port", .port, fun u ↦ .int u.toNat⟩,
    ⟨"WatchdogInterval", .watchdogInterval, fun u ↦ .int u.toNat⟩,
    ⟨"SysReportInterval", .sysReportInterval, fun u ↦ .int u.toNat⟩]

/-- What `ManagerConfig_T` saves. -/
def saver : ListSaver ManagerConfig_T ProcessConfig Field.type where
  layout := layout
  writes := writes
  key := "Children"
  list c := c.children
  encode := addRecord ProcessConfig.layout ProcessConfig.writes

/-- `ManagerConfig_T` as a class with one list; `memory` is what the stack holds where the
loop's record is declared. -/
def table (P : Poco) (memory : ProcessConfig) :
    ListConfig ManagerConfig_T ProcessConfig Field.type where
  toListSaver := saver
  clear := clear
  reads := reads P
  body := pushRecord ProcessConfig.layout (ProcessConfig.reads P)
  record := declared ProcessConfig.layout ProcessConfig.initialisers memory
  push rs c := { c with children := rs }

/-- `ManagerConfig_T::Load`; `Common/ComConfig.cpp:31`. -/
def load (P : Poco) (memory : ProcessConfig) :
    Eff Exn (ComConfig ManagerConfig_T) (Option Bool) := (table P memory).load

/-- `ManagerConfig_T::JSave`; `Common/ComConfig.cpp:67`. -/
def jSave : Eff Exn (ComConfig ManagerConfig_T) Bool := saver.jSave

end ManagerConfig_T

/-! ### `CollectorConfig_T` -/

/-- An alarm of a device; `Common/ComConfig.h:79`. -/
structure AlarmConfig where
  desc : COMStr
  tag : COMStr
  state : Int32
  high : Int32
  low : Int32
  level : COMStr
  deriving DecidableEq, Repr

namespace AlarmConfig

/-- The members of `AlarmConfig`. -/
inductive Field where
  | desc
  | tag
  | state
  | high
  | low
  | level
  deriving DecidableEq

/-- The type of a member. -/
abbrev Field.type : Field → Type
  | .desc => COMStr
  | .tag => COMStr
  | .state => Int32
  | .high => Int32
  | .low => Int32
  | .level => COMStr

/-- `AlarmConfig` by member. -/
def layout : Layout AlarmConfig Field.type where
  get r f := match f with
    | .desc => r.desc
    | .tag => r.tag
    | .state => r.state
    | .high => r.high
    | .low => r.low
    | .level => r.level
  build vs := ⟨vs .desc, vs .tag, vs .state, vs .high, vs .low, vs .level⟩
  get_build vs := by funext f; cases f <;> rfl
  build_get _ := rfl

/-- The members with an initialiser; `Common/ComConfig.h:81–86`. -/
def initialisers : Given Field.type
  | .desc => some ""
  | .tag => some ""
  | .level => some ""
  | .state => none
  | .high => none
  | .low => none

/-- `Common/ComConfig.cpp:155–160`. -/
def reads (P : Poco) : List (Jget Field.type) :=
  [⟨"description", .desc, P.convertStr⟩, ⟨"tag", .tag, P.convertStr⟩,
    ⟨"state", .state, P.convertInt⟩, ⟨"high", .high, P.convertInt⟩,
    ⟨"low", .low, P.convertInt⟩, ⟨"alarm_level", .level, P.convertStr⟩]

/-- `Common/ComConfig.cpp:195–200`. -/
def writes : List (Jset Field.type) :=
  [⟨"description", .desc, .str⟩, ⟨"tag", .tag, .str⟩, ⟨"state", .state, fun i ↦ .int i.toInt⟩,
    ⟨"high", .high, fun i ↦ .int i.toInt⟩, ⟨"low", .low, fun i ↦ .int i.toInt⟩,
    ⟨"alarm_level", .level, .str⟩]

end AlarmConfig

/-- A sub-device; `Common/ComConfig.h:91`. -/
structure DeviceConfig where
  deviceType : COMStr
  subID : COMStr
  protocol : COMStr
  interval : UInt32
  alarms : List AlarmConfig
  deriving DecidableEq, Repr

namespace DeviceConfig

/-- The members of `DeviceConfig`. -/
inductive Field where
  | deviceType
  | subID
  | protocol
  | interval
  | alarms
  deriving DecidableEq

/-- The type of a member. -/
abbrev Field.type : Field → Type
  | .deviceType => COMStr
  | .subID => COMStr
  | .protocol => COMStr
  | .interval => UInt32
  | .alarms => List AlarmConfig

/-- `DeviceConfig` by member. -/
def layout : Layout DeviceConfig Field.type where
  get r f := match f with
    | .deviceType => r.deviceType
    | .subID => r.subID
    | .protocol => r.protocol
    | .interval => r.interval
    | .alarms => r.alarms
  build vs := ⟨vs .deviceType, vs .subID, vs .protocol, vs .interval, vs .alarms⟩
  get_build vs := by funext f; cases f <;> rfl
  build_get _ := rfl

/-- The members with an initialiser, all of them; `Common/ComConfig.h:93–97`. -/
def initialisers : Given Field.type
  | .deviceType => some ""
  | .subID => some ""
  | .protocol => some ""
  | .interval => some 10
  | .alarms => some []

/-- `Common/ComConfig.cpp:138–141`. -/
def reads (P : Poco) : List (Jget Field.type) :=
  [⟨"device_type", .deviceType, P.convertStr⟩, ⟨"sub_id", .subID, P.convertStr⟩,
    ⟨"protocol", .protocol, P.convertStr⟩, ⟨"interval", .interval, P.convertUInt⟩]

/-- `Common/ComConfig.cpp:187–190,203`. -/
def writes : List (Jset Field.type) :=
  [⟨"device_type", .deviceType, .str⟩, ⟨"sub_id", .subID, .str⟩,
    ⟨"protocol", .protocol, .str⟩, ⟨"interval", .interval, fun u ↦ .int u.toNat⟩,
    ⟨"alarms", .alarms, fun as ↦
      .array .value (as.map (addRecord AlarmConfig.layout AlarmConfig.writes))⟩]

/-- The loop over a device's alarms; `Common/ComConfig.cpp:148–162`. The record is declared
inside it, on memory of its own content at every turn; null elements are skipped. -/
def readAlarms (P : Poco) (memory : Nat → AlarmConfig) (j : Nat) :
    List Var → Except Exn (List AlarmConfig)
  | [] => .ok []
  | v :: vs =>
    match v.getObject with
    | none => readAlarms P memory (j + 1) vs
    | some alarm => do
      let alarmNew := declared AlarmConfig.layout AlarmConfig.initialisers (memory j)
      let r := (readFields AlarmConfig.layout (some alarm) (AlarmConfig.reads P)).exec alarmNew
      r.1
      let as ← readAlarms P memory (j + 1) vs
      .ok (r.2 :: as)

/-- The body of the loop over the devices; `Common/ComConfig.cpp:137–164`. A null list of
alarms is the `continue`: the record has been overwritten and is not pushed. An absent one
is added to the element. -/
def body (P : Poco) (memory : Nat → Nat → AlarmConfig) (i : Nat) (v : Var) :
    Eff Exn DeviceConfig (Bool × Var) := do
  readFields layout v.getObject (reads P)
  let pdev ← Eff.ofExcept (deref v.getObject)
  let (alarms, pdev') := JGET_ARR pdev "alarms"
  let v' := Var.object .ptr pdev'
  match alarms.vals with
  | none => pure (false, v')
  | some vs =>
    let as ← Eff.ofExcept (readAlarms P (memory i) 0 vs)
    modify fun dev ↦ { dev with alarms := as }
    pure (true, v')

end DeviceConfig

/-- The Collector's configuration; `Common/ComConfig.h:102`. -/
structure CollectorConfig_T where
  dataReportInterval : UInt32
  devices : List DeviceConfig

namespace CollectorConfig_T

/-- The members of `CollectorConfig_T`. -/
inductive Field where
  | dataReportInterval
  | devices
  deriving DecidableEq

/-- The type of a member. -/
abbrev Field.type : Field → Type
  | .dataReportInterval => UInt32
  | .devices => List DeviceConfig

/-- `CollectorConfig_T` by member. -/
def layout : Layout CollectorConfig_T Field.type where
  get r f := match f with
    | .dataReportInterval => r.dataReportInterval
    | .devices => r.devices
  build vs := ⟨vs .dataReportInterval, vs .devices⟩
  get_build vs := by funext f; cases f <;> rfl
  build_get _ := rfl

/-- `CollectorConfig_T::Clear`; `Common/ComConfig.cpp:106`. -/
def clear (_ : CollectorConfig_T) : CollectorConfig_T :=
  { dataReportInterval := 60, devices := [] }

/-- `Common/ComConfig.cpp:127`. -/
def reads (P : Poco) : List (Jget Field.type) :=
  [⟨"data_report_interval", .dataReportInterval, P.convertUInt⟩]

/-- `Common/ComConfig.cpp:176`. -/
def writes : List (Jset Field.type) :=
  [⟨"data_report_interval", .dataReportInterval, fun u ↦ .int u.toNat⟩]

/-- What `CollectorConfig_T` saves. -/
def saver : ListSaver CollectorConfig_T DeviceConfig Field.type where
  layout := layout
  writes := writes
  key := "devices"
  list c := c.devices
  encode := addRecord DeviceConfig.layout DeviceConfig.writes

/-- `CollectorConfig_T` as a class with one list; `dev` and `memory i j` are what the stack
holds where the record of a device and that of alarm `j` of element `i` are declared. -/
def table (P : Poco) (memory : Nat → Nat → AlarmConfig) (dev : DeviceConfig) :
    ListConfig CollectorConfig_T DeviceConfig Field.type where
  toListSaver := saver
  clear := clear
  reads := reads P
  body := DeviceConfig.body P memory
  record := declared DeviceConfig.layout DeviceConfig.initialisers dev
  push rs c := { c with devices := rs }

/-- `CollectorConfig_T::Load`; `Common/ComConfig.cpp:116`. -/
def load (P : Poco) (memory : Nat → Nat → AlarmConfig) (dev : DeviceConfig) :
    Eff Exn (ComConfig CollectorConfig_T) (Option Bool) := (table P memory dev).load

/-- `CollectorConfig_T::JSave`; `Common/ComConfig.cpp:167`. -/
def jSave : Eff Exn (ComConfig CollectorConfig_T) Bool := saver.jSave

/-- `CollectorConfig_T::FindBySubId`, none for the invalid object; `Common/ComConfig.h:110`. -/
def findBySubId (c : CollectorConfig_T) (subId : COMStr) : Option DeviceConfig :=
  c.devices.find? fun d ↦ d.subID = subId

end CollectorConfig_T

/-! ### `SensorGroup_T` -/

/-- A sensor; `Common/ComConfig.h:290`. -/
structure SensorAlarmConfig where
  desc : COMStr
  tag : COMStr
  state : Int32
  high : Int32
  low : Int32
  level : COMStr
  address : COMStr
  deriving DecidableEq, Repr

namespace SensorAlarmConfig

/-- The members of `SensorAlarmConfig`. -/
inductive Field where
  | desc
  | tag
  | state
  | high
  | low
  | level
  | address
  deriving DecidableEq

/-- The type of a member. -/
abbrev Field.type : Field → Type
  | .desc => COMStr
  | .tag => COMStr
  | .state => Int32
  | .high => Int32
  | .low => Int32
  | .level => COMStr
  | .address => COMStr

/-- `SensorAlarmConfig` by member. -/
def layout : Layout SensorAlarmConfig Field.type where
  get r f := match f with
    | .desc => r.desc
    | .tag => r.tag
    | .state => r.state
    | .high => r.high
    | .low => r.low
    | .level => r.level
    | .address => r.address
  build vs := ⟨vs .desc, vs .tag, vs .state, vs .high, vs .low, vs .level, vs .address⟩
  get_build vs := by funext f; cases f <;> rfl
  build_get _ := rfl

/-- The members with an initialiser; `Common/ComConfig.h:292–298`. -/
def initialisers : Given Field.type
  | .desc => some ""
  | .tag => some ""
  | .level => some ""
  | .address => some ""
  | .state => none
  | .high => none
  | .low => none

/-- `Common/ComConfig.cpp:918–924`. -/
def reads (P : Poco) : List (Jget Field.type) :=
  [⟨"description", .desc, P.convertStr⟩, ⟨"tag", .tag, P.convertStr⟩,
    ⟨"state", .state, P.convertInt⟩, ⟨"high", .high, P.convertInt⟩,
    ⟨"low", .low, P.convertInt⟩, ⟨"alarm_level", .level, P.convertStr⟩,
    ⟨"mac_addr", .address, P.convertStr⟩]

/-- `Common/ComConfig.cpp:946–952`. -/
def writes : List (Jset Field.type) :=
  [⟨"description", .desc, .str⟩, ⟨"tag", .tag, .str⟩, ⟨"state", .state, fun i ↦ .int i.toInt⟩,
    ⟨"high", .high, fun i ↦ .int i.toInt⟩, ⟨"low", .low, fun i ↦ .int i.toInt⟩,
    ⟨"alarm_level", .level, .str⟩, ⟨"mac_addr", .address, .str⟩]

end SensorAlarmConfig

/-- The sensors; `Common/ComConfig.h:309`. -/
structure SensorGroup_T where
  sensorAlarm : List SensorAlarmConfig

namespace SensorGroup_T

/-- `SensorGroup_T` by its one member. -/
def layout : Layout SensorGroup_T (fun _ : Unit ↦ List SensorAlarmConfig) where
  get r _ := r.sensorAlarm
  build vs := ⟨vs ()⟩
  get_build _ := rfl
  build_get _ := rfl

/-- `SensorGroup_T::Clear`; `Common/ComConfig.cpp:894`. -/
def clear (_ : SensorGroup_T) : SensorGroup_T := { sensorAlarm := [] }

/-- What `SensorGroup_T` saves: the list and no other key. -/
def saver : ListSaver SensorGroup_T SensorAlarmConfig
    (fun _ : Unit ↦ List SensorAlarmConfig) where
  layout := layout
  writes := []
  key := "Sensors"
  list c := c.sensorAlarm
  encode := addRecord SensorAlarmConfig.layout SensorAlarmConfig.writes

/-- `SensorGroup_T` as a class with one list. -/
def table (P : Poco) (memory : SensorAlarmConfig) :
    ListConfig SensorGroup_T SensorAlarmConfig (fun _ : Unit ↦ List SensorAlarmConfig) where
  toListSaver := saver
  clear := clear
  reads := []
  body := pushRecord SensorAlarmConfig.layout (SensorAlarmConfig.reads P)
  record := declared SensorAlarmConfig.layout SensorAlarmConfig.initialisers memory
  push rs c := { c with sensorAlarm := rs }

/-- `SensorGroup_T::Load`; `Common/ComConfig.cpp:900`. -/
def load (P : Poco) (memory : SensorAlarmConfig) :
    Eff Exn (ComConfig SensorGroup_T) (Option Bool) := (table P memory).load

/-- `SensorGroup_T::JSave`; `Common/ComConfig.cpp:928`. -/
def jSave : Eff Exn (ComConfig SensorGroup_T) Bool := saver.jSave

end SensorGroup_T

/-! ### `defaultRelayState_T` -/

/-- A relay; `Common/ComConfig.h:331`. -/
structure DefaultRelayState where
  desc : COMStr
  tag : COMStr
  state : Int32
  gpio : Int32
  index : Int32
  deriving DecidableEq, Repr

namespace DefaultRelayState

/-- The members of `defaultRelayState`. -/
inductive Field where
  | desc
  | tag
  | state
  | gpio
  | index
  deriving DecidableEq

/-- The type of a member. -/
abbrev Field.type : Field → Type
  | .desc => COMStr
  | .tag => COMStr
  | .state => Int32
  | .gpio => Int32
  | .index => Int32

/-- `defaultRelayState` by member. -/
def layout : Layout DefaultRelayState Field.type where
  get r f := match f with
    | .desc => r.desc
    | .tag => r.tag
    | .state => r.state
    | .gpio => r.gpio
    | .index => r.index
  build vs := ⟨vs .desc, vs .tag, vs .state, vs .gpio, vs .index⟩
  get_build vs := by funext f; cases f <;> rfl
  build_get _ := rfl

/-- The members with an initialiser; `Common/ComConfig.h:333–337`. -/
def initialisers : Given Field.type
  | .desc => some ""
  | .tag => some ""
  | .state => none
  | .gpio => none
  | .index => none

/-- `Common/ComConfig.cpp:984–988`. -/
def reads (P : Poco) : List (Jget Field.type) :=
  [⟨"description", .desc, P.convertStr⟩, ⟨"tag", .tag, P.convertStr⟩,
    ⟨"state", .state, P.convertInt⟩, ⟨"gpio", .gpio, P.convertInt⟩,
    ⟨"index", .index, P.convertInt⟩]

/-- `Common/ComConfig.cpp:1011–1015`. -/
def writes : List (Jset Field.type) :=
  [⟨"description", .desc, .str⟩, ⟨"tag", .tag, .str⟩, ⟨"state", .state, fun i ↦ .int i.toInt⟩,
    ⟨"gpio", .gpio, fun i ↦ .int i.toInt⟩, ⟨"index", .index, fun i ↦ .int i.toInt⟩]

end DefaultRelayState

/-- The relays; `Common/ComConfig.h:349`. `State`, `Relay1` and `Relay2` are in no document. -/
structure DefaultRelayState_T where
  state : Int32
  relay1 : Int32
  relay2 : Int32
  dFRelay : List DefaultRelayState

namespace DefaultRelayState_T

/-- The members of `defaultRelayState_T`. -/
inductive Field where
  | state
  | relay1
  | relay2
  | dFRelay
  deriving DecidableEq

/-- The type of a member. -/
abbrev Field.type : Field → Type
  | .state => Int32
  | .relay1 => Int32
  | .relay2 => Int32
  | .dFRelay => List DefaultRelayState

/-- `defaultRelayState_T` by member. -/
def layout : Layout DefaultRelayState_T Field.type where
  get r f := match f with
    | .state => r.state
    | .relay1 => r.relay1
    | .relay2 => r.relay2
    | .dFRelay => r.dFRelay
  build vs := ⟨vs .state, vs .relay1, vs .relay2, vs .dFRelay⟩
  get_build vs := by funext f; cases f <;> rfl
  build_get _ := rfl

/-- The members of a new object; `Common/ComConfig.h:353–356`. -/
def new : DefaultRelayState_T := { state := 0, relay1 := 23, relay2 := 24, dFRelay := [] }

/-- `defaultRelayState_T::Clear`; `Common/ComConfig.cpp:959`. -/
def clear (c : DefaultRelayState_T) : DefaultRelayState_T := { c with state := 0, dFRelay := [] }

/-- What `defaultRelayState_T` saves: the list and no other key. -/
def saver : ListSaver DefaultRelayState_T DefaultRelayState Field.type where
  layout := layout
  writes := []
  key := "Relays"
  list c := c.dFRelay
  encode := addRecord DefaultRelayState.layout DefaultRelayState.writes

/-- `defaultRelayState_T` as a class with one list. -/
def table (P : Poco) (memory : DefaultRelayState) :
    ListConfig DefaultRelayState_T DefaultRelayState Field.type where
  toListSaver := saver
  clear := clear
  reads := []
  body := pushRecord DefaultRelayState.layout (DefaultRelayState.reads P)
  record := declared DefaultRelayState.layout DefaultRelayState.initialisers memory
  push rs c := { c with dFRelay := rs }

/-- `defaultRelayState_T::Load`; `Common/ComConfig.cpp:966`. -/
def load (P : Poco) (memory : DefaultRelayState) :
    Eff Exn (ComConfig DefaultRelayState_T) (Option Bool) := (table P memory).load

/-- `defaultRelayState_T::JSave`; `Common/ComConfig.cpp:994`. -/
def jSave : Eff Exn (ComConfig DefaultRelayState_T) Bool := saver.jSave

end DefaultRelayState_T

/-! ### `NTPConfig` -/

/-- An entry of `Restrict`, through the two variables the loop assigns. -/
structure RestrictRule where
  ip : COMStr
  mask : COMStr
  deriving DecidableEq, Repr

namespace RestrictRule

/-- The two variables. -/
inductive Field where
  | ip
  | mask
  deriving DecidableEq

/-- The two variables as one record. -/
def layout : Layout RestrictRule (fun _ : Field ↦ COMStr) where
  get r f := match f with
    | .ip => r.ip
    | .mask => r.mask
  build vs := ⟨vs .ip, vs .mask⟩
  get_build vs := by funext f; cases f <;> rfl
  build_get _ := rfl

/-- `COMStr ip, mask;` starts both empty; `Common/ComConfig.cpp:404`. -/
def initialisers : Given (fun _ : Field ↦ COMStr) := fun _ ↦ some ""

/-- `Common/ComConfig.cpp:407–408`. -/
def reads (P : Poco) : List (Jget (fun _ : Field ↦ COMStr)) :=
  [⟨"ip", .ip, P.convertStr⟩, ⟨"mask", .mask, P.convertStr⟩]

end RestrictRule

/-- `COMStrMap`; `Common/ComUtil.h:82`. -/
abbrev COMStrMap := ComMap COMStr

/-- The NTP client's configuration; `Common/ComConfig.h:210`. -/
structure NTPConfig where
  servers : List COMStr
  restrict : COMStrMap

namespace NTPConfig

/-- `NTPConfig::Clear`. -/
def clear (_ : NTPConfig) : NTPConfig := { servers := [], restrict := [] }

/-- `Servers.push_back(jsvr->getElement<COMStr>(i))`; `Common/ComConfig.cpp:396`. -/
def pushServer (P : Poco) (_i : Nat) (v : Var) : Eff Exn COMStr (Bool × Var) := do
  set (← Eff.ofExcept (P.convertStr v))
  pure (true, v)

/-- `Restrict[ip] = mask` for the pairs the loop has assigned. -/
def assignAll (rs : List RestrictRule) (c : NTPConfig) : NTPConfig :=
  { c with restrict := rs.foldl (fun m r ↦ m.assign r.ip r.mask) c.restrict }

/-- `NTPConfig::Load`; `Common/ComConfig.cpp:380`. -/
def load (P : Poco) (memory : RestrictRule) : Eff Exn (ComConfig NTPConfig) Bool := do
  let s ← get
  match s.jConf with
  | none => pure false
  | some _ =>
    set { s with fields := clear s.fields }
    let svr ← loadArray "Servers" (pushServer P) "" fun ss c ↦ { c with servers := ss }
    if svr then
      loadArray "Restrict" (pushRecord RestrictRule.layout (RestrictRule.reads P))
        (declared RestrictRule.layout RestrictRule.initialisers memory) assignAll
    else pure false

end NTPConfig

end IcsGateway
