import IcsGateway.Bridge.Bridge
import IcsGateway.Common.ComQueue
import IcsGateway.Common.WatchDog
import IcsGateway.Lib.Throttle

/-!
# The watch dog of the Manager

A timer of the Manager calls its watch dog every minute. The watch dog looks at the state of the
gateway, whether the broker can be reached, and how long ago it has last reported on the system,
and pushes audits (`Manager/ManagerWatchDog.cpp:37`).
-/

namespace IcsGateway

open Lib COM_Queue

/-- An audit with what its text is made from. -/
structure Audit where
  notice : Notice
  timeStamp : COMStr
  info : ComProcessInfo

/-- The text of an audit of a registered gateway. -/
def Audit.text (P : Poco) (reg : RegistrationInfo_T) (a : Audit) : COMStr :=
  auditText P reg.devID a.timeStamp a.info a.notice

/-- `COM_AUDIT`, uninterrupted; `Common/ComQueue.h:39`. -/
def COM_AUDIT (P : Poco) (reg : RegistrationInfo_T) (a : Audit) (redis : Redis) : Redis :=
  ((pushAudit P reg a.info a.timeStamp a.notice).exec redis).2

/-- The members of the class, and the static variable of its function; the beats, which are only
counted, are left out. -/
structure ManagerWatchDog where
  /-- `MANAGER`. -/
  manager : WatchDogSection
  /-- `sysreport_time`, which is initialised in the first call. -/
  sysreportTime : Option Int

namespace ManagerWatchDog

/-- The watch dog of a Manager that has just started. -/
def fresh : ManagerWatchDog := ⟨⟨"MANAGER", "", []⟩, none⟩

/-- What the watch dog reads of the configuration. -/
structure Config where
  poco : Poco
  reg : RegistrationInfo_T
  /-- `MQTT().Host`. -/
  host : COMStr
  /-- `Manager().SysReportInterval`. -/
  sysReportInterval : UInt32

/-- `SystemInfo` in the texts of `std::to_string`; `Manager/ManagerWatchDog.cpp:89–97`. -/
structure SystemTexts where
  diskUsed : COMStr
  diskAvail : COMStr
  cpuNum : COMStr
  cpuCores : COMStr
  cpuModel : COMStr
  cpuLoad : COMStr
  /-- Of `100 - SystemInfo::CPULoad`. -/
  cpuFree : COMStr
  memUsed : COMStr
  memAvail : COMStr

/-- What a call finds. -/
structure Tick where
  /-- What `time(0)` gives where `sysreport_time` is initialised. -/
  first : Int
  /-- `sysreport_time_now`. -/
  now : Int
  /-- What `TestTcpConnection` returns. -/
  reachable : Bool
  system : SystemTexts
  info : ComProcessInfo
  /-- The text of the clock in the audit of the state, and in that of the system. -/
  stateStamp : COMStr
  systemStamp : COMStr

/-- `WD_MANAGER_CHANGE`; `Manager/ManagerWatchDog.h:33`. -/
def wdManagerChange (s : WatchDogSection) (key : COMStr) (state : Bool) (info : COMStr) :
    WatchDogSection :=
  let wd := (s.entries.lookup key).getD { WatchDogParam_T.new with name := key }
  s.assign key (wd.change state info)

/-- The loop that pops the list `SystemInfor` up to the first empty text;
`Manager/ManagerWatchDog.cpp:51`. -/
def drain (redis : Redis) : Redis :=
  { redis with lists := fun k ↦
      if k = "SystemInfor" then ((redis.lists k).dropWhile (· ≠ "")).tail else redis.lists k }

/-- It touches no other list. -/
theorem lists_drain (redis : Redis) {k : COMStr} (hk : k ≠ "SystemInfor") :
    (drain redis).lists k = redis.lists k :=
  if_neg hk

/-- `REDIS_KEY_GATEWAY_STATE`; `Common/ComDefinition.h:115`. -/
def gatewayState : COMStr := "SystemState"

/-- The audit of an installation that succeeded, -/
def Tick.success (t : Tick) : Audit :=
  ⟨⟨"device_state", "info", "DEV INSTALL SUCCESS", []⟩, t.stateStamp, t.info⟩

/-- or failed. -/
def Tick.failure (t : Tick) : Audit :=
  ⟨⟨"device_state", "critical", "DEV INSTALL FAILED", []⟩, t.stateStamp, t.info⟩

/-- The audit of the system. -/
def Tick.report (t : Tick) : Audit where
  notice := ⟨"system_info", "info", "System Information", ComMap.assignAll []
    [("AppStorageSizeUsed", t.system.diskUsed), ("AppStorageSizeAvailable", t.system.diskAvail),
      ("NumOfCPU", t.system.cpuNum), ("CPUCoresPerSocket", t.system.cpuCores),
      ("CPUModel", t.system.cpuModel), ("CPUUsed", t.system.cpuLoad),
      ("CPUAvailable", t.system.cpuFree), ("MemoryUsed", t.system.memUsed),
      ("MemoryAvailable", t.system.memAvail)]⟩
  timeStamp := t.systemStamp
  info := t.info

/-- `diff_sysreport_time`, of which a negative one is left undefined. -/
def diffSysreportTime (s : ManagerWatchDog) (t : Tick) : UInt32 :=
  UInt32.ofNat (t.now - s.sysreportTime.getD t.first).toNat

/-- `watchdog`; `Manager/ManagerWatchDog.cpp:37`. -/
def watchdog (cfg : Config) (t : Tick) (s : ManagerWatchDog) (redis : Redis) :
    ManagerWatchDog × Redis :=
  let globalState := redis.vals gatewayState
  let redis := drain redis
  let redis :=
    if globalState = "InstallSuccess" then COM_AUDIT cfg.poco cfg.reg t.success redis
    else if globalState = "InstallFail" then COM_AUDIT cfg.poco cfg.reg t.failure redis
    else redis
  let manager :=
    if cfg.host = "" then
      wdManagerChange s.manager "MQTT_REACHABLE" false "Host is is not defined"
    else wdManagerChange s.manager "MQTT_REACHABLE" t.reachable
      (if t.reachable then "Primary MQTT cloud is reachable" else "Primary MQTT is unreachable")
  let sysreportTime := s.sysreportTime.getD t.first
  if cfg.sysReportInterval ≤ s.diffSysreportTime t then
    (⟨manager, some t.now⟩, COM_AUDIT cfg.poco cfg.reg t.report redis)
  else (⟨manager, some sysreportTime⟩, redis)

/-! ### What a call does -/

/-- A report on the system is due. -/
def Due (cfg : Config) (s : ManagerWatchDog) (t : Tick) : Prop :=
  cfg.sysReportInterval ≤ s.diffSysreportTime t

instance (cfg : Config) (s : ManagerWatchDog) (t : Tick) : Decidable (Due cfg s t) :=
  inferInstanceAs (Decidable (_ ≤ _))

/-- The audits of a call, in a state of the gateway. -/
def audits (cfg : Config) (t : Tick) (s : ManagerWatchDog) (globalState : COMStr) : List Audit :=
  (if globalState = "InstallSuccess" then [t.success]
    else if globalState = "InstallFail" then [t.failure]
    else []) ++ if Due cfg s t then [t.report] else []

/-- A call pushes its audits, one after another. -/
theorem watchdog_redis (cfg : Config) (t : Tick) (s : ManagerWatchDog) (redis : Redis) :
    (watchdog cfg t s redis).2 = (audits cfg t s (redis.vals gatewayState)).foldl
      (fun redis a ↦ COM_AUDIT cfg.poco cfg.reg a redis) (drain redis) := by
  rw [audits, List.foldl_append]
  by_cases hdue : Due cfg s t
  · rw [if_pos hdue]
    rw [Due] at hdue
    unfold watchdog
    simp only [if_pos hdue]
    split
    · rfl
    · split <;> rfl
  · rw [if_neg hdue]
    rw [Due] at hdue
    unfold watchdog
    simp only [if_neg hdue]
    split
    · rfl
    · split <;> rfl

/-- The entry of the broker says what the last call has found. -/
theorem watchdog_manager (cfg : Config) (t : Tick) (s : ManagerWatchDog) (redis : Redis) :
    ((watchdog cfg t s redis).1.manager.entries.lookup "MQTT_REACHABLE").map (·.state) =
      some (decide (cfg.host ≠ "") && t.reachable) := by
  have hchange (state : Bool) (info : COMStr) :
      ((wdManagerChange s.manager "MQTT_REACHABLE" state info).entries.lookup
        "MQTT_REACHABLE").map (·.state) = some state := by
    rw [wdManagerChange, WatchDogSection.assign]
    simp only [ComMap.lookup_assign, if_true, Option.map_some, WatchDogParam_T.change]
  have hmanager : (watchdog cfg t s redis).1.manager =
      if cfg.host = "" then
        wdManagerChange s.manager "MQTT_REACHABLE" false "Host is is not defined"
      else wdManagerChange s.manager "MQTT_REACHABLE" t.reachable
        (if t.reachable then "Primary MQTT cloud is reachable"
          else "Primary MQTT is unreachable") := by
    unfold watchdog
    by_cases hdue : cfg.sysReportInterval ≤ s.diffSysreportTime t
    · simp only [if_pos hdue]
    · simp only [if_neg hdue]
  rw [hmanager]
  by_cases hhost : cfg.host = ""
  · rw [if_pos hhost, hchange]
    simp [hhost]
  · rw [if_neg hhost, hchange]
    simp [hhost]

/-- Where the clock has not been set back, and not by a century ahead, a call is one of a process
that spaces its reports. -/
theorem watchdog_sysreportTime {c : Config} {t : Tick} {s : ManagerWatchDog} {last : Int}
    (hlast : s.sysreportTime.getD t.first = last) (hclock : last ≤ t.now ∧ t.now < last + 2 ^ 32)
    (redis : Redis) (times : List Int) :
    (watchdog c t s redis).1.sysreportTime =
        some (Throttle.tick (c.sysReportInterval.toNat : Int) ⟨last, times⟩ t.now).last ∧
      (Throttle.tick (c.sysReportInterval.toNat : Int) ⟨last, times⟩ t.now).times =
        if Due c s t then t.now :: times else times := by
  have hdue : Due c s t ↔ (c.sysReportInterval.toNat : Int) ≤ t.now - last := by
    have hnat : ((t.now - last).toNat : Int) = t.now - last := Int.toNat_of_nonneg (by omega)
    rw [Due, diffSysreportTime, hlast, UInt32.le_iff_toNat_le, UInt32.toNat_ofNat']
    omega
  unfold watchdog
  rw [Throttle.tick]
  by_cases h : Due c s t
  · rw [if_pos h, if_pos (hdue.mp h)]
    refine ⟨?_, rfl⟩
    rw [Due] at h
    simp only [if_pos h]
  · rw [if_neg h, if_neg fun hle ↦ h (hdue.mpr hle)]
    refine ⟨?_, rfl⟩
    rw [Due] at h
    simp only [if_neg h, hlast]

end ManagerWatchDog
end IcsGateway
