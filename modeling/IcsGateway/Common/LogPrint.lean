import IcsGateway.Common.ComUtil

/-!
# Entries of the log

`MyLogger::print` looks up the name of the group in a table that stands beside the enumeration of
the groups, and puts the message behind a header (`Common/ComUtil.cpp:802`). In the table a comma
is missing, and two names are one (`Common/ComUtil.h:407–444`).
-/

namespace IcsGateway

/-- A string that ends at its NUL. -/
abbrev CString := {s : List Char // '\x00' ∉ s}

/-- `LOG_GROUP_T`; `Common/ComUtil.h:407`. -/
inductive LogGroup where
  | common | util | notification | eipClient | ifConfig | deviceManager | commandRunner | command
  | commandInterface | m2mInterface | m2mInterfaceConfig | config | modbusDevice | cloudClient
  | maxNum
deriving DecidableEq, Repr

/-- `LOG_PRIO_T`; `Common/ComUtil.h:446`. -/
inductive LogPrio where
  | debug | error | warning | inform | maxNum
deriving DecidableEq, Repr

namespace LogGroup

/-- `LOG_G_GENERAL`; `Common/ComUtil.h:426`. -/
abbrev general : LogGroup := maxNum

/-- The names that the enumeration gives the groups. -/
def name : LogGroup → COMStr
  | common => "Common"
  | util => "Util"
  | notification => "Notification"
  | eipClient => "EIPClient"
  | ifConfig => "IfConfig"
  | deviceManager => "DeviceManager"
  | commandRunner => "CommandRunner"
  | command => "CLI_Command"
  | commandInterface => "CLI_Interface"
  | m2mInterface => "M2MInterface"
  | m2mInterfaceConfig => "M2MInterfaceConfig"
  | config => "Configuration"
  | modbusDevice => "ModbusDevice"
  | cloudClient => "CloudClient"
  | maxNum => "General"

end LogGroup

namespace MyLogger

/-- `LOG_MAX_LEN`; `Common/ComUtil.h:42`. -/
def logMaxLen : Nat := 10000

/-- `ComLogGroups`; `Common/ComUtil.h:428`. -/
def comLogGroups : List COMStr :=
  ["Common", "Util", "Notification", "EIPClient", "IfConfig", "DeviceManager", "CommandRunner",
    "CLI_Command", "CLI_Interface", "M2MInterface", "M2MInterfaceConfig",
    "Configuration" ++ "ModbusDevice", "CloudClient", "General"]

/-- The variables that `print` reads and writes. -/
structure LogState where
  stopped : Bool
  mask : UInt32
  prio : UInt32
  logQueue : List (List Char)
deriving DecidableEq, Repr

/-- `GBIT(p, n)`; `Common/ComUtil.h:41`. -/
def gbit (p : UInt32) (n : Nat) : Bool := p.toNat.testBit n

/-- `snprintf` of a text into a buffer of `size` characters. -/
def snprintf (size : Nat) (text : List Char) : List Char := text.take (size - 1)

/-- The text of a priority; `Common/ComUtil.cpp:821–854`. -/
def priostr : LogPrio → List Char
  | .debug => ['[', 'D', ']']
  | .error => ['[', 'E', ']']
  | .warning => ['[', 'W', ']']
  | .inform | .maxNum => ['[', 'I', ']']

/-- The header, from the format `%-30s:%-20s%5s `; `Common/ComUtil.cpp:857`. -/
def hdr (type : LogPrio) (now : CString) (group : COMStr) : List Char :=
  snprintf 100 (now.val.rightpad 30 ' ' ++ ':' :: group.toList.rightpad 20 ' ' ++
    (priostr type).leftpad 5 ' ' ++ [' '])

/-- `MyLogger::print` of a formatted message at a time; `none` reads outside of the table;
`Common/ComUtil.cpp:802`. -/
def print (type : LogPrio) (group : LogGroup) (now message : CString) (s : LogState) :
    Option LogState :=
  if s.stopped then some s
  else if !gbit s.mask group.ctorIdx || !gbit s.prio type.ctorIdx then some s
  else do
    let msg := snprintf logMaxLen message.val
    let group ← comLogGroups[group.ctorIdx]?
    let len := msg.length + (hdr type now group).length
    let omsg := snprintf (len + 1) (hdr type now group ++ msg)
    return { s with logQueue := s.logQueue ++ [omsg] }

/-- Logging is on, for the priority and the group. -/
def LogState.On (s : LogState) (type : LogPrio) (group : LogGroup) : Prop :=
  s.stopped = false ∧ gbit s.mask group.ctorIdx = true ∧ gbit s.prio type.ctorIdx = true

instance (s : LogState) (type : LogPrio) (group : LogGroup) : Decidable (s.On type group) :=
  inferInstanceAs (Decidable (_ ∧ _))

/-- Every message that is to be logged is put into the queue, behind the header with the name of
its group and cut off at the length of the buffer. -/
def PrintsRight (group : LogGroup) : Prop :=
  ∀ (s : LogState) (type : LogPrio) (now message : CString), s.On type group →
    print type group now message s =
      some { s with logQueue :=
        s.logQueue ++ [hdr type now group.name ++ message.val.take (logMaxLen - 1)] }

/-- The groups that the sources of the programs log to. -/
def commonLogGroups : List LogGroup :=
  [.common, .util, .config, .general, .commandInterface, .ifConfig, .m2mInterface,
    .m2mInterfaceConfig]

/-- A message goes behind the header with what stands in the table. -/
private theorem print_of_on {s : LogState} {type : LogPrio} {group : LogGroup} {name : COMStr}
    (h : s.On type group) (hname : comLogGroups[group.ctorIdx]? = some name)
    (now message : CString) :
    print type group now message s = some { s with logQueue :=
      s.logQueue ++ [hdr type now name ++ message.val.take (logMaxLen - 1)] } := by
  obtain ⟨hstopped, hmask, hprio⟩ := h
  have hwhole : snprintf ((snprintf logMaxLen message.val).length + (hdr type now name).length + 1)
      (hdr type now name ++ snprintf logMaxLen message.val) =
      hdr type now name ++ snprintf logMaxLen message.val := by
    apply List.take_of_length_le
    rw [List.length_append]
    omega
  rw [print, hstopped, hmask, hprio, hname]
  simp only [Bool.false_eq_true, if_false, Bool.not_true, Bool.or_self, Option.bind_eq_bind,
    Option.bind_some, hwhole]
  rfl

/-- The table has the names of the groups up to the missing comma. -/
private theorem comLogGroups_of_lt {group : LogGroup}
    (h : group.ctorIdx < LogGroup.config.ctorIdx) :
    comLogGroups[group.ctorIdx]? = some group.name := by
  revert h
  cases group <;> decide

/-- Messages of a group are logged right exactly when it comes before `LOG_G_CONFIG`. -/
theorem printsRight_iff_before_config (group : LogGroup) :
    PrintsRight group ↔ group.ctorIdx < LogGroup.config.ctorIdx := by
  constructor
  · intro h
    by_contra hge
    have hon : (⟨false, 65535, 65535, []⟩ : LogState).On .debug group := by
      cases group <;> decide
    have hprint := h _ .debug ⟨[], List.not_mem_nil⟩ ⟨[], List.not_mem_nil⟩ hon
    revert hge hprint
    cases group <;> decide
  · intro h s type now message hon
    exact print_of_on hon (comLogGroups_of_lt h) now message

/-- The messages on the configuration are not. -/
theorem not_printsRight_config : ¬ ∀ group ∈ commonLogGroups, PrintsRight group := by
  intro h
  have hprint := h .config (by decide) ⟨false, 65535, 65535, []⟩ .debug ⟨[], List.not_mem_nil⟩
    ⟨[], List.not_mem_nil⟩ (by decide)
  revert hprint
  decide

end MyLogger

end IcsGateway
