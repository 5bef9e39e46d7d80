import IcsGateway.Lib.Effect
import IcsGateway.Common.ComUtil

/-!
# Watchdog sections

The states a process reports of its components: how the process keeps them, how it prints them
into a status message and how the Manager reads them from it (`Common/ComUtil.cpp:642–728`,
`3rd.party.raspi/include/ComManagerClient.h:109`). The times of the last changes are left out;
where they are printed or looked at, they are given.
-/

namespace IcsGateway

open Lib

/-- The state of a component; `Common/ComUtil.h:364`. -/
structure WatchDogParam_T where
  name : COMStr
  state : Bool
  info : COMStr
  deriving DecidableEq, Repr

/-- A new entry. -/
def WatchDogParam_T.new : WatchDogParam_T := { name := "", state := true, info := "" }

/-- `WatchDogParam_T::Change`; `Common/ComUtil.cpp:642`. -/
def WatchDogParam_T.change (p : WatchDogParam_T) (st : Bool) (msg : COMStr) : WatchDogParam_T :=
  { p with state := st, info := msg }

/-- A process with its components; `Common/ComUtil.h:387`. -/
structure WatchDogSection where
  name : COMStr
  info : COMStr
  entries : ComMap WatchDogParam_T

namespace WatchDogSection

/-- `(*this)[key] = wd`. -/
def assign (s : WatchDogSection) (key : COMStr) (wd : WatchDogParam_T) : WatchDogSection :=
  { s with entries := s.entries.assign key wd }

/-- The loop of `FromJson`; `state` and `info` are declared before it and keep their values
where an entry gives none. -/
def fromJsonEntries (P : Poco) (pobj : Object) (state : Bool) (info : COMStr) :
    List COMStr → Eff Exn WatchDogSection Unit
  | [] => pure ()
  | key :: keys =>
    if key = "Info" ∨ key = "Name" then fromJsonEntries P pobj state info keys
    else do
      let pit := (Object.get pobj key).getObject
      let state ← Eff.ofExcept (JGET Poco.convertBool state pit "State")
      let info ← Eff.ofExcept (JGET P.convertStr info pit "Info")
      match (← get).entries.lookup key with
      | some wd =>
        let name ← Eff.ofExcept (JGET P.convertStr wd.name pit "Name")
        modify (·.assign key { wd with name := name })
        let own ← Eff.ofExcept (JGET P.convertStr wd.info pit "Info")
        modify (·.assign key { wd with name := name, info := own })
        modify (·.assign key
          (WatchDogParam_T.change { wd with name := name, info := own } state info))
      | none =>
        let name ← Eff.ofExcept (JGET P.convertStr WatchDogParam_T.new.name pit "Name")
        let own ← Eff.ofExcept (JGET P.convertStr WatchDogParam_T.new.info pit "Info")
        modify (·.assign name (WatchDogParam_T.change
          { WatchDogParam_T.new with name := name, info := own } state info))
      fromJsonEntries P pobj state info keys

/-- `WatchDogSection::FromJson`; `Common/ComUtil.cpp:680`. A parsed object is iterated in key
order; `memory` is what the stack holds where `state` is declared. -/
def fromJson (P : Poco) (memory : Bool) (json : COMStr) : Eff Exn WatchDogSection Bool := do
  let result ← Eff.ofExcept (P.parse json)
  let pobj ← Eff.ofExcept result.extractObject
  let own ← Eff.ofExcept (JGET P.convertStr (← get).info (some pobj) "Info")
  modify fun s ↦ { s with info := own }
  fromJsonEntries P pobj memory "" ((pobj.map (·.1)).mergeSort (· ≤ ·))
  pure true

/-- The object of an entry; `changeSecs` is what `ChangeSecs` gives. -/
def paramToJson (p : WatchDogParam_T) (changeSecs : Int) : Object :=
  [("Name", .str p.name), ("Info", .str p.info), ("State", .bool p.state),
    ("ChangeTime", .double changeSecs)]

/-- The object `ToJson` prints. -/
def toJsonObject (s : WatchDogSection) (changeSecs : COMStr → Int) : Object :=
  s.entries.foldl
    (fun obj it ↦ Object.set obj it.1 (.object .value (paramToJson it.2 (changeSecs it.1))))
    [("Name", .str s.name), ("Info", .str s.info)]

/-- `WatchDogSection::ToJson`; `Common/ComUtil.cpp:654`. -/
def toJson (P : Poco) (s : WatchDogSection) (changeSecs : COMStr → Int) : COMStr :=
  P.stringify (.object .value (toJsonObject s changeSecs))

/-- `WDCLIENT_CHANGE(key, state, info)` on the section of the process; `due` says whether the
seconds since the last change are a multiple of 30. The notification it may send is left out;
`3rd.party.raspi/include/ComManagerClient.h:109`. -/
def wdclientChange (s : WatchDogSection) (key : COMStr) (state : Bool) (info : COMStr)
    (due : Bool) : WatchDogSection :=
  let wd := (s.entries.lookup key).getD { WatchDogParam_T.new with name := key }
  let first := (s.entries.lookup key).isNone
  let change := wd.state != state
  let s := s.assign key (wd.change state info)
  if change || first || due then { s with info := info } else s

end WatchDogSection
end IcsGateway
