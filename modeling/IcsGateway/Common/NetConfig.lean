import IcsGateway.Common.ComConfig

/-!
# The network's configuration

`NetConfig` owns two lists. `Load` fetches both arrays before it reads either, and declares the
record of an interface inside the loop (`Common/ComConfig.cpp:536–670`).
-/

namespace IcsGateway

open Lib

/-- An interface; `Common/ComConfig.h:252`. -/
structure NetItf where
  name : COMStr
  type : COMStr
  ip : COMStr
  subnet : COMStr
  gateway : COMStr
  mode : COMStr
  isDefault : Bool
  deriving DecidableEq, Repr

namespace NetItf

/-- The members of `NetItf`. -/
inductive Field where
  | name
  | type
  | ip
  | subnet
  | gateway
  | mode
  | isDefault
  deriving DecidableEq

/-- The type of a member. -/
abbrev Field.valueType : Field → Type
  | .isDefault => Bool
  | .name => COMStr
  | .type => COMStr
  | .ip => COMStr
  | .subnet => COMStr
  | .gateway => COMStr
  | .mode => COMStr

/-- `NetItf` by member. -/
def layout : Layout NetItf Field.valueType where
  get r f := match f with
    | .name => r.name
    | .type => r.type
    | .ip => r.ip
    | .subnet => r.subnet
    | .gateway => r.gateway
    | .mode => r.mode
    | .isDefault => r.isDefault
  build vs := ⟨vs .name, vs .type, vs .ip, vs .subnet, vs .gateway, vs .mode, vs .isDefault⟩
  get_build vs := by funext f; cases f <;> rfl
  build_get _ := rfl

/-- A string is empty when it is declared; `IsDefault` is not set. -/
def initialisers : Given Field.valueType
  | .name => some ""
  | .type => some ""
  | .ip => some ""
  | .subnet => some ""
  | .gateway => some ""
  | .mode => some ""
  | .isDefault => none

/-- `Common/ComConfig.cpp:597–603`. -/
def reads (P : Poco) : List (Jget Field.valueType) :=
  [⟨"Name", .name, P.convertStr⟩, ⟨"IP", .ip, P.convertStr⟩, ⟨"Subnet", .subnet, P.convertStr⟩,
    ⟨"Gateway", .gateway, P.convertStr⟩, ⟨"Type", .type, P.convertStr⟩,
    ⟨"Mode", .mode, P.convertStr⟩, ⟨"IsDefault", .isDefault, Poco.convertBool⟩]

/-- `Common/ComConfig.cpp:659–665`. -/
def writes : List (Jset Field.valueType) :=
  [⟨"Name", .name, .str⟩, ⟨"IP", .ip, .str⟩, ⟨"Subnet", .subnet, .str⟩,
    ⟨"Gateway", .gateway, .str⟩, ⟨"IsDefault", .isDefault, .bool⟩, ⟨"Type", .type, .str⟩,
    ⟨"Mode", .mode, .str⟩]

end NetItf

/-- The network's configuration, of a build that sets no `DEVICE_AUTO_GATEWAY`;
`Common/ComConfig.h:264`. -/
structure NetConfig where
  itfs : List NetItf
  dns : List COMStr

namespace NetConfig

/-- `NetConfig::Clear`; `Common/ComConfig.cpp:538`. -/
def clear (_ : NetConfig) : NetConfig := { itfs := [], dns := [] }

/-- `Common/ComConfig.cpp:588–592`. -/
def pushDNS (P : Poco) : List Var → Eff Exn NetConfig Unit
  | [] => pure ()
  | v :: vs => do
    let d ← Eff.ofExcept (P.convertStr v)
    modify fun c ↦ { c with dns := c.dns ++ [d] }
    pushDNS P vs

/-- `Common/ComConfig.cpp:594–605`; `memory i` is what the stack holds where the record of
interface `i` is declared. -/
def pushItfs (P : Poco) (memory : Nat → NetItf) : Nat → List Var → Eff Exn NetConfig Unit
  | _, [] => pure ()
  | i, v :: vs => do
    let itf := declared NetItf.layout NetItf.initialisers (memory i)
    let r := (readFields NetItf.layout v.getObject (NetItf.reads P)).exec itf
    Eff.ofExcept r.1
    modify fun c ↦ { c with itfs := c.itfs ++ [r.2] }
    pushItfs P memory (i + 1) vs

/-- `NetConfig::Load`; `Common/ComConfig.cpp:548`. -/
def load (P : Poco) (memory : Nat → NetItf) : Eff Exn (ComConfig NetConfig) Bool := do
  let s ← get
  match s.jConf with
  | none => pure false
  | some jc =>
    let (dns, jc) := JGET_ARR jc "DNS"
    set ({ fields := clear s.fields, jConf := some jc } : ComConfig NetConfig)
    match dns.vals with
    | none => pure false
    | some ds =>
      let (conns, jc) := JGET_ARR jc "Itfs"
      modify fun s ↦ { s with jConf := some jc }
      match conns.vals with
      | none => pure false
      | some cs =>
        onFields (pushDNS P ds)
        onFields (pushItfs P memory 0 cs)
        pure true

/-- `NetConfig::JSave`; `Common/ComConfig.cpp:611`. -/
def jSave : Eff Exn (ComConfig NetConfig) Bool := do
  let s ← get
  match s.jConf with
  | none => pure false
  | some j =>
    let j := saveArray "DNS" .str s.fields.dns j
    let j := saveArray "Itfs" (addRecord NetItf.layout NetItf.writes) s.fields.itfs j
    set { s with jConf := some j }
    pure true

end NetConfig

/-- `NTPConfig::JSave` up to `Apply`: neither array is checked for null;
`Common/ComConfig.cpp:416–457`. -/
def NTPConfig.jSave : Eff Exn (ComConfig NTPConfig) Bool := do
  let s ← get
  match s.jConf with
  | none => pure false
  | some j =>
    let (jsvr, j) := JGET_ARR j "Servers"
    set { s with jConf := some j }
    if jsvr.vals.isNone then throw .nullPointer
    let j := jsvr.store j "Servers" (s.fields.servers.map .str)
    let (jres, j) := JGET_ARR j "Restrict"
    set { s with jConf := some j }
    if jres.vals.isNone then throw .nullPointer
    let rule := fun r : COMStr × COMStr ↦
      Var.object .value (Object.set (Object.set [] "ip" (.str r.1)) "mask" (.str r.2))
    set { s with jConf := some (jres.store j "Restrict" (s.fields.restrict.map rule)) }
    pure true

end IcsGateway
