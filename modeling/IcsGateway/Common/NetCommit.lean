import IcsGateway.Lib.Substitution
import IcsGateway.Lib.Words
import IcsGateway.Common.ComSysNetwork
import IcsGateway.Common.NetConfig

/-!
# Committing the network's configuration

`NetConfig::Commit` prints the interfaces into `/etc/network/interfaces` and the name servers into
`/etc/resolv.conf`, and restarts the network. An interface of type `bridge` is found first, and
then its stanza is all that is printed (`Common/ComConfig.cpp:684–815`).
-/

namespace IcsGateway

open Lib

/-- The placeholder of a parameter and its value. -/
def ComUtil.patterns (params : ComMap COMStr) : List (List Char × List Char) :=
  params.map fun p ↦ (("[" ++ p.1 ++ "]").toList, p.2.toList)

/-- `ComUtil::StrMakeUp`, with fuel for each of its `while` loops; `Common/ComUtil.cpp:210`. -/
def ComUtil.strMakeUp (fuel : Nat) (tmp : COMStr) (params : ComMap COMStr) : Option COMStr :=
  if tmp = "" then some ""
  else if params.isEmpty then some tmp
  else (substitute fuel (patterns params) tmp.toList).map String.ofList

/-- More fuel changes nothing. -/
theorem ComUtil.strMakeUp_mono {fuel fuel' : Nat} (hle : fuel ≤ fuel') {tmp text : COMStr}
    {params : ComMap COMStr} (h : strMakeUp fuel tmp params = some text) :
    strMakeUp fuel' tmp params = some text := by
  unfold strMakeUp at h ⊢
  by_cases htmp : tmp = ""
  · rw [if_pos htmp] at h ⊢
    exact h
  · by_cases hparams : params.isEmpty = true
    · rw [if_neg htmp, if_pos hparams] at h ⊢
      exact h
    · rw [if_neg htmp, if_neg hparams] at h ⊢
      obtain ⟨out, hout, htext⟩ := Option.map_eq_some_iff.mp h
      exact Option.map_eq_some_iff.mpr ⟨out, substitute_mono hle hout, htext⟩

namespace NetConfig

/-- What `Commit` does outside: a file is written by `StrToFile`, or commands are run. -/
inductive Act where
  | toFile (fpath content : COMStr)
  | exec (cmds : List COMStr)
  deriving DecidableEq, Repr

/-- The file of the interfaces. -/
def interfacesFile : COMStr := "/etc/network/interfaces"

/-- The file of the name servers. -/
def resolvFile : COMStr := "/etc/resolv.conf"

/-- `DEV_LAN1_ITF`; `Common/ComDefinition.h:130`. -/
def devLan1Itf : COMStr := "enp2s0"

/-- `DEV_LAN2_ITF`; `Common/ComDefinition.h:131`. -/
def devLan2Itf : COMStr := "enp3s0"

/-- `Common/ComConfig.cpp:699`. -/
def loTmp : COMStr :=
  "# Network interface configuration" ++ "# Following is auto generated content\n\n" ++
    "source /etc/network/interfaces.d/*\n\n" ++ "auto lo\n" ++ "    iface lo inet loopback\n"

/-- `Common/ComConfig.cpp:705`. -/
def itfTmp : COMStr :=
  "auto [Name]\n" ++ "    iface [Name] inet static\n" ++ "    address [IP]\n" ++
    "    netmask [Subnet]\n" ++ "    dns-nameservers [DNS]\n"

/-- `Common/ComConfig.cpp:711`. -/
def itfTmp2 : COMStr := "auto [Name]\n" ++ "    iface [Name] inet [Mode]"

/-- `Common/ComConfig.cpp:714`. -/
def brgTmp : COMStr :=
  "auto " ++ devLan1Itf ++ "\n" ++ "    iface " ++ devLan1Itf ++ " inet manual\n\n" ++
    "auto " ++ devLan2Itf ++ "\n" ++ "    iface " ++ devLan2Itf ++ " inet manual\n\n" ++
    "auto [Name]\n" ++ "    iface [Name] inet static\n" ++ "    bridge_stp off\n" ++
    "    address [IP]\n" ++ "    netmask [Subnet]\n" ++ "    dns-nameservers [DNS]\n" ++
    "    bridge_ports [Ports]\n" ++ "    gateway [Gateway]\n"

/-- The parameters of a bridge; `Common/ComConfig.cpp:733`. -/
def brgParams (itf : NetItf) : ComMap COMStr :=
  ComMap.assignAll [] [("Name", itf.name), ("IP", itf.ip), ("Subnet", itf.subnet),
    ("Gateway", itf.gateway), ("DNS", "8.8.8.8 8.8.4.4"),
    ("Ports", devLan1Itf ++ " " ++ devLan2Itf), ("Mode", itf.mode)]

/-- The parameters of another interface; `Common/ComConfig.cpp:764`. -/
def itfParams (itf : NetItf) : ComMap COMStr :=
  ComMap.assignAll [] [("Name", itf.name), ("IP", itf.ip), ("Subnet", itf.subnet),
    ("DNS", "8.8.8.8 8.8.4.4"), ("Mode", itf.mode)]

/-- The lines for the gateway of a static interface; `Common/ComConfig.cpp:771–778`. -/
def printGateway (itf : NetItf) : COMStr :=
  if itf.mode = "static" ∧ itf.gateway ≠ "0.0.0.0" then
    "    gateway " ++ itf.gateway ++ "\n" ++
      (if itf.isDefault then
        "    post-up route add default gw " ++ itf.gateway ++ "\n" ++
          "    pre-down route del default gw " ++ itf.gateway ++ "\n"
      else "")
  else ""

/-- What is printed for an interface that is no bridge; `Common/ComConfig.cpp:764–778`. -/
def printItf (fuel : Nat) (itf : NetItf) : Option COMStr :=
  (ComUtil.strMakeUp fuel (if itf.mode = "static" then itfTmp else itfTmp2) (itfParams itf)).map
    (· ++ printGateway itf)

/-- More fuel changes nothing. -/
theorem printItf_mono {fuel fuel' : Nat} (hle : fuel ≤ fuel') {itf : NetItf} {tmp : COMStr}
    (h : printItf fuel itf = some tmp) : printItf fuel' itf = some tmp := by
  obtain ⟨text, hrun, htmp⟩ := Option.map_eq_some_iff.mp h
  exact Option.map_eq_some_iff.mpr ⟨text, ComUtil.strMakeUp_mono hle hrun, htmp⟩

/-- The loop over interfaces that are no bridges; `Common/ComConfig.cpp:763–785`. -/
def printItfs (fuel : Nat) (itfs : COMStr) : List NetItf → Option (COMStr × List Act)
  | [] => some (itfs, [])
  | itf :: rest => do
    let tmp ← printItf fuel itf
    let (itfs, acts) ← printItfs fuel (itfs ++ ("\n\n" ++ tmp)) rest
    some (itfs,
      .exec ["ifconfig " ++ itf.name ++ " 0.0.0.0 up", "ip addr flush " ++ itf.name] :: acts)

/-- `NetConfig::CommitDNS`; `Common/ComConfig.cpp:684`. -/
def commitDNS (c : NetConfig) : Act :=
  .toFile resolvFile (c.dns.foldl (fun resolv d ↦ resolv ++ ("nameserver " ++ d ++ "\n"))
    ("#This file is generated automatically\n\n" ++ "nameserver 127.0.1.1\n"))

/-- The routes of interfaces that are not configured; `Common/ComConfig.cpp:797–812`. -/
def dropRoutes (c : NetConfig) (net : ComSysNetwork) : List Act :=
  (net.interfaces.filter fun itf ↦
      itf.2.gateway ≠ "" && !c.itfs.any fun icfg ↦ icfg.name = itf.1).map
    fun itf ↦ .exec ["route del default dev " ++ itf.1]

/-- The part of `Commit` for a bridge; `Common/ComConfig.cpp:732–761`. `net` holds the interfaces
as they were last loaded, and `status` is what running commands returns. -/
def commitBridge (fuel : Nat) (net : ComSysNetwork) (status : List COMStr → Int) (itf : NetItf) :
    Option (Bool × List Act) := do
  let tmp ← ComUtil.strMakeUp fuel brgTmp (brgParams itf)
  let create := if (net.interfaces.lookup itf.name).isNone then
    [.exec ["brctl addbr " ++ itf.name]] else []
  let cmds := ["ifconfig " ++ devLan1Itf ++ " 0.0.0.0 up", "ip addr flush " ++ devLan1Itf,
    "ifconfig " ++ devLan2Itf ++ " 0.0.0.0 up", "ip addr flush " ++ devLan2Itf,
    "ifconfig " ++ itf.name ++ " 0.0.0.0 up", "ip addr flush " ++ itf.name,
    "systemctl restart networking"]
  some (status cmds = 0,
    .toFile interfacesFile (loTmp ++ ("\n\n" ++ tmp)) :: create ++ [.exec cmds])

/-- `NetConfig::Commit`, with what it returns and does; nothing when a `while` of `StrMakeUp` has
not ended. `net` and `net'` are the interfaces of the system before and after they are loaded
anew; `Common/ComConfig.cpp:697`. -/
def commit (fuel : Nat) (net net' : ComSysNetwork) (status : List COMStr → Int) (c : NetConfig) :
    Option (Bool × List Act) :=
  match c.itfs.find? fun itf ↦ itf.type = "bridge" with
  | some itf => commitBridge fuel net status itf
  | none => do
    let (itfs, acts) ← printItfs fuel loTmp c.itfs
    some (true, acts ++ [commitDNS c, .toFile interfacesFile itfs,
      .exec ["systemctl restart networking"]] ++ dropRoutes c net')

/-- What was last written to a file. -/
def written (fpath : COMStr) (acts : List Act) : Option COMStr :=
  (acts.filterMap fun
    | .toFile f content => if f = fpath then some content else none
    | .exec _ => none).getLast?

/-! ### Templates -/

/-- A placeholder stands in a text. -/
def Holds (s key : COMStr) : Prop := key.toList <:+: s.toList

instance (s key : COMStr) : Decidable (Holds s key) := inferInstanceAs (Decidable (_ <:+: _))

/-- The text of a static interface around what stands for its name, address, netmask and servers. -/
def staticText (name ip subnet dns : List Char) : List Char :=
  "auto".toList ++ ' ' :: (name ++ '\n' :: ("    iface".toList ++ ' ' :: (name ++ ' ' ::
    ("inet static".toList ++ '\n' :: ("    address".toList ++ ' ' :: (ip ++ '\n' ::
      ("    netmask".toList ++ ' ' :: (subnet ++ '\n' :: ("    dns-nameservers".toList ++ ' ' ::
        (dns ++ '\n' :: []))))))))))

/-- The text of another interface around its name and mode. -/
def dynamicText (name mode : List Char) : List Char :=
  "auto".toList ++ ' ' :: (name ++ '\n' :: ("    iface".toList ++ ' ' :: (name ++ ' ' ::
    ("inet".toList ++ ' ' :: mode))))

private theorem toList_itfTmp : itfTmp.toList =
    staticText "[Name]".toList "[IP]".toList "[Subnet]".toList "[DNS]".toList := by
  decide +kernel

private theorem toList_itfTmp2 :
    itfTmp2.toList = dynamicText "[Name]".toList "[Mode]".toList := by
  decide +kernel

private theorem itfParams_eq (itf : NetItf) : itfParams itf =
    [("DNS", "8.8.8.8 8.8.4.4"), ("IP", itf.ip), ("Mode", itf.mode), ("Name", itf.name),
      ("Subnet", itf.subnet)] := by
  simp +decide only [itfParams, ComMap.assignAll, ComMap.assign, if_true, if_false]

private theorem patterns_itfParams (itf : NetItf) : ComUtil.patterns (itfParams itf) =
    [("[DNS]".toList, "8.8.8.8 8.8.4.4".toList), ("[IP]".toList, itf.ip.toList),
      ("[Mode]".toList, itf.mode.toList), ("[Name]".toList, itf.name.toList),
      ("[Subnet]".toList, itf.subnet.toList)] := by
  rw [itfParams_eq]
  rfl

/-- The key of a parameter in its brackets. -/
private def IsKey (key : List Char) : Prop :=
  key ≠ [] ∧ '[' ∈ key ∧ ' ' ∉ key ∧ '\n' ∉ key

private theorem isKey_patterns (itf : NetItf) :
    ∀ p ∈ ComUtil.patterns (itfParams itf), IsKey p.1 := by
  rw [patterns_itfParams]
  simp only [List.forall_mem_cons, List.not_mem_nil, false_imp_iff, implies_true, and_true]
  unfold IsKey
  decide

section Templates

variable {ps : List (List Char × List Char)} (hps : ∀ p ∈ ps, IsKey p.1)

include hps

/-- A text without a bracket is not touched. -/
private theorem substitutes_lit {lit out : List Char} (h : '[' ∉ lit) :
    Substitutes ps lit out ↔ out = lit := by
  apply substitutes_of_notInfix
  intro p hp
  exact ⟨(hps p hp).1, fun hin ↦ h (hin.subset (hps p hp).2.1)⟩

/-- Both sides of a blank or a line break are rewritten apart. -/
private theorem substitutes_sep {a b out : List Char} {c : Char} (hc : c = ' ' ∨ c = '\n') :
    Substitutes ps (a ++ c :: b) out ↔
      ∃ a' b', Substitutes ps a a' ∧ Substitutes ps b b' ∧ out = a' ++ c :: b' := by
  apply substitutes_append_cons_iff
  intro p hp
  obtain ⟨hne, -, hblank, hline⟩ := hps p hp
  rcases hc with rfl | rfl
  · exact ⟨hne, hblank⟩
  · exact ⟨hne, hline⟩

/-- A literal before a blank or a line break stays. -/
private theorem substitutes_lit_sep {lit b out : List Char} {c : Char} (hc : c = ' ' ∨ c = '\n')
    (h : '[' ∉ lit) :
    Substitutes ps (lit ++ c :: b) out ↔ ∃ b', Substitutes ps b b' ∧ out = lit ++ c :: b' := by
  rw [substitutes_sep hps hc]
  simp only [substitutes_lit hps h, exists_and_left, exists_eq_left]

/-- A place behind a literal. -/
private theorem substitutes_place {lit a b out : List Char} {c : Char} (hc : c = ' ' ∨ c = '\n')
    (h : '[' ∉ lit) :
    Substitutes ps (lit ++ ' ' :: (a ++ c :: b)) out ↔ ∃ a' b', Substitutes ps a a' ∧
      Substitutes ps b b' ∧ out = lit ++ ' ' :: (a' ++ c :: b') := by
  rw [substitutes_lit_sep hps (.inl rfl) h]
  constructor
  · rintro ⟨_, hrest, rfl⟩
    obtain ⟨a', b', ha, hb, rfl⟩ := (substitutes_sep hps hc).mp hrest
    exact ⟨a', b', ha, hb, rfl⟩
  · rintro ⟨a', b', ha, hb, rfl⟩
    exact ⟨_, (substitutes_sep hps hc).mpr ⟨a', b', ha, hb, rfl⟩, rfl⟩

/-- What stands in the places of the text of another interface is rewritten place by place. -/
private theorem substitutes_dynamicText {name mode out : List Char} :
    Substitutes ps (dynamicText name mode) out ↔ ∃ name' mode', Substitutes ps name name' ∧
      Substitutes ps mode mode' ∧ out = dynamicText name' mode' := by
  have hauto : '[' ∉ "auto".toList := by decide
  have hiface : '[' ∉ "    iface".toList := by decide
  have hinet : '[' ∉ "inet".toList := by decide
  unfold dynamicText
  constructor
  · intro h
    obtain ⟨name', _, hname, hrest, rfl⟩ := (substitutes_place hps (.inr rfl) hauto).mp h
    obtain ⟨name'', _, hname', hrest', rfl⟩ := (substitutes_place hps (.inl rfl) hiface).mp hrest
    obtain ⟨mode', hmode, rfl⟩ := (substitutes_lit_sep hps (.inl rfl) hinet).mp hrest'
    rw [hname'.unique hname]
    exact ⟨name', mode', hname, hmode, rfl⟩
  · rintro ⟨name', mode', hname, hmode, rfl⟩
    have hrest' := (substitutes_lit_sep hps (.inl rfl) hinet).mpr ⟨_, hmode, rfl⟩
    have hrest := (substitutes_place hps (.inl rfl) hiface).mpr ⟨_, _, hname, hrest', rfl⟩
    exact (substitutes_place hps (.inr rfl) hauto).mpr ⟨_, _, hname, hrest, rfl⟩

/-- And so are those of the text of a static one. -/
private theorem substitutes_staticText {name ip subnet dns out : List Char} :
    Substitutes ps (staticText name ip subnet dns) out ↔ ∃ name' ip' subnet' dns',
      Substitutes ps name name' ∧ Substitutes ps ip ip' ∧ Substitutes ps subnet subnet' ∧
        Substitutes ps dns dns' ∧ out = staticText name' ip' subnet' dns' := by
  have hauto : '[' ∉ "auto".toList := by decide
  have hiface : '[' ∉ "    iface".toList := by decide
  have hinet : '[' ∉ "inet static".toList := by decide
  have haddress : '[' ∉ "    address".toList := by decide
  have hnetmask : '[' ∉ "    netmask".toList := by decide
  have hservers : '[' ∉ "    dns-nameservers".toList := by decide
  have hnil : '[' ∉ ([] : List Char) := List.not_mem_nil
  unfold staticText
  constructor
  · intro h
    obtain ⟨name', _, hname, h₁, rfl⟩ := (substitutes_place hps (.inr rfl) hauto).mp h
    obtain ⟨name'', _, hname', h₂, rfl⟩ := (substitutes_place hps (.inl rfl) hiface).mp h₁
    obtain ⟨_, h₃, rfl⟩ := (substitutes_lit_sep hps (.inr rfl) hinet).mp h₂
    obtain ⟨ip', _, hip, h₄, rfl⟩ := (substitutes_place hps (.inr rfl) haddress).mp h₃
    obtain ⟨subnet', _, hsubnet, h₅, rfl⟩ := (substitutes_place hps (.inr rfl) hnetmask).mp h₄
    obtain ⟨dns', _, hdns, h₆, rfl⟩ := (substitutes_place hps (.inr rfl) hservers).mp h₅
    rw [(substitutes_lit hps hnil).mp h₆, hname'.unique hname]
    exact ⟨name', ip', subnet', dns', hname, hip, hsubnet, hdns, rfl⟩
  · rintro ⟨name', ip', subnet', dns', hname, hip, hsubnet, hdns, rfl⟩
    have h₆ := (substitutes_lit hps hnil).mpr rfl
    have h₅ := (substitutes_place hps (.inr rfl) hservers).mpr ⟨_, _, hdns, h₆, rfl⟩
    have h₄ := (substitutes_place hps (.inr rfl) hnetmask).mpr ⟨_, _, hsubnet, h₅, rfl⟩
    have h₃ := (substitutes_place hps (.inr rfl) haddress).mpr ⟨_, _, hip, h₄, rfl⟩
    have h₂ := (substitutes_lit_sep hps (.inr rfl) hinet).mpr ⟨_, h₃, rfl⟩
    have h₁ := (substitutes_place hps (.inl rfl) hiface).mpr ⟨_, _, hname, h₂, rfl⟩
    exact (substitutes_place hps (.inr rfl) hauto).mpr ⟨_, _, hname, h₁, rfl⟩

end Templates

section Places

variable (itf : NetItf) {out : List Char}

/-- The places of a template, each with the patterns that are replaced after its own. -/
private theorem place_dns : Substitutes (ComUtil.patterns (itfParams itf)) "[DNS]".toList out ↔
    out = "8.8.8.8 8.8.4.4".toList := by
  have hkey : "[DNS]".toList ≠ [] := by decide
  have hval : ¬ "[DNS]".toList <:+: "8.8.8.8 8.8.4.4".toList := by decide
  have hlit : '[' ∉ "8.8.8.8 8.8.4.4".toList := by decide
  have hrest : ∀ p ∈ ComUtil.patterns [("IP", itf.ip), ("Mode", itf.mode), ("Name", itf.name),
      ("Subnet", itf.subnet)], IsKey p.1 := by
    intro p hp
    apply isKey_patterns itf
    rw [patterns_itfParams]
    exact List.mem_cons_of_mem _ hp
  rw [patterns_itfParams, ← substitutes_lit hrest hlit]
  refine (substitutes_key_iff hkey (List.forall_mem_nil _)).trans ?_
  exact and_iff_right hval

private theorem place_ip : Substitutes (ComUtil.patterns (itfParams itf)) "[IP]".toList out ↔
    ¬ Holds itf.ip "[IP]" ∧ Substitutes (ComUtil.patterns
      [("Mode", itf.mode), ("Name", itf.name), ("Subnet", itf.subnet)]) itf.ip.toList out := by
  have hkey : "[IP]".toList ≠ [] := by decide
  have hpre : ∀ p ∈ [("[DNS]".toList, "8.8.8.8 8.8.4.4".toList)],
      p.1 ≠ [] ∧ ¬ p.1 <:+: "[IP]".toList := by
    simp only [List.forall_mem_cons, List.not_mem_nil, false_imp_iff, implies_true, and_true]
    decide
  rw [patterns_itfParams]
  exact substitutes_key_iff hkey hpre

private theorem place_mode : Substitutes (ComUtil.patterns (itfParams itf)) "[Mode]".toList out ↔
    ¬ Holds itf.mode "[Mode]" ∧ Substitutes (ComUtil.patterns
      [("Name", itf.name), ("Subnet", itf.subnet)]) itf.mode.toList out := by
  have hkey : "[Mode]".toList ≠ [] := by decide
  have hpre : ∀ p ∈ [("[DNS]".toList, "8.8.8.8 8.8.4.4".toList), ("[IP]".toList, itf.ip.toList)],
      p.1 ≠ [] ∧ ¬ p.1 <:+: "[Mode]".toList := by
    simp only [List.forall_mem_cons, List.not_mem_nil, false_imp_iff, implies_true, and_true]
    decide
  rw [patterns_itfParams]
  exact substitutes_key_iff hkey hpre

private theorem place_name : Substitutes (ComUtil.patterns (itfParams itf)) "[Name]".toList out ↔
    ¬ Holds itf.name "[Name]" ∧
      Substitutes (ComUtil.patterns [("Subnet", itf.subnet)]) itf.name.toList out := by
  have hkey : "[Name]".toList ≠ [] := by decide
  have hpre : ∀ p ∈ [("[DNS]".toList, "8.8.8.8 8.8.4.4".toList), ("[IP]".toList, itf.ip.toList),
      ("[Mode]".toList, itf.mode.toList)], p.1 ≠ [] ∧ ¬ p.1 <:+: "[Name]".toList := by
    simp only [List.forall_mem_cons, List.not_mem_nil, false_imp_iff, implies_true, and_true]
    decide
  rw [patterns_itfParams]
  exact substitutes_key_iff hkey hpre

private theorem place_subnet :
    Substitutes (ComUtil.patterns (itfParams itf)) "[Subnet]".toList out ↔
      ¬ Holds itf.subnet "[Subnet]" ∧ out = itf.subnet.toList := by
  have hkey : "[Subnet]".toList ≠ [] := by decide
  have hpre : ∀ p ∈ [("[DNS]".toList, "8.8.8.8 8.8.4.4".toList), ("[IP]".toList, itf.ip.toList),
      ("[Mode]".toList, itf.mode.toList), ("[Name]".toList, itf.name.toList)],
      p.1 ≠ [] ∧ ¬ p.1 <:+: "[Subnet]".toList := by
    simp only [List.forall_mem_cons, List.not_mem_nil, false_imp_iff, implies_true, and_true]
    decide
  rw [patterns_itfParams, ← substitutes_nil_iff]
  exact substitutes_key_iff hkey hpre

end Places

/-- What is printed for an interface, with fuel enough. -/
def Printed (itf : NetItf) (tmp : COMStr) : Prop := ∃ fuel, printItf fuel itf = some tmp

/-- It is what the loops make of the template, and the lines for the gateway. -/
private theorem printed_iff {itf : NetItf} {tmp : COMStr} :
    Printed itf tmp ↔ ∃ out, Substitutes (ComUtil.patterns (itfParams itf))
      (if itf.mode = "static" then itfTmp else itfTmp2).toList out ∧
        tmp = String.ofList out ++ printGateway itf := by
  have htmp : (if itf.mode = "static" then itfTmp else itfTmp2) ≠ "" := by
    split
    · decide
    · decide
  have hparams : (itfParams itf).isEmpty = false := by
    rw [itfParams_eq]
    rfl
  have hprint (fuel : Nat) : printItf fuel itf = some tmp ↔ ∃ out,
      substitute fuel (ComUtil.patterns (itfParams itf))
        (if itf.mode = "static" then itfTmp else itfTmp2).toList = some out ∧
        tmp = String.ofList out ++ printGateway itf := by
    unfold printItf ComUtil.strMakeUp
    rw [if_neg htmp, hparams]
    simp only [Bool.false_eq_true, if_false, Option.map_map, Option.map_eq_some_iff]
    constructor
    · rintro ⟨out, hout, rfl⟩
      exact ⟨out, hout, rfl⟩
    · rintro ⟨out, hout, rfl⟩
      exact ⟨out, hout, rfl⟩
  unfold Printed
  constructor
  · rintro ⟨fuel, h⟩
    obtain ⟨out, hout, htext⟩ := (hprint fuel).mp h
    exact ⟨out, ⟨fuel, hout⟩, htext⟩
  · rintro ⟨out, ⟨fuel, hout⟩, htext⟩
    exact ⟨fuel, (hprint fuel).mpr ⟨out, hout, htext⟩⟩

/-- What is printed for a static interface. -/
theorem printed_static_iff {itf : NetItf} (hmode : itf.mode = "static") {tmp : COMStr} :
    Printed itf tmp ↔ (¬ Holds itf.name "[Name]" ∧ ¬ Holds itf.ip "[IP]" ∧
        ¬ Holds itf.subnet "[Subnet]") ∧ ∃ name ip,
      Substitutes (ComUtil.patterns [("Subnet", itf.subnet)]) itf.name.toList name ∧
      Substitutes (ComUtil.patterns
        [("Mode", itf.mode), ("Name", itf.name), ("Subnet", itf.subnet)]) itf.ip.toList ip ∧
      tmp = String.ofList (staticText name ip itf.subnet.toList "8.8.8.8 8.8.4.4".toList) ++
        printGateway itf := by
  rw [printed_iff, if_pos hmode, toList_itfTmp]
  simp only [substitutes_staticText (isKey_patterns itf), place_name, place_ip, place_subnet,
    place_dns]
  constructor
  · rintro ⟨_, ⟨name, ip, _, _, ⟨hname, hn⟩, ⟨hip, hi⟩, ⟨hsubnet, rfl⟩, rfl, rfl⟩, htext⟩
    exact ⟨⟨hname, hip, hsubnet⟩, name, ip, hn, hi, htext⟩
  · rintro ⟨⟨hname, hip, hsubnet⟩, name, ip, hn, hi, htext⟩
    exact ⟨_, ⟨name, ip, _, _, ⟨hname, hn⟩, ⟨hip, hi⟩, ⟨hsubnet, rfl⟩, rfl, rfl⟩, htext⟩

/-- What is printed for another interface. -/
theorem printed_dynamic_iff {itf : NetItf} (hmode : itf.mode ≠ "static") {tmp : COMStr} :
    Printed itf tmp ↔ (¬ Holds itf.name "[Name]" ∧ ¬ Holds itf.mode "[Mode]") ∧ ∃ name mode,
      Substitutes (ComUtil.patterns [("Subnet", itf.subnet)]) itf.name.toList name ∧
      Substitutes (ComUtil.patterns [("Name", itf.name), ("Subnet", itf.subnet)])
        itf.mode.toList mode ∧
      tmp = String.ofList (dynamicText name mode) := by
  have hgateway : printGateway itf = "" := by
    unfold printGateway
    rw [if_neg]
    exact fun h ↦ hmode h.1
  rw [printed_iff, if_neg hmode, toList_itfTmp2, hgateway]
  simp only [substitutes_dynamicText (isKey_patterns itf), place_name, place_mode,
    String.append_empty]
  constructor
  · rintro ⟨_, ⟨name, mode, ⟨hname, hn⟩, ⟨hm, hrun⟩, rfl⟩, htext⟩
    exact ⟨⟨hname, hm⟩, name, mode, hn, hrun, htext⟩
  · rintro ⟨⟨hname, hm⟩, name, mode, hn, hrun, htext⟩
    exact ⟨_, ⟨name, mode, ⟨hname, hn⟩, ⟨hm, hrun⟩, rfl⟩, htext⟩

/-- No placeholder of the netmask is left in what a template becomes, and that of a static interface
ends with a line break. -/
theorem Printed.exists_text {itf : NetItf} {tmp : COMStr} (h : Printed itf tmp) :
    ∃ out, tmp = String.ofList out ++ printGateway itf ∧ ¬ "[Subnet]".toList <:+: out ∧
      (itf.mode = "static" → ∃ init, out = init ++ '\n' :: []) := by
  obtain ⟨out, hout, htmp⟩ := printed_iff.mp h
  refine ⟨out, htmp, ?_, ?_⟩
  · have hkey : "[Subnet]".toList ≠ [] := by decide
    rw [patterns_itfParams] at hout
    have hlast : [("[DNS]".toList, "8.8.8.8 8.8.4.4".toList), ("[IP]".toList, itf.ip.toList),
        ("[Mode]".toList, itf.mode.toList), ("[Name]".toList, itf.name.toList),
        ("[Subnet]".toList, itf.subnet.toList)] =
      [("[DNS]".toList, "8.8.8.8 8.8.4.4".toList), ("[IP]".toList, itf.ip.toList),
        ("[Mode]".toList, itf.mode.toList), ("[Name]".toList, itf.name.toList)] ++
          [("[Subnet]".toList, itf.subnet.toList)] := rfl
    rw [hlast] at hout
    exact hout.notInfix_last hkey
  · intro hmode
    rw [if_pos hmode, toList_itfTmp, substitutes_staticText (isKey_patterns itf)] at hout
    obtain ⟨name, ip, subnet, dns, -, -, -, -, rfl⟩ := hout
    refine ⟨"auto".toList ++ ' ' :: (name ++ '\n' :: ("    iface".toList ++ ' ' :: (name ++ ' ' ::
      ("inet static".toList ++ '\n' :: ("    address".toList ++ ' ' :: (ip ++ '\n' ::
        ("    netmask".toList ++ ' ' :: (subnet ++ '\n' :: ("    dns-nameservers".toList ++ ' ' ::
          dns))))))))), ?_⟩
    unfold staticText
    simp only [List.append_assoc, List.cons_append]

end NetConfig

end IcsGateway
