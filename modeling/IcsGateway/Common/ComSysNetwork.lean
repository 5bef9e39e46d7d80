import IcsGateway.Common.ComUtil
import IcsGateway.Lib.Words

/-!
# Network interfaces

`ComSysNetwork::Load` (`Common/ComSysNetwork.cpp`) takes the interfaces from `getifaddrs` and
their gateways from `/proc/net/route`, which it reads word by word, counting columns.
-/

namespace IcsGateway

open Lib

/-- `DevNetIf`; `Common/ComSysNetwork.h:12`. -/
structure DevNetIf where
  name : COMStr := ""
  ip : COMStr := ""
  gateway : COMStr := ""
  subnet : COMStr := ""
  tx_packets : UInt32 := 0
  rx_packets : UInt32 := 0
  tx_bytes : UInt32 := 0
  rx_bytes : UInt32 := 0
  state : Int := 0
  deriving DecidableEq

/-- `rtnl_link_stats`, the counters that are read. -/
structure LinkStats where
  tx_packets : UInt32
  rx_packets : UInt32
  tx_bytes : UInt32
  rx_bytes : UInt32

/-- `ifa_addr` by its family, an IPv4 address with what `getnameinfo` returns for it. -/
inductive IfAddr where
  | inet (host : Option COMStr)
  | packet (stats : Option LinkStats)
  | other

/-- `ifaddrs`, an IPv4 netmask with its text. -/
structure IfAddrs where
  ifa_name : COMStr
  ifa_addr : Option IfAddr
  ifa_netmask : Option COMStr

/-- `ComSysNetwork`. -/
structure ComSysNetwork where
  interfaces : ComMap DevNetIf
  ifDefault : COMStr

namespace ComSysNetwork

/-- `Interfaces[k]`, changed; the entry is made if there is none. -/
def modify (m : ComMap DevNetIf) (k : COMStr) (f : DevNetIf → DevNetIf) : ComMap DevNetIf :=
  m.assign k (f ((m.lookup k).getD {}))

/-- One record of `getifaddrs`; `Common/ComSysNetwork.cpp:78–111`. -/
def addIfAddrs (m : ComMap DevNetIf) (ifa : IfAddrs) : ComMap DevNetIf :=
  match ifa.ifa_addr with
  | none => m
  | some addr =>
    let name := ifa.ifa_name
    let m := if m.lookup name = none then m.assign name { name } else m
    let m := match ifa.ifa_netmask with
      | some host => modify m name fun d ↦ { d with subnet := host }
      | none => m
    match addr with
    | .inet (some host) => modify m name fun d ↦ { d with ip := host }
    | .packet (some stats) => modify m name fun d ↦
      { d with tx_packets := stats.tx_packets, rx_packets := stats.rx_packets,
               tx_bytes := stats.tx_bytes, rx_bytes := stats.rx_bytes }
    | _ => m

/-- The interfaces that `getifaddrs` reports. -/
def reported (ifaddr : List IfAddrs) : ComMap DevNetIf := ifaddr.foldl addIfAddrs []

/-- `strtoul(ln, NULL, 16)` as the 32 bits of `s_addr`. -/
def sAddr (ln : COMStr) : Nat := (ComUtil.strtoul 16 ln.toList).getD 0 % 2 ^ 32

/-- `inet_ntoa`, the bytes of `s_addr` from the lowest on. -/
def inetNtoa (addr : Nat) : COMStr :=
  toString (addr % 256) ++ "." ++ toString (addr / 256 % 256) ++ "." ++
    toString (addr / 65536 % 256) ++ "." ++ toString (addr / 16777216 % 256)

/-- What the loop over `/proc/net/route` keeps. -/
structure RouteState where
  interfaces : ComMap DevNetIf
  ifDefault : COMStr := ""
  iface : COMStr := ""
  idx : Nat := 0
  state : Nat := 0

/-- A word is read; `Common/ComSysNetwork.cpp:126–166`. -/
def readWord (s : RouteState) (ln : COMStr) : RouteState :=
  let s := { s with idx := s.idx + 1 }
  match s.idx with
  | 1 =>
    if s.interfaces.lookup ln ≠ none then
      { s with iface := ln, state := if s.state = 0 then 1 else s.state }
    else s
  | 2 =>
    if ln = "00000000" then
      let s := { s with interfaces := modify s.interfaces s.iface fun d ↦ { d with state := 1 } }
      if s.state = 1 then { s with state := 2, ifDefault := s.iface }
      else if s.state = 2 then { s with state := 3 }
      else s
    else s
  | 3 =>
    if s.state ≠ 0 then
      let s := { s with interfaces := modify s.interfaces s.iface id }
      let d := (s.interfaces.lookup s.iface).getD {}
      if d.gateway = "" ∨ d.gateway = "0.0.0.0" then
        let gateway := inetNtoa (sAddr ln)
        if gateway ≠ "0.0.0.0" then
          { s with interfaces := modify s.interfaces s.iface fun d ↦ { d with gateway } }
        else s
      else s
    else s
  | 11 => { s with idx := 0 }
  | _ => s

/-- The words that `>>` reads. -/
def wordsOf (text : COMStr) : List COMStr := (words ComUtil.isspace text.toList).map String.ofList

/-- The loop over `/proc/net/route`. Unless the text ends in a word, `>>` fails once before `eof` is
seen and leaves the word read before it. -/
def readRoute (s : RouteState) (text : COMStr) : RouteState :=
  let s := (wordsOf text).foldl readWord s
  match text.toList.getLast?.map ComUtil.isspace with
  | some false => s
  | _ => readWord s ((wordsOf text).getLast?.getD "")

/-- `ComSysNetwork::Load`, with the records of `getifaddrs` and the text of `/proc/net/route`, where
they can be had; `Common/ComSysNetwork.cpp:62`. -/
def load (s : ComSysNetwork) (ifaddr : Option (List IfAddrs)) (route : Option COMStr) :
    ComSysNetwork :=
  match ifaddr with
  | none => { s with interfaces := [] }
  | some ifaddr =>
    match route with
    | none => ⟨reported ifaddr, ""⟩
    | some text =>
      let s := readRoute { interfaces := reported ifaddr } text
      ⟨s.interfaces, s.ifDefault⟩

/-! ### The routing table by rows -/

/-- A row of eleven columns. -/
structure Route where
  iface : COMStr
  destination : COMStr
  gateway : COMStr
  columns : List COMStr
  length_columns : columns.length = 8

namespace Route

/-- Its columns in order. -/
def words (r : Route) : List COMStr := r.iface :: r.destination :: r.gateway :: r.columns

/-- The header that the kernel writes. -/
def header : Route :=
  ⟨"Iface", "Destination", "Gateway",
    ["Flags", "RefCnt", "Use", "Metric", "Mask", "MTU", "Window", "IRTT"], rfl⟩

/-- A default route. -/
def isDefault (r : Route) : Bool := r.destination = "00000000"

/-- The gateway, if it is not zero. -/
def gateway? (r : Route) : Option COMStr :=
  if sAddr r.gateway = 0 then none else some (inetNtoa (sAddr r.gateway))

end Route

/-- What a row adds to the table: each row counts for the last known interface named up to it. -/
structure Table where
  cur : Option COMStr := none
  first : Option COMStr := none
  hasDefault : COMStr → Bool := fun _ ↦ false
  gateway : COMStr → Option COMStr := fun _ ↦ none

/-- One row. -/
def Table.row (initial : ComMap DevNetIf) (t : Table) (r : Route) : Table :=
  let cur := if initial.lookup r.iface ≠ none then some r.iface else t.cur
  { cur
    first := if r.isDefault then t.first.or cur else t.first
    hasDefault := fun k ↦ t.hasDefault k || (r.isDefault && cur.getD "" = k)
    gateway := fun k ↦ (t.gateway k).or (if cur = some k then r.gateway? else none) }

/-- The entry of an interface under the table. -/
def expected (initial : ComMap DevNetIf) (t : Table) (k : COMStr) : Option DevNetIf :=
  if t.hasDefault k then
    some { (initial.lookup k).getD {} with gateway := (t.gateway k).getD "", state := 1 }
  else (initial.lookup k).map fun d ↦ { d with gateway := (t.gateway k).getD "", state := 0 }

/-- The loop has read what the table holds. -/
structure Reads (initial : ComMap DevNetIf) (t : Table) (s : RouteState) : Prop where
  iface : s.iface = t.cur.getD ""
  started : s.state = 0 ↔ t.cur = none
  found : s.state = 1 ↔ t.cur ≠ none ∧ t.first = none
  ifDefault : s.ifDefault = t.first.getD ""
  lookup : ∀ k, s.interfaces.lookup k = expected initial t k
  cur_known : ∀ a, t.cur = some a → initial.lookup a ≠ none
  first_none : t.cur = none → t.first = none
  hasDefault_known : ∀ k, t.hasDefault k = true → initial.lookup k = none → k = ""
  gateway_known : ∀ k g, t.gateway k = some g → initial.lookup k ≠ none
  gateway_ne : ∀ k g, t.gateway k = some g → g ≠ "" ∧ g ≠ "0.0.0.0"

variable {initial : ComMap DevNetIf} {t : Table} {s : RouteState}

private theorem lookup_modify (m : ComMap DevNetIf) (k k' : COMStr) (f : DevNetIf → DevNetIf) :
    (modify m k f).lookup k' = if k' = k then some (f ((m.lookup k).getD {})) else m.lookup k' :=
  ComMap.lookup_assign ..

/-- The place in the line is not part of it. -/
private theorem Reads.at_idx (h : Reads initial t s) (n : Nat) :
    Reads initial t { s with idx := n } :=
  ⟨h.iface, h.started, h.found, h.ifDefault, h.lookup, h.cur_known, h.first_none,
    h.hasDefault_known, h.gateway_known, h.gateway_ne⟩

/-- The first column. -/
private theorem Reads.iface_column (h : Reads initial t s) (hidx : s.idx = 0) {ln : COMStr}
    (hln : ln ≠ "") :
    Reads initial { t with cur := if initial.lookup ln ≠ none then some ln else t.cur }
      (readWord s ln) ∧ (readWord s ln).idx = 1 := by
  have hknown : s.interfaces.lookup ln ≠ none ↔ initial.lookup ln ≠ none := by
    rw [h.lookup, expected]
    split
    · next hdef =>
      apply iff_of_true
      · simp
      · exact fun hnone ↦ hln (h.hasDefault_known ln hdef hnone)
    · simp
  by_cases hk : initial.lookup ln ≠ none
  · have hword : readWord s ln =
        { s with idx := 1, iface := ln, state := if s.state = 0 then 1 else s.state } := by
      simp only [readWord, hidx, Nat.zero_add, if_pos (hknown.mpr hk)]
    have hstate : (if s.state = 0 then 1 else s.state) ≠ 0 := by
      split
      · exact Nat.one_ne_zero
      · next hne => exact hne
    have hfound : (if s.state = 0 then 1 else s.state) = 1 ↔ t.first = none := by
      split
      · next hzero => exact iff_of_true rfl (h.first_none (h.started.mp hzero))
      · next hne => rw [h.found, and_iff_right (mt h.started.mpr hne)]
    rw [hword, if_pos hk]
    exact ⟨⟨rfl, iff_of_false hstate (Option.some_ne_none ln),
      hfound.trans (and_iff_right (Option.some_ne_none ln)).symm, h.ifDefault, h.lookup,
      fun a ha ↦ Option.some.inj ha ▸ hk, fun hnone ↦ absurd hnone (Option.some_ne_none ln),
      h.hasDefault_known, h.gateway_known, h.gateway_ne⟩, rfl⟩
  · have hword : readWord s ln = { s with idx := 1 } := by
      simp only [readWord, hidx, Nat.zero_add, if_neg (mt hknown.mp hk)]
    rw [hword, if_neg hk]
    exact ⟨h.at_idx 1, rfl⟩

/-- A default route is put into the entry of the current interface, -/
private theorem Reads.lookup_default (h : Reads initial t s) (k : COMStr) :
    (modify s.interfaces s.iface fun d ↦ { d with state := 1 }).lookup k =
      expected initial { t with
        hasDefault := fun k ↦ t.hasDefault k || t.cur.getD "" = k } k := by
  rw [lookup_modify, h.iface, h.lookup, h.lookup]
  by_cases hk : k = t.cur.getD ""
  · subst hk
    simp only [expected, decide_true, Bool.or_true, if_true]
    cases hdef : t.hasDefault (t.cur.getD "") with
    | true => rfl
    | false =>
      cases hinit : initial.lookup (t.cur.getD "") with
      | some d => rfl
      | none =>
        have hgateway : t.gateway (t.cur.getD "") = none := by
          rw [Option.eq_none_iff_forall_ne_some]
          exact fun g hg ↦ h.gateway_known _ g hg hinit
        rw [hgateway]
        rfl
  · have hne : ¬ t.cur.getD "" = k := fun heq ↦ hk heq.symm
    simp only [expected, if_neg hk, decide_eq_false hne, Bool.or_false]

/-- which is a known one or none, -/
private theorem Reads.known_default (h : Reads initial t s) {k : COMStr}
    (hdef : (t.hasDefault k || t.cur.getD "" = k) = true) (hnone : initial.lookup k = none) :
    k = "" := by
  rcases Bool.or_eq_true_iff.mp hdef with hdef | hcur
  · exact h.hasDefault_known k hdef hnone
  · rw [decide_eq_true_eq] at hcur
    cases ha : t.cur with
    | none => rw [← hcur, ha, Option.getD_none]
    | some a =>
      rw [ha, Option.getD_some] at hcur
      exact absurd (hcur ▸ hnone) (h.cur_known a ha)

/-- and is the first default route unless there was one, or no interface yet. -/
private theorem Reads.ifDefault_default (h : Reads initial t s) (h1 : s.state ≠ 1) :
    s.ifDefault = (t.first.or t.cur).getD "" := by
  rw [h.ifDefault]
  cases hf : t.first with
  | some a => rfl
  | none =>
    have hcur : t.cur = none := by
      rw [Ne, h.found, hf] at h1
      exact not_not.mp fun hne ↦ h1 ⟨hne, rfl⟩
    rw [hcur]
    rfl

/-- The second column, of a default route. -/
private theorem Reads.destination_default (h : Reads initial t s) (hidx : s.idx = 1) :
    Reads initial { t with
        first := t.first.or t.cur
        hasDefault := fun k ↦ t.hasDefault k || t.cur.getD "" = k } (readWord s "00000000") ∧
      (readWord s "00000000").idx = 2 := by
  have hnone (hcur : t.cur = none) : t.first.or t.cur = none := by
    rw [h.first_none hcur, hcur]
    rfl
  have hfirst (hcur : t.cur ≠ none) : t.first.or t.cur ≠ none := by
    rw [Ne, Option.or_eq_none_iff]
    exact fun hboth ↦ hcur hboth.2
  have hstate (n : Nat) (ifDefault : COMStr) (hn : n = 0 ↔ t.cur = none) (h1 : n ≠ 1)
      (hdefault : ifDefault = (t.first.or t.cur).getD "") :
      Reads initial { t with
          first := t.first.or t.cur
          hasDefault := fun k ↦ t.hasDefault k || t.cur.getD "" = k }
        { s with
          idx := 2, state := n, ifDefault := ifDefault,
          interfaces := modify s.interfaces s.iface fun d ↦ { d with state := 1 } } :=
    ⟨h.iface, hn, iff_of_false h1 fun hboth ↦ hfirst hboth.1 hboth.2, hdefault, h.lookup_default,
      h.cur_known, hnone, fun _ ↦ h.known_default, h.gateway_known, h.gateway_ne⟩
  simp only [readWord, hidx, Nat.reduceAdd, if_true]
  by_cases h1 : s.state = 1
  · have hcur := h.found.mp h1
    rw [if_pos h1]
    refine ⟨hstate 2 s.iface (iff_of_false (by decide) hcur.1) (by decide) ?_, rfl⟩
    rw [h.iface, hcur.2]
    rfl
  · have hdefault := h.ifDefault_default h1
    rw [if_neg h1]
    by_cases h2 : s.state = 2
    · have hcur : t.cur ≠ none := by
        rw [Ne, ← h.started, h2]
        decide
      rw [if_pos h2]
      exact ⟨hstate 3 s.ifDefault (iff_of_false (by decide) hcur) (by decide) hdefault, rfl⟩
    · rw [if_neg h2]
      exact ⟨hstate s.state s.ifDefault h.started h1 hdefault, rfl⟩

/-- The second column, of another route. -/
private theorem Reads.destination_other (h : Reads initial t s) (hidx : s.idx = 1) {ln : COMStr}
    (hln : ln ≠ "00000000") : Reads initial t (readWord s ln) ∧ (readWord s ln).idx = 2 := by
  have hword : readWord s ln = { s with idx := 2 } := by
    simp only [readWord, hidx, Nat.reduceAdd, if_neg hln]
  rw [hword]
  exact ⟨h.at_idx 2, rfl⟩

/-! ### Addresses -/

private theorem toDigits_eq_zero {n : Nat} (h : Nat.toDigits 10 n = ['0']) : n = 0 := by
  rw [← Nat.ofDigitChars_ten_toDigits (n := n), h]
  rfl

/-- A number in front of a dot is the text up to the dot. -/
private theorem takeWhile_toDigits (n : Nat) (rest : List Char) :
    (Nat.toDigits 10 n ++ '.' :: rest).takeWhile (· ≠ '.') = Nat.toDigits 10 n := by
  have hdigits : ∀ c ∈ Nat.toDigits 10 n, decide (c ≠ '.') = true := by
    intro c hc
    rw [decide_eq_true_eq]
    rintro rfl
    have hdigit : Char.isDigit '.' = true :=
      Nat.isDigit_of_mem_toDigits (by decide) (Nat.le_refl 10) hc
    exact absurd hdigit (by decide)
  rw [List.takeWhile_append_of_pos hdigits, List.takeWhile_cons_of_neg (by decide),
    List.append_nil]

/-- The first number of a dotted text and the rest of it. -/
private theorem dotted_inj {m n : Nat} {cs ds : List Char}
    (h : Nat.toDigits 10 m ++ '.' :: cs = Nat.toDigits 10 n ++ '.' :: ds) : m = n ∧ cs = ds := by
  have hdigits : Nat.toDigits 10 m = Nat.toDigits 10 n := by
    rw [← takeWhile_toDigits m cs, h, takeWhile_toDigits]
  rw [hdigits] at h
  refine ⟨?_, List.cons.inj (List.append_cancel_left h) |>.2⟩
  rw [← Nat.ofDigitChars_ten_toDigits (n := m), hdigits, Nat.ofDigitChars_ten_toDigits]

private theorem toList_inetNtoa (addr : Nat) :
    (inetNtoa addr).toList = Nat.toDigits 10 (addr % 256) ++ '.' ::
      (Nat.toDigits 10 (addr / 256 % 256) ++ '.' ::
        (Nat.toDigits 10 (addr / 65536 % 256) ++ '.' ::
          Nat.toDigits 10 (addr / 16777216 % 256))) := by
  have hrepr (n : Nat) : (toString n).toList = Nat.toDigits 10 n := Nat.toList_repr
  have hdot : ".".toList = ['.'] := rfl
  simp only [inetNtoa, String.toList_append, hrepr, hdot, List.append_assoc, List.cons_append,
    List.nil_append]

/-- Only the zero address is printed as such. -/
theorem inetNtoa_eq_zero_iff {addr : Nat} (h : addr < 2 ^ 32) :
    inetNtoa addr = "0.0.0.0" ↔ addr = 0 := by
  constructor
  · intro heq
    have hlist := congrArg String.toList heq
    have hzero : "0.0.0.0" = inetNtoa 0 := rfl
    rw [hzero, toList_inetNtoa, toList_inetNtoa] at hlist
    obtain ⟨h0, hlist⟩ := dotted_inj hlist
    obtain ⟨h1, hlist⟩ := dotted_inj hlist
    obtain ⟨h2, hlist⟩ := dotted_inj hlist
    have h3 := toDigits_eq_zero hlist
    omega
  · rintro rfl
    rfl

/-- An address is printed as some text. -/
private theorem inetNtoa_ne_empty (addr : Nat) : inetNtoa addr ≠ "" := by
  intro heq
  have hlist := congrArg String.toList heq
  rw [toList_inetNtoa] at hlist
  exact absurd hlist (by simp)

/-- The entry of a reported interface under the table. -/
private theorem expected_of_known {k : COMStr} {d : DevNetIf} (t : Table)
    (hd : initial.lookup k = some d) :
    expected initial t k = some { d with
      gateway := (t.gateway k).getD "", state := if t.hasDefault k then 1 else 0 } := by
  rw [expected, hd]
  cases t.hasDefault k with
  | true => rfl
  | false => rfl

/-- A row's gateway is printed as an address other than zero. -/
private theorem gateway?_ne {r : Route} {g : COMStr} (h : r.gateway? = some g) :
    g ≠ "" ∧ g ≠ "0.0.0.0" := by
  rw [Route.gateway?] at h
  split at h
  · cases h
  · next hne =>
    cases h
    have hlt : sAddr r.gateway < 2 ^ 32 := Nat.mod_lt _ (by decide)
    exact ⟨inetNtoa_ne_empty _, mt (inetNtoa_eq_zero_iff hlt).mp hne⟩

/-- The loop sets a gateway that is not set yet, when the one that it reads is not zero. -/
private theorem readWord_gateway {d : DevNetIf} (hidx : s.idx = 2) (hstate : s.state ≠ 0)
    (hd : s.interfaces.lookup s.iface = some d) (r : Route) :
    ∃ m, readWord s r.gateway = { s with idx := 3, interfaces := m } ∧
      ∀ k, m.lookup k =
        if k = s.iface ∧ (d.gateway = "" ∨ d.gateway = "0.0.0.0") then
          some { d with gateway := r.gateway?.getD d.gateway }
        else s.interfaces.lookup k := by
  have htouch (k : COMStr) :
      (modify s.interfaces s.iface id).lookup k = s.interfaces.lookup k := by
    rw [lookup_modify, hd]
    split
    · next hk => rw [hk, hd]; rfl
    · rfl
  have hlt : sAddr r.gateway < 2 ^ 32 := Nat.mod_lt _ (by decide)
  simp only [readWord, hidx, Nat.reduceAdd, if_pos hstate, htouch, hd, Option.getD_some]
  by_cases hunset : d.gateway = "" ∨ d.gateway = "0.0.0.0"
  · by_cases hzero : sAddr r.gateway = 0
    · have hnone : r.gateway? = none := if_pos hzero
      rw [if_pos hunset, if_neg (not_not.mpr ((inetNtoa_eq_zero_iff hlt).mpr hzero))]
      refine ⟨_, rfl, fun k ↦ ?_⟩
      rw [htouch, hnone]
      split
      · next hk => rw [hk.1, hd]; rfl
      · rfl
    · have hsome : r.gateway? = some (inetNtoa (sAddr r.gateway)) := if_neg hzero
      rw [if_pos hunset, if_pos (mt (inetNtoa_eq_zero_iff hlt).mp hzero)]
      refine ⟨_, rfl, fun k ↦ ?_⟩
      rw [lookup_modify, htouch, htouch, hd, hsome]
      simp only [hunset, and_true]
      rfl
  · rw [if_neg hunset]
    refine ⟨_, rfl, fun k ↦ ?_⟩
    rw [htouch, if_neg fun hboth ↦ hunset hboth.2]

/-- The third column. -/
private theorem Reads.gateway_column (h : Reads initial t s) (hidx : s.idx = 2) (r : Route) :
    Reads initial { t with
        gateway := fun k ↦ (t.gateway k).or (if t.cur = some k then r.gateway? else none) }
        (readWord s r.gateway) ∧
      (readWord s r.gateway).idx = 3 := by
  by_cases hstate : s.state = 0
  · have hcur := h.started.mp hstate
    have hword : readWord s r.gateway = { s with idx := 3 } := by
      simp only [readWord, hidx, Nat.reduceAdd, hstate, ne_eq, not_true_eq_false, if_false]
    have hgateway : (fun k ↦ (t.gateway k).or (if t.cur = some k then r.gateway? else none)) =
        t.gateway := by
      funext k
      rw [hcur, if_neg (Option.some_ne_none k).symm, Option.or_none]
    rw [hword, hgateway]
    exact ⟨h.at_idx 3, rfl⟩
  · obtain ⟨a, hcur⟩ := Option.ne_none_iff_exists'.mp (mt h.started.mpr hstate)
    obtain ⟨d, hd⟩ := Option.ne_none_iff_exists'.mp (h.cur_known a hcur)
    have hiface : s.iface = a := by rw [h.iface, hcur, Option.getD_some]
    have hentry := h.lookup a
    rw [expected_of_known t hd, ← hiface] at hentry
    obtain ⟨m, hword, hm⟩ := readWord_gateway hidx hstate hentry r
    have hlookup (k : COMStr) : m.lookup k = expected initial { t with
        gateway := fun k ↦ (t.gateway k).or (if t.cur = some k then r.gateway? else none) } k := by
      rw [hm k]
      by_cases hk : k = a
      · subst hk
        rw [expected_of_known _ hd, hiface]
        simp only [hcur, true_and, if_true]
        cases hg : t.gateway k with
        | none => rfl
        | some g =>
          have hset := h.gateway_ne k g hg
          rw [Option.getD_some, if_neg (not_or.mpr hset), ← hiface, hentry, hiface, hg]
          rfl
      · have hne : t.cur ≠ some k := by
          rw [hcur]
          exact fun heq ↦ hk (Option.some.inj heq).symm
        rw [if_neg fun hboth ↦ hk (hboth.1.trans hiface), h.lookup k]
        simp only [expected, if_neg hne, Option.or_none]
    have hor {k g : COMStr}
        (hg : (t.gateway k).or (if t.cur = some k then r.gateway? else none) = some g) :
        t.gateway k = some g ∨ t.cur = some k ∧ r.gateway? = some g := by
      rcases Option.or_eq_some_iff.mp hg with hg | ⟨-, hg⟩
      · exact .inl hg
      · split at hg
        · next hk => exact .inr ⟨hk, hg⟩
        · cases hg
    rw [hword]
    refine ⟨⟨h.iface, h.started, h.found, h.ifDefault, hlookup, h.cur_known, h.first_none,
      h.hasDefault_known, ?_, ?_⟩, rfl⟩
    · intro k g hg
      rcases hor hg with hg | ⟨hk, -⟩
      · exact h.gateway_known k g hg
      · exact h.cur_known k hk
    · intro k g hg
      rcases hor hg with hg | ⟨-, hg⟩
      · exact h.gateway_ne k g hg
      · exact gateway?_ne hg

/-! ### Whole rows -/

/-- The other columns. -/
private theorem readWord_columns (columns : List COMStr) {s : RouteState} (h3 : 3 ≤ s.idx)
    (hidx : s.idx + columns.length = 11) (hne : columns ≠ []) :
    columns.foldl readWord s = { s with idx := 0 } := by
  induction columns generalizing s with
  | nil => exact absurd rfl hne
  | cons ln columns ih =>
    rw [List.length_cons] at hidx
    rw [List.foldl_cons]
    by_cases hlast : columns = []
    · have h10 : s.idx = 10 := by
        rw [hlast, List.length_nil] at hidx
        omega
      rw [hlast, List.foldl_nil]
      simp only [readWord, h10, Nat.reduceAdd]
    · have hword : readWord s ln = { s with idx := s.idx + 1 } := by
        have hpos : 0 < columns.length := List.length_pos_iff.mpr hlast
        simp only [readWord]
        split
        · omega
        · omega
        · omega
        · omega
        · rfl
      rw [hword, ih (by show 3 ≤ s.idx + 1; omega) (by show s.idx + 1 + columns.length = 11; omega)
        hlast]

/-- The words of a row are read as the table has it. -/
private theorem Reads.row (h : Reads initial t s) (hidx : s.idx = 0) {r : Route}
    (hr : r.iface ≠ "") :
    Reads initial (t.row initial r) (r.words.foldl readWord s) ∧
      (r.words.foldl readWord s).idx = 0 := by
  obtain ⟨h1, hidx1⟩ := h.iface_column hidx hr
  have h2 : Reads initial { t.row initial r with gateway := t.gateway }
        (readWord (readWord s r.iface) r.destination) ∧
      (readWord (readWord s r.iface) r.destination).idx = 2 := by
    by_cases hdef : r.destination = "00000000"
    · have hany : r.isDefault = true := decide_eq_true hdef
      simp only [Table.row, hany, if_true, Bool.true_and, hdef]
      exact h1.destination_default hidx1
    · have hany : r.isDefault = false := decide_eq_false hdef
      simp only [Table.row, hany, Bool.false_eq_true, if_false, Bool.false_and, Bool.or_false]
      exact h1.destination_other hidx1 hdef
  obtain ⟨h3, hidx3⟩ := h2.1.gateway_column h2.2 r
  have hcolumns := readWord_columns r.columns (Nat.le_of_eq hidx3.symm)
    (by rw [hidx3, r.length_columns]) (fun hnil ↦ absurd r.length_columns (by rw [hnil]; decide))
  rw [Route.words, List.foldl_cons, List.foldl_cons, List.foldl_cons, hcolumns]
  exact ⟨⟨h3.iface, h3.started, h3.found, h3.ifDefault, h3.lookup, h3.cur_known, h3.first_none,
    h3.hasDefault_known, h3.gateway_known, h3.gateway_ne⟩, rfl⟩

/-- So are all rows. -/
private theorem Reads.rows {rows : List Route} (h : Reads initial t s) (hidx : s.idx = 0)
    (hrows : ∀ r ∈ rows, r.iface ≠ "") :
    Reads initial (rows.foldl (Table.row initial) t) ((rows.flatMap Route.words).foldl readWord s) ∧
      ((rows.flatMap Route.words).foldl readWord s).idx = 0 := by
  induction rows generalizing t s with
  | nil => exact ⟨h, hidx⟩
  | cons r rows ih =>
    obtain ⟨hr, hrows⟩ := List.forall_mem_cons.mp hrows
    obtain ⟨hrow, hidx'⟩ := h.row hidx hr
    rw [List.flatMap_cons, List.foldl_append]
    exact ih hrow hidx' hrows

/-- No interface has a gateway or is the default. -/
def Fresh (m : ComMap DevNetIf) : Prop :=
  ∀ k d, m.lookup k = some d → d.gateway = "" ∧ d.state = 0

private theorem Fresh.assign {m : ComMap DevNetIf} (hm : Fresh m) (k : COMStr) {d : DevNetIf}
    (hd : d.gateway = "" ∧ d.state = 0) : Fresh (m.assign k d) := by
  intro k' d' hlookup
  rw [ComMap.lookup_assign] at hlookup
  split at hlookup
  · exact Option.some.inj hlookup ▸ hd
  · exact hm k' d' hlookup

/-- Other fields may change. -/
private theorem Fresh.modify {m : ComMap DevNetIf} (hm : Fresh m) (k : COMStr)
    {f : DevNetIf → DevNetIf} (hf : ∀ d, (f d).gateway = d.gateway ∧ (f d).state = d.state) :
    Fresh (modify m k f) := by
  apply hm.assign
  rw [(hf _).1, (hf _).2]
  cases hd : m.lookup k with
  | none => exact ⟨rfl, rfl⟩
  | some d => exact hm k d hd

private theorem Fresh.addIfAddrs {m : ComMap DevNetIf} (hm : Fresh m) (ifa : IfAddrs) :
    Fresh (addIfAddrs m ifa) := by
  rw [ComSysNetwork.addIfAddrs]
  cases ifa.ifa_addr with
  | none => exact hm
  | some addr =>
    have hname : Fresh (if m.lookup ifa.ifa_name = none then
        m.assign ifa.ifa_name { name := ifa.ifa_name } else m) := by
      split
      · exact hm.assign _ ⟨rfl, rfl⟩
      · exact hm
    have hnetmask : Fresh (match ifa.ifa_netmask with
        | some host => ComSysNetwork.modify (if m.lookup ifa.ifa_name = none then
            m.assign ifa.ifa_name { name := ifa.ifa_name } else m) ifa.ifa_name
              fun d ↦ { d with subnet := host }
        | none => if m.lookup ifa.ifa_name = none then
            m.assign ifa.ifa_name { name := ifa.ifa_name } else m) := by
      split
      · exact hname.modify _ fun _ ↦ ⟨rfl, rfl⟩
      · exact hname
    simp only
    split
    · exact hnetmask.modify _ fun _ ↦ ⟨rfl, rfl⟩
    · exact hnetmask.modify _ fun _ ↦ ⟨rfl, rfl⟩
    · exact hnetmask

/-- So it is after `getifaddrs`. -/
private theorem reported_fresh (ifaddr : List IfAddrs) : Fresh (reported ifaddr) := by
  have hfold (m : ComMap DevNetIf) (hm : Fresh m) : Fresh (ifaddr.foldl addIfAddrs m) := by
    induction ifaddr generalizing m with
    | nil => exact hm
    | cons ifa rest ih => exact ih _ (hm.addIfAddrs ifa)
  apply hfold
  intro k d hd
  cases hd

/-- The loop starts with an empty table. -/
private theorem reads_start (ifaddr : List IfAddrs) :
    Reads (reported ifaddr) {} { interfaces := reported ifaddr } := by
  refine ⟨rfl, ?_, ?_, rfl, ?_, ?_, ?_, ?_, ?_, ?_⟩
  · exact iff_of_true rfl rfl
  · exact iff_of_false Nat.zero_ne_one fun hboth ↦ hboth.1 rfl
  · intro k
    cases hd : (reported ifaddr).lookup k with
    | none => simp [expected, hd]
    | some d =>
      obtain ⟨hgateway, hstate⟩ := reported_fresh ifaddr k d hd
      rw [expected_of_known _ hd]
      cases d
      cases hgateway
      cases hstate
      rfl
  · exact fun a ha ↦ absurd ha (Option.some_ne_none a).symm
  · exact fun _ ↦ rfl
  · exact fun k hk ↦ absurd hk Bool.false_ne_true
  · exact fun k g hg ↦ absurd hg (Option.some_ne_none g).symm
  · exact fun k g hg ↦ absurd hg (Option.some_ne_none g).symm

/-! ### Whose row it is -/

/-- Each row with the last known interface named up to it. -/
def owned (initial : ComMap DevNetIf) : Option COMStr → List Route → List (Option COMStr × Route)
  | _, [] => []
  | cur, r :: rows =>
    let cur := if initial.lookup r.iface ≠ none then some r.iface else cur
    (cur, r) :: owned initial cur rows

/-- The interface that a default route counts for. -/
def default? (x : Option COMStr × Route) : Option COMStr := if x.2.isDefault then x.1 else none

private theorem default?_eq_some {x : Option COMStr × Route} {a : COMStr} :
    default? x = some a ↔ x.2.isDefault = true ∧ x.1 = some a := by
  rw [default?]
  split
  · next h => exact (and_iff_right h).symm
  · next h => exact iff_of_false (Option.some_ne_none a).symm fun hboth ↦ h hboth.1

/-- The gateway that counts for an interface. -/
def gatewayFor (a : COMStr) (x : Option COMStr × Route) : Option COMStr :=
  if x.1 = some a then x.2.gateway? else none

private theorem gatewayFor_eq_some {a g : COMStr} {x : Option COMStr × Route} :
    gatewayFor a x = some g ↔ x.1 = some a ∧ x.2.gateway? = some g := by
  rw [gatewayFor]
  split
  · next h => exact (and_iff_right h).symm
  · next h => exact iff_of_false (Option.some_ne_none g).symm fun hboth ↦ h hboth.1

private theorem findSome?_cons_or {α β : Type} (f : α → Option β) (x : α) (l : List α) :
    (x :: l).findSome? f = (f x).or (l.findSome? f) := by
  rw [List.findSome?_cons]
  cases f x with
  | none => rfl
  | some y => rfl

/-- The table of rows. -/
private theorem foldl_row (initial : ComMap DevNetIf) (rows : List Route) (t : Table) :
    (rows.foldl (Table.row initial) t).first =
        t.first.or ((owned initial t.cur rows).findSome? default?) ∧
      (∀ k, (rows.foldl (Table.row initial) t).gateway k =
        (t.gateway k).or ((owned initial t.cur rows).findSome? (gatewayFor k))) ∧
      ∀ k, (rows.foldl (Table.row initial) t).hasDefault k =
        (t.hasDefault k || (owned initial t.cur rows).any
          fun x ↦ x.2.isDefault && x.1.getD "" = k) := by
  induction rows generalizing t with
  | nil => simp [owned]
  | cons r rows ih =>
    obtain ⟨hfirst, hgateway, hdefault⟩ := ih (t.row initial r)
    refine ⟨?_, fun k ↦ ?_, fun k ↦ ?_⟩
    · rw [List.foldl_cons, hfirst, owned, findSome?_cons_or, ← Option.or_assoc, default?, Table.row]
      cases r.isDefault with
      | true => rfl
      | false => simp only [Bool.false_eq_true, if_false, Option.or_none]
    · rw [List.foldl_cons, hgateway, owned, findSome?_cons_or, ← Option.or_assoc]
      rfl
    · rw [List.foldl_cons, hdefault, owned, List.any_cons, ← Bool.or_assoc]
      rfl

/-- A row of a known interface is its own, and only known interfaces have rows. -/
private theorem mem_owned {rows : List Route} {cur : Option COMStr}
    (hrows : ∀ r ∈ rows, r.iface ≠ "")
    (hcur : ∀ a, cur = some a → initial.lookup a ≠ none ∧ a ≠ "") {x : Option COMStr × Route}
    (hx : x ∈ owned initial cur rows) :
    (initial.lookup x.2.iface ≠ none → x.1 = some x.2.iface) ∧
      ∀ a, x.1 = some a → initial.lookup a ≠ none ∧ a ≠ "" := by
  induction rows generalizing cur with
  | nil => exact absurd hx List.not_mem_nil
  | cons r rows ih =>
    obtain ⟨hr, hrows⟩ := List.forall_mem_cons.mp hrows
    have hcur' : ∀ a, (if initial.lookup r.iface ≠ none then some r.iface else cur) = some a →
        initial.lookup a ≠ none ∧ a ≠ "" := by
      intro a ha
      split at ha
      · next hk => exact Option.some.inj ha ▸ ⟨hk, hr⟩
      · exact hcur a ha
    rcases List.mem_cons.mp hx with rfl | hx
    · exact ⟨fun hk ↦ if_pos hk, hcur'⟩
    · exact ih hrows hcur' hx

private theorem map_owned (initial : ComMap DevNetIf) (cur : Option COMStr) (rows : List Route) :
    (owned initial cur rows).map (·.2) = rows := by
  induction rows generalizing cur with
  | nil => rfl
  | cons r rows ih => rw [owned, List.map_cons, ih]

/-- Two searches of a list, of which one finds at least what the other finds, have the same result
exactly when what the first alone finds first is what the other finds later. -/
private theorem findSome?_eq_iff {α β : Type} {f g : α → Option β} {l : List α}
    (h : ∀ x ∈ l, ∀ y, g x = some y → f x = some y) :
    l.findSome? f = l.findSome? g ↔
      ∀ before x after, l = before ++ x :: after → g x = none → ∀ y, f x = some y →
        (∀ z ∈ before, f z = none) → l.findSome? g = some y := by
  constructor
  · intro heq before x after hl _ y hy hbefore
    rw [← heq, hl, List.findSome?_append, List.findSome?_eq_none_iff.mpr hbefore, Option.none_or,
      findSome?_cons_or, hy, Option.some_or]
  · intro hall
    cases hf : l.findSome? f with
    | none =>
      have hnone := List.findSome?_eq_none_iff.mp hf
      symm
      rw [List.findSome?_eq_none_iff]
      intro x hx
      rw [Option.eq_none_iff_forall_ne_some]
      exact fun y hy ↦ Option.some_ne_none y ((h x hx y hy).symm.trans (hnone x hx))
    | some y =>
      obtain ⟨before, x, after, hl, hy, hbefore⟩ := List.findSome?_eq_some_iff.mp hf
      cases hg : g x with
      | none => exact (hall before x after hl hg y hy hbefore).symm
      | some z =>
        have hx : x ∈ l := hl ▸ List.mem_append_right _ List.mem_cons_self
        have hyz : y = z := Option.some.inj (hy.symm.trans (h x hx z hg))
        have hnone : ∀ w ∈ before, g w = none := by
          intro w hw
          rw [Option.eq_none_iff_forall_ne_some]
          intro v hv
          have hwl : w ∈ l := hl ▸ List.mem_append_left _ hw
          exact Option.some_ne_none v ((h w hwl v hv).symm.trans (hbefore w hw))
        rw [hl, List.findSome?_append, List.findSome?_eq_none_iff.mpr hnone, Option.none_or,
          findSome?_cons_or, hg, hyz, Option.some_or]

/-! ### What is loaded -/

/-- The interface of the first default route among the rows of known interfaces. -/
def firstDefault (initial : ComMap DevNetIf) (rows : List Route) : Option COMStr :=
  rows.findSome? fun r ↦
    if r.isDefault ∧ initial.lookup r.iface ≠ none then some r.iface else none

/-- The first gateway other than zero among an interface's own rows. -/
def ownGateway (k : COMStr) (rows : List Route) : Option COMStr :=
  rows.findSome? fun r ↦ if r.iface = k then r.gateway? else none

/-- One of the interface's own rows is a default route. -/
def ownDefault (k : COMStr) (rows : List Route) : Bool :=
  rows.any fun r ↦ r.isDefault && r.iface = k

/-- Each interface has the gateway and the state of its own rows, and there are no others. -/
structure Right (initial : ComMap DevNetIf) (rows : List Route) (s : ComSysNetwork) : Prop where
  ifDefault : s.ifDefault = (firstDefault initial rows).getD ""
  lookup : ∀ k, s.interfaces.lookup k = (initial.lookup k).map fun d ↦
    { d with
      gateway := (ownGateway k rows).getD "", state := if ownDefault k rows then 1 else 0 }

/-- Counting a row of an unknown interface for the last known one changes nothing. Without a known one
it is not a default route; as a default route it adds to one of the interface's own, and is not the
first to count unless the interface has the first default route anyway; as a gateway it is not the
first to count for the interface unless this has the same first gateway anyway. -/
structure Harmless (initial : ComMap DevNetIf) (rows : List Route)
    (before : List (Option COMStr × Route)) (x : Option COMStr × Route) : Prop where
  orphan : x.1 = none → x.2.isDefault = false
  default : ∀ a, x.1 = some a → x.2.isDefault = true → ownDefault a rows = true
  first : ∀ a, default? x = some a → (∀ z ∈ before, default? z = none) →
    firstDefault initial rows = some a
  gateway : ∀ a g, gatewayFor a x = some g → (∀ z ∈ before, gatewayFor a z = none) →
    ownGateway a rows = some g

/-- The extra word at the end changes nothing that is kept. -/
private theorem readWord_first (hidx : s.idx = 0) (ln : COMStr) :
    (readWord s ln).interfaces = s.interfaces ∧ (readWord s ln).ifDefault = s.ifDefault := by
  simp only [readWord, hidx, Nat.zero_add]
  split
  · exact ⟨rfl, rfl⟩
  · exact ⟨rfl, rfl⟩

private theorem ne_empty_of_mem_wordsOf {text ln : COMStr} (h : ln ∈ wordsOf text) : ln ≠ "" := by
  obtain ⟨cs, hcs, rfl⟩ := List.mem_map.mp h
  rw [Ne, ← String.toList_eq_nil_iff, String.toList_ofList]
  exact (isWord_of_mem_words hcs).1

private theorem iface_ne_empty {text : COMStr} {rows : List Route}
    (htext : wordsOf text = rows.flatMap Route.words) : ∀ r ∈ rows, r.iface ≠ "" := by
  intro r hr
  have hmem : r.iface ∈ wordsOf text := by
    rw [htext]
    exact List.mem_flatMap.mpr ⟨r, hr, List.mem_cons_self⟩
  exact ne_empty_of_mem_wordsOf hmem

/-- What is loaded is what the table holds. -/
private theorem load_eq (s : ComSysNetwork) (ifaddr : List IfAddrs) {text : COMStr}
    {rows : List Route} (htext : wordsOf text = rows.flatMap Route.words) :
    let t := rows.foldl (Table.row (reported ifaddr)) {}
    (load s (some ifaddr) (some text)).ifDefault = t.first.getD "" ∧
      ∀ k, (load s (some ifaddr) (some text)).interfaces.lookup k =
        expected (reported ifaddr) t k := by
  intro t
  obtain ⟨hreads, hidx⟩ := (reads_start ifaddr).rows rfl (iface_ne_empty htext)
  rw [← htext] at hreads hidx
  have hload : (load s (some ifaddr) (some text)).ifDefault = t.first.getD "" ∧
      (load s (some ifaddr) (some text)).interfaces =
        ((wordsOf text).foldl readWord { interfaces := reported ifaddr }).interfaces := by
    simp only [load, readRoute]
    split
    · exact ⟨hreads.ifDefault, rfl⟩
    · have hextra := readWord_first hidx ((wordsOf text).getLast?.getD "")
      exact ⟨hextra.2.trans hreads.ifDefault, hextra.1⟩
  refine ⟨hload.1, fun k ↦ ?_⟩
  rw [hload.2]
  exact hreads.lookup k

/-! ### The rows of known interfaces alone -/

variable {rows : List Route}

private theorem mem_rows_of_default {x : Option COMStr × Route}
    (hx : x ∈ owned initial none (Route.header :: rows)) (hdef : x.2.isDefault = true) :
    x.2 ∈ rows := by
  have hmem : x.2 ∈ Route.header :: rows := by
    rw [← map_owned initial none (Route.header :: rows)]
    exact List.mem_map_of_mem hx
  rcases List.mem_cons.mp hmem with heq | hmem
  · rw [heq] at hdef
    exact absurd hdef (by decide)
  · exact hmem

private theorem exists_owned (initial : ComMap DevNetIf) {r : Route} (hr : r ∈ rows) :
    ∃ x ∈ owned initial none (Route.header :: rows), x.2 = r := by
  apply List.mem_map.mp
  rw [map_owned]
  exact List.mem_cons_of_mem _ hr

/-- The header is not a route. -/
private theorem findSome?_owned {f : Route → Option COMStr} (hf : f Route.header = none) :
    (owned initial none (Route.header :: rows)).findSome? (fun x ↦ f x.2) = rows.findSome? f := by
  have hmap := List.findSome?_map (f := (·.2)) (p := f)
    (l := owned initial none (Route.header :: rows))
  rw [map_owned, findSome?_cons_or, hf, Option.none_or] at hmap
  exact hmap.symm

private theorem ownGateway_ne {k g : COMStr} (h : ownGateway k rows = some g) : g ≠ "" := by
  obtain ⟨r, -, hr⟩ := List.exists_of_findSome?_eq_some h
  split at hr
  · exact (gateway?_ne hr).1
  · cases hr

/-- Texts that are not empty are the same when they are with a default. -/
private theorem getD_inj {o o' : Option COMStr} (h : ∀ g, o = some g → g ≠ "")
    (h' : ∀ g, o' = some g → g ≠ "") : o.getD "" = o'.getD "" ↔ o = o' := by
  cases o with
  | none =>
    cases o' with
    | none => exact iff_of_true rfl rfl
    | some g' => exact iff_of_false (h' g' rfl).symm (Option.some_ne_none g').symm
  | some g =>
    cases o' with
    | none => exact iff_of_false (h g rfl) (Option.some_ne_none g)
    | some g' => rw [Option.getD_some, Option.getD_some, Option.some.injEq]

/-- The entries are right when they have the gateway and the state of the interface's own rows. -/
private theorem entries_iff (initial : ComMap DevNetIf) (rows : List Route) {t : Table}
    (hgateway : ∀ k g, t.gateway k = some g → g ≠ "") :
    (∀ k, expected initial t k = (initial.lookup k).map fun d ↦
      { d with
        gateway := (ownGateway k rows).getD "", state := if ownDefault k rows then 1 else 0 }) ↔
      (∀ k, t.hasDefault k = (ownDefault k rows && (initial.lookup k).isSome)) ∧
        ∀ k, initial.lookup k ≠ none → t.gateway k = ownGateway k rows := by
  rw [← forall_and]
  apply forall_congr'
  intro k
  cases hd : initial.lookup k with
  | none =>
    rw [expected, hd]
    cases t.hasDefault k with
    | true => simp
    | false => simp
  | some d =>
    have hown (g : COMStr) (hg : ownGateway k rows = some g) : g ≠ "" := ownGateway_ne hg
    have hgw := getD_inj (hgateway k) hown
    rw [expected_of_known t hd, Option.map_some, Option.some.injEq, DevNetIf.mk.injEq, hgw]
    cases t.hasDefault k with
    | true => cases ownDefault k rows <;> simp
    | false => cases ownDefault k rows <;> simp

variable (hrows : ∀ r ∈ Route.header :: rows, r.iface ≠ "")
include hrows

private theorem mem_owned_header {x : Option COMStr × Route}
    (hx : x ∈ owned initial none (Route.header :: rows)) :
    (initial.lookup x.2.iface ≠ none → x.1 = some x.2.iface) ∧
      ∀ a, x.1 = some a → initial.lookup a ≠ none ∧ a ≠ "" :=
  mem_owned hrows (fun a ha ↦ absurd ha (Option.some_ne_none a).symm) hx

/-- The first default route. -/
private theorem first_iff :
    (owned initial none (Route.header :: rows)).findSome? default? = firstDefault initial rows ↔
      ∀ before x after, owned initial none (Route.header :: rows) = before ++ x :: after →
        initial.lookup x.2.iface = none → ∀ a, default? x = some a →
          (∀ z ∈ before, default? z = none) → firstDefault initial rows = some a := by
  let f (r : Route) := if r.isDefault ∧ initial.lookup r.iface ≠ none then some r.iface else none
  have hown : (owned initial none (Route.header :: rows)).findSome? (fun x ↦ f x.2) =
      firstDefault initial rows := by
    apply findSome?_owned
    exact if_neg fun hboth ↦ absurd hboth.1 (by decide)
  have hnone {x : Option COMStr × Route} {a : COMStr} (ha : default? x = some a) :
      f x.2 = none ↔ initial.lookup x.2.iface = none := by
    have hdef := (default?_eq_some.mp ha).1
    simp only [f, hdef, true_and]
    split
    · next hk => exact iff_of_false (Option.some_ne_none _) hk
    · next hk => exact iff_of_true rfl (not_not.mp hk)
  rw [← hown, findSome?_eq_iff]
  · constructor
    · exact fun h before x after hl hx a ha ↦ h before x after hl ((hnone ha).mpr hx) a ha
    · exact fun h before x after hl hx a ha ↦ h before x after hl ((hnone ha).mp hx) a ha
  · intro x hx a ha
    simp only [f] at ha
    split at ha
    · next hboth =>
      rw [default?_eq_some, ← ha]
      exact ⟨hboth.1, (mem_owned_header hrows hx).1 hboth.2⟩
    · cases ha

/-- The first gateway of an interface. -/
private theorem gateway_iff {k : COMStr} (hk : initial.lookup k ≠ none) :
    (owned initial none (Route.header :: rows)).findSome? (gatewayFor k) = ownGateway k rows ↔
      ∀ before x after, owned initial none (Route.header :: rows) = before ++ x :: after →
        initial.lookup x.2.iface = none → ∀ g, gatewayFor k x = some g →
          (∀ z ∈ before, gatewayFor k z = none) → ownGateway k rows = some g := by
  let f (r : Route) := if r.iface = k then r.gateway? else none
  have hown : (owned initial none (Route.header :: rows)).findSome? (fun x ↦ f x.2) =
      ownGateway k rows := by
    apply findSome?_owned
    have hheader : Route.header.gateway? = none := by decide
    simp only [f, hheader, ite_self]
  have hnone {x : Option COMStr × Route} {g : COMStr}
      (hx : x ∈ owned initial none (Route.header :: rows)) (hg : gatewayFor k x = some g) :
      f x.2 = none ↔ initial.lookup x.2.iface = none := by
    obtain ⟨howner, hgateway⟩ := gatewayFor_eq_some.mp hg
    simp only [f, hgateway]
    split
    · next heq => exact iff_of_false (Option.some_ne_none _) (heq ▸ hk)
    · next hne =>
      apply iff_of_true rfl
      apply not_not.mp
      intro hknown
      have hown := (mem_owned_header hrows hx).1 hknown
      exact hne (Option.some.inj (hown.symm.trans howner))
  rw [← hown, findSome?_eq_iff]
  · constructor
    · intro h before x after hl hx g hg
      have hmem : x ∈ owned initial none (Route.header :: rows) :=
        hl ▸ List.mem_append_right _ List.mem_cons_self
      exact h before x after hl ((hnone hmem hg).mpr hx) g hg
    · intro h before x after hl hx g hg
      have hmem : x ∈ owned initial none (Route.header :: rows) :=
        hl ▸ List.mem_append_right _ List.mem_cons_self
      exact h before x after hl ((hnone hmem hg).mp hx) g hg
  · intro x hx g hg
    simp only [f] at hg
    split at hg
    · next heq =>
      rw [gatewayFor_eq_some, (mem_owned_header hrows hx).1 (heq ▸ hk), heq]
      exact ⟨rfl, hg⟩
    · cases hg

/-- The interfaces with a default route. -/
private theorem default_iff :
    (∀ k, ((owned initial none (Route.header :: rows)).any fun x ↦
        x.2.isDefault && x.1.getD "" = k) = (ownDefault k rows && (initial.lookup k).isSome)) ↔
      ∀ x ∈ owned initial none (Route.header :: rows), initial.lookup x.2.iface = none →
        (x.1 = none → x.2.isDefault = false) ∧
          ∀ a, x.1 = some a → x.2.isDefault = true → ownDefault a rows = true := by
  have hany (k : COMStr) : ((owned initial none (Route.header :: rows)).any fun x ↦
      x.2.isDefault && x.1.getD "" = k) = true ↔
      ∃ x ∈ owned initial none (Route.header :: rows), x.2.isDefault = true ∧ x.1.getD "" = k := by
    simp only [List.any_eq_true, Bool.and_eq_true, decide_eq_true_eq]
  have hown (k : COMStr) : ownDefault k rows = true ↔
      ∃ r ∈ rows, r.isDefault = true ∧ r.iface = k := by
    simp only [ownDefault, List.any_eq_true, Bool.and_eq_true, decide_eq_true_eq]
  constructor
  · intro h x hx _
    constructor
    · intro horphan
      rw [← Bool.not_eq_true]
      intro hdef
      have hempty := (hany "").mpr ⟨x, hx, hdef, by rw [horphan, Option.getD_none]⟩
      rw [h "", Bool.and_eq_true, hown] at hempty
      obtain ⟨⟨r, hr, -, hiface⟩, -⟩ := hempty
      exact hrows r (List.mem_cons_of_mem _ hr) hiface
    · intro a ha hdef
      have ha' := (hany a).mpr ⟨x, hx, hdef, by rw [ha, Option.getD_some]⟩
      rw [h a, Bool.and_eq_true] at ha'
      exact ha'.1
  · intro h k
    rw [Bool.eq_iff_iff, hany, Bool.and_eq_true, Option.isSome_iff_ne_none]
    constructor
    · rintro ⟨x, hx, hdef, hk⟩
      obtain ⟨hself, hknown⟩ := mem_owned_header hrows hx
      by_cases hiface : initial.lookup x.2.iface = none
      · obtain ⟨horphan, hdefault⟩ := h x hx hiface
        cases hcur : x.1 with
        | none => exact absurd hdef (by rw [horphan hcur]; exact Bool.false_ne_true)
        | some a =>
          rw [hcur, Option.getD_some] at hk
          subst hk
          exact ⟨hdefault a hcur hdef, (hknown a hcur).1⟩
      · rw [hself hiface, Option.getD_some] at hk
        subst hk
        exact ⟨(hown _).mpr ⟨x.2, mem_rows_of_default hx hdef, hdef, rfl⟩, hiface⟩
    · rintro ⟨hdef, hknown⟩
      obtain ⟨r, hr, hroute, rfl⟩ := (hown k).mp hdef
      obtain ⟨x, hx, rfl⟩ := exists_owned initial hr
      refine ⟨x, hx, hroute, ?_⟩
      rw [(mem_owned_header hrows hx).1 hknown, Option.getD_some]

/-- The interface of a default route has a name. -/
private theorem default?_ne {a : COMStr}
    (h : (owned initial none (Route.header :: rows)).findSome? default? = some a) : a ≠ "" := by
  obtain ⟨x, hx, ha⟩ := List.exists_of_findSome?_eq_some h
  exact ((mem_owned_header hrows hx).2 a (default?_eq_some.mp ha).2).2

private theorem firstDefault_ne {a : COMStr} (h : firstDefault initial rows = some a) :
    a ≠ "" := by
  obtain ⟨r, hr, ha⟩ := List.exists_of_findSome?_eq_some h
  split at ha
  · exact Option.some.inj ha ▸ hrows r (List.mem_cons_of_mem _ hr)
  · cases ha

/-- The three conditions as one about each row of an unknown interface. -/
private theorem harmless_iff :
    ((owned initial none (Route.header :: rows)).findSome? default? = firstDefault initial rows ∧
        (∀ k, ((owned initial none (Route.header :: rows)).any fun x ↦
          x.2.isDefault && x.1.getD "" = k) = (ownDefault k rows && (initial.lookup k).isSome)) ∧
        ∀ k, initial.lookup k ≠ none →
          (owned initial none (Route.header :: rows)).findSome? (gatewayFor k) =
            ownGateway k rows) ↔
      ∀ before x after, owned initial none (Route.header :: rows) = before ++ x :: after →
        initial.lookup x.2.iface = none → Harmless initial rows before x := by
  rw [first_iff hrows, default_iff hrows]
  constructor
  · rintro ⟨hfirst, hdefault, hgateway⟩ before x after hl hx
    have hmem : x ∈ owned initial none (Route.header :: rows) :=
      hl ▸ List.mem_append_right _ List.mem_cons_self
    refine ⟨(hdefault x hmem hx).1, (hdefault x hmem hx).2, hfirst before x after hl hx, ?_⟩
    intro a g hg
    have hknown := ((mem_owned_header hrows hmem).2 a (gatewayFor_eq_some.mp hg).1).1
    exact (gateway_iff hrows hknown).mp (hgateway a hknown) before x after hl hx g hg
  · intro h
    refine ⟨fun before x after hl hx ↦ (h before x after hl hx).first, ?_, ?_⟩
    · intro x hmem hx
      obtain ⟨before, after, hl⟩ := List.append_of_mem hmem
      exact ⟨(h before x after hl hx).orphan, (h before x after hl hx).default⟩
    · intro k hknown
      apply (gateway_iff hrows hknown).mpr
      exact fun before x after hl hx ↦ (h before x after hl hx).gateway k

omit hrows in
/-- Loading is right exactly when every row of an unknown interface is harmless. -/
theorem load_right_iff (s : ComSysNetwork) (ifaddr : List IfAddrs) (text : COMStr)
    (rows : List Route) (htext : wordsOf text = (Route.header :: rows).flatMap Route.words) :
    Right (reported ifaddr) rows (load s (some ifaddr) (some text)) ↔
      ∀ before x after,
        owned (reported ifaddr) none (Route.header :: rows) = before ++ x :: after →
        (reported ifaddr).lookup x.2.iface = none →
        Harmless (reported ifaddr) rows before x := by
  have hrows := iface_ne_empty htext
  obtain ⟨hdefault, hlookup⟩ := load_eq s ifaddr htext
  obtain ⟨hfirst, hgateway, hhas⟩ := foldl_row (reported ifaddr) (Route.header :: rows) {}
  simp only [Option.none_or, Bool.false_or] at hfirst hgateway hhas
  have hne (k g : COMStr)
      (hg : ((Route.header :: rows).foldl (Table.row (reported ifaddr)) {}).gateway k = some g) :
      g ≠ "" := by
    rw [hgateway k] at hg
    obtain ⟨x, -, hx⟩ := List.exists_of_findSome?_eq_some hg
    exact (gateway?_ne (gatewayFor_eq_some.mp hx).2).1
  have hentries := entries_iff (reported ifaddr) rows hne
  simp only [hgateway, hhas, ← hlookup] at hentries
  rw [← harmless_iff hrows, ← hentries,
    ← getD_inj (fun a ↦ default?_ne hrows) fun a ↦ firstDefault_ne hrows, ← hfirst, ← hdefault]
  exact ⟨fun h ↦ ⟨h.ifDefault, h.lookup⟩, fun h ↦ ⟨h.1, h.2⟩⟩

omit hrows in
/-- The default route of one of two interfaces, and the networks of both. -/
theorem load_right_threeRoutes :
    let ifaddr := [IfAddrs.mk "eth0" (some (.inet (some "192.168.1.7"))) (some "255.255.255.0"),
      IfAddrs.mk "wlan0" (some (.inet (some "10.0.0.7"))) (some "255.0.0.0")]
    let text := "Iface Destination Gateway Flags RefCnt Use Metric Mask MTU Window IRTT\n" ++
      "eth0\t00000000\t0101A8C0\t0003\t0\t0\t0\t00000000\t0\t0\t0 \n" ++
      "wlan0\t0000000A\t00000000\t0001\t0\t0\t0\t000000FF\t0\t0\t0 \n" ++
      "eth0\t0001A8C0\t00000000\t0001\t0\t0\t0\t00FFFFFF\t0\t0\t0 \n"
    let rows := [
      Route.mk "eth0" "00000000" "0101A8C0" ["0003", "0", "0", "0", "00000000", "0", "0", "0"] rfl,
      Route.mk "wlan0" "0000000A" "00000000" ["0001", "0", "0", "0", "000000FF", "0", "0", "0"] rfl,
      Route.mk "eth0" "0001A8C0" "00000000" ["0001", "0", "0", "0", "00FFFFFF", "0", "0", "0"] rfl]
    Right (reported ifaddr) rows (load ⟨[], ""⟩ (some ifaddr) (some text)) := by
  intro ifaddr text rows
  have htext : wordsOf text = (Route.header :: rows).flatMap Route.words := by
    unfold wordsOf
    rw [String.toList_append, String.toList_append, String.toList_append, String.toList_ofList,
      String.toList_ofList, String.toList_ofList, String.toList_ofList]
    decide +kernel
  apply (load_right_iff ⟨[], ""⟩ ifaddr text rows htext).mpr
  intro before x after hl hx
  have hmem : x ∈ owned (reported ifaddr) none (Route.header :: rows) :=
    hl ▸ List.mem_append_right _ List.mem_cons_self
  have howned : owned (reported ifaddr) none (Route.header :: rows) =
      (none, Route.header) :: rows.map fun r ↦ (some r.iface, r) := rfl
  rw [howned, List.mem_cons] at hmem
  rcases hmem with rfl | hmem
  · refine ⟨fun _ ↦ rfl, ?_, ?_, ?_⟩
    · exact fun a ha ↦ absurd ha (Option.some_ne_none a).symm
    · exact fun a ha ↦ absurd (default?_eq_some.mp ha).2 (Option.some_ne_none a).symm
    · exact fun a g hg ↦ absurd (gatewayFor_eq_some.mp hg).1 (Option.some_ne_none a).symm
  · -- both interfaces are known
    have hknown : ∀ r ∈ rows, (reported ifaddr).lookup r.iface ≠ none := by decide
    obtain ⟨r, hr, rfl⟩ := List.mem_map.mp hmem
    exact absurd hx (hknown r hr)

omit hrows in
/-- A default route of an interface that is not reported is taken for one of the last known one. -/
theorem not_load_right_unknownDefault :
    let ifaddr := [IfAddrs.mk "eth0" (some (.inet (some "192.168.1.7"))) (some "255.255.255.0")]
    let text := "Iface Destination Gateway Flags RefCnt Use Metric Mask MTU Window IRTT\n" ++
      "eth0\t0001A8C0\t00000000\t0001\t0\t0\t0\t00FFFFFF\t0\t0\t0 \n" ++
      "wg0\t00000000\t00000000\t0001\t0\t0\t0\t00000000\t0\t0\t0 \n"
    let rows := [
      Route.mk "eth0" "0001A8C0" "00000000" ["0001", "0", "0", "0", "00FFFFFF", "0", "0", "0"] rfl,
      Route.mk "wg0" "00000000" "00000000" ["0001", "0", "0", "0", "00000000", "0", "0", "0"] rfl]
    wordsOf text = (Route.header :: rows).flatMap Route.words ∧
      (load ⟨[], ""⟩ (some ifaddr) (some text)).ifDefault = "eth0" ∧
      firstDefault (reported ifaddr) rows = none ∧
      ¬ Right (reported ifaddr) rows (load ⟨[], ""⟩ (some ifaddr) (some text)) := by
  intro ifaddr text rows
  have htext : wordsOf text = (Route.header :: rows).flatMap Route.words := by
    unfold wordsOf
    rw [String.toList_append, String.toList_append, String.toList_ofList, String.toList_ofList,
      String.toList_ofList]
    decide +kernel
  have hload : (load ⟨[], ""⟩ (some ifaddr) (some text)).ifDefault = "eth0" := by
    rw [(load_eq ⟨[], ""⟩ ifaddr htext).1]
    decide
  have hfirst : firstDefault (reported ifaddr) rows = none := by decide
  refine ⟨htext, hload, hfirst, fun h ↦ ?_⟩
  have heq := h.ifDefault
  rw [hload, hfirst] at heq
  exact absurd heq (by decide)

end ComSysNetwork

end IcsGateway
