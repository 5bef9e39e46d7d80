import IcsGateway.Common.ComUtil
import IcsGateway.Lib.Words

/-!
# The hosts file

`ComNetHost` (`Common/ComSysNetwork.cpp`) reads `/etc/hosts` into a map from host names to
addresses, changes the map, and writes the file anew from it.
-/

namespace IcsGateway

open Lib

/-- `ComNetHost`; `Common/ComSysNetwork.h`. -/
structure ComNetHost where
  hosts : ComMap COMStr
  state : Int
  deriving DecidableEq

namespace ComNetHost

/-- `ComNetHost::isAcceptIp`; `Common/ComSysNetwork.cpp:437`. -/
def isAcceptIp (ip : COMStr) : Bool :=
  let i := ComUtil.getIP ip
  !(i = ComUtil.stringInvalid || i = "127.0.0.1" || i = "127.0.1.1" || i = "::1" ||
    i = "ff02::0" || i = "ff02::1" || i = "ff02::2")

/-- What a line of the file adds to the map; `Common/ComSysNetwork.cpp:355–366`. -/
def entry (ln : COMStr) : Option (COMStr × COMStr) :=
  match ComUtil.split ln ' ' with
  | ip :: host :: _ =>
    if ip.toList.head? = some '#' then none
    else if isAcceptIp ip then some (host, ip)
    else none
  | _ => none

/-- The lines that `getline` returns until `eof`, the last one ended by the end of the file. -/
def lines (text : COMStr) : List COMStr := (text.toList.splitOn '\n').map String.ofList

/-- `ComNetHost::Initialize` on the text of `/etc/hosts`, if it can be opened;
`Common/ComSysNetwork.cpp:340`. -/
def initializeHosts : Option COMStr → ComNetHost
  | none => ⟨[], -1⟩
  | some text => ⟨ComMap.assignAll [] ((lines text).filterMap entry), 0⟩

/-- `hdef`; `Common/ComSysNetwork.cpp:384–391`. -/
def header (hostname : COMStr) : COMStr :=
  "# The /etc/hosts file\n" ++
  "127.0.0.1  localhost\n" ++
  "127.0.1.1  " ++ hostname ++ "\n\n" ++
  "#The following lines are desirable for IPv6 capable hosts\n" ++
  "::1     localhost ip6-localhost ip6-loopback\n" ++
  "ff02::1 ip6-allnodes\n" ++
  "ff02::2 ip6-allrouters\n"

/-- A line for one host, without its end. -/
def line (h : COMStr × COMStr) : COMStr := h.2 ++ " " ++ h.1

/-- The lines written after the header; `Common/ComSysNetwork.cpp:396`. -/
def printHosts : ComMap COMStr → COMStr
  | [] => ""
  | h :: rest => line h ++ "\n" ++ printHosts rest

/-- `ComNetHost::Save`, with what `gethostname` returns and the text of `/etc/hosts`;
`Common/ComSysNetwork.cpp:372`. -/
def save (s : ComNetHost) (hostname text : COMStr) : ComNetHost × COMStr :=
  if s.state = 0 then (s, text)
  else ({ s with state := 0 }, header hostname ++ printHosts s.hosts)

/-- `ComNetHost::Add`; `Common/ComSysNetwork.cpp:405`. -/
def add (s : ComNetHost) (host ip : COMStr) : ComNetHost :=
  if isAcceptIp ip then ⟨s.hosts.assign host ip, 1⟩ else s

/-- `ComNetHost::Remove`; `Common/ComSysNetwork.cpp:415`. -/
def remove (s : ComNetHost) (host : COMStr) : ComNetHost :=
  if (s.hosts.lookup host).isSome then ⟨s.hosts.erase host, 1⟩ else s

/-! ### What is written is read back -/

/-- The header by lines. -/
def headerLines (hostname : COMStr) : List COMStr :=
  ["# The /etc/hosts file", "127.0.0.1  localhost", "127.0.1.1  " ++ hostname, "",
    "#The following lines are desirable for IPv6 capable hosts",
    "::1     localhost ip6-localhost ip6-loopback", "ff02::1 ip6-allnodes",
    "ff02::2 ip6-allrouters"]

private theorem toList_header (hostname : COMStr) :
    (header hostname).toList =
      ((headerLines hostname).map String.toList).flatMap (· ++ ['\n']) := by
  have h1 : "# The /etc/hosts file\n" = "# The /etc/hosts file" ++ "\n" := rfl
  have h2 : "127.0.0.1  localhost\n" = "127.0.0.1  localhost" ++ "\n" := rfl
  have h4 : "\n\n" = "\n" ++ "" ++ "\n" := rfl
  have h5 : "#The following lines are desirable for IPv6 capable hosts\n" =
    "#The following lines are desirable for IPv6 capable hosts" ++ "\n" := rfl
  have h6 : "::1     localhost ip6-localhost ip6-loopback\n" =
    "::1     localhost ip6-localhost ip6-loopback" ++ "\n" := rfl
  have h7 : "ff02::1 ip6-allnodes\n" = "ff02::1 ip6-allnodes" ++ "\n" := rfl
  have h8 : "ff02::2 ip6-allrouters\n" = "ff02::2 ip6-allrouters" ++ "\n" := rfl
  have hend : "\n".toList = ['\n'] := rfl
  unfold header
  rw [h1, h2, h4, h5, h6, h7, h8]
  simp only [headerLines, String.toList_append, hend, List.map_cons, List.map_nil,
    List.flatMap_cons, List.flatMap_nil, List.append_nil, List.append_assoc]

private theorem toList_printHosts (m : ComMap COMStr) :
    (printHosts m).toList = ((m.map line).map String.toList).flatMap (· ++ ['\n']) := by
  induction m with
  | nil => rfl
  | cons h rest ih =>
    rw [printHosts, String.toList_append, String.toList_append, ih]
    rfl

/-- The lines of a file that has been written. -/
theorem lines_save {hostname : COMStr} {m : ComMap COMStr} (hname : '\n' ∉ hostname.toList)
    (hm : ∀ h ∈ m, '\n' ∉ (line h).toList) :
    lines (header hostname ++ printHosts m) = headerLines hostname ++ m.map line ++ [""] := by
  have hheader : ∀ l ∈ (headerLines hostname).map String.toList, '\n' ∉ l := by
    simp only [headerLines, List.map_cons, List.map_nil, List.forall_mem_cons, String.toList_append,
      List.mem_append, hname, or_false]
    decide
  have hhosts : ∀ l ∈ (m.map line).map String.toList, '\n' ∉ l := by
    simpa only [List.forall_mem_map] using hm
  have hall := List.forall_mem_append.mpr ⟨hheader, hhosts⟩
  have hsplit := splitOn_flatMap hall []
  rw [List.append_nil, List.flatMap_append, ← toList_header, ← toList_printHosts,
    ← String.toList_append, ← List.map_append] at hsplit
  rw [lines, hsplit, List.map_append, List.map_map]
  simp only [Function.comp_def, String.ofList_toList, List.map_id']
  rfl

/-- A number does not begin with `#`. -/
private theorem getNumber_comment {val : COMStr} {cs : List Char} (h : val.toList = '#' :: cs) :
    ComUtil.getNumber val = ComUtil.numberInvalid := by
  have hne : val ≠ "" := by
    rintro rfl
    exact List.cons_ne_nil _ _ h.symm
  have hspace : ComUtil.isspace '#' = false := rfl
  have hdigit : ComUtil.digit? 10 '#' = none := rfl
  rw [ComUtil.getNumber, if_neg hne]
  simp [h, ComUtil.strtoul, hspace, hdigit]

/-- Nor does an address that is accepted. -/
private theorem head?_ne_of_isAcceptIp {ip : COMStr} (h : isAcceptIp ip = true) :
    ip.toList.head? ≠ some '#' := by
  intro hhead
  obtain ⟨cs, hcs⟩ := List.head?_eq_some_iff.mp hhead
  have hinvalid : ComUtil.getIP ip = ComUtil.stringInvalid := by
    cases hsplit : ComUtil.split ip '.' with
    | nil =>
      rw [(ComUtil.split_eq_nil_iff ip '.').mp hsplit] at hcs
      exact absurd hcs.symm (List.cons_ne_nil _ _)
    | cons tok rest =>
      have htok : tok.toList = '#' :: cs.takeWhile (· ≠ '.') := by
        rw [ComUtil.toList_head_split hsplit, hcs, List.takeWhile_cons_of_pos (by decide)]
      have hnum : ComUtil.getNumberInRange tok 0 255 = ComUtil.numberInvalid := by
        rw [ComUtil.getNumberInRange, getNumber_comment htok]
        rfl
      have hany : ((tok :: rest).any fun tok ↦
          let num := ComUtil.getNumberInRange tok 0 255
          num = ComUtil.numberInvalid ∨ num = ComUtil.numberEmpty) = true := by
        rw [List.any_cons, hnum]
        rfl
      simp only [ComUtil.getIP, hsplit, hany, if_true, ite_self]
  rw [isAcceptIp, hinvalid] at h
  exact absurd h (by decide)

/-- The printed line of a host is read as it was written. -/
theorem entry_line {h : COMStr × COMStr} (hip : isAcceptIp h.2 = true) (hsep : ' ' ∉ h.2.toList)
    (hhost : ' ' ∉ h.1.toList) (hne : h.1 ≠ "") : entry (line h) = some h := by
  have hline : (line h).toList = h.2.toList ++ ' ' :: h.1.toList := by
    rw [line, String.toList_append, String.toList_append, List.append_assoc]
    rfl
  rw [entry, ComUtil.split_pair hline hsep hhost hne]
  simp only [if_neg (head?_ne_of_isAcceptIp hip), hip, if_true]

private theorem entry_of_head (ip : COMStr) {ln : COMStr}
    (h : ln.toList.takeWhile (· ≠ ' ') = ip.toList)
    (hip : isAcceptIp ip = false ∨ ip.toList.head? = some '#') : entry ln = none := by
  rw [entry]
  split
  · next ip' host rest hsplit =>
    have heq : ip' = ip := by
      rw [← String.toList_inj, ComUtil.toList_head_split hsplit, h]
    subst heq
    rcases hip with hip | hip
    · simp only [hip, Bool.false_eq_true, if_false, ite_self]
    · rw [if_pos hip]
  · rfl

/-- The header adds nothing. -/
private theorem filterMap_headerLines (hostname : COMStr) :
    (headerLines hostname).filterMap entry = [] := by
  have hhostname : entry ("127.0.1.1  " ++ hostname) = none := by
    apply entry_of_head "127.0.1.1" _ (.inl (by decide))
    simp only [String.toList_append, String.reduceToList]
    rfl
  simp only [headerLines, List.filterMap_cons, List.filterMap_nil, hhostname]
  rfl

/-- What a line adds are its first two tokens, the address being accepted. -/
theorem split_of_entry {ln : COMStr} {h : COMStr × COMStr} (hentry : entry ln = some h) :
    isAcceptIp h.2 = true ∧ ∃ rest, ComUtil.split ln ' ' = h.2 :: h.1 :: rest := by
  rw [entry] at hentry
  split at hentry
  · next ip host rest hsplit =>
    split at hentry
    · cases hentry
    · split at hentry
      · next hip =>
        cases hentry
        exact ⟨hip, rest, hsplit⟩
      · cases hentry
  · cases hentry

/-- It is free of separators. -/
theorem notMem_of_entry {text ln : COMStr} {h : COMStr × COMStr} (hln : ln ∈ lines text)
    (hentry : entry ln = some h) :
    (' ' ∉ h.2.toList ∧ '\n' ∉ h.2.toList) ∧ '\n' ∉ h.1.toList := by
  obtain ⟨-, rest, hsplit⟩ := split_of_entry hentry
  have hip : h.2 ∈ ComUtil.split ln ' ' := hsplit ▸ List.mem_cons_self
  have hhost : h.1 ∈ ComUtil.split ln ' ' :=
    hsplit ▸ List.mem_cons_of_mem _ List.mem_cons_self
  obtain ⟨cs, hcs, rfl⟩ := List.mem_map.mp hln
  have hnl : '\n' ∉ (String.ofList cs).toList := by
    rw [String.toList_ofList]
    exact notMem_of_mem_splitOn hcs
  exact ⟨⟨ComUtil.notMem_of_mem_split hip, fun hmem ↦ hnl (ComUtil.subset_of_mem_split hip hmem)⟩,
    fun hmem ↦ hnl (ComUtil.subset_of_mem_split hhost hmem)⟩

/-- What the file maps a host to is free of separators. -/
private theorem notMem_of_mem_hosts {text : COMStr} {h : COMStr × COMStr}
    (hmem : h ∈ (initializeHosts (some text)).hosts) :
    ' ' ∉ h.2.toList ∧ '\n' ∉ h.2.toList := by
  have hentries := (ComMap.mem_assignAll hmem).resolve_right List.not_mem_nil
  obtain ⟨ln, hln, hentry⟩ := List.mem_filterMap.mp hentries
  exact (notMem_of_entry hln hentry).1

/-- A host name: not empty, without white space, not a comment. -/
structure IsName (host : COMStr) : Prop where
  nonempty : host ≠ ""
  no_space : ∀ c ∈ host.toList, ComUtil.isspace c = false
  no_comment : host.toList.head? ≠ some '#'

/-- A change of the map. -/
inductive Call where
  | add (host ip : COMStr)
  | remove (host : COMStr)

/-- The host that is changed. -/
def Call.host : Call → COMStr
  | .add host _ => host
  | .remove host => host

/-- One change. -/
def step : Call → ComNetHost → ComNetHost
  | .add host ip, s => s.add host ip
  | .remove host, s => s.remove host

/-- The changes in order. -/
def run : List Call → ComNetHost → ComNetHost
  | [], s => s
  | call :: calls, s => run calls (step call s)

/-- The map is in order, and holds host names and addresses that `Add` accepts. -/
structure WF (s : ComNetHost) : Prop where
  sorted : ComMap.Sorted s.hosts
  isName : ∀ h ∈ s.hosts, IsName h.1
  accepted : ∀ h ∈ s.hosts, isAcceptIp h.2 = true

/-- A change keeps it so. -/
theorem WF.step {s : ComNetHost} (hs : WF s) {call : Call} (hcall : IsName call.host) :
    WF (step call s) := by
  cases call with
  | add host ip =>
    rw [ComNetHost.step, add]
    split
    · next hip =>
      refine ⟨hs.sorted.assign host ip, ?_, ?_⟩
      · intro h hmem
        rcases ComMap.mem_assign hmem with rfl | hmem
        · exact hcall
        · exact hs.isName h hmem
      · intro h hmem
        rcases ComMap.mem_assign hmem with rfl | hmem
        · exact hip
        · exact hs.accepted h hmem
    · exact hs
  | remove host =>
    rw [ComNetHost.step, remove]
    split
    · refine ⟨hs.sorted.erase host, ?_, ?_⟩
      · exact fun h hmem ↦ hs.isName h (ComMap.mem_of_mem_erase hmem)
      · exact fun h hmem ↦ hs.accepted h (ComMap.mem_of_mem_erase hmem)
    · exact hs

/-- So do all of them. -/
theorem WF.run {s : ComNetHost} (hs : WF s) {calls : List Call}
    (hcalls : ∀ call ∈ calls, IsName call.host) : WF (run calls s) := by
  induction calls generalizing s with
  | nil => exact hs
  | cons call calls ih =>
    obtain ⟨hcall, hcalls⟩ := List.forall_mem_cons.mp hcalls
    exact ih (hs.step hcall) hcalls

/-- Only the lines of the map are read back, not the header. -/
private theorem initializeHosts_printHosts {hostname : COMStr} {m : ComMap COMStr}
    (hname : '\n' ∉ hostname.toList) (hlines : ∀ h ∈ m, '\n' ∉ (line h).toList) :
    (initializeHosts (some (header hostname ++ printHosts m))).hosts =
      ComMap.assignAll [] ((m.map line).filterMap entry) := by
  have hempty : entry "" = none := rfl
  simp only [initializeHosts, lines_save hname hlines, List.filterMap_append,
    filterMap_headerLines, List.nil_append, List.filterMap_cons, hempty, List.filterMap_nil,
    List.append_nil]

/-- A map whose addresses have no separator is read back from the file. -/
private theorem initializeHosts_save {s : ComNetHost} (hs : WF s) {hostname : COMStr}
    (hname : '\n' ∉ hostname.toList)
    (hsep : ∀ h ∈ s.hosts, ' ' ∉ h.2.toList ∧ '\n' ∉ h.2.toList) :
    (initializeHosts (some (header hostname ++ printHosts s.hosts))).hosts = s.hosts := by
  have hlines : ∀ h ∈ s.hosts, '\n' ∉ (line h).toList := by
    intro h hmem
    simp only [line, String.toList_append, List.mem_append, not_or]
    refine ⟨⟨(hsep h hmem).2, by decide⟩, fun hnl ↦ ?_⟩
    exact absurd ((hs.isName h hmem).no_space _ hnl) (by decide)
  have hline : ∀ h ∈ s.hosts, (entry ∘ line) h = some h := by
    intro h hmem
    have hhost := hs.isName h hmem
    apply entry_line (hs.accepted h hmem) (hsep h hmem).1 _ hhost.nonempty
    exact fun hsp ↦ absurd (hhost.no_space _ hsp) (by decide)
  rw [initializeHosts_printHosts hname hlines, List.filterMap_map, List.filterMap_congr hline,
    List.filterMap_some]
  exact hs.sorted.assignAll

/-- After changes to an empty map, some of which took effect, saving and reading the file gives the
same map exactly when no address in it has a blank or an end of line. -/
theorem save_initializeHosts_iff {hostname : COMStr} (hname : '\n' ∉ hostname.toList)
    (text : COMStr) (state : Int) (calls : List Call)
    (hcalls : ∀ call ∈ calls, IsName call.host) (hpending : (run calls ⟨[], state⟩).state ≠ 0) :
    let s := run calls ⟨[], state⟩
    (initializeHosts (some (s.save hostname text).2)).hosts = s.hosts ↔
      ∀ h ∈ s.hosts, ' ' ∉ h.2.toList ∧ '\n' ∉ h.2.toList := by
  intro s
  have hempty : WF ⟨[], state⟩ := ⟨List.Pairwise.nil, by simp, by simp⟩
  have hs : WF s := hempty.run hcalls
  rw [save, if_neg hpending]
  constructor
  · intro heq h hmem
    rw [← heq] at hmem
    exact notMem_of_mem_hosts hmem
  · exact initializeHosts_save hs hname

private theorem isName_of_all {host : COMStr} (hne : host ≠ "")
    (hall : host.toList.all (fun c ↦ !ComUtil.isspace c) = true)
    (hcomment : host.toList.head? ≠ some '#') : IsName host := by
  refine ⟨hne, ?_, hcomment⟩
  intro c hc
  have hspace := List.all_eq_true.mp hall c hc
  rwa [Bool.not_eq_true'] at hspace

/-- Three hosts, of which one moves to another address and one is removed. -/
def hostCalls : List Call :=
  [.add "h" "10.0.0.1", .add "cloud" "10.0.0.2", .add "h" "10.0.0.3", .add "ntp" "10.0.0.4",
    .remove "cloud"]

/-- The two that are left are read back. -/
theorem save_initializeHosts_twoHosts :
    let s := run hostCalls ⟨[], 0⟩
    s.hosts = [("h", "10.0.0.3"), ("ntp", "10.0.0.4")] ∧
      (initializeHosts (some (s.save "gateway" "").2)).hosts = s.hosts := by
  have hcalls : ∀ call ∈ hostCalls, IsName call.host := by
    intro call hcall
    simp only [hostCalls, List.mem_cons, List.not_mem_nil, or_false] at hcall
    rcases hcall with rfl | rfl | rfl | rfl | rfl
    all_goals exact isName_of_all (by decide) (by decide) (by decide)
  refine ⟨by decide, ?_⟩
  exact (save_initializeHosts_iff (by decide) "" 0 hostCalls hcalls (by decide)).mpr (by decide)

/-- What follows the address is accepted with it, and is read back as the host's name. -/
theorem not_save_initializeHosts_blank :
    let s := run [.add "h" "10.0.0.1 x"] ⟨[], 0⟩
    IsName "h" ∧ s.state = 1 ∧ s.hosts = [("h", "10.0.0.1 x")] ∧
      (initializeHosts (some (s.save "gateway" "").2)).hosts = [("x", "10.0.0.1")] := by
  intro s
  refine ⟨isName_of_all (by decide) (by decide) (by decide), by decide, by decide, ?_⟩
  have hlines : ∀ h ∈ s.hosts, '\n' ∉ (line h).toList := by decide
  rw [save, if_neg (by decide), initializeHosts_printHosts (by decide) hlines]
  decide

end ComNetHost

end IcsGateway
