import IcsGateway.Common.NetCommit

/-!
# The address that stands for the device

`Manager::Initialize` makes the device's id from the address of a network interface
(`Manager/Manager.cpp:26–51`), and `ComUtil::getMacAddress` looks for it in the same way
(`Common/ComUtil.cpp:606`). Both go through all interfaces and overwrite what they have until a
byte was not zero.
-/

namespace IcsGateway

/-- What is read of a `Poco::Net::NetworkInterface`. -/
structure NetworkInterface where
  name : COMStr
  macAddress : List UInt8
deriving DecidableEq, Repr

/-- `%02x` of a byte. -/
def hex02 (k : UInt8) : List Char := [Nat.digitChar (k.toNat / 16), Nat.digitChar (k.toNat % 16)]

/-- `sprintf(buf, "%s:%02x", buf, k)` into 30 bytes; `none` writes behind them. -/
def sprintfByte (buf : List Char) (k : UInt8) : Option (List Char) :=
  let text := buf ++ ':' :: hex02 k
  if text.length < 30 then some text else none

/-- `macAddrFirst` and `is_zero_mac`. -/
structure FirstMac where
  macAddrFirst : List Char
  isZeroMac : Bool
deriving DecidableEq, Repr

namespace FirstMac

/-- What both loops start with. -/
def start : FirstMac := ⟨[], true⟩

/-- One byte of an address. -/
def addByte (s : FirstMac) (k : UInt8) : Option FirstMac := do
  let text ← sprintfByte s.macAddrFirst k
  return ⟨text, if k ≠ 0 then false else s.isZeroMac⟩

/-- One interface; `Manager/Manager.cpp:35–44`, `Common/ComUtil.cpp:614–622`. -/
def visit (s : FirstMac) (itf : NetworkInterface) : Option FirstMac :=
  if s.macAddrFirst = [] ∨ s.isZeroMac = true then
    itf.macAddress.foldlM addByte { s with macAddrFirst := [] }
  else some s

end FirstMac

/-- `mac.erase(0, 1)`. -/
def eraseColon (text : List Char) : COMStr := String.ofList (text.drop 1)

namespace Manager

/-- The text from which the id is made; `Manager/Manager.cpp:31–47`. -/
def mac (map : List NetworkInterface) : Option COMStr := do
  let s ← map.foldlM FirstMac.visit FirstMac.start
  return eraseColon s.macAddrFirst

/-- The id in `Manager::Initialize`: one that is there is kept; `Manager/Manager.cpp:31–51`. -/
def initializeDevID (createFromName : COMStr → COMStr) (map : List NetworkInterface)
    (devID : COMStr) : Option COMStr :=
  if devID = "" then (mac map).map createFromName else some devID

end Manager

namespace ComUtil

/-- The loop of `getMacAddress`, with `macAddr` at its end; the interface `DEV_LAN1_ITF` ends it. -/
def macAddressLoop : List NetworkInterface → FirstMac → Option (FirstMac × List Char)
  | [], s => some (s, [])
  | itf :: map, s => do
    let s ← s.visit itf
    if itf.name = NetConfig.devLan1Itf then
      let macAddr ← itf.macAddress.foldlM sprintfByte []
      return (s, macAddr)
    else macAddressLoop map s

/-- `ComUtil::getMacAddress`; `Common/ComUtil.cpp:606`. -/
def getMacAddress (map : List NetworkInterface) : Option COMStr := do
  let (s, macAddr) ← macAddressLoop map FirstMac.start
  return eraseColon (if macAddr = [] then s.macAddrFirst else macAddr)

end ComUtil

/-! ### What is to be chosen -/

namespace NetworkInterface

/-- An address without a byte, or with zeros only. -/
def IsZero (itf : NetworkInterface) : Prop := ∀ k ∈ itf.macAddress, k = 0

instance (itf : NetworkInterface) : Decidable itf.IsZero := inferInstanceAs (Decidable (∀ _ ∈ _, _))

/-- The bytes of an address in lower-case digits, with colons between them. -/
def macText (itf : NetworkInterface) : COMStr :=
  String.ofList ([':'].intercalate (itf.macAddress.map hex02))

/-- Addresses that fit in the buffer. -/
def Fits (map : List NetworkInterface) : Prop := ∀ itf ∈ map, itf.macAddress.length ≤ 8

instance (map : List NetworkInterface) : Decidable (Fits map) :=
  inferInstanceAs (Decidable (∀ _ ∈ _, _))

end NetworkInterface

/-! ### One interface -/

open NetworkInterface

namespace FirstMac

/-- The bytes behind one another, each with a colon in front. -/
private def colons (mac : List UInt8) : List Char := mac.flatMap fun k ↦ ':' :: hex02 k

/-- Bytes for which there is room are appended, and clear the flag if one is not zero. -/
private theorem foldlM_addByte {mac : List UInt8} {s : FirstMac}
    (h : s.macAddrFirst.length + 3 * mac.length < 30) :
    mac.foldlM addByte s =
      some ⟨s.macAddrFirst ++ colons mac, s.isZeroMac && mac.all (· == 0)⟩ := by
  induction mac generalizing s with
  | nil => simp [colons]
  | cons k mac ih =>
    rw [List.length_cons] at h
    have hroom : (s.macAddrFirst ++ ':' :: hex02 k).length < 30 := by
      rw [List.length_append, hex02]
      simp only [List.length_cons, List.length_nil]
      omega
    have hbyte : addByte s k =
        some ⟨s.macAddrFirst ++ ':' :: hex02 k, if k ≠ 0 then false else s.isZeroMac⟩ := by
      rw [addByte, sprintfByte]
      simp only [if_pos hroom]
      rfl
    have hrest : (s.macAddrFirst ++ ':' :: hex02 k).length + 3 * mac.length < 30 := by
      rw [List.length_append, hex02]
      simp only [List.length_cons, List.length_nil]
      omega
    rw [List.foldlM_cons, hbyte]
    change mac.foldlM addByte _ = _
    rw [ih hrest, colons, colons, List.flatMap_cons, List.append_assoc]
    by_cases hk : k = 0
    · simp [hk]
    · simp [hk]

/-- As long as no byte was other than zero, an interface overwrites. -/
private theorem visit_of_isZeroMac {s : FirstMac} (h : s.isZeroMac = true) {itf : NetworkInterface}
    (hfits : itf.macAddress.length ≤ 8) :
    s.visit itf = some ⟨colons itf.macAddress, decide itf.IsZero⟩ := by
  have hroom : ([] : List Char).length + 3 * itf.macAddress.length < 30 := by
    rw [List.length_nil]
    omega
  have hzero : itf.macAddress.all (· == 0) = decide itf.IsZero := by
    rw [Bool.eq_iff_iff, List.all_eq_true, decide_eq_true_iff, IsZero]
    simp only [beq_iff_eq]
  rw [visit, if_pos (.inr h), foldlM_addByte hroom, h, Bool.true_and, hzero]
  rfl

/-- And then no more. -/
private theorem visit_of_settled {s : FirstMac} (h : s.isZeroMac = false)
    (hne : s.macAddrFirst ≠ []) (itf : NetworkInterface) : s.visit itf = some s := by
  rw [visit, if_neg]
  rw [h, not_or]
  exact ⟨hne, Bool.false_ne_true⟩

/-! ### All interfaces -/

/-- Interfaces with zeros only leave the flag. -/
private theorem foldlM_visit_of_isZero {pre : List NetworkInterface}
    (hpre : ∀ itf ∈ pre, itf.IsZero) (hfits : Fits pre) {s : FirstMac}
    (h : s.isZeroMac = true) :
    ∃ s', pre.foldlM visit s = some s' ∧ s'.isZeroMac = true := by
  induction pre generalizing s with
  | nil => exact ⟨s, rfl, h⟩
  | cons itf pre ih =>
    obtain ⟨hzero, hpre⟩ := List.forall_mem_cons.mp hpre
    obtain ⟨hlength, hfits⟩ := List.forall_mem_cons.mp hfits
    rw [List.foldlM_cons, visit_of_isZeroMac h hlength]
    exact ih hpre hfits (decide_eq_true hzero)

/-- Once a byte was not zero, all others are passed over. -/
private theorem foldlM_visit_of_settled {s : FirstMac} (h : s.isZeroMac = false)
    (hne : s.macAddrFirst ≠ []) (post : List NetworkInterface) :
    post.foldlM visit s = some s := by
  induction post with
  | nil => rfl
  | cons itf post ih =>
    rw [List.foldlM_cons, visit_of_settled h hne]
    exact ih

/-- Bytes with a first one leave a text. -/
private theorem colons_ne_nil {mac : List UInt8} (h : mac ≠ []) : colons mac ≠ [] := by
  cases mac with
  | nil => exact absurd rfl h
  | cons k mac => exact List.cons_ne_nil _ _

/-- The first interface with a byte other than zero is kept. -/
private theorem foldlM_visit {pre post : List NetworkInterface} {x : NetworkInterface}
    (hfits : Fits (pre ++ [x])) (hpre : ∀ itf ∈ pre, itf.IsZero) (hx : ¬ x.IsZero) :
    (pre ++ x :: post).foldlM visit start = some ⟨colons x.macAddress, false⟩ := by
  obtain ⟨hfitsPre, hfitsX⟩ := List.forall_mem_append.mp hfits
  obtain ⟨s, hs, hzero⟩ := foldlM_visit_of_isZero hpre hfitsPre (s := start) rfl
  have hbytes : x.macAddress ≠ [] := by
    intro hnil
    apply hx
    intro k hk
    rw [hnil] at hk
    cases hk
  rw [List.foldlM_append, hs]
  change (x :: post).foldlM visit s = _
  rw [List.foldlM_cons, visit_of_isZeroMac hzero (hfitsX x List.mem_cons_self),
    decide_eq_false hx]
  exact foldlM_visit_of_settled rfl (colons_ne_nil hbytes) post

/-- Behind the first byte every byte has its colon. -/
private theorem intercalate_hex02 (k : UInt8) (mac : List UInt8) :
    [':'].intercalate ((k :: mac).map hex02) = hex02 k ++ colons mac := by
  induction mac generalizing k with
  | nil =>
    rw [List.map_cons, List.map_nil, List.intercalate_singleton, colons, List.flatMap_nil,
      List.append_nil]
  | cons k' mac ih =>
    have hne : (k' :: mac).map hex02 ≠ [] := List.cons_ne_nil _ _
    rw [List.map_cons, List.intercalate_cons_of_ne_nil hne, ih, List.append_assoc]
    rfl

/-- Without the colon in front it is the text of the address. -/
private theorem eraseColon_colons (itf : NetworkInterface) :
    eraseColon (colons itf.macAddress) = itf.macText := by
  rw [eraseColon, macText]
  apply congrArg String.ofList
  cases itf.macAddress with
  | nil => rfl
  | cons k mac =>
    rw [intercalate_hex02]
    rfl

end FirstMac

/-- The loop that is not ended early goes through all interfaces. -/
private theorem macAddressLoop_eq {map : List NetworkInterface}
    (h : ∀ itf ∈ map, itf.name ≠ NetConfig.devLan1Itf) (s : FirstMac) :
    ComUtil.macAddressLoop map s = (map.foldlM FirstMac.visit s).map (·, []) := by
  induction map generalizing s with
  | nil => rfl
  | cons itf map ih =>
    obtain ⟨hname, hmap⟩ := List.forall_mem_cons.mp h
    rw [ComUtil.macAddressLoop, List.foldlM_cons]
    cases s.visit itf with
    | none => rfl
    | some s' =>
      simp only [Option.bind_eq_bind, Option.bind_some, if_neg hname]
      exact ih hmap s'

/-- The first interface with a byte other than zero. -/
private theorem exists_first {map : List NetworkInterface} (h : ∃ itf ∈ map, ¬ itf.IsZero) :
    ∃ pre x post, map = pre ++ x :: post ∧ (∀ itf ∈ pre, itf.IsZero) ∧ ¬ x.IsZero := by
  obtain ⟨itf, hitf, hne⟩ := h
  have hsome : (map.find? fun itf ↦ ¬ itf.IsZero).isSome = true :=
    List.find?_isSome.mpr ⟨itf, hitf, decide_eq_true hne⟩
  obtain ⟨x, hfind⟩ := Option.isSome_iff_exists.mp hsome
  obtain ⟨hx, pre, post, hsplit, hpre⟩ := List.find?_eq_some_iff_append.mp hfind
  refine ⟨pre, x, post, hsplit, ?_, of_decide_eq_true hx⟩
  intro itf hitf
  have hzero := hpre itf hitf
  by_contra hne
  rw [decide_eq_true hne] at hzero
  cases hzero

/-- The first interface in the order of the map whose address has a byte other than zero gives the
text, whatever stands behind it and whatever zeros stand before it. -/
theorem Manager.mac_eq_first {map : List NetworkInterface} (hfits : Fits map)
    (h : ∃ itf ∈ map, ¬ itf.IsZero) :
    ∃ pre x post, map = pre ++ x :: post ∧ (∀ itf ∈ pre, itf.IsZero) ∧ ¬ x.IsZero ∧
      mac map = some x.macText ∧
      (∀ createFromName, initializeDevID createFromName map "" =
        some (createFromName x.macText)) ∧
      (∀ pre' post', Fits pre' → (∀ itf ∈ pre', itf.IsZero) →
        mac (pre' ++ x :: post') = mac map) ∧
      ((∀ itf ∈ map, itf.name ≠ NetConfig.devLan1Itf) →
        ComUtil.getMacAddress map = mac map) := by
  obtain ⟨pre, x, post, rfl, hpre, hx⟩ := exists_first h
  have hmac : ∀ pre' post', Fits (pre' ++ [x]) → (∀ itf ∈ pre', itf.IsZero) →
      mac (pre' ++ x :: post') = some x.macText := by
    intro pre' post' hfits' hpre'
    rw [mac, FirstMac.foldlM_visit hfits' hpre' hx]
    exact congrArg some (FirstMac.eraseColon_colons x)
  obtain ⟨hfitsPre, hfitsRest⟩ := List.forall_mem_append.mp hfits
  have hfitsX : Fits [x] := List.forall_mem_singleton.mpr (hfitsRest x List.mem_cons_self)
  have hthis := hmac pre post (List.forall_mem_append.mpr ⟨hfitsPre, hfitsX⟩) hpre
  refine ⟨pre, x, post, rfl, hpre, hx, hthis, ?_, ?_, ?_⟩
  · intro createFromName
    rw [initializeDevID, if_pos rfl, hthis, Option.map_some]
  · intro pre' post' hfits' hpre'
    rw [hthis]
    exact hmac pre' post' (List.forall_mem_append.mpr ⟨hfits', hfitsX⟩) hpre'
  · intro hname
    rw [ComUtil.getMacAddress, macAddressLoop_eq hname, mac]
    cases (pre ++ x :: post).foldlM FirstMac.visit FirstMac.start with
    | none => rfl
    | some s => rfl

/-- One interface without an address, one with zeros and two with addresses. -/
def Manager.fourInterfaces : List NetworkInterface :=
  [⟨"lo", []⟩, ⟨"sit0", [0, 0]⟩, ⟨"eth0", [0, 0xAB, 1]⟩, ⟨"wlan0", [7]⟩]

/-- The third gives the text. -/
theorem Manager.mac_fourInterfaces :
    Fits fourInterfaces ∧ (∃ itf ∈ fourInterfaces, ¬ itf.IsZero) ∧
      (∃ x ∈ fourInterfaces, ¬ x.IsZero ∧ mac fourInterfaces = some x.macText) ∧
      mac fourInterfaces = some "00:ab:01" ∧
      (∀ itf ∈ fourInterfaces, itf.name ≠ NetConfig.devLan1Itf) ∧
      ComUtil.getMacAddress fourInterfaces = mac fourInterfaces := by
  have hfits : Fits fourInterfaces := by decide
  have hne : ∃ itf ∈ fourInterfaces, ¬ itf.IsZero :=
    ⟨⟨"wlan0", [7]⟩, List.mem_of_getLast? rfl, by decide⟩
  have hname : ∀ itf ∈ fourInterfaces, itf.name ≠ NetConfig.devLan1Itf := by decide
  obtain ⟨pre, x, post, hsplit, -, hx, hmac, -, -, hget⟩ := Manager.mac_eq_first hfits hne
  have hmem : x ∈ fourInterfaces := by
    rw [hsplit]
    exact List.mem_append_right pre List.mem_cons_self
  exact ⟨hfits, hne, ⟨x, hmem, hx, hmac⟩, by decide, hname, hget hname⟩

end IcsGateway
