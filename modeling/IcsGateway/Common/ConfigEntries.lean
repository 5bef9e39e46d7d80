import IcsGateway.Common.NetConfig
import IcsGateway.Common.RegistrationConfig
import Mathlib.Data.List.ReduceOption

/-!
# The registered configuration

`COMCFG` keeps the configuration objects of a process in one list. `Reset` brings all of them but
three to their defaults, and `Save` stores those that may be written
(`Common/ComConfig.cpp:817–879`).
-/

namespace IcsGateway

open Lib

/-! ### The entries -/

/-- `MqttBrokerConfig_T` with the members that are in no document; `Common/ComConfig.h:185–186`. -/
structure MqttBroker extends ComConfig MqttBrokerConfig_T where
  privateKey : COMStr
  publicKey : COMStr

/-- A registered object, of one of the classes derived from `ComConfig`. -/
inductive ConfigObject where
  | manager (c : ComConfig ManagerConfig_T)
  | collector (c : ComConfig CollectorConfig_T)
  | registration (c : ComConfig RegistrationInfo_T)
  | mqtt (c : MqttBroker)
  | ntp (c : ComConfig NTPConfig)
  | log (c : ComConfig LogConfig_T)
  | net (c : ComConfig NetConfig)
  | sensors (c : ComConfig SensorGroup_T)
  | relays (c : ComConfig DefaultRelayState_T)

/-- The members of a new object; `Common/ComConfig.h:106–108`. -/
def CollectorConfig_T.new : CollectorConfig_T := { dataReportInterval := 60, devices := [] }

/-- The members of a new object, zero or empty without an initialiser;
`Common/ComConfig.h:169–188`. -/
def MqttBrokerConfig_T.new : MqttBrokerConfig_T :=
  { host := "", port := 0, isSec := false, topicData := "data_channel", topicDataQoS := 1,
    topicCtrl := "message_delivery", topicCtrlQoS := 1, subQoS := 1, queue := "device_log",
    queueCtrl := "receive_cmd", state := 0 }

/-- The members of a new object, zero or empty without an initialiser;
`Common/ComConfig.h:229–237`. -/
def LogConfig_T.new : LogConfig_T :=
  { logDir := "", logLevel := 0, pocoLogLevel := 8, logMbSize := 5, compMask := 0, prioMask := 0,
    outMask := 0, filePath := "" }

/-- The members of a new object; `Common/ComConfig.h:312`. -/
def SensorGroup_T.new : SensorGroup_T := { sensorAlarm := [] }

namespace ConfigObject

/-- `Name`, which the constructors set to one of the `CFGKeys`; `Common/ComConfig.h:20–33`. -/
def name : ConfigObject → COMStr
  | manager _ => "MANAGER_INFO"
  | collector _ => "COLLECTOR_CONFIG"
  | registration _ => "REGISTRATION_INFO"
  | mqtt _ => "MQTT_BROKER"
  | ntp _ => "NTP"
  | log _ => "LOGS"
  | net _ => "NETWORK"
  | sensors _ => "SENSOR_GROUP"
  | relays _ => "DEFAULT_RELAY"

/-- `JConf`. -/
def jConf : ConfigObject → Option Object
  | manager c => c.jConf
  | collector c => c.jConf
  | registration c => c.jConf
  | mqtt c => c.jConf
  | ntp c => c.jConf
  | log c => c.jConf
  | net c => c.jConf
  | sensors c => c.jConf
  | relays c => c.jConf

/-- `Clear` of the object's class. -/
def clear : ConfigObject → ConfigObject
  | manager c => manager { c with fields := c.fields.clear }
  | collector c => collector { c with fields := c.fields.clear }
  | registration c => registration { c with fields := c.fields.clear }
  | mqtt c => mqtt { c with fields := c.fields.clear }
  | ntp c => ntp { c with fields := c.fields.clear }
  | log c => log { c with fields := c.fields.clear }
  | net c => net { c with fields := c.fields.clear }
  | sensors c => sensors { c with fields := c.fields.clear }
  | relays c => relays { c with fields := c.fields.clear }

/-- `JSave` of the object's class: what it returns, and the object afterwards. -/
def jSave : ConfigObject → Except Exn Bool × ConfigObject
  | manager c => (ManagerConfig_T.jSave.exec c).map id manager
  | collector c => (CollectorConfig_T.jSave.exec c).map id collector
  | registration c => (RegistrationInfo_T.jSave.exec c).map id registration
  | mqtt c => (MqttBrokerConfig_T.jSave.exec c.toComConfig).map id
      fun s ↦ mqtt { c with toComConfig := s }
  | ntp c => (NTPConfig.jSave.exec c).map id ntp
  | log c => (LogConfig_T.jSave.exec c).map id log
  | net c => (NetConfig.jSave.exec c).map id net
  | sensors c => (SensorGroup_T.jSave.exec c).map id sensors
  | relays c => (DefaultRelayState_T.jSave.exec c).map id relays

/-- The document that `JSave` writes, unless it returns false or throws. -/
def document (c : ConfigObject) : Option Object :=
  match c.jSave.1 with
  | .ok true => c.jSave.2.jConf
  | _ => none

/-- `ComConfig::Save`, of which the repository has no source: `JSave`, and its document stored under
the name. The last component is what has been stored. -/
def save (c : ConfigObject) : Except Exn Bool × ConfigObject × List (COMStr × Object) :=
  (c.jSave.1, c.jSave.2, (c.document.map fun o ↦ (c.name, o)).toList)

/-- An object with the members of a new one, of the classes that `Reset` does not leave alone. -/
def renewed : ConfigObject → ConfigObject
  | collector c => collector { c with fields := .new }
  | registration c => registration { c with fields := .new }
  | mqtt c => mqtt { c with fields := .new, privateKey := "", publicKey := "" }
  | log c => log { c with fields := .new }
  | sensors c => sensors { c with fields := .new }
  | relays c => relays { c with fields := .new }
  | c => c

/-- An object's members, without its document. -/
def members : ConfigObject → ConfigObject
  | manager c => manager { c with jConf := none }
  | collector c => collector { c with jConf := none }
  | registration c => registration { c with jConf := none }
  | mqtt c => mqtt { c with jConf := none }
  | ntp c => ntp { c with jConf := none }
  | log c => log { c with jConf := none }
  | net c => net { c with jConf := none }
  | sensors c => sensors { c with jConf := none }
  | relays c => relays { c with jConf := none }

end ConfigObject

/-- An entry of `COMCFG::Entries`. -/
structure ConfigEntry where
  object : ConfigObject
  readOnly : Bool

namespace ConfigEntry

/-- The entries that `Reset` leaves alone; `Common/ComConfig.cpp:849–854`. -/
def isKept (e : ConfigEntry) : Bool :=
  e.object.name = "MANAGER_INFO" || e.object.name = "NETWORK" || e.object.name = "NTP"

/-- The entries a key selects: all for an empty key; `Common/ComConfig.cpp:856,872`. -/
def isSelected (key : COMStr) (e : ConfigEntry) : Bool := key = "" || e.object.name = key

end ConfigEntry

namespace COMCFG

/-- What `Reset` leaves behind. -/
structure ResetResult where
  result : Except Exn Bool
  entries : List ConfigEntry
  /-- The documents stored, under their names. -/
  stored : List (COMStr × Object)

/-- `COMCFG::Reset`; `Common/ComConfig.cpp:845`. -/
def reset (key : COMStr) : List ConfigEntry → ResetResult
  | [] => ⟨.ok true, [], []⟩
  | e :: rest =>
    if e.isKept || !e.isSelected key then
      let r := reset key rest
      { r with entries := e :: r.entries }
    else
      let object := e.object.clear
      if e.readOnly then
        let r := reset key rest
        { r with entries := { e with object := object } :: r.entries }
      else
        match object.save with
        | (.error x, object, stored) => ⟨.error x, { e with object := object } :: rest, stored⟩
        | (.ok _, object, stored) =>
          let r := reset key rest
          { r with entries := { e with object := object } :: r.entries, stored := stored ++ r.stored }

/-- The loop of `Save` from entry `i` on, with the result so far; `outcome` is what the virtual
`Save` of each entry returns. The second component is the entries whose `Save` is called. -/
def saveLoop (key : COMStr) (outcome : Nat → Bool) :
    Nat → Bool → List ConfigEntry → Bool × List Nat
  | _, ret, [] => (ret, [])
  | i, ret, e :: rest =>
    if e.isSelected key && !e.readOnly then
      -- `ret && Entries[i]->Save()` calls `Save` only while `ret` holds
      if ret then
        let r := saveLoop key outcome (i + 1) (outcome i) rest
        (r.1, i :: r.2)
      else saveLoop key outcome (i + 1) false rest
    else saveLoop key outcome (i + 1) ret rest

/-- `COMCFG::Save`; `Common/ComConfig.cpp:867`. -/
def save (key : COMStr) (outcome : Nat → Bool) (entries : List ConfigEntry) : Bool × List Nat :=
  saveLoop key outcome 0 true entries

end COMCFG

/-! ### Saving -/

namespace COMCFG

/-- Entry `i` is selected by the key and may be written. -/
def Writable (key : COMStr) (entries : List ConfigEntry) (i : Nat) : Prop :=
  ∃ e, entries[i]? = some e ∧ e.isSelected key = true ∧ e.readOnly = false

/-- The entries, from `i` on, that are selected and may be written. -/
def writable (key : COMStr) : Nat → List ConfigEntry → List Nat
  | _, [] => []
  | i, e :: rest =>
    if e.isSelected key && !e.readOnly then i :: writable key (i + 1) rest
    else writable key (i + 1) rest

/-- Up to the first that fails. -/
def called (outcome : Nat → Bool) : List Nat → List Nat
  | [] => []
  | i :: is => if outcome i then i :: called outcome is else [i]

variable {key : COMStr} {outcome : Nat → Bool}

private theorem mem_writable {entries : List ConfigEntry} {i k : Nat} :
    i ∈ writable key k entries ↔ k ≤ i ∧ Writable key entries (i - k) := by
  induction entries generalizing k with
  | nil => simp [writable, Writable]
  | cons e rest ih =>
    have htail : i ∈ writable key (k + 1) rest ↔
        k < i ∧ Writable key (e :: rest) (i - k) := by
      rw [ih]
      apply and_congr_right
      intro hlt
      have hsucc : i - k = i - (k + 1) + 1 := by omega
      rw [hsucc, Writable, Writable, List.getElem?_cons_succ]
    have hhead : Writable key (e :: rest) 0 ↔ (e.isSelected key && !e.readOnly) = true := by
      simp [Writable]
    rw [writable]
    split
    · next hsel =>
      rw [List.mem_cons, htail]
      constructor
      · rintro (rfl | ⟨hlt, h⟩)
        · rw [Nat.sub_self, hhead]
          exact ⟨Nat.le_refl _, hsel⟩
        · exact ⟨Nat.le_of_lt hlt, h⟩
      · rintro ⟨hle, h⟩
        rcases Nat.lt_or_eq_of_le hle with hlt | rfl
        · exact .inr ⟨hlt, h⟩
        · exact .inl rfl
    · next hsel =>
      rw [htail]
      constructor
      · exact fun ⟨hlt, h⟩ ↦ ⟨Nat.le_of_lt hlt, h⟩
      · rintro ⟨hle, h⟩
        rcases Nat.lt_or_eq_of_le hle with hlt | rfl
        · exact ⟨hlt, h⟩
        · rw [Nat.sub_self, hhead] at h
          exact absurd h hsel

private theorem pairwise_writable (key : COMStr) (entries : List ConfigEntry) (k : Nat) :
    (writable key k entries).Pairwise (· < ·) := by
  induction entries generalizing k with
  | nil => exact List.Pairwise.nil
  | cons e rest ih =>
    rw [writable]
    split
    · apply List.pairwise_cons.mpr
      exact ⟨fun i hi ↦ (mem_writable.mp hi).1, ih (k + 1)⟩
    · exact ih (k + 1)

/-- After a failure nothing is saved. -/
private theorem saveLoop_false (entries : List ConfigEntry) (k : Nat) :
    saveLoop key outcome k false entries = (false, []) := by
  induction entries generalizing k with
  | nil => rfl
  | cons e rest ih =>
    rw [saveLoop]
    split
    · exact ih (k + 1)
    · exact ih (k + 1)

/-- The loop saves up to the first failure, and returns whether all of them succeed. -/
private theorem saveLoop_true (entries : List ConfigEntry) (k : Nat) :
    saveLoop key outcome k true entries =
      ((writable key k entries).all outcome, called outcome (writable key k entries)) := by
  induction entries generalizing k with
  | nil => rfl
  | cons e rest ih =>
    rw [saveLoop, writable]
    split
    · rw [if_pos rfl, called, List.all_cons]
      cases outcome k with
      | true => simp [ih]
      | false => simp [saveLoop_false]
    · exact ih (k + 1)

private theorem called_sublist (is : List Nat) : (called outcome is).Sublist is := by
  induction is with
  | nil => exact List.Sublist.slnil
  | cons i is ih =>
    rw [called]
    split
    · exact ih.cons_cons i
    · exact (List.nil_sublist is).cons_cons i

/-- All are called exactly when those before the last succeed. -/
private theorem mem_called_iff (outcome : Nat → Bool) {is : List Nat} (h : is.Pairwise (· < ·)) :
    (∀ i, i ∈ called outcome is ↔ i ∈ is) ↔
      ∀ i ∈ is, ∀ j ∈ is, i < j → outcome i = true := by
  induction is with
  | nil => simp [called]
  | cons k is ih =>
    obtain ⟨hlt, his⟩ := List.pairwise_cons.mp h
    have hk : k ∉ is := fun hmem ↦ Nat.lt_irrefl k (hlt k hmem)
    rw [called]
    split
    · next hout =>
      have hcons : (∀ i, i ∈ k :: called outcome is ↔ i ∈ k :: is) ↔
          ∀ i, i ∈ called outcome is ↔ i ∈ is := by
        have hk' : k ∉ called outcome is := fun hmem ↦ hk ((called_sublist is).subset hmem)
        constructor
        · intro hall i
          by_cases hi : i = k
          · rw [hi]
            exact iff_of_false hk' hk
          · have hi' := hall i
            simpa only [List.mem_cons, hi, false_or] using hi'
        · intro hall i
          rw [List.mem_cons, List.mem_cons, hall i]
      rw [hcons, ih his]
      constructor
      · intro hall i hi j hj hij
        rcases List.mem_cons.mp hi with rfl | hi'
        · exact hout
        · rcases List.mem_cons.mp hj with rfl | hj'
          · exact absurd hij (Nat.not_lt_of_lt (hlt i hi'))
          · exact hall i hi' j hj' hij
      · exact fun hall i hi j hj hij ↦
          hall i (List.mem_cons_of_mem _ hi) j (List.mem_cons_of_mem _ hj) hij
    · next hout =>
      constructor
      · intro hall i hi j hj hij
        have hj' := List.mem_singleton.mp ((hall j).mpr hj)
        have hi' := List.mem_singleton.mp ((hall i).mpr hi)
        rw [hi', hj'] at hij
        exact absurd hij (Nat.lt_irrefl k)
      · intro hall i
        rw [List.mem_singleton, List.mem_cons]
        constructor
        · exact .inl
        · rintro (rfl | hi)
          · rfl
          · have hin := hall k (List.mem_cons_self ..) i (List.mem_cons_of_mem _ hi) (hlt i hi)
            exact absurd hin hout

/-- `Save` is called exactly once on each entry that is selected and may be written, and on no
other, and the result says whether all of these calls succeed. -/
structure SavesEach (key : COMStr) (outcome : Nat → Bool) (entries : List ConfigEntry) : Prop where
  once : (save key outcome entries).2.Nodup
  calls : ∀ i, i ∈ (save key outcome entries).2 ↔ Writable key entries i
  result : (save key outcome entries).1 = true ↔ ∀ i, Writable key entries i → outcome i = true

/-- It is so exactly when every such entry but the last is saved successfully: the conjunction stops
calling after a failure. -/
theorem savesEach_iff (key : COMStr) (outcome : Nat → Bool) (entries : List ConfigEntry) :
    SavesEach key outcome entries ↔
      ∀ i j, i < j → Writable key entries i → Writable key entries j → outcome i = true := by
  have hsorted := pairwise_writable key entries 0
  have hmem (i : Nat) : i ∈ writable key 0 entries ↔ Writable key entries i := by
    rw [mem_writable]
    simp only [Nat.zero_le, Nat.sub_zero, true_and]
  have hcalled := mem_called_iff outcome hsorted
  simp only [hmem] at hcalled
  have hsave : save key outcome entries = _ := saveLoop_true entries 0
  constructor
  · intro h i j hij hi hj
    have hcalls := h.calls
    rw [hsave] at hcalls
    exact hcalled.mp hcalls i hi j hj hij
  · intro h
    refine ⟨?_, ?_, ?_⟩
    · rw [hsave]
      exact (hsorted.sublist (called_sublist _)).imp Nat.ne_of_lt
    · rw [hsave]
      exact hcalled.mpr fun i hi j hj hij ↦ h i j hij hi hj
    · rw [hsave]
      simp only [List.all_eq_true, hmem]

/-- Three entries that may be written, the first of which cannot be stored: the others are not. -/
theorem not_savesEach_firstFails :
    let entries := [ConfigEntry.mk (.sensors ⟨.new, none⟩) false,
      ⟨.collector ⟨.new, some []⟩, false⟩, ⟨.log ⟨.new, some []⟩, false⟩]
    save "" (fun i ↦ i ≠ 0) entries = (false, [0]) ∧
      ¬ SavesEach "" (fun i ↦ i ≠ 0) entries := by
  refine ⟨by decide, ?_⟩
  intro h
  have h1 := (h.calls 1).mpr ⟨_, rfl, rfl, rfl⟩
  revert h1
  decide

/-! ### Resetting -/

variable {F ρ ψ : Type} {tyF : ψ → Type}

/-- `JSave` of a class without a list returns whether there is a document. -/
private theorem exec_saveFields (L : Layout F tyF) (writes : List (Jset tyF)) (c : ComConfig F) :
    (saveFields L writes).exec c =
      (.ok c.jConf.isSome, { c with jConf := c.jConf.map (writeFields L c.fields writes) }) := by
  obtain ⟨f, j⟩ := c
  unfold saveFields
  rw [Eff.exec_bind, Eff.exec_get]
  cases j with
  | none => rfl
  | some o => simp only [Eff.exec_bind, Eff.exec_set, Eff.exec_pure, Option.isSome_some,
      Option.map_some]

/-- So does `JSave` of a class with one list. -/
private theorem exec_jSave (S : ListSaver F ρ tyF) (c : ComConfig F) :
    S.jSave.exec c = (.ok c.jConf.isSome, ⟨c.fields, c.jConf.map fun o ↦
      saveArray S.key S.encode (S.list c.fields) (writeFields S.layout c.fields S.writes o)⟩) := by
  obtain ⟨f, j⟩ := c
  unfold ListSaver.jSave
  rw [Eff.exec_bind, Eff.exec_get]
  cases j with
  | none => rfl
  | some o => simp only [Eff.exec_bind, Eff.exec_set, Eff.exec_pure, Option.isSome_some,
      Option.map_some]

/-- What `JSave` of an object that is reset returns and changes. -/
private structure SavesDocument (c : ConfigObject) : Prop where
  result : c.jSave.1 = .ok c.jConf.isSome
  members : c.jSave.2.members = c.members
  jConf : c.jSave.2.jConf.isSome = c.jConf.isSome

private theorem savesDocument {e : ConfigEntry} (h : e.isKept = false) :
    SavesDocument e.object := by
  obtain ⟨c, readOnly⟩ := e
  cases c with
  | manager c => cases h
  | ntp c => cases h
  | net c => cases h
  | collector c =>
    refine ⟨?_, ?_, ?_⟩ <;>
      simp [ConfigObject.jSave, ConfigObject.members, ConfigObject.jConf, CollectorConfig_T.jSave,
        exec_jSave]
  | registration c =>
    refine ⟨?_, ?_, ?_⟩ <;>
      simp [ConfigObject.jSave, ConfigObject.members, ConfigObject.jConf, RegistrationInfo_T.jSave,
        exec_saveFields]
  | mqtt c =>
    refine ⟨?_, ?_, ?_⟩ <;>
      simp [ConfigObject.jSave, ConfigObject.members, ConfigObject.jConf, MqttBrokerConfig_T.jSave,
        exec_saveFields]
  | log c =>
    refine ⟨?_, ?_, ?_⟩ <;>
      simp [ConfigObject.jSave, ConfigObject.members, ConfigObject.jConf, LogConfig_T.jSave,
        exec_saveFields]
  | sensors c =>
    refine ⟨?_, ?_, ?_⟩ <;>
      simp [ConfigObject.jSave, ConfigObject.members, ConfigObject.jConf, SensorGroup_T.jSave,
        exec_jSave]
  | relays c =>
    refine ⟨?_, ?_, ?_⟩ <;>
      simp [ConfigObject.jSave, ConfigObject.members, ConfigObject.jConf, DefaultRelayState_T.jSave,
        exec_jSave]

/-- The entry as `Reset` leaves it. -/
private def afterReset (e : ConfigEntry) : ConfigEntry :=
  if e.isKept then e
  else if e.readOnly then { e with object := e.object.clear }
  else { e with object := e.object.clear.jSave.2 }

private theorem name_clear (c : ConfigObject) : c.clear.name = c.name := by
  cases c <;> rfl

private theorem jConf_clear (c : ConfigObject) : c.clear.jConf = c.jConf := by
  cases c <;> rfl

private theorem savesDocument_clear {e : ConfigEntry} (h : e.isKept = false) :
    SavesDocument e.object.clear := by
  have hclear : (ConfigEntry.mk e.object.clear e.readOnly).isKept = false := by
    rw [ConfigEntry.isKept, name_clear]
    exact h
  exact savesDocument hclear

/-- The loop goes through all entries, and stores those that may be written. -/
private theorem reset_eq (es : List ConfigEntry) :
    reset "" es = ⟨.ok true, es.map afterReset,
      (es.filter fun e ↦ !e.isKept && !e.readOnly).filterMap fun e ↦
        e.object.clear.document.map fun o ↦ (e.object.name, o)⟩ := by
  induction es with
  | nil => rfl
  | cons e rest ih =>
    have hsel : e.isSelected "" = true := rfl
    rw [reset, hsel, List.map_cons, afterReset, List.filter_cons]
    cases hk : e.isKept with
    | true => simp [ih]
    | false =>
      cases hr : e.readOnly with
      | true => simp [ih]
      | false =>
        have hresult := (savesDocument_clear hk).result
        simp only [Bool.not_true, Bool.or_false, Bool.false_eq_true, ↓reduceIte, ConfigObject.save,
          hresult, ih, name_clear, Bool.not_false, Bool.and_self, List.filterMap_cons]
        cases e.object.clear.document <;> rfl

/-- There is a document to store exactly if there was one. -/
private theorem document_ne_none_iff {e : ConfigEntry} (h : e.isKept = false) :
    e.object.clear.document ≠ none ↔ e.object.jConf ≠ none := by
  have hsaves := savesDocument_clear h
  have hjConf := hsaves.jConf
  rw [ConfigObject.document, hsaves.result]
  rw [jConf_clear] at hjConf ⊢
  cases hj : e.object.jConf with
  | none => simp
  | some o =>
    rw [hj, Option.isSome_some] at hjConf
    simp [← Option.isSome_iff_ne_none, hjConf]

end COMCFG

/-- The members that `Clear` does not reset have the values of a new object; `Clear` gives the model
of a registration a value of its own. -/
def ConfigObject.Clearable : ConfigObject → Prop
  | registration _ => False
  | mqtt c => c.fields.isSec = false ∧ c.privateKey = "" ∧ c.publicKey = ""
  | log c => c.fields.compMask = 0 ∧ c.fields.prioMask = 0 ∧ c.fields.outMask = 0 ∧
      c.fields.filePath = ""
  | relays c => c.fields.relay1 = 23 ∧ c.fields.relay2 = 24
  | _ => True

namespace COMCFG

/-- Then `Clear` makes a new object. -/
private theorem clear_eq_renewed {e : ConfigEntry} (hk : e.isKept = false)
    (h : e.object.Clearable) : e.object.clear = e.object.renewed := by
  obtain ⟨c, readOnly⟩ := e
  cases c with
  | manager c => cases hk
  | ntp c => cases hk
  | net c => cases hk
  | registration c => cases h
  | collector c => rfl
  | sensors c => rfl
  | mqtt c =>
    obtain ⟨hsec, hprivate, hpublic⟩ := h
    simp [ConfigObject.clear, ConfigObject.renewed, MqttBrokerConfig_T.clear,
      MqttBrokerConfig_T.new, hsec, hprivate, hpublic]
  | log c =>
    obtain ⟨hcomp, hprio, hout, hpath⟩ := h
    simp [ConfigObject.clear, ConfigObject.renewed, LogConfig_T.clear, LogConfig_T.new, hcomp,
      hprio, hout, hpath]
  | relays c =>
    obtain ⟨h1, h2⟩ := h
    simp [ConfigObject.clear, ConfigObject.renewed, DefaultRelayState_T.clear,
      DefaultRelayState_T.new, h1, h2]

/-- And else it does not. -/
private theorem clearable_of_members {e : ConfigEntry} (hk : e.isKept = false)
    (h : e.object.clear.members = e.object.renewed.members) : e.object.Clearable := by
  obtain ⟨c, readOnly⟩ := e
  cases c with
  | manager c => cases hk
  | ntp c => cases hk
  | net c => cases hk
  | collector c => trivial
  | sensors c => trivial
  | registration c =>
    simp [ConfigObject.clear, ConfigObject.renewed, ConfigObject.members, RegistrationInfo_T.clear,
      RegistrationInfo_T.new] at h
  | mqtt c =>
    simp [ConfigObject.clear, ConfigObject.renewed, ConfigObject.members, MqttBrokerConfig_T.clear,
      MqttBrokerConfig_T.new] at h
    exact h
  | log c =>
    simp [ConfigObject.clear, ConfigObject.renewed, ConfigObject.members, LogConfig_T.clear,
      LogConfig_T.new] at h
    exact h
  | relays c =>
    simp [ConfigObject.clear, ConfigObject.renewed, ConfigObject.members,
      DefaultRelayState_T.clear, DefaultRelayState_T.new] at h
    exact h

/-- `Reset` leaves three entries as they are, gives the others the members of a new object, and
stores the documents of those that may be written, and nothing else. -/
structure ResetsAll (es : List ConfigEntry) : Prop where
  entries : List.Forall₂ (fun e e' ↦ if e.isKept then e' = e else
    e'.readOnly = e.readOnly ∧ e'.object.members = e.object.renewed.members) es (reset "" es).entries
  stored : (reset "" es).stored.map some = (es.filter fun e ↦ !e.isKept && !e.readOnly).map fun e ↦
    e.object.renewed.document.map fun o ↦ (e.object.name, o)

/-- A list filtered by a partial function keeps its length only if the function is defined on it. -/
private theorem map_some_filterMap_iff {α β : Type} (g : α → Option β) (l : List α) :
    (l.filterMap g).map some = l.map g ↔ ∀ x ∈ l, g x ≠ none := by
  induction l with
  | nil => simp
  | cons x l ih =>
    rw [List.forall_mem_cons, ← ih, List.filterMap_cons]
    cases hx : g x with
    | none =>
      simp only [ne_eq, not_true_eq_false, false_and, iff_false]
      intro h
      have hlen := congrArg List.length h
      have hle := List.length_filterMap_le g l
      simp only [List.length_map, List.length_cons] at hlen
      omega
    | some y => simp [hx]

/-- `Reset` does so exactly if there is no registration, the members that `Clear` forgets have their
initial values already, and every entry that may be written has a document. -/
theorem resetsAll_iff (es : List ConfigEntry) :
    ResetsAll es ↔ ∀ e ∈ es, e.isKept = false →
      e.object.Clearable ∧ (e.readOnly = false → e.object.jConf ≠ none) := by
  have hentries : List.Forall₂ (fun e e' ↦ if e.isKept then e' = e else
      e'.readOnly = e.readOnly ∧ e'.object.members = e.object.renewed.members) es
        (reset "" es).entries ↔ ∀ e ∈ es, e.isKept = false → e.object.Clearable := by
    rw [reset_eq, List.forall₂_map_right_iff, List.forall₂_same]
    apply forall₂_congr
    intro e _
    rw [afterReset]
    cases hk : e.isKept with
    | true => simp
    | false =>
      have hmembers : (if e.readOnly then { e with object := e.object.clear } else
          { e with object := e.object.clear.jSave.2 } : ConfigEntry).object.members =
          e.object.clear.members := by
        split
        · rfl
        · exact (savesDocument_clear hk).members
      have hreadOnly : (if e.readOnly then { e with object := e.object.clear } else
          { e with object := e.object.clear.jSave.2 } : ConfigEntry).readOnly = e.readOnly := by
        split <;> rfl
      simp only [Bool.false_eq_true, ↓reduceIte, hmembers, hreadOnly, true_and, forall_const]
      constructor
      · exact clearable_of_members hk
      · intro h
        rw [clear_eq_renewed hk h]
  have hstored (hclear : ∀ e ∈ es, e.isKept = false → e.object.Clearable) :
      (reset "" es).stored.map some = (es.filter fun e ↦ !e.isKept && !e.readOnly).map (fun e ↦
        e.object.renewed.document.map fun o ↦ (e.object.name, o)) ↔
      ∀ e ∈ es, e.isKept = false → e.readOnly = false → e.object.jConf ≠ none := by
    have hdocument : (es.filter fun e ↦ !e.isKept && !e.readOnly).map (fun e ↦
        e.object.renewed.document.map fun o ↦ (e.object.name, o)) =
        (es.filter fun e ↦ !e.isKept && !e.readOnly).map (fun e ↦
          e.object.clear.document.map fun o ↦ (e.object.name, o)) := by
      apply List.map_congr_left
      intro e he
      obtain ⟨he, hflags⟩ := List.mem_filter.mp he
      have hk : e.isKept = false := by
        cases hk : e.isKept with
        | false => rfl
        | true => simp [hk] at hflags
      rw [clear_eq_renewed hk (hclear e he hk)]
    rw [reset_eq, hdocument, map_some_filterMap_iff]
    simp only [List.mem_filter, Bool.and_eq_true, Bool.not_eq_true', ne_eq, Option.map_eq_none_iff]
    constructor
    · intro h e he hk hr
      exact (document_ne_none_iff hk).mp (h e ⟨he, hk, hr⟩)
    · intro h e he
      exact (document_ne_none_iff he.2.1).mpr (h e he.1 he.2.1 he.2.2)
  constructor
  · intro h e he hk
    have hclear := hentries.mp h.entries
    exact ⟨hclear e he hk, (hstored hclear).mp h.stored e he hk⟩
  · intro h
    have hclear := fun e he hk ↦ (h e he hk).1
    exact ⟨hentries.mpr hclear, (hstored hclear).mpr fun e he hk ↦ (h e he hk).2⟩

/-- A registration that was assigned another protocol. -/
def otherProtocol : ConfigEntry where
  object := .registration ⟨{ RegistrationInfo_T.new with protocol := "HTTP" }, some []⟩
  readOnly := true

/-- It loses its model, and keeps that protocol. -/
theorem not_resetsAll_registration :
    (reset "" [otherProtocol]).entries.map (fun e ↦ e.object.members) =
        [.registration ⟨{ RegistrationInfo_T.new with model := "", protocol := "HTTP" }, none⟩] ∧
      ¬ ResetsAll [otherProtocol] := by
  refine ⟨rfl, ?_⟩
  intro h
  have hentry := h.entries
  rw [reset_eq, List.map_singleton] at hentry
  obtain ⟨-, hmembers⟩ := (List.forall₂_cons.mp hentry).1
  have hclearable : otherProtocol.object.Clearable := clearable_of_members rfl hmembers
  exact hclearable

end COMCFG

end IcsGateway
