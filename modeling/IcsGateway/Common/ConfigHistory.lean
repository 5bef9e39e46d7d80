import IcsGateway.Common.ConfigRoundTrip
import IcsGateway.Common.NetConfig
import IcsGateway.Common.RegistrationConfig

/-!
# What `Load` keeps of the past

`Load` runs `Clear` first, and a `JGET` leaves a member the document does not give
(`Common/ComUtil.h:47`). Two objects that load one document from different members therefore
agree on the members that `JSave` writes when every other one is in the list of `Clear`, or given.
-/

namespace IcsGateway

open Lib

variable {F ρ ψ : Type} [DecidableEq ψ] {tyF : ψ → Type} {α : Type}

/-- Two objects with one document and any members hold the same after `Load`, as far as `Same`
compares them. -/
def HistoryFree (load : Eff Exn (ComConfig F) α) (Same : F → F → Prop) (o : Object) : Prop :=
  ∀ c c', Same (load.exec ⟨c, some o⟩).2.fields (load.exec ⟨c', some o⟩).2.fields

/-- The members that a class with one list saves, the list among them. -/
def ListSaver.saved (S : ListSaver F ρ tyF) (list : ψ) : List ψ := S.writes.map (·.field) ++ [list]

/-! ### Classes without a list -/

/-- `Load` resets the members and reads them. -/
theorem fields_loadFields (clear : F → F) (reads : Option Object → Eff Exn F Unit)
    (c : F) (o : Object) :
    ((loadFields clear reads).exec ⟨c, some o⟩).2.fields =
      ((reads (some o)).exec (clear c)).2 := by
  unfold loadFields
  simp only [Eff.exec_bind, Eff.exec_get, Eff.exec_set, exec_onFields]
  rcases (reads (some o)).exec (clear c) with ⟨r, c'⟩
  cases r <;> rfl

/-- The members agree afterwards exactly when the reads overwrite every one that `Clear` does
not reset. -/
theorem historyFree_loadFields_iff [Nonempty F] (L : Layout F tyF) {clear : F → F} {d : Given tyF}
    (hclear : ∀ c, clear c = L.overlay d c) {reads : Option Object → Eff Exn F Unit} {o : Object}
    {u : (f : ψ) → tyF f → tyF f} (hreads : ∀ c, ((reads (some o)).exec c).2 = L.map u c)
    (A : List ψ) :
    HistoryFree (loadFields clear reads) (L.Agree A) o ↔
      ∀ f ∈ A, d f = none → ∀ x y, u f x = u f y := by
  unfold HistoryFree
  simp only [fields_loadFields, hreads, hclear, L.overlay_eq_map, L.map_map]
  rw [L.agree_map_iff]
  apply forall₂_congr
  intro f _
  cases d f with
  | none => simp only [Option.getD_none, forall_const]
  | some v => simp

/-- A field is overwritten by a run of `JGET` statements exactly when it is assigned. -/
private theorem getD_const_iff {β : Type} {b b' : β} (hb : b ≠ b') (a : Option β) :
    (∀ x y : β, a.getD x = a.getD y) ↔ a ≠ none := by
  cases a with
  | some v => simp
  | none =>
    simp only [Option.getD_none, ne_eq, not_true_eq_false, iff_false]
    exact fun h ↦ hb (h b b')

/-- A run of `JGET` statements changes each field by itself. -/
private theorem exec_readFields_map (L : Layout F tyF) (o : Object) (ss : List (Jget tyF)) (c : F) :
    ((readFields L (some o) ss).exec c).2 = L.map (fun f x ↦ (assigned o ss f).getD x) c := by
  rw [exec_readFields, L.overlay_eq_map]

/-- So do two such runs with a change of a text between them. -/
private theorem exec_readFields_modify (L : Layout F tyF) {o : Object} {ss : List (Jget tyF)}
    {g : Given tyF} (hg : given o ss = .ok g) {v : F → F} {w : (f : ψ) → tyF f → tyF f}
    (hv : ∀ c, v c = L.map w c) (ts : List (Jget tyF)) (c : F) :
    ((do readFields L (some o) ss; modify v; readFields L (some o) ts : Eff Exn F Unit).exec c).2 =
      L.map (fun f x ↦ (assigned o ts f).getD (w f ((g f).getD x))) c := by
  rw [Eff.exec_bind_of_ok (exec_readFields_of_given L hg c), Eff.exec_bind, Eff.exec_modify]
  simp only
  rw [exec_readFields_map, hv, L.overlay_eq_map, L.map_map, L.map_map]

/-- Conversions that fail on the empty value only do not fail. -/
theorem given_of_total (o : Object) {ss : List (Jget tyF)}
    (h : ∀ s ∈ ss, ∀ v, v ≠ .empty → ∃ x, s.conv v = .ok x) : ∃ g, given o ss = .ok g := by
  rw [given_ok_iff]
  intro s hs hn
  apply h s hs
  intro he
  rw [Object.isNull, he] at hn
  cases hn

namespace RegistrationInfo_T

/-- The members that `Clear` resets. -/
def resets : Given Field.type
  | .protocol => none
  | .name => some ""
  | .restAPI => some ""
  | .restAPIVer => some "v2"
  | .productID => some "TBD"
  | .model => some ""
  | .devID => some ""
  | .registerState => some "None"
  | .token => some ""
  | .otpSecret => some ""
  | .publicKey => some ""
  | .privateKey => some ""
  | .isLocked => some false

private theorem clear_eq (c : RegistrationInfo_T) : clear c = layout.overlay resets c := rfl

instance : Nonempty RegistrationInfo_T := ⟨new⟩

/-- The members that `JSave` writes. -/
def saved : List Field := writes.map (·.field)

/-- `StrRemove` on the address, and nothing on the other members. -/
private def removed (memory : Char) : (f : Field) → Field.type f → Field.type f :=
  Function.update (fun _ x ↦ x) .restAPI (ComUtil.strRemove memory)

private theorem put_removed (memory : Char) (c : RegistrationInfo_T) :
    { c with restAPI := ComUtil.strRemove memory c.restAPI } = layout.map (removed memory) c := rfl

/-- Every member but the protocol is reset, so the history shows exactly without a protocol. -/
theorem historyFree_iff (P : Poco) (memory : Char) (o : Object) :
    HistoryFree (load P memory) (layout.Agree saved) o ↔ Object.isNull o "Protocol" = false := by
  have htotal : ∀ s ∈ readsName P ++ readsRest P, ∀ v, v ≠ .empty → ∃ x, s.conv v = .ok x := by
    simp only [readsName, readsRest, List.cons_append, List.nil_append, List.forall_mem_cons,
      P.convertStr_ok_iff, Poco.convertBool_ok_iff, imp_self, implies_true, List.not_mem_nil,
      false_implies, and_self]
  rw [List.forall_mem_append] at htotal
  obtain ⟨g, hg⟩ := given_of_total o htotal.1
  obtain ⟨g', hg'⟩ := given_of_total o htotal.2
  have hreads := exec_readFields_modify layout hg (put_removed memory) (readsRest P)
  rw [assigned_of_given hg'] at hreads
  rw [load, historyFree_loadFields_iff layout clear_eq hreads]
  have hkept (q : Field → Prop) : (∀ f ∈ saved, resets f = none → q f) ↔ q .protocol := by
    simp [saved, writes, resets]
  have hfirst : g .protocol = none := by
    rw [given_eq_none_iff hg]
    simp [readsName]
  have hrest : g' .protocol = none ↔ Object.isNull o "Protocol" = true := by
    rw [given_eq_none_iff hg']
    simp [readsRest]
  rw [hkept, hfirst]
  change (∀ x y : COMStr, (g' .protocol).getD x = (g' .protocol).getD y) ↔ _
  have hne : ("" : COMStr) ≠ "a" := by decide
  rw [getD_const_iff hne, ne_eq, hrest, Bool.not_eq_true]

end RegistrationInfo_T

namespace MqttBrokerConfig_T

/-- The members that `Clear` resets. -/
def resets : Given Field.type
  | .isSec => none
  | .host => some ""
  | .port => some 0
  | .topicData => some "data_channel"
  | .topicDataQoS => some 1
  | .topicCtrl => some "message_delivery"
  | .topicCtrlQoS => some 1
  | .subQoS => some 1
  | .queue => some "device_log"
  | .queueCtrl => some "receive_cmd"
  | .state => some 0

private theorem clear_eq (c : MqttBrokerConfig_T) : clear c = layout.overlay resets c := rfl

instance : Nonempty MqttBrokerConfig_T := ⟨⟨"", 0, false, "", 0, "", 0, 0, "", "", 0⟩⟩

/-- The members that `JSave` writes. -/
def saved : List Field := writes.map (·.field)

/-- `StrRemove` on the host, and nothing on the other members. -/
private def removed (memory : Char) : (f : Field) → Field.type f → Field.type f :=
  Function.update (fun _ x ↦ x) .host (ComUtil.strRemove memory)

private theorem put_removed (memory : Char) (c : MqttBrokerConfig_T) :
    { c with host := ComUtil.strRemove memory c.host } = layout.map (removed memory) c := rfl

/-- Only `IsSec` is not reset, and it is not saved. -/
theorem historyFree (P : Poco) (memory : Char) (o : Object) :
    HistoryFree (load P memory) (layout.Agree saved) o := by
  have htotal : ∀ s ∈ readsHost P, ∀ v, v ≠ .empty → ∃ x, s.conv v = .ok x := by
    simp only [readsHost, List.forall_mem_cons, P.convertStr_ok_iff, imp_self, implies_true,
      List.not_mem_nil, false_implies, and_self]
  obtain ⟨g, hg⟩ := given_of_total o htotal
  have hreads := exec_readFields_modify layout hg (put_removed memory) (readsRest P)
  rw [load, historyFree_loadFields_iff layout clear_eq hreads]
  intro f hf hnone
  cases f with
  | isSec => simp [saved, writes] at hf
  | _ => cases hnone

end MqttBrokerConfig_T

namespace LogConfig_T

/-- The members that `Clear` resets. -/
def resets : Given Field.type
  | .logDir => some ""
  | .logLevel => some 0
  | .pocoLogLevel => some 8
  | .logMbSize => some 5
  | .compMask => none
  | .prioMask => none
  | .outMask => none
  | .filePath => none

private theorem clear_eq (c : LogConfig_T) : clear c = layout.overlay resets c := rfl

instance : Nonempty LogConfig_T := ⟨⟨"", 0, 0, 0, 0, 0, 0, ""⟩⟩

/-- The members that `JSave` writes. -/
def saved : List Field := writes.map (·.field)

/-- The document gives the masks and the file, and nothing in it stops `Load`. -/
structure GivesKept (P : Poco) (o : Object) : Prop where
  converts : ∀ s ∈ reads P, Object.isNull o s.key = false →
    ∃ x, s.conv (Object.get o s.key) = .ok x
  notNull : ∀ k ∈ ["PrioMask", "CompMask", "OutMask", "LogOutFile"], Object.isNull o k = false

/-- The file is read last: it is assigned only when all conversions before it succeed. -/
private theorem given_of_filePath {P : Poco} {o : Object}
    (h : assigned o (reads P) .filePath ≠ none) : ∃ g, given o (reads P) = .ok g := by
  have hlast : reads P = (reads P).take 7 ++ [⟨"LogOutFile", .filePath, P.convertStr⟩] := rfl
  cases hss : given o ((reads P).take 7) with
  | error x =>
    rw [hlast, assigned_append_of_error hss] at h
    refine absurd (assigned_eq_none ?_) h
    simp [reads]
  | ok g =>
    rw [hlast, given_ok_iff, List.forall_mem_append]
    refine ⟨given_ok_iff.mp ⟨g, hss⟩, ?_⟩
    rw [List.forall_mem_singleton, P.convertStr_ok_iff]
    intro hn he
    rw [Object.isNull, he] at hn
    cases hn

/-- The masks and the file are not reset, so the history shows exactly when one is not read. -/
theorem historyFree_iff (P : Poco) (o : Object) :
    HistoryFree (load P) (layout.Agree saved) o ↔ GivesKept P o := by
  have hkept (q : Field → Prop) : (∀ f ∈ saved, resets f = none → q f) ↔
      q .prioMask ∧ q .compMask ∧ q .outMask ∧ q .filePath := by
    simp [saved, writes, resets]
  have hmask (a : Option UInt32) : (∀ x y, a.getD x = a.getD y) ↔ a ≠ none := by
    have hne : (0 : UInt32) ≠ 1 := by decide
    exact getD_const_iff hne a
  have hpath (a : Option COMStr) : (∀ x y, a.getD x = a.getD y) ↔ a ≠ none := by
    have hne : ("" : COMStr) ≠ "a" := by decide
    exact getD_const_iff hne a
  have hnull {g : Given Field.type} (hg : given o (reads P) = .ok g) :
      g .prioMask ≠ none ∧ g .compMask ≠ none ∧ g .outMask ≠ none ∧ g .filePath ≠ none ↔
        ∀ k ∈ ["PrioMask", "CompMask", "OutMask", "LogOutFile"], Object.isNull o k = false := by
    simp [given_eq_none_iff hg, reads]
  rw [load, historyFree_loadFields_iff layout clear_eq (exec_readFields_map layout o (reads P)),
    hkept]
  change (∀ x y, (assigned o (reads P) .prioMask).getD x = _) ∧
    (∀ x y, (assigned o (reads P) .compMask).getD x = _) ∧
    (∀ x y, (assigned o (reads P) .outMask).getD x = _) ∧
    (∀ x y, (assigned o (reads P) .filePath).getD x = _) ↔ _
  rw [hmask, hmask, hmask, hpath]
  constructor
  · intro h
    obtain ⟨g, hg⟩ := given_of_filePath h.2.2.2
    rw [assigned_of_given hg] at h
    exact ⟨given_ok_iff.mp ⟨g, hg⟩, (hnull hg).mp h⟩
  · intro h
    obtain ⟨g, hg⟩ := given_ok_iff.mpr h.converts
    rw [assigned_of_given hg]
    exact (hnull hg).mpr h.notNull

end LogConfig_T

/-! ### Classes with one list -/

omit [DecidableEq ψ] in
/-- Members that agree before the loop over a list agree after it: what is pushed does not depend
on them. -/
private theorem agree_loadArray {L : Layout F tyF} {A : List ψ} {push : List ρ → F → F}
    (hpush : ∀ rs c c', L.Agree A c c' → L.Agree A (push rs c) (push rs c')) (key : COMStr)
    (body : Nat → Var → Eff Exn ρ (Bool × Var)) (r : ρ) {c c' : F} (h : L.Agree A c c')
    (o : Object) :
    L.Agree A ((loadArray key body r push).exec ⟨c, some o⟩).2.fields
      ((loadArray key body r push).exec ⟨c', some o⟩).2.fields := by
  cases hh : Object.has o key with
  | false =>
    rw [exec_loadArray_of_absent hh, exec_loadArray_of_absent hh]
    exact hpush _ _ _ h
  | true =>
    cases hg : Object.getArray o key with
    | none =>
      rw [exec_loadArray_of_has hh hg, exec_loadArray_of_has hh hg]
      exact h
    | some vs =>
      rw [exec_loadArray_of_getArray hg, exec_loadArray_of_getArray hg]
      exact hpush _ _ _ h

/-- `Load` that throws before the list leaves the members read so far. -/
private theorem load_fields_of_error {C : ListConfig F ρ tyF} {o : Object} {x : Exn}
    (h : given o C.reads = .error x) (c : F) :
    (C.load.exec ⟨c, some o⟩).2.fields =
      C.layout.overlay (assigned o C.reads) (C.clear c) := by
  unfold ListConfig.load
  rw [Eff.exec_bind, Eff.exec_get]
  simp only [Eff.exec_bind, Eff.exec_set, exec_onFields, exec_readFields, h]
  rfl

/-- Members that agree after `Clear`, and that a push keeps in agreement, agree after `Load`. -/
theorem ListConfig.historyFree (C : ListConfig F ρ tyF) {A : List ψ}
    (hclear : ∀ c c', C.layout.Agree A (C.clear c) (C.clear c'))
    (hpush : ∀ rs c c', C.layout.Agree A c c' → C.layout.Agree A (C.push rs c) (C.push rs c'))
    (o : Object) : HistoryFree C.load (C.layout.Agree A) o := by
  intro c c'
  have hread (g : Given tyF) : C.layout.Agree A (C.layout.overlay g (C.clear c))
      (C.layout.overlay g (C.clear c')) := by
    rw [C.layout.overlay_eq_map, C.layout.overlay_eq_map]
    exact (hclear c c').map C.layout _
  cases hg : given o C.reads with
  | error x =>
    rw [load_fields_of_error hg, load_fields_of_error hg]
    exact hread _
  | ok g =>
    rw [load_fields_of_given hg, load_fields_of_given hg]
    exact agree_loadArray hpush C.key C.body C.record (hread g) o

/-- `Clear` resets every member. -/
theorem ManagerConfig_T.historyFree (P : Poco) (memory : ProcessConfig) (o : Object) :
    HistoryFree (load P memory) (layout.Agree (saver.saved .children)) o := by
  apply (table P memory).historyFree
  · intro c c' f _
    rfl
  · intro rs c c' h f hf
    cases f with
    | children => rfl
    | _ => exact h _ hf

/-- `Clear` resets every member. -/
theorem CollectorConfig_T.historyFree (P : Poco) (memory : Nat → Nat → AlarmConfig)
    (dev : DeviceConfig) (o : Object) :
    HistoryFree (load P memory dev) (layout.Agree (saver.saved .devices)) o := by
  apply (table P memory dev).historyFree
  · intro c c' f _
    rfl
  · intro rs c c' h f hf
    cases f with
    | devices => rfl
    | dataReportInterval => exact h _ hf

/-- The list is the only member. -/
theorem SensorGroup_T.historyFree (P : Poco) (memory : SensorAlarmConfig) (o : Object) :
    HistoryFree (load P memory) (layout.Agree (saver.saved ())) o := by
  apply (table P memory).historyFree
  · intro c c' f _
    rfl
  · intro rs c c' _ f _
    rfl

/-- `Clear` leaves `Relay1` and `Relay2`, which are not saved. -/
theorem DefaultRelayState_T.historyFree (P : Poco) (memory : DefaultRelayState) (o : Object) :
    HistoryFree (load P memory) (layout.Agree (saver.saved .dFRelay)) o := by
  have hlist (f : Field) (hf : f ∈ saver.saved .dFRelay) : f = .dFRelay := List.mem_singleton.mp hf
  apply (table P memory).historyFree
  · intro c c' f hf
    rw [hlist f hf]
    rfl
  · intro rs c c' _ f hf
    rw [hlist f hf]
    rfl

/-! ### Classes with two lists -/

/-- Both lists are reset. -/
theorem NTPConfig.historyFree (P : Poco) (memory : RestrictRule) (o : Object) :
    HistoryFree (load P memory) Eq o := by
  intro c c'
  rfl

/-- Both lists are reset. -/
theorem NetConfig.historyFree (P : Poco) (memory : Nat → NetItf) (o : Object) :
    HistoryFree (load P memory) Eq o := by
  intro c c'
  unfold load
  rw [Eff.exec_bind, Eff.exec_bind, Eff.exec_get, Eff.exec_get]
  rfl

/-! ### All classes -/

/-- The configuration classes that are loaded from a document. -/
inductive ConfigClass where
  | manager
  | collector
  | registration
  | mqtt
  | ntp
  | log
  | net
  | sensors
  | relays
  deriving DecidableEq, Repr

/-- What the stack holds where the functions that `Load` runs declare variables without an
initialiser. -/
structure LoadStack where
  child : ProcessConfig
  alarm : Nat → Nat → AlarmConfig
  device : DeviceConfig
  character : Char
  rule : RestrictRule
  itf : Nat → NetItf
  sensor : SensorAlarmConfig
  relay : DefaultRelayState

namespace ConfigClass

/-- From any two states with one document, `Load` leaves the same in the members that `JSave`
writes. -/
def HistoryFree (P : Poco) (m : LoadStack) (o : Object) : ConfigClass → Prop
  | manager => IcsGateway.HistoryFree (ManagerConfig_T.load P m.child)
      (ManagerConfig_T.layout.Agree (ManagerConfig_T.saver.saved .children)) o
  | collector => IcsGateway.HistoryFree (CollectorConfig_T.load P m.alarm m.device)
      (CollectorConfig_T.layout.Agree (CollectorConfig_T.saver.saved .devices)) o
  | registration => IcsGateway.HistoryFree (RegistrationInfo_T.load P m.character)
      (RegistrationInfo_T.layout.Agree RegistrationInfo_T.saved) o
  | mqtt => IcsGateway.HistoryFree (MqttBrokerConfig_T.load P m.character)
      (MqttBrokerConfig_T.layout.Agree MqttBrokerConfig_T.saved) o
  | ntp => IcsGateway.HistoryFree (NTPConfig.load P m.rule) Eq o
  | log => IcsGateway.HistoryFree (LogConfig_T.load P)
      (LogConfig_T.layout.Agree LogConfig_T.saved) o
  | net => IcsGateway.HistoryFree (NetConfig.load P m.itf) Eq o
  | sensors => IcsGateway.HistoryFree (SensorGroup_T.load P m.sensor)
      (SensorGroup_T.layout.Agree (SensorGroup_T.saver.saved ())) o
  | relays => IcsGateway.HistoryFree (DefaultRelayState_T.load P m.relay)
      (DefaultRelayState_T.layout.Agree (DefaultRelayState_T.saver.saved .dFRelay)) o

/-- The document gives the saved members that `Clear` forgets: the registration's protocol, and
the masks and the file of the logging. -/
def GivesKept (P : Poco) (o : Object) : ConfigClass → Prop
  | registration => Object.isNull o "Protocol" = false
  | log => LogConfig_T.GivesKept P o
  | _ => True

/-- `Load` of a document is independent of history exactly when the document gives what `Clear`
forgets. -/
theorem load_historyFree_iff (P : Poco) (m : LoadStack) (o : Object) (k : ConfigClass) :
    k.HistoryFree P m o ↔ k.GivesKept P o := by
  cases k with
  | manager => exact iff_true_intro (ManagerConfig_T.historyFree P m.child o)
  | collector => exact iff_true_intro (CollectorConfig_T.historyFree P m.alarm m.device o)
  | registration => exact RegistrationInfo_T.historyFree_iff P m.character o
  | mqtt => exact iff_true_intro (MqttBrokerConfig_T.historyFree P m.character o)
  | ntp => exact iff_true_intro (NTPConfig.historyFree P m.rule o)
  | log => exact LogConfig_T.historyFree_iff P o
  | net => exact iff_true_intro (NetConfig.historyFree P m.itf o)
  | sensors => exact iff_true_intro (SensorGroup_T.historyFree P m.sensor o)
  | relays => exact iff_true_intro (DefaultRelayState_T.historyFree P m.relay o)

/-- A registration loaded from a document with a protocol, by a new object. -/
def registered (protocol : COMStr) : RegistrationInfo_T :=
  ((RegistrationInfo_T.load Poco.json ' ').exec
    ⟨.new, some [("Protocol", .str protocol)]⟩).2.fields

/-- What the stack holds in a first run. -/
def blank : LoadStack where
  child := ⟨"", "", false, 0, 0, 0⟩
  alarm _ _ := ⟨"", "", 0, 0, 0, ""⟩
  device := ⟨"", "", "", 0, []⟩
  character := ' '
  rule := ⟨"", ""⟩
  itf _ := ⟨"", "", "", "", "", "", false⟩
  sensor := ⟨"", "", 0, 0, 0, "", ""⟩
  relay := ⟨"", "", 0, 0, 0⟩

/-- Two objects loaded a registration by MQTT and one by HTTP, and then both the document that
names only the device: each keeps its old protocol. The masks of the logging stay likewise. -/
theorem not_historyFree_noProtocol :
    ((RegistrationInfo_T.load Poco.json ' ').exec
      ⟨registered "MQTT", some [("DevID", .str "gw-1")]⟩).2.fields.protocol = "MQTT" ∧
    ((RegistrationInfo_T.load Poco.json ' ').exec
      ⟨registered "HTTP", some [("DevID", .str "gw-1")]⟩).2.fields.protocol = "HTTP" ∧
    ¬ HistoryFree Poco.json blank [("DevID", .str "gw-1")] registration ∧
    ¬ HistoryFree Poco.json blank [("logDir", .str "/tmp")] log := by
  refine ⟨by decide, by decide, ?_, ?_⟩
  · intro h
    have hp := h (registered "MQTT") (registered "HTTP") .protocol (by decide)
    revert hp
    decide
  · intro h
    have hm := h ⟨"", 0, 8, 5, 0, 0, 0, ""⟩ ⟨"", 0, 8, 5, 1, 0, 0, ""⟩ .compMask (by decide)
    revert hm
    decide

end ConfigClass

end IcsGateway
