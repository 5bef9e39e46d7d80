import IcsGateway.Common.ConfigElements
import IcsGateway.Common.ConfigHistory

/-!
# How `Load` ends, and what it leaves

`Load` resets the members and then overwrites them one by one, and no class keeps the members it
had (`Common/ComConfig.cpp`). A document is decoded when `Load` comes to its end; where it turns
back or a conversion throws, the members are those reset, overwritten by what stood before.
-/

namespace IcsGateway

open Lib

variable {F ρ ψ φ α : Type} [DecidableEq ψ] [DecidableEq φ] {tyF : ψ → Type} {ty : φ → Type}

/-! ### Documents that decode -/

/-- Every value that the statements read, and that is not null, converts. -/
def Converts (reads : List (Jget ty)) (o : Object) : Prop :=
  ∀ s ∈ reads, Object.isNull o s.key = false → ∃ x, s.conv (Object.get o s.key) = .ok x

/-- Nothing stands under the key, or an array of elements with `D`. -/
def HoldsList (key : COMStr) (D : Var → Prop) (o : Object) : Prop :=
  Object.has o key = false ∨ ∃ vs, Object.getArray o key = some vs ∧ ∀ v ∈ vs, D v

/-- An element of a list is an object whose values convert. -/
def RecordDecodes (reads : List (Jget ty)) (v : Var) : Prop :=
  ∃ o, v.getObject = some o ∧ Converts reads o

/-- How a `Load` ends on every document and what it leaves in the members: a null document is
refused and nothing is touched; any other is decoded to the end exactly when it `decodes`, and
leaves `decoded`, whether it came to its end or not. -/
structure LoadsBy (load : Eff Exn (ComConfig F) α) (done failed : α) (decodes : Object → Prop)
    (decoded : Object → F → F) : Prop where
  null : ∀ c, load.exec ⟨c, none⟩ = (.ok failed, ⟨c, none⟩)
  done_iff : ∀ c o, (load.exec ⟨c, some o⟩).1 = .ok done ↔ decodes o
  returns : ∀ c j a, (load.exec ⟨c, j⟩).1 = .ok a → a = done ∨ a = failed
  fields : ∀ c o, (load.exec ⟨c, some o⟩).2.fields = decoded o c

/-- `Load` that does not come to its end leaves the members as they were. -/
def KeepsOnFailure (load : Eff Exn (ComConfig F) α) (done : α) : Prop :=
  ∀ c j, (load.exec ⟨c, j⟩).1 ≠ .ok done → (load.exec ⟨c, j⟩).2.fields = c

/-- An array is found, or added, exactly when the key is free or holds one. -/
theorem holdsList_iff_vals {key : COMStr} {D : Var → Prop} {o : Object} :
    HoldsList key D o ↔ ∃ vs, (JGET_ARR o key).1.vals = some vs ∧ ∀ v ∈ vs, D v := by
  unfold HoldsList
  cases hh : Object.has o key with
  | false =>
    rw [JGET_ARR_of_absent hh]
    simp [ArrayPtr.vals]
  | true =>
    cases hg : Object.getArray o key with
    | none =>
      rw [JGET_ARR_of_has hh hg]
      simp [ArrayPtr.vals]
    | some vs =>
      rw [JGET_ARR_of_getArray hg]
      simp [ArrayPtr.vals]

/-- An element is read by the plain body exactly when it decodes. -/
theorem pushReading_ok_iff {reads : List (Jget ty)} (i : Nat) (v : Var) :
    (∃ a, pushReading reads i v = .ok a) ↔ RecordDecodes reads v := by
  unfold pushReading RecordDecodes Converts
  cases hv : v.getObject with
  | none => simp [deref, bind, Except.bind]
  | some o =>
    simp only [Option.some.injEq, exists_eq_left', ← given_ok_iff, deref, bind, Except.bind]
    cases given o reads with
    | error x => simp
    | ok g => simp

/-- Only what stands under the key counts. -/
theorem holdsList_congr {key : COMStr} {D : Var → Prop} {o o' : Object}
    (h : o'.lookup key = o.lookup key) : HoldsList key D o' ↔ HoldsList key D o := by
  unfold HoldsList
  rw [Object.has, Object.has, h, Object.getArray_congr h]

/-- The loop over a list comes to its end exactly when the list can be read. -/
private theorem loadArray_done_iff (key : COMStr) {body : Nat → Var → Eff Exn ρ (Bool × Var)}
    {r : ρ} (push : List ρ → F → F) {D : Var → Prop}
    (hstop : ∀ vs, (decodeList body 0 r vs).stop = none ↔ ∀ v ∈ vs, D v) (c : F) (o : Object) :
    ((loadArray key body r push).exec ⟨c, some o⟩).1 = .ok true ↔ HoldsList key D o := by
  unfold HoldsList
  cases hg : Object.getArray o key with
  | some vs =>
    rw [exec_loadArray_of_getArray hg, Object.has_of_getArray hg]
    simp only [Bool.true_eq_false, Option.some.injEq, exists_eq_left', false_or]
    rw [← hstop vs]
    cases (decodeList body 0 r vs).stop with
    | none => simp
    | some x => simp
  | none =>
    cases hh : Object.has o key with
    | true =>
      rw [exec_loadArray_of_has hh hg]
      simp
    | false =>
      rw [exec_loadArray_of_absent hh]
      simp

omit [DecidableEq φ] in
/-- A loop through one record variable reads its elements to the last exactly when each can be
read. -/
private theorem stop_eq_none_iff {L : Layout ρ ty} {body : Nat → Var → Eff Exn ρ (Bool × Var)}
    {reading : Nat → Var → Except Exn (Reading ty)} {after : Var → Var}
    (h : Realises L body reading after) {D : Var → Prop}
    (hD : ∀ i v, (∃ a, reading i v = .ok a) ↔ D v) (r : ρ) (vs : List Var) :
    (decodeList body 0 r vs).stop = none ↔ ∀ v ∈ vs, D v := by
  rw [decodeList_stop h, stopsWith_eq_failsAt]
  exact failsAt_eq_none_iff hD vs 0

/-! ### Classes with one list -/

/-- What such a `Load` leaves: the members reset, those assigned before a conversion that fails,
and the records of the elements before the first that cannot be read. -/
def ListConfig.decoded (C : ListConfig F ρ tyF) (L : Layout ρ ty)
    (reading : Nat → Var → Except Exn (Reading ty)) (o : Object) (c : F) : F :=
  C.push (records L C.record (readings reading 0 (listElements C.reads C.key o)))
    (C.layout.overlay (assigned o C.reads) (C.clear c))

/-- `Load` by its parts: the statements on the document, and the loop. -/
private theorem exec_load (C : ListConfig F ρ tyF) (c : F) (o : Object) :
    C.load.exec ⟨c, some o⟩ =
      match given o C.reads with
      | .error x => (.error x, ⟨C.layout.overlay (assigned o C.reads) (C.clear c), some o⟩)
      | .ok _ =>
        let r := (loadArray C.key C.body C.record C.push).exec
          ⟨C.layout.overlay (assigned o C.reads) (C.clear c), some o⟩
        (r.1.map fun got ↦ if got then none else some false, r.2) := by
  unfold ListConfig.load
  rw [Eff.exec_bind, Eff.exec_get]
  simp only [Eff.exec_bind, Eff.exec_set, exec_onFields, exec_readFields]
  cases given o C.reads with
  | error x => rfl
  | ok g =>
    simp only [Except.map]
    rcases (loadArray C.key C.body C.record C.push).exec
      ⟨C.layout.overlay (assigned o C.reads) (C.clear c), some o⟩ with ⟨r, s⟩
    cases r <;> rfl

omit [DecidableEq φ] in
/-- A class with one list. -/
theorem ListConfig.loadsBy {C : ListConfig F ρ tyF} (hC : C.Faithful) {L : Layout ρ ty}
    {reading : Nat → Var → Except Exn (Reading ty)} {after : Var → Var}
    (h : Realises L C.body reading after) {D : Var → Prop}
    (hD : ∀ i v, (∃ a, reading i v = .ok a) ↔ D v) :
    LoadsBy C.load none (some false) (fun o ↦ Converts C.reads o ∧ HoldsList C.key D o)
      (C.decoded L reading) where
  null c := rfl
  done_iff c o := by
    unfold Converts
    rw [← given_ok_iff, exec_load]
    cases hg : given o C.reads with
    | error x => simp
    | ok g =>
      rw [← loadArray_done_iff C.key C.push (stop_eq_none_iff h hD C.record)
        (C.layout.overlay (assigned o C.reads) (C.clear c)) o]
      simp only [Except.ok.injEq, exists_eq', true_and]
      cases ((loadArray C.key C.body C.record C.push).exec
        ⟨C.layout.overlay (assigned o C.reads) (C.clear c), some o⟩).1 with
      | error x => simp [Except.map]
      | ok got =>
        cases got with
        | true => simp [Except.map]
        | false => simp [Except.map]
  returns c j a ha := by
    cases j with
    | none =>
      cases ha
      exact .inr rfl
    | some o =>
      rw [exec_load] at ha
      cases hg : given o C.reads with
      | error x =>
        rw [hg] at ha
        cases ha
      | ok g =>
        rw [hg] at ha
        simp only at ha
        cases hr : ((loadArray C.key C.body C.record C.push).exec
          ⟨C.layout.overlay (assigned o C.reads) (C.clear c), some o⟩).1 with
        | error x =>
          rw [hr] at ha
          cases ha
        | ok got =>
          rw [hr] at ha
          cases got with
          | true => exact .inl (Except.ok.inj ha).symm
          | false => exact .inr (Except.ok.inj ha).symm
  fields c o := by
    have hempty : C.push [] (C.layout.overlay (assigned o C.reads) (C.clear c)) =
        C.layout.overlay (assigned o C.reads) (C.clear c) := by
      have hlist : C.list (C.layout.overlay (assigned o C.reads) (C.clear c)) = [] := by
        rw [hC.list_overlay _ _ fun p hp ↦ assigned_eq_none hp, hC.list_clear]
      rw [← hlist]
      exact hC.push_list _
    rw [exec_load]
    unfold ListConfig.decoded listElements
    cases hg : given o C.reads with
    | error x => exact hempty.symm
    | ok g =>
      simp only
      cases hga : Object.getArray o C.key with
      | some vs =>
        rw [exec_loadArray_of_getArray hga, decodeList_out h]
        rfl
      | none =>
        cases hh : Object.has o C.key with
        | true =>
          rw [exec_loadArray_of_has hh hga]
          exact hempty.symm
        | false =>
          rw [exec_loadArray_of_absent hh]
          rfl

/-- The document of a manager decodes. -/
def ManagerConfig_T.Decodes (P : Poco) (o : Object) : Prop :=
  Converts (reads P) o ∧ HoldsList "Children" (RecordDecodes (ProcessConfig.reads P)) o

/-- The `Load` of a manager. -/
theorem ManagerConfig_T.loadsBy (P : Poco) (memory : ProcessConfig) :
    LoadsBy (load P memory) none (some false) (Decodes P)
      ((table P memory).decoded ProcessConfig.layout (pushReading (ProcessConfig.reads P))) := by
  have hne : ProcessConfig.reads P ≠ [] := List.cons_ne_nil _ _
  exact ListConfig.loadsBy (faithful P memory) (pushRecord_realises ProcessConfig.layout hne)
    pushReading_ok_iff

/-- The document of the sensors decodes. -/
def SensorGroup_T.Decodes (P : Poco) (o : Object) : Prop :=
  HoldsList "Sensors" (RecordDecodes (SensorAlarmConfig.reads P)) o

/-- The document of the relays decodes. -/
def DefaultRelayState_T.Decodes (P : Poco) (o : Object) : Prop :=
  HoldsList "Relays" (RecordDecodes (DefaultRelayState.reads P)) o

omit [DecidableEq ψ] in
/-- A class whose list is all it reads. -/
private theorem LoadsBy.of_noReads {load : Eff Exn (ComConfig F) α} {done failed : α}
    {D : Object → Prop} {decoded : Object → F → F}
    (h : LoadsBy load done failed (fun o ↦ Converts ([] : List (Jget tyF)) o ∧ D o) decoded) :
    LoadsBy load done failed D decoded where
  null := h.null
  done_iff c o := by
    rw [h.done_iff c o]
    simp [Converts]
  returns := h.returns
  fields := h.fields

/-- The `Load` of the sensors. -/
theorem SensorGroup_T.loadsBy (P : Poco) (memory : SensorAlarmConfig) :
    LoadsBy (load P memory) none (some false) (Decodes P)
      ((table P memory).decoded SensorAlarmConfig.layout
        (pushReading (SensorAlarmConfig.reads P))) := by
  have hne : SensorAlarmConfig.reads P ≠ [] := List.cons_ne_nil _ _
  exact LoadsBy.of_noReads (ListConfig.loadsBy (faithful P memory)
    (pushRecord_realises SensorAlarmConfig.layout hne) pushReading_ok_iff)

/-- The `Load` of the relays. -/
theorem DefaultRelayState_T.loadsBy (P : Poco) (memory : DefaultRelayState) :
    LoadsBy (load P memory) none (some false) (Decodes P)
      ((table P memory).decoded DefaultRelayState.layout
        (pushReading (DefaultRelayState.reads P))) := by
  have hne : DefaultRelayState.reads P ≠ [] := List.cons_ne_nil _ _
  exact LoadsBy.of_noReads (ListConfig.loadsBy (faithful P memory)
    (pushRecord_realises DefaultRelayState.layout hne) pushReading_ok_iff)

/-! ### Devices and their alarms -/

namespace DeviceConfig

/-- A device decodes: its values convert, and so do those of every alarm that is an object. A
device whose alarms are not an array is passed over, as an alarm is that is not an object. -/
def Decodes (P : Poco) (v : Var) : Prop :=
  ∃ o, v.getObject = some o ∧ Converts (reads P) o ∧
    ∀ vs, Object.getArray o "alarms" = some vs → ∀ a ∈ vs, ∀ alarm, a.getObject = some alarm →
      Converts (AlarmConfig.reads P) alarm

/-- The alarms are read exactly when each that is an object converts. -/
private theorem readAlarms_ok_iff (P : Poco) (memory : Nat → AlarmConfig) (vs : List Var) :
    ∀ j, (∃ as, readAlarms P memory j vs = .ok as) ↔
      ∀ a ∈ vs, ∀ alarm, a.getObject = some alarm → Converts (AlarmConfig.reads P) alarm := by
  induction vs with
  | nil =>
    intro j
    simp [readAlarms]
  | cons v vs ih =>
    intro j
    rw [List.forall_mem_cons, ← ih (j + 1), readAlarms]
    cases hv : v.getObject with
    | none => simp
    | some o =>
      simp only [Option.some.injEq, forall_eq', exec_readFields]
      unfold Converts
      rw [← given_ok_iff]
      cases given o (AlarmConfig.reads P) with
      | error x => simp [Except.map, bind, Except.bind]
      | ok g =>
        cases readAlarms P memory (j + 1) vs with
        | error x => simp [Except.map, bind, Except.bind]
        | ok as => simp [Except.map, bind, Except.bind]

/-- A device is read exactly when it decodes. -/
theorem reading_ok_iff (P : Poco) (memory : Nat → Nat → AlarmConfig) (i : Nat) (v : Var) :
    (∃ a, reading P memory i v = .ok a) ↔ Decodes P v := by
  unfold reading Decodes
  cases hv : v.getObject with
  | none => simp [deref, bind, Except.bind]
  | some o =>
    simp only [Option.some.injEq, exists_eq_left', deref, bind, Except.bind]
    unfold Converts
    rw [← given_ok_iff]
    cases given o (reads P) with
    | error x => simp
    | ok g =>
      simp only [Except.ok.injEq, exists_eq', true_and]
      cases hg : Object.getArray o "alarms" with
      | some vs =>
        rw [JGET_ARR_of_getArray hg]
        simp only [ArrayPtr.vals, Option.some.injEq, forall_eq']
        have halarms := readAlarms_ok_iff P (memory i) vs 0
        unfold Converts at halarms
        rw [← halarms]
        cases readAlarms P (memory i) 0 vs with
        | error x => simp
        | ok as => simp
      | none =>
        cases hh : Object.has o "alarms" with
        | true =>
          rw [JGET_ARR_of_has hh hg]
          simp [ArrayPtr.vals]
        | false =>
          rw [JGET_ARR_of_absent hh]
          simp [ArrayPtr.vals, readAlarms]

end DeviceConfig

/-- The document of a collector decodes. -/
def CollectorConfig_T.Decodes (P : Poco) (o : Object) : Prop :=
  Converts (reads P) o ∧ HoldsList "devices" (DeviceConfig.Decodes P) o

/-- The `Load` of a collector. -/
theorem CollectorConfig_T.loadsBy (P : Poco) (memory : Nat → Nat → AlarmConfig)
    (dev : DeviceConfig) :
    LoadsBy (load P memory dev) none (some false) (Decodes P)
      ((table P memory dev).decoded DeviceConfig.layout (DeviceConfig.reading P memory)) :=
  ListConfig.loadsBy (faithful P memory dev) (DeviceConfig.body_realises P memory)
    (DeviceConfig.reading_ok_iff P memory)

/-! ### Classes without a list -/

/-- A class without a list whose reads end as the document converts. -/
private theorem loadFields_loadsBy {clear : F → F} {reads : Option Object → Eff Exn F Unit}
    {decodes : Object → Prop} {decoded : Object → F → F}
    (hdone : ∀ c o, ((reads (some o)).exec c).1 = .ok () ↔ decodes o)
    (hfields : ∀ c o, ((reads (some o)).exec (clear c)).2 = decoded o c) :
    LoadsBy (loadFields clear reads) true false decodes decoded where
  null c := rfl
  done_iff c o := by
    rw [← hdone (clear c) o]
    unfold loadFields
    simp only [Eff.exec_bind, Eff.exec_get, Eff.exec_set, exec_onFields]
    cases ((reads (some o)).exec (clear c)).1 with
    | error x => simp
    | ok u => simp
  returns c j a _ := by
    cases a with
    | true => exact .inl rfl
    | false => exact .inr rfl
  fields c o := by
    rw [← hfields c o]
    exact fields_loadFields clear reads c o

/-- Without a failing conversion a run of `JGET` statements ends. -/
private theorem map_given_iff {o : Object} {ss : List (Jget tyF)} :
    ((given o ss).map fun _ ↦ ()) = .ok () ↔ Converts ss o := by
  unfold Converts
  rw [← given_ok_iff]
  cases given o ss with
  | error x => simp [Except.map]
  | ok g => simp [Except.map]

/-- Two runs of `JGET` statements, of which the first never stops, with a change between them. -/
private theorem readFields_modify_loadsBy {L : Layout F tyF} {clear v : F → F}
    {ss ts : List (Jget tyF)} (hss : ∀ s ∈ ss, ∀ x, x ≠ .empty → ∃ y, s.conv x = .ok y)
    {reads : Option Object → Eff Exn F Unit}
    (hreads : ∀ j, reads j = do readFields L j ss; modify v; readFields L j ts) :
    LoadsBy (loadFields clear reads) true false (Converts (ss ++ ts))
      (fun o c ↦ L.overlay (assigned o ts) (v (L.overlay (assigned o ss) (clear c)))) := by
  have hexec (c : F) (o : Object) : (reads (some o)).exec c =
      ((given o ts).map fun _ ↦ (),
        L.overlay (assigned o ts) (v (L.overlay (assigned o ss) c))) := by
    obtain ⟨g, hg⟩ := given_of_total o hss
    rw [hreads, Eff.exec_bind_of_ok (exec_readFields_of_given L hg c), Eff.exec_bind,
      Eff.exec_modify, assigned_of_given hg]
    exact exec_readFields L o ts _
  have hfirst (o : Object) : Converts ss o := given_ok_iff.mp (given_of_total o hss)
  apply loadFields_loadsBy
  · intro c o
    rw [hexec, map_given_iff]
    unfold Converts
    rw [List.forall_mem_append]
    exact (and_iff_right (hfirst o)).symm
  · intro c o
    rw [hexec]

namespace RegistrationInfo_T

/-- The document of a registration decodes. -/
def Decodes (P : Poco) : Object → Prop := Converts (readsName P ++ readsRest P)

/-- What `Load` leaves of a registration. -/
def decoded (P : Poco) (memory : Char) (o : Object) (c : RegistrationInfo_T) :
    RegistrationInfo_T :=
  let named := layout.overlay (assigned o (readsName P)) (clear c)
  layout.overlay (assigned o (readsRest P))
    { named with restAPI := ComUtil.strRemove memory named.restAPI }

/-- The `Load` of a registration. -/
theorem loadsBy (P : Poco) (memory : Char) :
    LoadsBy (load P memory) true false (Decodes P) (decoded P memory) := by
  have hname : ∀ s ∈ readsName P, ∀ x, x ≠ .empty → ∃ y, s.conv x = .ok y := by
    simp only [readsName, List.forall_mem_cons, P.convertStr_ok_iff, imp_self, implies_true,
      List.not_mem_nil, false_implies, and_self]
  exact readFields_modify_loadsBy hname fun _ ↦ rfl

end RegistrationInfo_T

namespace MqttBrokerConfig_T

/-- The document of a broker decodes. -/
def Decodes (P : Poco) : Object → Prop := Converts (readsHost P ++ readsRest P)

/-- What `Load` leaves of a broker. -/
def decoded (P : Poco) (memory : Char) (o : Object) (c : MqttBrokerConfig_T) :
    MqttBrokerConfig_T :=
  let hosted := layout.overlay (assigned o (readsHost P)) (clear c)
  layout.overlay (assigned o (readsRest P))
    { hosted with host := ComUtil.strRemove memory hosted.host }

/-- The `Load` of a broker. -/
theorem loadsBy (P : Poco) (memory : Char) :
    LoadsBy (load P memory) true false (Decodes P) (decoded P memory) := by
  have hhost : ∀ s ∈ readsHost P, ∀ x, x ≠ .empty → ∃ y, s.conv x = .ok y := by
    simp only [readsHost, List.forall_mem_cons, P.convertStr_ok_iff, imp_self, implies_true,
      List.not_mem_nil, false_implies, and_self]
  exact readFields_modify_loadsBy hhost fun _ ↦ rfl

end MqttBrokerConfig_T

namespace LogConfig_T

/-- What `Load` leaves of the logging. -/
def decoded (P : Poco) (o : Object) (c : LogConfig_T) : LogConfig_T :=
  layout.overlay (assigned o (reads P)) (clear c)

/-- The `Load` of the logging. -/
theorem loadsBy (P : Poco) :
    LoadsBy (load P) true false (Converts (reads P)) (decoded P) := by
  apply loadFields_loadsBy
  · intro c o
    rw [exec_readFields]
    exact map_given_iff
  · intro c o
    rw [exec_readFields]
    rfl

end LogConfig_T

/-! ### Classes with two lists -/

namespace NTPConfig

/-- The text of a server converts. -/
def ServerDecodes (P : Poco) (v : Var) : Prop := ∃ s, P.convertStr v = .ok s

/-- The document of the time servers decodes. -/
def Decodes (P : Poco) (o : Object) : Prop :=
  HoldsList "Servers" (ServerDecodes P) o ∧
    HoldsList "Restrict" (RecordDecodes (RestrictRule.reads P)) o

/-- What `Load` leaves of the time servers: the servers before the first that is no text, and the
rules read once all servers are. -/
def decoded (P : Poco) (memory : RestrictRule) (o : Object) (_ : NTPConfig) : NTPConfig where
  servers := readUpTo (fun _ ↦ P.convertStr) 0 ((Object.getArray o "Servers").getD [])
  restrict := (restrictPairs P memory o).foldl (fun m r ↦ ComMap.assign m r.ip r.mask) []

/-- The loop over the servers pushes their texts. -/
private theorem decodeList_pushServer (P : Poco) (vs : List Var) :
    (decodeList (pushServer P) 0 "" vs).out = readUpTo (fun _ ↦ P.convertStr) 0 vs ∧
      ((decodeList (pushServer P) 0 "" vs).stop = none ↔ ∀ v ∈ vs, ServerDecodes P v) := by
  have hok : ∀ i v r x, P.convertStr v = .ok x →
      (pushServer P i v).exec r = (.ok (true, v), x) := by
    intro i v r x hx
    unfold pushServer
    rw [Eff.exec_ofExcept_bind, hx]
    rfl
  have herror : ∀ i v r x, P.convertStr v = .error x →
      ((pushServer P i v).exec r).1 = .error x := by
    intro i v r x hx
    unfold pushServer
    rw [Eff.exec_ofExcept_bind, hx]
  have hrun := decodeList_of_total hok herror vs 0 ""
  rw [hrun.2]
  have hconverts : ∀ (_ : Nat) v, (∃ s, P.convertStr v = .ok s) ↔ ServerDecodes P v :=
    fun _ _ ↦ Iff.rfl
  exact ⟨hrun.1, failsAt_eq_none_iff hconverts vs 0⟩

/-- A loop over a list leaves what the document holds under the other keys. -/
private theorem loadArray_other {body : Nat → Var → Eff Exn ρ (Bool × Var)} {r : ρ}
    {push : List ρ → F → F} {key k : COMStr} (hk : k ≠ key) (c : F) (o : Object) :
    ∃ o', ((loadArray key body r push).exec ⟨c, some o⟩).2.jConf = some o' ∧
      o'.lookup k = o.lookup k := by
  cases hg : Object.getArray o key with
  | some vs =>
    rw [exec_loadArray_of_getArray hg]
    refine ⟨_, rfl, ?_⟩
    rw [Object.lookup_set, if_neg hk]
  | none =>
    cases hh : Object.has o key with
    | true =>
      rw [exec_loadArray_of_has hh hg]
      exact ⟨o, rfl, rfl⟩
    | false =>
      rw [exec_loadArray_of_absent hh]
      refine ⟨_, rfl, ?_⟩
      rw [Object.lookup_set, if_neg hk]

/-- The rules do not touch the servers. -/
private theorem servers_loadArray {body : Nat → Var → Eff Exn RestrictRule (Bool × Var)}
    {r : RestrictRule} {key : COMStr} (c : NTPConfig) (o : Object) :
    ((loadArray key body r assignAll).exec ⟨c, some o⟩).2.fields.servers = c.servers := by
  cases hg : Object.getArray o key with
  | some vs =>
    rw [exec_loadArray_of_getArray hg]
    rfl
  | none =>
    cases hh : Object.has o key with
    | true => rw [exec_loadArray_of_has hh hg]
    | false =>
      rw [exec_loadArray_of_absent hh]
      rfl

/-- The first loop of `Load`. -/
private def readServers (P : Poco) : Eff Exn (ComConfig NTPConfig) Bool :=
  loadArray "Servers" (pushServer P) "" fun ss c ↦ { c with servers := ss }

/-- The second one. -/
private def readRestrict (P : Poco) (memory : RestrictRule) : Eff Exn (ComConfig NTPConfig) Bool :=
  loadArray "Restrict" (pushRecord RestrictRule.layout (RestrictRule.reads P))
    (declared RestrictRule.layout RestrictRule.initialisers memory) assignAll

/-- `Load` by its parts. -/
private theorem exec_load (P : Poco) (memory : RestrictRule) (c : NTPConfig) (o : Object) :
    (load P memory).exec ⟨c, some o⟩ =
      match (readServers P).exec ⟨clear c, some o⟩ with
      | (.ok true, s) => (readRestrict P memory).exec s
      | (.ok false, s) => (.ok false, s)
      | (.error x, s) => (.error x, s) := by
  unfold load readServers readRestrict
  rw [Eff.exec_bind, Eff.exec_get]
  simp only [Eff.exec_bind, Eff.exec_set]
  generalize (loadArray "Servers" _ _ _).exec _ = out
  rcases out with ⟨r, s⟩
  cases r with
  | error x => rfl
  | ok svr => cases svr <;> rfl

/-- What the first loop does. -/
private theorem exec_readServers (P : Poco) (c : NTPConfig) (o : Object) :
    (((readServers P).exec ⟨clear c, some o⟩).1 = .ok true ↔
      HoldsList "Servers" (ServerDecodes P) o) ∧
    ((readServers P).exec ⟨clear c, some o⟩).2.fields.servers =
      readUpTo (fun _ ↦ P.convertStr) 0 ((Object.getArray o "Servers").getD []) ∧
    ∃ o', ((readServers P).exec ⟨clear c, some o⟩).2.jConf = some o' ∧
      o'.lookup "Restrict" = o.lookup "Restrict" := by
  refine ⟨?_, ?_, ?_⟩
  · exact loadArray_done_iff "Servers" _ (fun vs ↦ (decodeList_pushServer P vs).2) (clear c) o
  · unfold readServers
    cases hg : Object.getArray o "Servers" with
    | some vs =>
      rw [exec_loadArray_of_getArray hg]
      exact (decodeList_pushServer P vs).1
    | none =>
      cases hh : Object.has o "Servers" with
      | true =>
        rw [exec_loadArray_of_has hh hg]
        rfl
      | false =>
        rw [exec_loadArray_of_absent hh]
        rfl
  · have hne : "Restrict" ≠ "Servers" := by decide
    exact loadArray_other hne (clear c) o

/-- The `Load` of the time servers. -/
theorem loadsBy (P : Poco) (memory : RestrictRule) :
    LoadsBy (load P memory) true false (Decodes P) (decoded P memory) where
  null c := rfl
  done_iff c o := by
    have hne : RestrictRule.reads P ≠ [] := List.cons_ne_nil _ _
    obtain ⟨hservers, -, o', hdoc, hlookup⟩ := exec_readServers P c o
    unfold Decodes
    rw [exec_load, ← hservers, ← holdsList_congr hlookup]
    rcases hrun : (readServers P).exec ⟨clear c, some o⟩ with ⟨r, f, j⟩
    rw [hrun] at hdoc
    cases hdoc
    rw [← loadArray_done_iff "Restrict" assignAll (stop_eq_none_iff
      (pushRecord_realises RestrictRule.layout hne) pushReading_ok_iff
      (declared RestrictRule.layout RestrictRule.initialisers memory)) f o']
    cases r with
    | error x => simp
    | ok svr =>
      cases svr with
      | true => simp [readRestrict]
      | false => simp
  returns c j a _ := by
    cases a with
    | true => exact .inl rfl
    | false => exact .inr rfl
  fields c o := by
    obtain ⟨-, hservers, o', hdoc, -⟩ := exec_readServers P c o
    have hkept : ((load P memory).exec ⟨c, some o⟩).2.fields.servers =
        readUpTo (fun _ ↦ P.convertStr) 0 ((Object.getArray o "Servers").getD []) := by
      rw [exec_load, ← hservers]
      rcases hrun : (readServers P).exec ⟨clear c, some o⟩ with ⟨r, f, j⟩
      rw [hrun] at hdoc
      cases hdoc
      cases r with
      | error x => rfl
      | ok svr =>
        cases svr with
        | true => exact servers_loadArray f o'
        | false => rfl
    have hrestrict := load_restrict P memory c o
    rcases hfields : ((load P memory).exec ⟨c, some o⟩).2.fields with ⟨servers, restrict⟩
    rw [hfields] at hkept hrestrict
    unfold decoded
    rw [← hkept, ← hrestrict]

end NTPConfig

namespace NetConfig

/-- The document of the network decodes. -/
def Decodes (P : Poco) (o : Object) : Prop :=
  HoldsList "DNS" (NTPConfig.ServerDecodes P) o ∧
    HoldsList "Itfs" (RecordDecodes (NetItf.reads P)) o

/-- The interface that an element makes, on what the stack holds. -/
def readItf (P : Poco) (memory : Nat → NetItf) (i : Nat) (v : Var) : Except Exn NetItf :=
  (pushReading (NetItf.reads P) i v).map fun a ↦
    NetItf.layout.overlay a.given (declared NetItf.layout NetItf.initialisers (memory i))

/-- What `Load` leaves of the network: nothing unless both arrays are found, then the servers
before the first that is no text, and the interfaces read once all servers are. -/
def decoded (P : Poco) (memory : Nat → NetItf) (o : Object) (_ : NetConfig) : NetConfig :=
  match (JGET_ARR o "DNS").1.vals, (JGET_ARR o "Itfs").1.vals with
  | some ds, some cs =>
    { dns := readUpTo (fun _ ↦ P.convertStr) 0 ds,
      itfs := if (failsAt (fun _ ↦ P.convertStr) 0 ds).isNone then
        readUpTo (readItf P memory) 0 cs else [] }
  | _, _ => { dns := [], itfs := [] }

/-- How a reading ends. -/
private def ending (x : Option Exn) : Except Exn Unit :=
  match x with
  | some x => .error x
  | none => .ok ()

/-- The loop over the name servers. -/
private theorem exec_pushDNS (P : Poco) (vs : List Var) :
    ∀ i c, (pushDNS P vs).exec c =
      (ending (failsAt (fun _ ↦ P.convertStr) i vs),
        { c with dns := c.dns ++ readUpTo (fun _ ↦ P.convertStr) i vs }) := by
  induction vs with
  | nil =>
    intro i c
    simp [pushDNS, failsAt, readUpTo, ending]
  | cons v vs ih =>
    intro i c
    rw [pushDNS, failsAt, readUpTo, Eff.exec_ofExcept_bind]
    cases hv : P.convertStr v with
    | error x => simp [ending]
    | ok d =>
      simp only [Eff.exec_bind, Eff.exec_modify]
      rw [ih (i + 1)]
      simp

/-- The loop over the interfaces. -/
private theorem exec_pushItfs (P : Poco) (memory : Nat → NetItf) (vs : List Var) :
    ∀ i c, (pushItfs P memory i vs).exec c =
      (ending (failsAt (readItf P memory) i vs),
        { c with itfs := c.itfs ++ readUpTo (readItf P memory) i vs }) := by
  have hne : NetItf.reads P ≠ [] := List.cons_ne_nil _ _
  induction vs with
  | nil =>
    intro i c
    simp [pushItfs, failsAt, readUpTo, ending]
  | cons v vs ih =>
    intro i c
    rw [pushItfs, failsAt, readUpTo, readItf]
    simp only [Eff.exec_ofExcept_bind]
    cases hr : pushReading (NetItf.reads P) i v with
    | error x =>
      rw [exec_readFields_of_pushReading_error NetItf.layout hne hr]
      simp [Except.map, ending]
    | ok a =>
      rw [(exec_readFields_of_pushReading NetItf.layout hr _).1]
      simp only [Eff.exec_bind, Eff.exec_modify, Except.map]
      rw [ih (i + 1)]
      simp

/-- An interface is read exactly when it decodes. -/
private theorem readItf_ok_iff (P : Poco) (memory : Nat → NetItf) (i : Nat) (v : Var) :
    (∃ x, readItf P memory i v = .ok x) ↔ RecordDecodes (NetItf.reads P) v := by
  rw [← pushReading_ok_iff i v, readItf]
  cases pushReading (NetItf.reads P) i v with
  | error x => simp [Except.map]
  | ok a => simp [Except.map]

/-- How `Load` ends. -/
private theorem load_result (P : Poco) (memory : Nat → NetItf) (c : NetConfig) (o : Object) :
    ((load P memory).exec ⟨c, some o⟩).1 =
        (match (JGET_ARR o "DNS").1.vals, (JGET_ARR o "Itfs").1.vals with
        | some ds, some cs =>
          match failsAt (fun _ ↦ P.convertStr) 0 ds, failsAt (readItf P memory) 0 cs with
          | none, none => .ok true
          | none, some x => .error x
          | some x, _ => .error x
        | _, _ => .ok false) ∧
      ((load P memory).exec ⟨c, some o⟩).2.fields = decoded P memory o c := by
  have hne : "Itfs" ≠ "DNS" := by decide
  have hitfs : (JGET_ARR (JGET_ARR o "DNS").2 "Itfs").1 = (JGET_ARR o "Itfs").1 :=
    JGET_ARR_congr (lookup_JGET_ARR hne)
  unfold load decoded
  rw [Eff.exec_bind, Eff.exec_get]
  simp only [Eff.exec_bind, Eff.exec_set]
  cases hd : (JGET_ARR o "DNS").1.vals with
  | none => exact ⟨rfl, rfl⟩
  | some ds =>
    simp only [Eff.exec_bind, Eff.exec_modify, hitfs]
    cases hc : (JGET_ARR o "Itfs").1.vals with
    | none => exact ⟨rfl, rfl⟩
    | some cs =>
      simp only [Eff.exec_bind, exec_onFields, exec_pushDNS P ds 0]
      cases failsAt (fun _ ↦ P.convertStr) 0 ds with
      | some x => exact ⟨rfl, rfl⟩
      | none =>
        simp only [ending, exec_pushItfs]
        cases failsAt (readItf P memory) 0 cs with
        | some x => exact ⟨rfl, rfl⟩
        | none => exact ⟨rfl, rfl⟩

/-- The `Load` of the network. -/
theorem loadsBy (P : Poco) (memory : Nat → NetItf) :
    LoadsBy (load P memory) true false (Decodes P) (decoded P memory) where
  null c := rfl
  done_iff c o := by
    have hconverts : ∀ (_ : Nat) v, (∃ s, P.convertStr v = .ok s) ↔ NTPConfig.ServerDecodes P v :=
      fun _ _ ↦ Iff.rfl
    unfold Decodes
    rw [(load_result P memory c o).1, holdsList_iff_vals, holdsList_iff_vals]
    cases (JGET_ARR o "DNS").1.vals with
    | none => simp
    | some ds =>
      cases (JGET_ARR o "Itfs").1.vals with
      | none => simp
      | some cs =>
        simp only [Option.some.injEq, exists_eq_left']
        rw [← failsAt_eq_none_iff hconverts ds 0,
          ← failsAt_eq_none_iff (readItf_ok_iff P memory) cs 0]
        cases failsAt (fun _ ↦ P.convertStr) 0 ds with
        | some x => simp
        | none =>
          cases failsAt (readItf P memory) 0 cs with
          | some x => simp
          | none => simp
  returns c j a _ := by
    cases a with
    | true => exact .inl rfl
    | false => exact .inr rfl
  fields c o := (load_result P memory c o).2

end NetConfig

/-! ### All classes -/

namespace ConfigClass

/-- How the `Load` of a class ends, and what it leaves. The classes with one list of records end
without a `return` once the list is read. -/
def LoadsBy (P : Poco) (m : LoadStack) : ConfigClass → Prop
  | manager => IcsGateway.LoadsBy (ManagerConfig_T.load P m.child) none (some false)
      (ManagerConfig_T.Decodes P) ((ManagerConfig_T.table P m.child).decoded ProcessConfig.layout
        (pushReading (ProcessConfig.reads P)))
  | collector => IcsGateway.LoadsBy (CollectorConfig_T.load P m.alarm m.device) none (some false)
      (CollectorConfig_T.Decodes P) ((CollectorConfig_T.table P m.alarm m.device).decoded
        DeviceConfig.layout (DeviceConfig.reading P m.alarm))
  | registration => IcsGateway.LoadsBy (RegistrationInfo_T.load P m.character) true false
      (RegistrationInfo_T.Decodes P) (RegistrationInfo_T.decoded P m.character)
  | mqtt => IcsGateway.LoadsBy (MqttBrokerConfig_T.load P m.character) true false
      (MqttBrokerConfig_T.Decodes P) (MqttBrokerConfig_T.decoded P m.character)
  | ntp => IcsGateway.LoadsBy (NTPConfig.load P m.rule) true false (NTPConfig.Decodes P)
      (NTPConfig.decoded P m.rule)
  | log => IcsGateway.LoadsBy (LogConfig_T.load P) true false (Converts (LogConfig_T.reads P))
      (LogConfig_T.decoded P)
  | net => IcsGateway.LoadsBy (NetConfig.load P m.itf) true false (NetConfig.Decodes P)
      (NetConfig.decoded P m.itf)
  | sensors => IcsGateway.LoadsBy (SensorGroup_T.load P m.sensor) none (some false)
      (SensorGroup_T.Decodes P) ((SensorGroup_T.table P m.sensor).decoded SensorAlarmConfig.layout
        (pushReading (SensorAlarmConfig.reads P)))
  | relays => IcsGateway.LoadsBy (DefaultRelayState_T.load P m.relay) none (some false)
      (DefaultRelayState_T.Decodes P) ((DefaultRelayState_T.table P m.relay).decoded
        DefaultRelayState.layout (pushReading (DefaultRelayState.reads P)))

/-- The `Load` of every class comes to its end exactly on the documents that decode, and leaves,
also where it does not, what stood in the document before that point. -/
theorem load_outcome (P : Poco) (m : LoadStack) (k : ConfigClass) : k.LoadsBy P m := by
  cases k with
  | manager => exact ManagerConfig_T.loadsBy P m.child
  | collector => exact CollectorConfig_T.loadsBy P m.alarm m.device
  | registration => exact RegistrationInfo_T.loadsBy P m.character
  | mqtt => exact MqttBrokerConfig_T.loadsBy P m.character
  | ntp => exact NTPConfig.loadsBy P m.rule
  | log => exact LogConfig_T.loadsBy P
  | net => exact NetConfig.loadsBy P m.itf
  | sensors => exact SensorGroup_T.loadsBy P m.sensor
  | relays => exact DefaultRelayState_T.loadsBy P m.relay

/-- The network of a gateway with a name server. -/
def resolved : NetConfig := { itfs := [], dns := ["1.1.1.1"] }

/-- `Load` refuses a document whose `DNS` is a text, and throws at a size of the logging that is
out of range: the name servers are gone, and the directory is another. -/
theorem not_keepsOnFailure_dnsText :
    (NetConfig.load Poco.json blank.itf).exec ⟨resolved, some [("DNS", .str "8.8.8.8")]⟩ =
      (.ok false, ⟨{ itfs := [], dns := [] }, some [("DNS", .str "8.8.8.8")]⟩) ∧
    ¬ KeepsOnFailure (NetConfig.load Poco.json blank.itf) true ∧
    ¬ KeepsOnFailure (LogConfig_T.load Poco.json) true := by
  refine ⟨rfl, ?_, ?_⟩
  · intro h
    have hdns := congrArg NetConfig.dns
      (h resolved (some [("DNS", .str "8.8.8.8")]) (by decide))
    revert hdns
    decide
  · intro h
    have hdir := congrArg LogConfig_T.logDir (h ⟨"/var/log", 0, 8, 5, 0, 0, 0, ""⟩
      (some [("logDir", .str "/tmp"), ("logMbSize", .int 3000000000)]) (by decide))
    revert hdir
    decide

end ConfigClass

end IcsGateway
