import IcsGateway.Common.LoadOutcome

/-!
# Texts without blanks

`Load` passes the broker's host and the address of the registration through `StrRemove`, to take
the blanks out (`Common/ComConfig.cpp:244,320`). It compares with a variable that is never set and
not with its argument (`Common/ComUtil.cpp:268`), and so takes out whatever the stack held there.
-/

namespace IcsGateway

open Lib

/-- A text without its blanks. -/
def withoutBlanks (s : COMStr) : COMStr := String.ofList (s.toList.filter fun c ↦ c ≠ ' ')

/-- What the stack held makes no difference to a text: it is a blank, or the text has neither it
nor a blank. -/
def Indifferent (memory : Char) (s : COMStr) : Prop :=
  memory = ' ' ∨ memory ∉ s.toList ∧ ' ' ∉ s.toList

instance (memory : Char) (s : COMStr) : Decidable (Indifferent memory s) :=
  inferInstanceAs (Decidable (_ ∨ _))

/-- The blanks are taken out exactly when it makes none. -/
theorem ComUtil.strRemove_eq_withoutBlanks_iff (memory : Char) (s : COMStr) :
    strRemove memory s = withoutBlanks s ↔ Indifferent memory s := by
  rw [strRemove, withoutBlanks, String.ofList_inj, Indifferent]
  constructor
  · intro h
    by_cases hblank : memory = ' '
    · exact .inl hblank
    · right
      constructor
      · intro hmem
        have hkept : memory ∈ s.toList.filter fun c ↦ c ≠ ' ' :=
          List.mem_filter.mpr ⟨hmem, decide_eq_true hblank⟩
        rw [← h] at hkept
        exact of_decide_eq_true (List.mem_filter.mp hkept).2 rfl
      · intro hmem
        have hkept : ' ' ∈ s.toList.filter fun c ↦ c ≠ memory :=
          List.mem_filter.mpr ⟨hmem, decide_eq_true (Ne.symm hblank)⟩
        rw [h] at hkept
        exact of_decide_eq_true (List.mem_filter.mp hkept).2 rfl
  · rintro (rfl | ⟨hmemory, hblank⟩)
    · rfl
    · apply List.filter_congr
      intro c hc
      have hne : c ≠ memory := fun he ↦ hmemory (he ▸ hc)
      have hne' : c ≠ ' ' := fun he ↦ hblank (he ▸ hc)
      rw [decide_eq_true hne, decide_eq_true hne']

/-! ### The broker and the registration -/

/-- After `Load` the broker's host is the document's, without its blanks. -/
def MqttBrokerConfig_T.HostRight (P : Poco) (memory : Char) (o : Object)
    (c : MqttBrokerConfig_T) : Prop :=
  ((load P memory).exec ⟨c, some o⟩).2.fields.host = withoutBlanks (Object.text P o "host")

/-- After `Load` the address of the registration is the document's, without its blanks. -/
def RegistrationInfo_T.RestAPIRight (P : Poco) (memory : Char) (o : Object)
    (c : RegistrationInfo_T) : Prop :=
  ((load P memory).exec ⟨c, some o⟩).2.fields.restAPI = withoutBlanks (Object.text P o "RestAPI")

/-- A text that is read where it was empty becomes the text of the document. -/
private theorem getNullableValue_text (P : Poco) (o : Object) (k : COMStr) :
    ∃ x, Object.getNullableValue P.convertStr o k = .ok x ∧ x.getD "" = Object.text P o k := by
  have hget := JGET_convertStr P o k
  rw [JGET_some] at hget
  cases hx : Object.getNullableValue P.convertStr o k with
  | error e =>
    rw [hx] at hget
    cases hget
  | ok x =>
    rw [hx] at hget
    exact ⟨x, rfl, Except.ok.inj hget⟩

/-- The host that `Load` leaves. -/
theorem MqttBrokerConfig_T.host_load (P : Poco) (memory : Char) (o : Object)
    (c : MqttBrokerConfig_T) : ((load P memory).exec ⟨c, some o⟩).2.fields.host =
      ComUtil.strRemove memory (Object.text P o "host") := by
  have hrest : assigned o (readsRest P) .host = none := by
    apply assigned_eq_none
    simp [readsRest]
  obtain ⟨x, hx, htext⟩ := getNullableValue_text P o "host"
  have hhost : (assigned o (readsHost P) .host).getD "" = Object.text P o "host" := by
    simp only [readsHost, assigned, hx, Given.before]
    cases x <;> exact htext
  have hload : ((load P memory).exec ⟨c, some o⟩).2.fields.host =
      layout.get (decoded P memory o c) .host :=
    congrArg MqttBrokerConfig_T.host ((loadsBy P memory).fields c o)
  rw [hload, decoded, Layout.get_overlay, hrest, ← hhost]
  rfl

/-- The address of the registration that `Load` leaves. -/
theorem RegistrationInfo_T.restAPI_load (P : Poco) (memory : Char) (o : Object)
    (c : RegistrationInfo_T) : ((load P memory).exec ⟨c, some o⟩).2.fields.restAPI =
      ComUtil.strRemove memory (Object.text P o "RestAPI") := by
  have hrest : assigned o (readsRest P) .restAPI = none := by
    apply assigned_eq_none
    simp [readsRest]
  obtain ⟨x, hx, -⟩ := getNullableValue_text P o "name"
  obtain ⟨y, hy, -⟩ := getNullableValue_text P o "Model"
  obtain ⟨z, hz, htext⟩ := getNullableValue_text P o "RestAPI"
  have hnamed : (assigned o (readsName P) .restAPI).getD "" = Object.text P o "RestAPI" := by
    simp only [readsName, assigned, hx, hy, hz, Given.before]
    cases z <;> exact htext
  have hload : ((load P memory).exec ⟨c, some o⟩).2.fields.restAPI =
      layout.get (decoded P memory o c) .restAPI :=
    congrArg RegistrationInfo_T.restAPI ((loadsBy P memory).fields c o)
  rw [hload, decoded, Layout.get_overlay, hrest, ← hnamed]
  rfl

/-- Both come out right exactly when what the stack held makes no difference to them. -/
theorem load_removesBlanks_iff (P : Poco) (memory memory' : Char) (o o' : Object)
    (c : MqttBrokerConfig_T) (c' : RegistrationInfo_T) :
    MqttBrokerConfig_T.HostRight P memory o c ∧ RegistrationInfo_T.RestAPIRight P memory' o' c' ↔
      Indifferent memory (Object.text P o "host") ∧
        Indifferent memory' (Object.text P o' "RestAPI") := by
  rw [MqttBrokerConfig_T.HostRight, RegistrationInfo_T.RestAPIRight,
    MqttBrokerConfig_T.host_load, RegistrationInfo_T.restAPI_load,
    ComUtil.strRemove_eq_withoutBlanks_iff, ComUtil.strRemove_eq_withoutBlanks_iff]

/-- A blank in front of the host stays, where the stack held a zero. -/
theorem host_keeps_blank :
    ¬ ∀ (P : Poco) (memory memory' : Char) (o o' : Object) (c : MqttBrokerConfig_T)
      (c' : RegistrationInfo_T), MqttBrokerConfig_T.HostRight P memory o c ∧
        RegistrationInfo_T.RestAPIRight P memory' o' c' := by
  intro h
  have hright := (h Poco.json '\x00' ' ' [("host", .str " box")] []
    ⟨"", 0, false, "", 0, "", 0, 0, "", "", 0⟩
    ⟨"", "", "", "", "", "", "", "", "", "", "", "", false⟩).1
  rw [MqttBrokerConfig_T.HostRight, MqttBrokerConfig_T.host_load,
    ComUtil.strRemove_eq_withoutBlanks_iff] at hright
  have htext : Object.text Poco.json [("host", .str " box")] "host" = " box" := rfl
  rw [htext] at hright
  exact absurd hright (by decide)

end IcsGateway
