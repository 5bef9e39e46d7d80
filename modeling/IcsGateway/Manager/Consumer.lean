import IcsGateway.Manager.CloudResponse

/-!
# What the Manager sends to the MQTT process

The Manager hands the messages of the MQTT process to `ProcessMGRDownlinkMsg` and those of the
Bridge to `ProcessBridgeMsg` (`Manager/ManagerConsumer.cpp`). Of all they send only the response
to a cloud request goes to the MQTT process.
-/

namespace IcsGateway.ManagerDownlinkHandler

open Lib

/-- `ManagerBridgeHandler::ProcessBridgeMsg`; `Manager/ManagerBridgeHandler.cpp:13`. Both
`catch` blocks set the status and send nothing. -/
def processBridgeMsg (P : Poco) (packet : ComIPCMsg) : M Bool :=
  tryCatch (do
    let result ← call (P.parse packet.content)
    let _pdat ← call result.extractObject
    if packet.type = "StatusInd" then managerIPCSend "StatusInd" packet.content ["CLI"]
    pure true) fun
    | .threw _ => pure false
    | .undefined => throw .undefined

/-- The messages in a list that go to the MQTT process. -/
def forMQTT (sent : List (ComIPCMsg × List COMStr)) : List ComIPCMsg :=
  (sent.filter fun m ↦ "MQTT" ∈ m.2).map (·.1)

/-- Messages are sent after those sent before. -/
theorem forMQTT_append (sent sent' : List (ComIPCMsg × List COMStr)) :
    forMQTT (sent ++ sent') = forMQTT sent ++ forMQTT sent' := by
  rw [forMQTT, List.filter_append, List.map_append]
  rfl

/-- What a response says about its request: it is printed from the object the Manager builds
for the fields of the request, with how its command went in a state of the Manager. -/
def Responds (P : Poco) (devID : COMStr) (content response : COMStr) : Prop :=
  ∃ (pIn : Object) (s : ManagerState) (now : ComUtil.Utc) (aOut : List Var),
    P.parse content = .ok (.object .ptr pIn) ∧
    CommandRuns P (Object.text P pIn "che_do_phat") pIn s ∧
    response = P.stringify (.object .value (cloudResp (Object.text P pIn "ban_tin_id") devID
      (Object.text P pIn "che_do_phat") now
      (outcome P (Object.text P pIn "che_do_phat") pIn s) aOut))

/-- A cloud request that cannot be read as an object changes nothing. -/
theorem exec_processMGRDownlinkMsg_of_unread {P : Poco} (packet : ComIPCMsg)
    (h : ∀ pIn, P.parse packet.content ≠ .ok (.object .ptr pIn)) (now : ComUtil.Utc) (memory : Bool)
    (s : ManagerState) :
    (processMGRDownlinkMsg P now memory packet).exec s = (.ok false, s) := by
  rw [processMGRDownlinkMsg, Eff.exec_tryCatch, processMGRDownlinkBody]
  simp only [call]
  cases hp : P.parse packet.content with
  | error e => rfl
  | ok v =>
    simp only [Except.mapError, Eff.exec_ofExcept_bind]
    cases hv : v.extractObject with
    | error e => rfl
    | ok o =>
      cases Var.eq_of_extractObject hv
      exact absurd hp (h o)

/-- A message of another type sends the MQTT process nothing. -/
theorem forMQTT_of_other {P : Poco} (packet : ComIPCMsg) (htype : packet.type ≠ "cloud_req")
    (now : ComUtil.Utc) (memory : Bool) (s : ManagerState) :
    forMQTT ((processMGRDownlinkMsg P now memory packet).exec s).2.sent = forMQTT s.sent ∧
      ((processMGRDownlinkMsg P now memory packet).exec s).2.regInfo = s.regInfo := by
  by_cases hp : ∃ pIn, P.parse packet.content = .ok (.object .ptr pIn)
  · obtain ⟨pIn, hp⟩ := hp
    rw [processMGRDownlinkMsg, Eff.exec_tryCatch, processMGRDownlinkBody]
    simp only [call, hp, Except.mapError, Var.extractObject, Eff.exec_ofExcept_bind, if_neg htype]
    by_cases hs : packet.type = "StatusInd"
    · simp only [if_pos hs, Eff.exec_bind, Eff.exec_get]
      by_cases hm : s.regInfo.protocol = "MQTT"
      · simp only [if_pos hm, Eff.exec_bind, Eff.exec_set, Eff.exec_ofExcept]
        cases ((WatchDogSection.fromJson P memory packet.content).exec s.m2cMQTT).1 with
        | error e => exact ⟨rfl, rfl⟩
        | ok _ =>
          refine ⟨?_, rfl⟩
          change forMQTT (s.sent ++ _) = _
          rw [forMQTT_append]
          exact List.append_nil _
      · simp only [if_neg hm]
        exact ⟨rfl, rfl⟩
    · simp only [if_neg hs]
      exact ⟨rfl, rfl⟩
  · have hunread : ∀ pIn, P.parse packet.content ≠ .ok (.object .ptr pIn) :=
      fun pIn h ↦ hp ⟨pIn, h⟩
    rw [exec_processMGRDownlinkMsg_of_unread packet hunread]
    exact ⟨rfl, rfl⟩

/-- Nor does a message of the Bridge. -/
theorem forMQTT_processBridgeMsg (P : Poco) (packet : ComIPCMsg) (s : ManagerState) :
    forMQTT ((processBridgeMsg P packet).exec s).2.sent = forMQTT s.sent ∧
      ((processBridgeMsg P packet).exec s).2.regInfo = s.regInfo := by
  rw [processBridgeMsg, Eff.exec_tryCatch]
  simp only [call]
  cases P.parse packet.content with
  | error e => exact ⟨rfl, rfl⟩
  | ok v =>
    simp only [Except.mapError, Eff.exec_ofExcept_bind]
    cases v.extractObject with
    | error e => exact ⟨rfl, rfl⟩
    | ok o =>
      by_cases hs : packet.type = "StatusInd"
      · simp only [if_pos hs, Eff.exec_bind, managerIPCSend, Eff.exec_modify]
        refine ⟨?_, rfl⟩
        change forMQTT (s.sent ++ _) = _
        rw [forMQTT_append]
        exact List.append_nil _
      · simp only [if_neg hs]
        exact ⟨rfl, rfl⟩

/-- A cloud request sends the MQTT process at most one response, which goes with the request. -/
theorem forMQTT_of_cloud_req (P : Poco) (content : COMStr) (now : ComUtil.Utc) (memory : Bool)
    (s : ManagerState) :
    ((processMGRDownlinkMsg P now memory ⟨"cloud_req", content⟩).exec s).2.regInfo = s.regInfo ∧
    (forMQTT ((processMGRDownlinkMsg P now memory ⟨"cloud_req", content⟩).exec s).2.sent =
        forMQTT s.sent ∨
      ∃ response, Responds P s.regInfo.devID content response ∧
        forMQTT ((processMGRDownlinkMsg P now memory ⟨"cloud_req", content⟩).exec s).2.sent =
          forMQTT s.sent ++ [⟨"cloud_resp", response⟩]) := by
  by_cases hp : ∃ pIn, P.parse content = .ok (.object .ptr pIn)
  · obtain ⟨pIn, hp⟩ := hp
    obtain ⟨hsent, hreg⟩ :=
      processCloudReqest_frame P (Object.text P pIn "che_do_phat") pIn [] s
    rw [exec_processMGRDownlinkMsg rfl hp]
    rcases hexec : (processCloudReqest P (Object.text P pIn "che_do_phat") pIn []).exec s with
      ⟨r, s'⟩
    rw [hexec] at hsent hreg
    cases r with
    | error e => exact ⟨hreg, .inl (congrArg forMQTT hsent)⟩
    | ok a =>
      obtain ⟨isSuccess, aOut⟩ := a
      have hruns : CommandRuns P (Object.text P pIn "che_do_phat") pIn s :=
        (processCloudReqest_ok_iff P _ pIn [] s).mp ⟨_, congrArg Prod.fst hexec⟩
      have houtcome : outcome P (Object.text P pIn "che_do_phat") pIn s = isSuccess := by
        rw [outcome, hexec]
      simp only
      split
      · refine ⟨hreg, .inr ⟨_, ⟨pIn, s, now, aOut, hp, hruns, rfl⟩, ?_⟩⟩
        rw [forMQTT_append, hsent, hreg, houtcome]
        rfl
      · exact ⟨hreg, .inl (congrArg forMQTT hsent)⟩
  · have hunread : ∀ pIn, P.parse content ≠ .ok (.object .ptr pIn) := fun pIn h ↦ hp ⟨pIn, h⟩
    rw [exec_processMGRDownlinkMsg_of_unread ⟨"cloud_req", content⟩ hunread]
    exact ⟨rfl, .inl rfl⟩

/-- One whose command runs sends it, if the gateway is registered for MQTT. -/
theorem forMQTT_of_runs {P : Poco} {content : COMStr} {pIn : Object} {s : ManagerState}
    (hparse : P.parse content = .ok (.object .ptr pIn))
    (hruns : CommandRuns P (Object.text P pIn "che_do_phat") pIn s)
    (hprotocol : s.regInfo.protocol = "MQTT") (now : ComUtil.Utc) (memory : Bool) :
    ∃ response,
      forMQTT ((processMGRDownlinkMsg P now memory ⟨"cloud_req", content⟩).exec s).2.sent =
        forMQTT s.sent ++ [⟨"cloud_resp", response⟩] := by
  obtain ⟨⟨isSuccess, aOut⟩, hok⟩ := (processCloudReqest_ok_iff P _ pIn [] s).mpr hruns
  obtain ⟨hsent, hreg⟩ :=
    processCloudReqest_frame P (Object.text P pIn "che_do_phat") pIn [] s
  rw [exec_processMGRDownlinkMsg rfl hparse]
  rcases hexec : (processCloudReqest P (Object.text P pIn "che_do_phat") pIn []).exec s with
    ⟨r, s'⟩
  rw [hexec] at hok hsent hreg
  simp only at hok
  subst hok
  have hmqtt : s'.regInfo.protocol = "MQTT" := hreg ▸ hprotocol
  refine ⟨P.stringify (.object .value (cloudResp (Object.text P pIn "ban_tin_id") s'.regInfo.devID
    (Object.text P pIn "che_do_phat") now isSuccess aOut)), ?_⟩
  simp only [if_pos hmqtt]
  rw [forMQTT_append, hsent]
  rfl

end IcsGateway.ManagerDownlinkHandler
