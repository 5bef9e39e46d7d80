import IcsGateway.Manager.RelayRun

/-!
# Answering cloud requests

`ProcessMGRDownlinkMsg` runs the command of a `cloud_req` and then builds and sends the
response, both inside one `try` block whose `catch` blocks send nothing: a command that
throws is not answered. `CommandRuns` says which commands do not throw, by the shape of their
`data` and of the persisted configuration they read.
-/

namespace IcsGateway.ManagerDownlinkHandler

open Lib

/-! ### Commands that end -/

/-- The loop over `data` throws on no element: each, up to the first empty object, is an
object whose state and index can be read. -/
def ReadsThrough (P : Poco) : List Var → Prop
  | [] => True
  | v :: vs => ∃ o, v.getObject = some o ∧
      (o = [] ∨ ReadableInt P o "state" ∧ ReadableInt P o "index" ∧ ReadsThrough P vs)

/-- The command has a first token, and what the command reads is there: for
`set_air_conditional_status` the elements of `data`, for `get_alarm_config` the persisted
configuration. -/
def CommandRuns (P : Poco) (command : COMStr) (pIn : Object) (s : ManagerState) : Prop :=
  ∃ cmd rest, ComUtil.split command ';' = cmd :: rest ∧
    (cmd = "set_air_conditional_status" → ∃ vs, dataIn pIn = some vs ∧ ReadsThrough P vs) ∧
    (cmd = "get_alarm_config" → ∃ o, P.parse (s.redis "COLLECTOR_CONFIG") = .ok (.object .ptr o))

/-- The loop over `data` ends exactly when it throws on no element. -/
theorem readDataIn_ok_iff (P : Poco) (vs : List Var) :
    ∀ index state, (∃ r, readDataIn P index state vs = .ok r) ↔ ReadsThrough P vs := by
  induction vs with
  | nil =>
    intro index state
    simp only [readDataIn, ReadsThrough, iff_true]
    exact ⟨_, rfl⟩
  | cons v vs ih =>
    intro index state
    rw [ReadsThrough]
    cases hv : v.getObject with
    | none =>
      rw [readDataIn, hv]
      constructor
      · rintro ⟨r, h⟩
        cases h
      · rintro ⟨o, h, -⟩
        cases h
    | some o =>
      simp only [Option.some.injEq, exists_eq_left']
      by_cases hne : o = []
      · rw [readDataIn, hv, hne]
        simp only [true_or, iff_true]
        exact ⟨_, rfl⟩
      · rw [readDataIn_cons hv hne, ReadableInt, ReadableInt]
        simp only [hne, false_or]
        cases Object.getNullableValue P.convertInt o "state" with
        | error e => simp
        | ok x =>
          cases Object.getNullableValue P.convertInt o "index" with
          | error e => simp
          | ok y => simpa using ih (y.getD index) (x.getD state)

/-- A call that is refused by the loop or by the checks after it, or accepted, ends. -/
theorem cloudSetAirCState_ok_iff (P : Poco) (pInput : Object) (aOutput : List Var)
    (s : ManagerState) :
    (∃ r, ((cloudSetAirCState P pInput aOutput).exec s).1 = .ok r) ↔
      ∃ vs, dataIn pInput = some vs ∧ ReadsThrough P vs := by
  rw [cloudSetAirCState, call, Eff.exec_bind, Eff.exec_ofExcept, dataIn]
  cases hd : (JGET_ARR pInput "data").1.vals with
  | none => simp [deref, Except.mapError]
  | some vs =>
    simp only [deref, Except.mapError, Option.some.injEq, exists_eq_left']
    rw [← readDataIn_ok_iff P vs (-1) (-1), call, Eff.exec_bind, Eff.exec_ofExcept]
    cases hr : readDataIn P (-1) (-1) vs with
    | error e => simp [Except.mapError]
    | ok x =>
      simp only [Except.mapError, Except.ok.injEq, exists_eq', iff_true]
      cases x with
      | none => exact ⟨_, rfl⟩
      | some is =>
        obtain ⟨index, state⟩ := is
        obtain ⟨data, s', hexec, -⟩ :=
          exec_relayLoop P index state (ManagerState.relays s) [] [] s rfl
        rw [ManagerState.relays] at hexec
        simp only [Eff.exec_ite]
        split
        · exact ⟨_, rfl⟩
        · split
          · exact ⟨_, rfl⟩
          · rw [Eff.exec_bind, Eff.exec_get]
            simp only [Eff.exec_bind, hexec, Eff.exec_pure]
            exact ⟨_, rfl⟩

/-- The persisted configuration is returned when it is an object. -/
theorem cloudGetAlarmConfig_ok_iff (P : Poco) (aOutput : List Var) (s : ManagerState) :
    (∃ r, ((cloudGetAlarmConfig P aOutput).exec s).1 = .ok r) ↔
      ∃ o, P.parse (s.redis "COLLECTOR_CONFIG") = .ok (.object .ptr o) := by
  rw [cloudGetAlarmConfig, Eff.exec_bind, Eff.exec_get]
  simp only [call, Eff.exec_bind, Eff.exec_ofExcept]
  cases P.parse (s.redis "COLLECTOR_CONFIG") with
  | error e => simp [Except.mapError]
  | ok v =>
    simp only [Except.mapError, Except.ok.injEq]
    cases v with
    | object held o => cases held <;> simp [Var.extractObject]
    | _ => simp [Var.extractObject]

/-- A command ends exactly when it has a first token and what it reads is there. -/
theorem processCloudReqest_ok_iff (P : Poco) (command : COMStr) (pIn : Object)
    (aOutput : List Var) (s : ManagerState) :
    (∃ r, ((processCloudReqest P command pIn aOutput).exec s).1 = .ok r) ↔
      CommandRuns P command pIn s := by
  rw [processCloudReqest, CommandRuns]
  cases ComUtil.split command ';' with
  | nil => simp
  | cons cmd rest =>
    simp only [List.cons.injEq, ↓existsAndEq, and_true, true_and, Eff.exec_ite]
    by_cases hv : cmd = "get_version"
    · subst hv
      simp only [↓reduceIte, String.reduceEq, false_implies, and_self, iff_true]
      exact ⟨_, rfl⟩
    · rw [if_neg hv]
      by_cases ha : cmd = "set_air_conditional_status"
      · subst ha
        simp only [↓reduceIte, String.reduceEq, false_implies, true_implies, and_true]
        exact cloudSetAirCState_ok_iff P pIn aOutput s
      · rw [if_neg ha]
        by_cases hg : cmd = "get_alarm_config"
        · subst hg
          simp only [↓reduceIte, String.reduceEq, false_implies, true_implies, true_and]
          exact cloudGetAlarmConfig_ok_iff P aOutput s
        · simp only [ha, hg, ↓reduceIte, false_implies, and_self, iff_true]
          exact ⟨_, rfl⟩

/-! ### The response -/

/-- No command sends anything, or changes the registration. -/
theorem processCloudReqest_frame (P : Poco) (command : COMStr) (pIn : Object)
    (aOutput : List Var) (s : ManagerState) :
    ((processCloudReqest P command pIn aOutput).exec s).2.sent = s.sent ∧
      ((processCloudReqest P command pIn aOutput).exec s).2.regInfo = s.regInfo := by
  rcases processCloudReqest_state P command pIn aOutput s with h | ⟨index, state, h⟩
  · rw [h]
    exact ⟨rfl, rfl⟩
  · exact h.frame

/-- Whether the command of a request succeeds; one that throws does not. -/
def outcome (P : Poco) (command : COMStr) (pIn : Object) (s : ManagerState) : Bool :=
  match ((processCloudReqest P command pIn []).exec s).1 with
  | .ok (isSuccess, _) => isSuccess
  | .error _ => false

/-- The request has one response, which goes to the MQTT node, has the identifier of the
request and says how its command went. -/
def Answered (P : Poco) (pIn : Object) (s s' : ManagerState) : Prop :=
  ∃ response : Object,
    s'.sent = s.sent ++ [(⟨"cloud_resp", P.stringify (.object .value response)⟩, ["MQTT"])] ∧
    Object.get response "ban_tin_id" = .str (Object.text P pIn "ban_tin_id") ∧
    Object.get response "ket_qua" = .bool (outcome P (Object.text P pIn "che_do_phat") pIn s)

/-- A message that is a cloud request runs the command, and what follows it in the `try`. -/
theorem exec_processMGRDownlinkMsg {P : Poco} {packet : ComIPCMsg} {pIn : Object}
    (htype : packet.type = "cloud_req") (hparse : P.parse packet.content = .ok (.object .ptr pIn))
    (now : ComUtil.Utc) (memory : Bool) (s : ManagerState) :
    ((processMGRDownlinkMsg P now memory packet).exec s).2 =
      match (processCloudReqest P (Object.text P pIn "che_do_phat") pIn []).exec s with
      | (.ok (isSuccess, aOut), s') =>
        if s'.regInfo.protocol = "MQTT" then
          { s' with sent := s'.sent ++ [(⟨"cloud_resp", P.stringify (.object .value
              (cloudResp (Object.text P pIn "ban_tin_id") s'.regInfo.devID
                (Object.text P pIn "che_do_phat") now isSuccess aOut))⟩, ["MQTT"])] }
        else s'
      | (.error _, s') => s' := by
  rw [processMGRDownlinkMsg, Eff.exec_tryCatch, processMGRDownlinkBody]
  simp only [call, hparse, htype, JGET_convertStr, Except.mapError, Var.extractObject,
    Eff.exec_ofExcept_bind, ↓reduceIte]
  rw [Eff.exec_bind]
  rcases (processCloudReqest P (Object.text P pIn "che_do_phat") pIn []).exec s with ⟨r, s'⟩
  cases r with
  | ok a =>
    simp only [Eff.exec_bind, Eff.exec_get]
    by_cases hp : s'.regInfo.protocol = "MQTT"
    · rw [if_pos hp, if_pos hp]
      rfl
    · rw [if_neg hp, if_neg hp]
      rfl
  | error e => cases e <;> rfl

/-- A request over MQTT is answered exactly when its command does not throw. -/
theorem processMGRDownlinkMsg_answered_iff (P : Poco) (now : ComUtil.Utc) (memory : Bool)
    (packet : ComIPCMsg) (pIn : Object) (s : ManagerState) (htype : packet.type = "cloud_req")
    (hparse : P.parse packet.content = .ok (.object .ptr pIn))
    (hprotocol : s.regInfo.protocol = "MQTT") :
    Answered P pIn s ((processMGRDownlinkMsg P now memory packet).exec s).2 ↔
      CommandRuns P (Object.text P pIn "che_do_phat") pIn s := by
  rw [← processCloudReqest_ok_iff P _ pIn [] s, exec_processMGRDownlinkMsg htype hparse, Answered,
    outcome]
  obtain ⟨hsent, hreg⟩ :=
    processCloudReqest_frame P (Object.text P pIn "che_do_phat") pIn [] s
  rcases hexec : (processCloudReqest P (Object.text P pIn "che_do_phat") pIn []).exec s with
    ⟨r, s'⟩
  rw [hexec] at hsent hreg
  cases r with
  | ok a =>
    obtain ⟨isSuccess, aOut⟩ := a
    have hmqtt : s'.regInfo.protocol = "MQTT" := hreg ▸ hprotocol
    simp only [Except.ok.injEq, exists_eq', iff_true, if_pos hmqtt]
    refine ⟨cloudResp (Object.text P pIn "ban_tin_id") s'.regInfo.devID
      (Object.text P pIn "che_do_phat") now isSuccess aOut, ?_, rfl, rfl⟩
    exact congrArg (· ++ _) hsent
  | error e =>
    constructor
    · rintro ⟨response, h, -⟩
      -- nothing has been sent
      have hlen := congrArg List.length (hsent.symm.trans h)
      rw [List.length_append, List.length_singleton] at hlen
      omega
    · rintro ⟨r, h⟩
      cases h

/-- A request for the version. -/
def getVersion : Object := [("ban_tin_id", .str "1"), ("che_do_phat", .str "get_version")]

/-- Its message. -/
def getVersionMsg : ComIPCMsg :=
  ⟨"cloud_req", "\x7b\"ban_tin_id\":\"1\",\"che_do_phat\":\"get_version\"\x7d"⟩

/-- It is answered. -/
theorem processMGRDownlinkMsg_answered_iff_getVersion :
    Answered Poco.json getVersion twoRelays
      ((processMGRDownlinkMsg Poco.json ⟨2021, 4, 8, 2, 54, 55, 0⟩ false getVersionMsg).exec
        twoRelays).2 := by
  have hparse : Poco.json.parse getVersionMsg.content = .ok (.object .ptr getVersion) :=
    Poco.json_parse (v := .object .ptr getVersion)
      (by simp [getVersion, Var.Regular, RegularFields]) (by decide +kernel)
  apply (processMGRDownlinkMsg_answered_iff Poco.json ⟨2021, 4, 8, 2, 54, 55, 0⟩ false
    getVersionMsg getVersion twoRelays rfl hparse rfl).mpr
  refine ⟨"get_version", [], rfl, ?_, ?_⟩
  · intro h
    exact absurd h (by decide)
  · intro h
    exact absurd h (by decide)

/-- A request to set a relay whose `data` is null. -/
def nullData : Object :=
  [("ban_tin_id", .str "1"), ("che_do_phat", .str "set_air_conditional_status"),
    ("data", .empty)]

/-- Its message. -/
def nullDataMsg : ComIPCMsg :=
  ⟨"cloud_req", "\x7b\"ban_tin_id\":\"1\",\"che_do_phat\":\"set_air_conditional_status\"," ++
    "\"data\":null\x7d"⟩

/-- It is not answered: nothing is sent. -/
theorem not_answered_nullData :
    Poco.json.parse nullDataMsg.content = .ok (.object .ptr nullData) ∧
    ((processMGRDownlinkMsg Poco.json ⟨2021, 4, 8, 2, 54, 55, 0⟩ false nullDataMsg).exec
      twoRelays).2.sent = [] ∧
    ¬ Answered Poco.json nullData twoRelays
      ((processMGRDownlinkMsg Poco.json ⟨2021, 4, 8, 2, 54, 55, 0⟩ false nullDataMsg).exec
        twoRelays).2 := by
  have hparse : Poco.json.parse nullDataMsg.content = .ok (.object .ptr nullData) :=
    Poco.json_parse (v := .object .ptr nullData)
      (by simp [nullData, Var.Regular, RegularFields]) (by decide +kernel)
  have hsent : ((processMGRDownlinkMsg Poco.json ⟨2021, 4, 8, 2, 54, 55, 0⟩ false
      nullDataMsg).exec twoRelays).2.sent = [] := by
    rw [exec_processMGRDownlinkMsg rfl hparse]
    rfl
  refine ⟨hparse, hsent, ?_⟩
  rintro ⟨response, h, -⟩
  rw [hsent] at h
  exact List.cons_ne_nil _ _ h.symm

end IcsGateway.ManagerDownlinkHandler
