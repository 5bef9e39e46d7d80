import IcsGateway.M2C.Replies
import IcsGateway.Manager.CloudResponse

/-!
# One message, two decoders

A cloud message is decoded by the MQTT process, which acknowledges it and forwards its text,
and decoded again by the Manager, which runs the command and responds. Both split the command
at `;` and look at the first token. The acknowledgement echoes that token, the response the
whole command.
-/

namespace IcsGateway.CloudMessage

open Lib Lib.JsonText M2CDownlink ManagerDownlinkHandler

/-! ### Correlation -/

/-- The cloud finds the same identifier, command and address in two texts. -/
def Correlates (ready response : COMStr) : Prop :=
  ∃ uuid cmd devId, Echoes ready uuid cmd devId ∧ Echoes response uuid cmd devId

/-- What the Manager sends on a cloud request, if it sends anything. -/
theorem eq_cloudResp_of_sent {P : Poco} {now : ComUtil.Utc} {memory : Bool}
    {content response : COMStr} {targets : List COMStr} {pIn : Object} {s : ManagerState}
    (hparse : P.parse content = .ok (.object .ptr pIn))
    (h : ((processMGRDownlinkMsg P now memory ⟨"cloud_req", content⟩).exec s).2.sent =
      s.sent ++ [(⟨"cloud_resp", response⟩, targets)]) :
    ∃ isSuccess aOut, response = P.stringify (.object .value
      (cloudResp (Object.text P pIn "ban_tin_id") s.regInfo.devID
        (Object.text P pIn "che_do_phat") now isSuccess aOut)) := by
  rw [exec_processMGRDownlinkMsg rfl hparse] at h
  obtain ⟨hsent, hreg⟩ :=
    processCloudReqest_frame P (Object.text P pIn "che_do_phat") pIn [] s
  have hlen : s.sent ≠ s.sent ++ [(⟨"cloud_resp", response⟩, targets)] := by
    intro he
    have hl := congrArg List.length he
    rw [List.length_append, List.length_singleton] at hl
    omega
  rcases hexec : (processCloudReqest P (Object.text P pIn "che_do_phat") pIn []).exec s with
    ⟨r, s'⟩
  rw [hexec] at h hsent hreg
  cases r with
  | error e => exact absurd (hsent.symm.trans h) hlen
  | ok a =>
    obtain ⟨isSuccess, aOut⟩ := a
    simp only at h hsent hreg
    split at h
    · rw [hsent, hreg, List.append_cancel_left_eq] at h
      refine ⟨isSuccess, aOut, ?_⟩
      simp only [List.cons.injEq, Prod.mk.injEq, ComIPCMsg.mk.injEq] at h
      exact h.1.1.2.symm
    · exact absurd (hsent.symm.trans h) hlen

/-- The response echoes the whole command. -/
theorem echoes_cloudResp {P : Poco} (hP : P.PrintsStrings) (uuid devID command : COMStr)
    (now : ComUtil.Utc) (isSuccess : Bool) (aOut : List Var) {uuid' cmd' devId' : COMStr} :
    Echoes (P.stringify (.object .value (cloudResp uuid devID command now isSuccess aOut)))
      uuid' cmd' devId' ↔ uuid' = uuid ∧ cmd' = command ∧ devId' = devID := by
  obtain ⟨ms, hms, hstr⟩ := hP (cloudResp uuid devID command now isSuccess aOut) (by
    simp [cloudResp])
  have hu : Holds ms "ban_tin_id" uuid := hstr _ _ rfl
  have hc : Holds ms "che_do_phat" command := hstr _ _ rfl
  have hd : Holds ms "cum_loa_id" devID := hstr _ _ rfl
  constructor
  · rintro ⟨ms', hms', hu', hc', hd'⟩
    rw [hms] at hms'
    cases hms'
    refine ⟨?_, ?_, ?_⟩
    · exact Json.string.inj (hu.2 _ hu'.1)
    · exact Json.string.inj (hc.2 _ hc'.1)
    · exact Json.string.inj (hd.2 _ hd'.1)
  · rintro ⟨rfl, rfl, rfl⟩
    exact ⟨ms, hms, hu, hc, hd⟩

/-- The acknowledgement of a forwarded request and the response to it agree on the three fields
exactly when the command has no parameter after a `;` and the fields are plain, where both
processes have the registration of the gateway. -/
theorem ready_correlates_iff (env : Env) (msg type content ready response : COMStr)
    (targets : List COMStr) (now : ComUtil.Utc) (memory : Bool) (pObj : Object)
    (s : ManagerState) (hP : env.poco.PrintsStrings) (hdevID : s.regInfo.devID = env.devID)
    (hforward : .forward type content ∈ effects env msg) (hready : .reply ready ∈ effects env msg)
    (hresponse : ((processMGRDownlinkMsg env.poco now memory ⟨type, content⟩).exec s).2.sent =
      s.sent ++ [(⟨"cloud_resp", response⟩, targets)])
    (hparse : env.poco.parse msg = .ok (.object .ptr pObj)) :
    Correlates ready response ↔
      ';' ∉ (Object.text env.poco pObj "che_do_phat").toList ∧
        PlainText (Object.text env.poco pObj "ban_tin_id") ∧
        PlainText (Object.text env.poco pObj "che_do_phat") ∧ PlainText env.devID := by
  obtain ⟨rfl, rfl, o, cmd, rest, hw, hd, hcmd, hreply⟩ := of_forward_mem hforward
  have ho := hw.parsed
  rw [hparse] at ho
  cases ho
  obtain ⟨isSuccess, aOut, rfl⟩ := eq_cloudResp_of_sent hparse hresponse
  rw [hreply ready hready, Correlates]
  simp only [echoes_cloudResp hP, hdevID]
  have hiff := echoes_reply_iff_of_isPrefix tailDecodes_ready
    (Object.text env.poco pObj "ban_tin_id") env.devID (ComUtil.head_split_isPrefix hcmd)
    (env.now 0)
  constructor
  · rintro ⟨uuid, c, devId, hecho, rfl, rfl, rfl⟩
    obtain ⟨he, hu, hc, hdev⟩ := hiff.mp hecho
    exact ⟨(ComUtil.eq_head_split_iff hcmd).mp he, hu, he ▸ hc, hdev⟩
  · rintro ⟨hsemi, hu, hc, hdev⟩
    have he := (ComUtil.eq_head_split_iff hcmd).mpr hsemi
    exact ⟨_, _, _, hiff.mpr ⟨he, hu, he ▸ hc, hdev⟩, rfl, rfl, rfl⟩

/-- A request for the version, with its address. -/
def versionMsg : COMStr :=
  "\x7b\"ban_tin_id\":\"1\",\"che_do_phat\":\"get_version\",\"cum_loa_id\":\"d378e0b5\"\x7d"

/-- The object of that request. -/
def versionObject : Object :=
  [("ban_tin_id", .str "1"), ("che_do_phat", .str "get_version"), ("cum_loa_id", .str "d378e0b5")]

/-- The request with a parameter. -/
def parameterMsg : COMStr :=
  "\x7b\"ban_tin_id\":\"1\",\"che_do_phat\":\"get_version;1\",\"cum_loa_id\":\"d378e0b5\"\x7d"

/-- The object of that request. -/
def parameterObject : Object :=
  [("ban_tin_id", .str "1"), ("che_do_phat", .str "get_version;1"),
    ("cum_loa_id", .str "d378e0b5")]

/-- The response to such a request for the version. -/
private theorem sent_getVersion {content command : COMStr} {pIn : Object} (rest : List COMStr)
    (hparse : Poco.json.parse content = .ok (.object .ptr pIn))
    (hcommand : Object.text Poco.json pIn "che_do_phat" = command)
    (hcmd : ComUtil.split command ';' = "get_version" :: rest) :
    ((processMGRDownlinkMsg Poco.json ⟨2021, 4, 8, 2, 54, 56, 0⟩ false
      ⟨"cloud_req", content⟩).exec twoRelays).2.sent =
      twoRelays.sent ++ [(⟨"cloud_resp", Poco.json.stringify (.object .value
        (cloudResp (Object.text Poco.json pIn "ban_tin_id") returningEnv.devID command
          ⟨2021, 4, 8, 2, 54, 56, 0⟩ true
          [.object .value [("version", .str twoRelays.manager.fields.softVer)]]))⟩,
        ["MQTT"])] := by
  rw [exec_processMGRDownlinkMsg rfl hparse, hcommand, processCloudReqest, hcmd]
  rfl

/-- The effects of such a request. -/
private theorem effects_getVersion {msg : COMStr} {pObj : Object} (rest : List COMStr)
    (hw : WellFormed Poco.json msg pObj)
    (hd : Object.text Poco.json pObj "cum_loa_id" = returningEnv.devID)
    (hcmd : ComUtil.split (Object.text Poco.json pObj "che_do_phat") ';' = "get_version" :: rest) :
    effects returningEnv msg =
      [.reply (readyReply (Object.text Poco.json pObj "ban_tin_id") "get_version"
        returningEnv.devID ⟨2021, 4, 8, 2, 54, 55, 0⟩), .forward "cloud_req" msg] :=
  effects_of_own ⟨⟨_, rfl, fun _ ↦ rfl⟩, fun _ ↦ rfl⟩ hw hd hcmd

/-- The request for the version is answered with texts that agree. -/
theorem ready_correlates_iff_getVersion : ∃ ready response,
    .reply ready ∈ effects returningEnv versionMsg ∧ Correlates ready response := by
  have hparse : Poco.json.parse versionMsg = .ok (.object .ptr versionObject) :=
    Poco.json_parse (v := .object .ptr versionObject)
      (by simp [versionObject, Var.Regular, RegularFields]) (by decide +kernel)
  have heffects := effects_getVersion [] ⟨hparse, rfl, rfl, fun _ ↦ rfl⟩ rfl rfl
  have hready := List.mem_cons_self (a := Effect.reply (readyReply
    (Object.text Poco.json versionObject "ban_tin_id") "get_version" returningEnv.devID
    ⟨2021, 4, 8, 2, 54, 55, 0⟩)) (l := [Effect.forward "cloud_req" versionMsg])
  rw [← heffects] at hready
  have hforward : .forward "cloud_req" versionMsg ∈ effects returningEnv versionMsg := by
    rw [heffects]
    simp
  refine ⟨_, _, hready, (ready_correlates_iff returningEnv versionMsg "cloud_req" versionMsg _ _
    ["MQTT"] _ false versionObject twoRelays Poco.json_printsStrings rfl hforward hready
    (sent_getVersion [] hparse rfl rfl) hparse).mpr ?_⟩
  exact ⟨by decide +kernel, by decide +kernel, by decide +kernel, by decide +kernel⟩

/-- With a parameter, the acknowledgement has another command than the response. -/
theorem not_correlates_parameter :
    Poco.json.parse parameterMsg = .ok (.object .ptr parameterObject) ∧
    .forward "cloud_req" parameterMsg ∈ effects returningEnv parameterMsg ∧
    ∃ ready response, .reply ready ∈ effects returningEnv parameterMsg ∧
      ((processMGRDownlinkMsg Poco.json ⟨2021, 4, 8, 2, 54, 56, 0⟩ false
        ⟨"cloud_req", parameterMsg⟩).exec twoRelays).2.sent =
          [(⟨"cloud_resp", response⟩, ["MQTT"])] ∧
      Echoes ready "1" "get_version" "d378e0b5" ∧ Echoes response "1" "get_version;1" "d378e0b5" ∧
      ¬ Correlates ready response := by
  have hparse : Poco.json.parse parameterMsg = .ok (.object .ptr parameterObject) :=
    Poco.json_parse (v := .object .ptr parameterObject)
      (by simp [parameterObject, Var.Regular, RegularFields]) (by decide +kernel)
  have heffects := effects_getVersion ["1"] ⟨hparse, rfl, rfl, fun _ ↦ rfl⟩ rfl rfl
  have hsent := sent_getVersion ["1"] hparse rfl rfl
  have hecho : Echoes (readyReply "1" "get_version" "d378e0b5" ⟨2021, 4, 8, 2, 54, 55, 0⟩)
      "1" "get_version" "d378e0b5" :=
    (echoes_reply_iff tailDecodes_ready _ _ _ _).mpr (by decide +kernel)
  refine ⟨hparse, ?_, _, _, ?_, hsent, hecho,
    (echoes_cloudResp Poco.json_printsStrings _ _ _ _ _ _).mpr ⟨rfl, rfl, rfl⟩, ?_⟩
  · rw [heffects]
    simp
  · rw [heffects]
    exact List.mem_cons_self ..
  · rintro ⟨uuid, cmd, devId, ⟨ms, hms, -, hc, -⟩, hresponse⟩
    obtain ⟨-, rfl, -⟩ := (echoes_cloudResp Poco.json_printsStrings _ _ _ _ _ _).mp hresponse
    -- the member is the token
    obtain ⟨ms', hms', -, hc', -⟩ := hecho
    cases hms.symm.trans hms'
    have hsame := Json.string.inj (hc'.2 _ hc.1)
    revert hsame
    decide +kernel

/-! ### The first token -/

/-- A library call has a defined outcome. -/
private theorem avoids_call {σ α : Type} (r : Except Exn α) :
    Eff.Avoids Halt.undefined (Eff.ofExcept (r.mapError Halt.threw) : Eff Halt σ α) := by
  apply Eff.avoids_ofExcept
  cases r <;> exact fun h ↦ by cases h

/-- So has a reply. -/
private theorem avoids_respond (env : Env)
    (text : COMStr → COMStr → COMStr → ComUtil.Utc → COMStr) :
    Eff.Avoids Halt.undefined (respond env text) := by
  intro s
  cases hres : env.res with
  | none =>
    rw [exec_respond_none hres]
    intro h
    cases h
  | some res =>
    rw [exec_respond_some hres]
    have hcall := avoids_call (σ := Unit) (res (text s.uuid s.cmd s.devId
      (env.now s.effects.length))) ()
    rw [Eff.exec_ofExcept] at hcall
    exact hcall

/-- So has a local action. -/
private theorem avoids_action (env : Env) (command : COMStr) :
    Eff.Avoids Halt.undefined
      (do M2CDownlink.emit (.exec command); M2CDownlink.call (env.exec command)) := by
  apply Eff.Avoids.bind (Eff.avoids_modify _)
  intro _
  exact avoids_call _

/-- The MQTT process takes the first token of an empty list exactly where the message is for this
device and has the empty command. -/
private theorem handleCommand_undefined_iff (env : Env) (s : State) :
    ((handleCommand env).exec s).1 = .error .undefined ↔ s.devId = env.devID ∧ s.data = "" := by
  rw [handleCommand, Eff.exec_bind_of_ok (Eff.exec_get s)]
  by_cases hd : env.devID = s.devId
  · rw [if_neg (not_not.mpr hd)]
    cases hcmd : ComUtil.split s.data ';' with
    | nil => exact iff_of_true rfl ⟨hd.symm, (ComUtil.split_eq_nil_iff _ _).mp hcmd⟩
    | cons cmd rest =>
      have hne : s.data ≠ "" := by
        intro he
        rw [(ComUtil.split_eq_nil_iff _ _).mpr he] at hcmd
        cases hcmd
      apply iff_of_false _ fun h ↦ hne h.2
      apply Eff.Avoids.bind (Eff.avoids_modify _)
      intro _
      apply Eff.Avoids.bind (avoids_respond env _)
      intro _
      split
      · apply Eff.Avoids.bind (avoids_respond env _)
        intro _
        exact Eff.Avoids.bind (avoids_action env "reboot") fun _ ↦ Eff.avoids_pure _
      · split
        · apply Eff.Avoids.bind (avoids_respond env _)
          intro _
          exact Eff.Avoids.bind (avoids_action env _) fun _ ↦ Eff.avoids_pure _
        · exact Eff.avoids_pure _
  · rw [if_pos hd]
    exact iff_of_false (fun h ↦ by cases h) fun h ↦ hd h.1.symm

/-- What the `try` block throws is handled, and what is undefined stays so. -/
private theorem consume_undefined_iff (env : Env) (msg : COMStr) :
    ((consume env msg).exec .start).1 = .error .undefined ↔
      ∃ pObj, WellFormed env.poco msg pObj ∧
        Object.text env.poco pObj "cum_loa_id" = env.devID ∧
        Object.text env.poco pObj "che_do_phat" = "" := by
  have hcatch : ∀ e : Exn, Eff.Avoids Halt.undefined (if e.isStd then do
      respond env errorReply
      pure (some false)
    else throw (Halt.threw e) : M2CDownlink.M (Option Bool)) := by
    intro e
    split
    · exact Eff.Avoids.bind (avoids_respond env _) fun _ ↦ Eff.avoids_pure _
    · exact Eff.avoids_throw fun h ↦ by cases h
  rw [consume, Eff.exec_tryCatch]
  by_cases hw : ∃ pObj, WellFormed env.poco msg pObj
  · obtain ⟨pObj, hw⟩ := hw
    have hiff := handleCommand_undefined_iff env ⟨Object.text env.poco pObj "ban_tin_id",
      Object.text env.poco pObj "cum_loa_id", Object.text env.poco pObj "che_do_phat", "", []⟩
    have hex : (∃ o, WellFormed env.poco msg o ∧
        Object.text env.poco o "cum_loa_id" = env.devID ∧
        Object.text env.poco o "che_do_phat" = "") ↔
        Object.text env.poco pObj "cum_loa_id" = env.devID ∧
          Object.text env.poco pObj "che_do_phat" = "" := by
      constructor
      · rintro ⟨o, ho, h⟩
        have hp := ho.parsed
        rw [hw.parsed] at hp
        cases hp
        exact h
      · intro h
        exact ⟨pObj, hw, h⟩
    rw [hex, ← hiff, Eff.exec_bind_of_ok (exec_decodeFields hw), Eff.exec_bind]
    rcases (handleCommand env).exec ⟨Object.text env.poco pObj "ban_tin_id",
      Object.text env.poco pObj "cum_loa_id", Object.text env.poco pObj "che_do_phat", "", []⟩
      with ⟨r, s⟩
    cases r with
    | ok returned => exact iff_of_false (fun h ↦ by cases h) fun h ↦ by cases h
    | error e =>
      cases e with
      | threw e => exact iff_of_false (hcatch e s) fun h ↦ by cases h
      | undefined => exact iff_of_true rfl rfl
  · obtain ⟨e, s, hexec, -⟩ :=
      exec_decodeFields_of_not_wellFormed fun pObj hp ↦ hw ⟨pObj, hp⟩
    rw [Eff.exec_bind_of_error hexec]
    apply iff_of_false (hcatch e s)
    rintro ⟨pObj, hp, -⟩
    exact hw ⟨pObj, hp⟩

/-- The function ends as its `try` block does. -/
theorem processDownlinkConsume_undefined_iff (env : Env) (msg : COMStr) :
    ((processDownlinkConsume env msg).exec .start).1 = .error .undefined ↔
      ∃ pObj, WellFormed env.poco msg pObj ∧
        Object.text env.poco pObj "cum_loa_id" = env.devID ∧
        Object.text env.poco pObj "che_do_phat" = "" := by
  rw [← consume_undefined_iff, processDownlinkConsume, Eff.exec_bind]
  rcases (consume env msg).exec .start with ⟨r, s⟩
  cases r with
  | error e => simp only [Except.error.injEq]
  | ok returned =>
    cases returned <;> exact iff_of_false (fun h ↦ by cases h) fun h ↦ by cases h

/-- No relay the loop passes stops it. -/
private theorem avoids_relayLoop (P : Poco) (index state : Int32) (rs : List DefaultRelayState) :
    ∀ done data, Eff.Avoids Halt.undefined (relayLoop P index state done data rs) := by
  induction rs with
  | nil =>
    intro done data
    exact Eff.avoids_pure _
  | cons r rs ih =>
    intro done data
    rw [relayLoop]
    split
    · split
      · exact ih _ _
      · apply Eff.Avoids.bind (Eff.avoids_modify _)
        intro _
        apply Eff.Avoids.bind (Eff.avoids_modify _)
        intro _
        apply Eff.Avoids.bind (Eff.avoids_modify _)
        intro _
        apply Eff.Avoids.bind (Eff.avoids_modify _)
        intro _
        exact ih _ _
    · exact ih _ _

/-- The Manager takes the first token of an empty list exactly where the command is empty. -/
private theorem processCloudReqest_undefined_iff (P : Poco) (command : COMStr) (pIn : Object)
    (aOutput : List Var) (s : ManagerState) :
    ((processCloudReqest P command pIn aOutput).exec s).1 = .error .undefined ↔ command = "" := by
  rw [processCloudReqest]
  cases hcmd : ComUtil.split command ';' with
  | nil => exact iff_of_true rfl ((ComUtil.split_eq_nil_iff _ _).mp hcmd)
  | cons cmd rest =>
    have hne : command ≠ "" := by
      intro he
      rw [(ComUtil.split_eq_nil_iff _ _).mpr he] at hcmd
      cases hcmd
    apply iff_of_false _ hne
    simp only
    split
    · exact Eff.Avoids.bind Eff.avoids_get (fun _ ↦ Eff.avoids_pure _) s
    · split
      · rw [cloudSetAirCState]
        apply Eff.Avoids.bind (avoids_call _)
        intro vs
        apply Eff.Avoids.bind (avoids_call _)
        intro found
        split
        · exact Eff.avoids_pure _
        · split
          · exact Eff.avoids_pure _
          · split
            · exact Eff.avoids_pure _
            · apply Eff.Avoids.bind Eff.avoids_get
              intro s
              exact Eff.Avoids.bind (avoids_relayLoop P _ _ _ _ _) fun _ ↦ Eff.avoids_pure _
      · split
        · rw [cloudGetAlarmConfig]
          apply Eff.Avoids.bind Eff.avoids_get
          intro s
          apply Eff.Avoids.bind (avoids_call _)
          intro result
          exact Eff.Avoids.bind (avoids_call _) fun _ ↦ Eff.avoids_pure _
        · exact Eff.avoids_pure _ s

/-- So `ProcessMGRDownlinkMsg` does exactly on a cloud request without a command. -/
theorem processMGRDownlinkMsg_undefined_iff (P : Poco) (now : ComUtil.Utc) (memory : Bool)
    (packet : ComIPCMsg) (s : ManagerState) :
    ((processMGRDownlinkMsg P now memory packet).exec s).1 = .error .undefined ↔
      packet.type = "cloud_req" ∧ ∃ pIn, P.parse packet.content = .ok (.object .ptr pIn) ∧
        Object.text P pIn "che_do_phat" = "" := by
  have hbody : ((processMGRDownlinkMsg P now memory packet).exec s).1 = .error .undefined ↔
      ((processMGRDownlinkBody P now memory packet).exec s).1 = .error .undefined := by
    rw [processMGRDownlinkMsg, Eff.exec_tryCatch]
    rcases (processMGRDownlinkBody P now memory packet).exec s with ⟨r, s'⟩
    cases r with
    | ok a => exact Iff.rfl
    | error e =>
      cases e with
      | threw e => exact iff_of_false (fun h ↦ by cases h) fun h ↦ by cases h
      | undefined => exact Iff.rfl
  rw [hbody, processMGRDownlinkBody]
  simp only [ManagerDownlinkHandler.call, Eff.exec_ofExcept_bind]
  cases hparse : P.parse packet.content with
  | error e =>
    apply iff_of_false (fun h ↦ by cases h)
    rintro ⟨-, pIn, h, -⟩
    cases h
  | ok result =>
    simp only [Except.mapError]
    cases hobj : result.extractObject with
    | error e =>
      apply iff_of_false (fun h ↦ by cases h)
      rintro ⟨-, pIn, h, -⟩
      cases h
      cases hobj
    | ok pIn =>
      have hresult : result = .object .ptr pIn := Var.eq_of_extractObject hobj
      subst hresult
      simp only [Except.ok.injEq, Var.object.injEq, true_and, exists_eq_left']
      by_cases hreq : packet.type = "cloud_req"
      · simp only [hreq, ↓reduceIte, true_and, JGET_convertStr, Eff.exec_ofExcept_bind]
        rw [Eff.exec_bind, ← processCloudReqest_undefined_iff P _ pIn [] s]
        rcases (processCloudReqest P (Object.text P pIn "che_do_phat") pIn []).exec s with ⟨r, s'⟩
        cases r with
        | error e => simp only [Except.error.injEq]
        | ok a =>
          apply iff_of_false _ fun h ↦ by cases h
          apply Eff.Avoids.bind Eff.avoids_get
          intro s₁
          split
          · exact Eff.Avoids.bind (Eff.avoids_modify _) fun _ ↦ Eff.avoids_pure _
          · exact Eff.avoids_pure _
      · rw [if_neg hreq]
        apply iff_of_false _ fun h ↦ hreq h.1
        split
        · apply Eff.Avoids.bind Eff.avoids_get
          intro s₁
          split
          · apply Eff.Avoids.bind (Eff.avoids_set _)
            intro _
            apply Eff.Avoids.bind (avoids_call _)
            intro _
            exact Eff.Avoids.bind (Eff.avoids_modify _) fun _ ↦ Eff.avoids_pure _
          · exact Eff.avoids_pure _
        · exact Eff.avoids_pure _ s

/-- The first token of the command is there, in the MQTT process exactly where a message that can
be decoded and is for this device does not have the empty command, and in the Manager exactly
where a cloud request that is an object has a command. -/
theorem firstToken_inRange_iff (env : Env) (msg : COMStr) (P : Poco) (now : ComUtil.Utc)
    (memory : Bool) (packet : ComIPCMsg) (s : ManagerState) :
    (((processDownlinkConsume env msg).exec .start).1 ≠ .error .undefined ↔
      ∀ pObj, WellFormed env.poco msg pObj →
        Object.text env.poco pObj "cum_loa_id" = env.devID →
        Object.text env.poco pObj "che_do_phat" ≠ "") ∧
    (((processMGRDownlinkMsg P now memory packet).exec s).1 ≠ .error .undefined ↔
      packet.type = "cloud_req" → ∀ pIn, P.parse packet.content = .ok (.object .ptr pIn) →
        Object.text P pIn "che_do_phat" ≠ "") := by
  constructor
  · rw [ne_eq, processDownlinkConsume_undefined_iff]
    simp only [not_exists, not_and, ne_eq]
  · rw [ne_eq, processMGRDownlinkMsg_undefined_iff]
    simp only [not_exists, not_and, ne_eq]

/-- A request with the empty command. -/
def emptyMsg : COMStr :=
  "\x7b\"ban_tin_id\":\"1\",\"che_do_phat\":\"\",\"cum_loa_id\":\"d378e0b5\"\x7d"

/-- The object of that request. -/
def emptyObject : Object :=
  [("ban_tin_id", .str "1"), ("che_do_phat", .str ""), ("cum_loa_id", .str "d378e0b5")]

/-- A request without a command. -/
def noCommandMsg : COMStr := "\x7b\"ban_tin_id\":\"1\"\x7d"

/-- Both processes take the first token of an empty list: the MQTT process of the empty command,
the Manager also of an absent one. -/
theorem not_inRange_empty :
    ((processDownlinkConsume returningEnv emptyMsg).exec .start).1 = .error .undefined ∧
    ((processMGRDownlinkMsg Poco.json ⟨2021, 4, 8, 2, 54, 56, 0⟩ false
      ⟨"cloud_req", noCommandMsg⟩).exec twoRelays).1 = .error .undefined := by
  have hempty : Poco.json.parse emptyMsg = .ok (.object .ptr emptyObject) :=
    Poco.json_parse (v := .object .ptr emptyObject)
      (by simp [emptyObject, Var.Regular, RegularFields]) (by decide +kernel)
  have habsent : Poco.json.parse noCommandMsg = .ok (.object .ptr [("ban_tin_id", .str "1")]) :=
    Poco.json_parse (v := .object .ptr [("ban_tin_id", .str "1")])
      (by simp [Var.Regular, RegularFields]) (by decide +kernel)
  constructor
  · apply (processDownlinkConsume_undefined_iff returningEnv emptyMsg).mpr
    exact ⟨emptyObject, ⟨hempty, rfl, rfl, fun _ ↦ rfl⟩, rfl, rfl⟩
  · apply (processMGRDownlinkMsg_undefined_iff Poco.json _ false _ twoRelays).mpr
    exact ⟨rfl, _, habsent, rfl⟩

end IcsGateway.CloudMessage
