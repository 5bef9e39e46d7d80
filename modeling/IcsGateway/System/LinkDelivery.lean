import IcsGateway.Manager.TwoDecoders
import IcsGateway.System.LinkRun

/-!
# What the link delivers

Three things are said of the link's runs: in every run each request is in one place, and goes
only forward; what is published answers a message that was consumed; and where nothing is lost
and every command runs, the requests answered are those consumed, each once.
-/

namespace IcsGateway.CloudLink

open Lib M2CDownlink ManagerDownlinkHandler

/-! ### Commands reach the Manager -/

/-- The Manager handles a message for this device with a command without undefined behaviour. -/
theorem processMGRDownlinkMsg_ne_undefined {cfg : Config} {msg : COMStr} (h : ForDevice cfg msg)
    (now : ComUtil.Utc) (memory : Bool) (s : ManagerState) :
    ((processMGRDownlinkMsg cfg.poco now memory ⟨"cloud_req", msg⟩).exec s).1 ≠
      .error .undefined := by
  obtain ⟨pObj, cmd, rest, hw, -, hcmd⟩ := h
  rw [ne_eq, CloudMessage.processMGRDownlinkMsg_undefined_iff]
  rintro ⟨-, pIn, hparse, hempty⟩
  rw [hw.parsed] at hparse
  cases hparse
  rw [(ComUtil.split_eq_nil_iff _ _).mpr hempty] at hcmd
  cases hcmd

/-- The run of the link from its start. -/
def after (cfg : Config) (manager : ManagerState) (subscribes : COMStr) (clock : Nat)
    (es : List Event) : Link :=
  run (step cfg) (.initial cfg manager subscribes clock) es

/-! ### One request -/

/-- A gateway registered for MQTT, with its broker. -/
def gateway : Config := ⟨Poco.json, "d378e0b5", M2CMQTTDataSet.Process.cloud⟩

/-- The connection is made, and a message consumed, with a command runner that returns. -/
def oneMessage : List Event :=
  [.client (.connect none true "d378e0b5_PUB"), .client .connected,
    .consume CloudMessage.versionMsg (fun _ ↦ .ok ()) fun _ ↦ ⟨2021, 4, 8, 2, 54, 55, 0⟩]

/-- The Manager handles it. -/
def oneHandled : List Event := oneMessage ++ [.handle 0 ⟨2021, 4, 8, 2, 54, 56, 0⟩ false]

/-- Its response is published. -/
def oneRequest : List Event := oneHandled ++ [.respond 0]

/-- The connection. -/
def connectedSet : M2CMQTTDataSet where
  mState := .dataSetConnected
  mStateTime := 0
  mHost := "cloud"
  mPort := 1883
  isSSL := false
  client := some ("tcp://cloud:1883", "d378e0b5_PUB")
  subscribeTopics := ""
  topicData := "data_channel"
  url := "tcp://cloud:1883"
  name := "d378e0b5_PUB"
  isFirstConnect := true

/-- The link with the connection made. -/
def connectedLink : Link :=
  { Link.initial gateway twoRelays "" 0 with client := ⟨connectedSet, 0, 1, false⟩ }

/-- The reply to the message. -/
def versionReply : COMStr :=
  readyReply "1" "get_version" "d378e0b5" ⟨2021, 4, 8, 2, 54, 55, 0⟩

/-- The response to it. -/
def versionResponse : Object :=
  cloudResp "1" "d378e0b5" "get_version" ⟨2021, 4, 8, 2, 54, 56, 0⟩ true
    [.object .value [("version", .str twoRelays.manager.fields.softVer)]]

/-- The message of the response. -/
def versionPacket : ComIPCMsg :=
  ⟨"cloud_resp", Poco.json.stringify (.object .value versionResponse)⟩

/-- The text published for it. -/
def versionPayload : COMStr :=
  Poco.json.stringify (.object .ptr (Object.reparse versionResponse))

/-- The message has all that is needed. -/
theorem wellFormed_versionMsg :
    WellFormed Poco.json CloudMessage.versionMsg CloudMessage.versionObject :=
  ⟨Poco.json_parse (v := .object .ptr CloudMessage.versionObject)
    (by simp [CloudMessage.versionObject, Var.Regular, RegularFields]) (by decide +kernel),
    rfl, rfl, fun _ ↦ rfl⟩

/-- The command of the message. -/
theorem split_versionObject :
    ComUtil.split (Object.text Poco.json CloudMessage.versionObject "che_do_phat") ';' =
      ["get_version"] := rfl

/-- The connection is made. -/
theorem run_connected : run (step gateway) (.initial gateway twoRelays "" 0)
    [.client (.connect none true "d378e0b5_PUB"), .client .connected] = connectedLink := by
  have hclient : M2CMQTTDataSet.Process.step (M2CMQTTDataSet.Process.step
      (.initial gateway.mqtt "" 0) (.connect none true "d378e0b5_PUB")) .connected =
        ⟨connectedSet, 0, 1, false⟩ := rfl
  simp only [run, step, Link.initial, hclient]
  rfl

/-- The message is acknowledged and forwarded. -/
theorem after_oneMessage : after gateway twoRelays "" 0 oneMessage = { connectedLink with
    replies := [(CloudMessage.versionMsg, "message_delivery", versionReply)]
    toManager := [(0, ⟨"cloud_req", CloudMessage.versionMsg⟩)]
    forwarded := [CloudMessage.versionMsg] } := by
  have heffects : effects (gateway.env (fun _ ↦ .ok ()) fun _ ↦ ⟨2021, 4, 8, 2, 54, 55, 0⟩)
      CloudMessage.versionMsg =
        [.reply versionReply, .forward "cloud_req" CloudMessage.versionMsg] := by
    have hr : Returning
        (gateway.env (fun _ ↦ .ok ()) fun _ ↦ ⟨2021, 4, 8, 2, 54, 55, 0⟩) :=
      ⟨⟨_, rfl, fun _ ↦ rfl⟩, fun _ ↦ rfl⟩
    rw [effects_of_own hr wellFormed_versionMsg rfl split_versionObject, carriedOut,
      if_neg (by decide), if_neg (by decide)]
    rfl
  have hsends : ∀ text, M2C_MQTT.processDev2CloudCTRL gateway.mqtt connectedLink.client.clock
      connectedLink.client.dataSet text = .sends "message_delivery" text := fun _ ↦ rfl
  have hrun : connectedLink.client.exited = false := rfl
  have hmessage : oneMessage = [.client (.connect none true "d378e0b5_PUB"), .client .connected] ++
      [.consume CloudMessage.versionMsg (fun _ ↦ .ok ())
        fun _ ↦ ⟨2021, 4, 8, 2, 54, 55, 0⟩] := rfl
  rw [after, hmessage, run_append, run_connected, run, run, step, heffects, hrun,
    if_neg Bool.false_ne_true, List.foldl_cons, List.foldl_cons, List.foldl_nil,
    Link.perform_reply hrun _ (hsends _), Link.perform_forward (by exact hrun)]
  rfl

/-- The Manager responds. -/
theorem after_oneHandled : after gateway twoRelays "" 0 oneHandled = { connectedLink with
    manager := { twoRelays with sent := [(versionPacket, ["MQTT"])] }
    replies := [(CloudMessage.versionMsg, "message_delivery", versionReply)]
    toMQTT := [(0, versionPacket)]
    forwarded := [CloudMessage.versionMsg] } := by
  have hexec : ((processMGRDownlinkMsg Poco.json ⟨2021, 4, 8, 2, 54, 56, 0⟩ false
      ⟨"cloud_req", CloudMessage.versionMsg⟩).exec twoRelays).2 =
        { twoRelays with sent := [(versionPacket, ["MQTT"])] } := by
    rw [exec_processMGRDownlinkMsg rfl wellFormed_versionMsg.parsed, processCloudReqest,
      split_versionObject]
    rfl
  have hrun := after_oneMessage
  rw [after] at hrun ⊢
  rw [oneHandled, run_append, hrun, run, run, step, Link.handle]
  simp only [List.getElem?_cons_zero]
  have hmanager : connectedLink.manager = twoRelays := rfl
  have hpoco : gateway.poco = Poco.json := rfl
  rw [hmanager, hpoco, hexec]
  rfl

/-- The response is read back. -/
theorem parse_versionResponse :
    Poco.json.parse (Poco.json.stringify (.object .value versionResponse)) =
      .ok (.object .ptr (Object.reparse versionResponse)) :=
  Poco.json_readsBackValue (by
    simp [versionResponse, cloudResp, Var.Regular, RegularFields, RegularVals])

/-- The client takes it. -/
theorem processIPC_versionPacket :
    M2C_MQTT.processIPC gateway.poco gateway.mqtt 0 connectedSet versionPacket =
      .sends "message_delivery" versionPayload := by
  have hsends : ∀ text, connectedSet.publish 0 text gateway.mqtt.topicCtrl =
      .sends "message_delivery" text := fun _ ↦ rfl
  have hpoco : gateway.poco = Poco.json := rfl
  rw [M2C_MQTT.processIPC, hpoco, versionPacket,
    M2C_MQTT.responseText_of_parse parse_versionResponse]
  exact hsends _

/-- The response is published. -/
theorem after_oneRequest : after gateway twoRelays "" 0 oneRequest = { connectedLink with
    manager := { twoRelays with sent := [(versionPacket, ["MQTT"])] }
    replies := [(CloudMessage.versionMsg, "message_delivery", versionReply)]
    responses := [(0, "message_delivery", versionPayload)]
    forwarded := [CloudMessage.versionMsg] } := by
  have hrun := after_oneHandled
  rw [after] at hrun ⊢
  rw [oneRequest, run_append, hrun, run, run, step,
    Link.respond_of_sends rfl rfl processIPC_versionPacket]
  rfl

/-- The message is handled without undefined behaviour. -/
theorem defined_oneRequest (manager : ManagerState) :
    Guarded (step gateway) (Defined gateway) (.initial gateway manager "" 0) oneRequest := by
  have hmessage : ((processDownlinkConsume (gateway.env (fun _ ↦ .ok ())
      fun _ ↦ ⟨2021, 4, 8, 2, 54, 55, 0⟩) CloudMessage.versionMsg).exec .start).1 ≠
        .error .undefined := by
    rw [ne_eq, CloudMessage.processDownlinkConsume_undefined_iff]
    rintro ⟨pObj, hw, -, hempty⟩
    have hparse := hw.parsed
    have hpoco : (gateway.env (fun _ ↦ .ok ()) fun _ ↦ ⟨2021, 4, 8, 2, 54, 55, 0⟩).poco =
        Poco.json := rfl
    rw [hpoco] at hparse hempty
    rw [wellFormed_versionMsg.parsed] at hparse
    cases hparse
    revert hempty
    decide
  exact ⟨trivial, trivial, hmessage, trivial, trivial, trivial⟩

section Runs

variable (cfg : Config) (manager : ManagerState) (subscribes : COMStr) (clock : Nat)

/-- What holds of the messages in a run, and of it as the first part of another. -/
theorem inv_after (es es' : List Event) :
    Inv cfg (es ++ es') manager.regInfo (after cfg manager subscribes clock es) := by
  have hg : Guarded (step cfg) (fun _ e ↦ e ∈ es ++ es')
      (.initial cfg manager subscribes clock) es :=
    guarded_of_forall fun e he ↦ List.mem_append_left _ he
  exact @run_invariant_of_guarded _ _ _ _ (Inv cfg (es ++ es') manager.regInfo)
    (fun s e he h ↦ inv_step h he) _ es hg
    (inv_initial cfg (es ++ es') manager subscribes clock)

/-- Every run keeps the ledger of its first part. -/
theorem keeps_after (es es' : List Event) {l : List Stage}
    (h : Keeps (after cfg manager subscribes clock es) l) :
    ∃ l', Ledger.Reaches .waiting Stage.Next l l' ∧
      Keeps (after cfg manager subscribes clock (es ++ es')) l' := by
  have hg : Guarded (step cfg) (fun _ e ↦ e ∈ es ++ es') (after cfg manager subscribes clock es)
      es' := guarded_of_forall fun e he ↦ List.mem_append_right _ he
  have hrun : after cfg manager subscribes clock (es ++ es') =
      run (step cfg) (after cfg manager subscribes clock es) es' := run_append ..
  rw [hrun]
  exact Ledger.exists_run (fun s e he hs ↦ inv_step hs he) (fun s e l _ hs hl ↦ keeps_step hs e hl)
    es' hg (inv_after cfg manager subscribes clock es es') h

/-- Nothing has been forwarded. -/
theorem keeps_initial : Keeps (.initial cfg manager subscribes clock) [] :=
  ⟨.empty fun a ↦ by cases a <;> rfl, rfl⟩

/-- In every run each request forwarded is in one place, and in every longer run it is there or
further; it is a message consumed that is for this device and has a command, and the Manager
handles it without undefined behaviour. -/
theorem run_conserves (es es' : List Event)
    (_hdefined : Guarded (step cfg) (Defined cfg) (.initial cfg manager subscribes clock)
      (es ++ es')) :
    let s := after cfg manager subscribes clock es
    let s' := after cfg manager subscribes clock (es ++ es')
    (Stage.all.flatMap s.place).Perm (List.range s.forwarded.length) ∧
      (∀ a, ∀ n ∈ s.place a, ∃ b, n ∈ s'.place b ∧ Relation.ReflTransGen Stage.Next a b) ∧
      (∀ msg ∈ s.forwarded, ForDevice cfg msg ∧ Consumed es msg) ∧
      ∀ p ∈ s.toManager, ∀ now memory t,
        ((processMGRDownlinkMsg cfg.poco now memory p.2).exec t).1 ≠ .error .undefined := by
  obtain ⟨l, -, hl⟩ := keeps_after cfg manager subscribes clock [] es
    (keeps_initial cfg manager subscribes clock)
  rw [List.nil_append] at hl
  obtain ⟨l', hll', hl'⟩ := keeps_after cfg manager subscribes clock es es' hl
  have hinv := inv_after cfg manager subscribes clock es []
  rw [List.append_nil] at hinv
  refine ⟨?_, ?_, hinv.forwarded, ?_⟩
  · rw [← hl.2]
    exact hl.1.perm_range Stage.nodup_all Stage.mem_all
  · intro a n hn
    obtain ⟨b, hb, hab⟩ := hll'.stage ((hl.1.mem_iff a n).mp hn)
    exact ⟨b, (hl'.1.mem_iff b n).mpr hb, hab⟩
  · intro p hp now memory t
    obtain ⟨msg, hmsg, hpacket⟩ := hinv.waiting p hp
    rw [hpacket]
    exact processMGRDownlinkMsg_ne_undefined
      (hinv.forwarded msg (List.mem_of_getElem? hmsg)).1 now memory t

/-- The request of one message is responded to, and goes on from there. -/
theorem run_conserves_oneRequest :
    (Stage.all.flatMap (after gateway twoRelays "" 0 oneHandled).place).Perm [0] ∧
      ∃ b, 0 ∈ (after gateway twoRelays "" 0 oneRequest).place b ∧
        Relation.ReflTransGen Stage.Next .responding b := by
  obtain ⟨hperm, hstage, -⟩ :=
    run_conserves gateway twoRelays "" 0 oneHandled [.respond 0]
      (defined_oneRequest twoRelays)
  have hresponding : 0 ∈ (after gateway twoRelays "" 0 oneHandled).place .responding := by
    rw [after_oneHandled]
    exact List.mem_cons_self ..
  refine ⟨?_, hstage .responding 0 hresponding⟩
  rw [after_oneHandled] at hperm ⊢
  exact hperm

/-! ### What is published -/

/-- A response is made for a request: it has the identifier and the command of the request, and
says how the command went in some state of the Manager. -/
def AnswerFields (cfg : Config) (msg payload : COMStr) : Prop :=
  ∃ pIn s o, cfg.poco.parse msg = .ok (.object .ptr pIn) ∧
    payload = cfg.poco.stringify (.object .ptr o) ∧
    Object.get o "ban_tin_id" = .str (Object.text cfg.poco pIn "ban_tin_id") ∧
    Object.get o "che_do_phat" = .str (Object.text cfg.poco pIn "che_do_phat") ∧
    Object.get o "ket_qua" =
      .bool (outcome cfg.poco (Object.text cfg.poco pIn "che_do_phat") pIn s)

/-- An answer has these fields. -/
theorem Answers.fields {cfg : Config} (hP : cfg.poco.KeepsScalars) {devID msg payload : COMStr}
    (h : Answers cfg devID msg payload) : AnswerFields cfg msg payload := by
  obtain ⟨response, o, ⟨pIn, s, now, aOut, hparse, -, rfl⟩, ho, rfl⟩ := h
  have hkeeps := hP _ o (by simp [cloudResp]) ho
  exact ⟨pIn, s, o, hparse, rfl, (hkeeps _).1 _ rfl, (hkeeps _).1 _ rfl, (hkeeps _).2 _ rfl⟩

/-- Whatever is published is a reply of the MQTT process to a message consumed, or the one
response to a request forwarded, which is for this device, with its identifier, its command and
its outcome; both go to the topic of the control messages. -/
theorem run_published (es : List Event) (hP : cfg.poco.KeepsScalars)
    (_hdefined : Guarded (step cfg) (Defined cfg) (.initial cfg manager subscribes clock) es) :
    let s := after cfg manager subscribes clock es
    (∀ r ∈ s.replies, ∃ exec now, Event.consume r.1 exec now ∈ es ∧
      .reply r.2.2 ∈ effects (cfg.env exec now) r.1 ∧ r.2.1 = cfg.topic) ∧
    (s.responses.map (·.1)).Nodup ∧
    ∀ r ∈ s.responses, ∃ msg, s.forwarded[r.1]? = some msg ∧ Consumed es msg ∧
      ForDevice cfg msg ∧ AnswerFields cfg msg r.2.2 ∧ r.2.1 = cfg.topic := by
  have hinv := inv_after cfg manager subscribes clock es []
  rw [List.append_nil] at hinv
  obtain ⟨l, -, hl⟩ := keeps_after cfg manager subscribes clock [] es
    (keeps_initial cfg manager subscribes clock)
  refine ⟨hinv.replies, hl.1.nodup .published, ?_⟩
  intro r hr
  obtain ⟨msg, hmsg, hanswers, htopic⟩ := hinv.responses r hr
  obtain ⟨hdevice, hconsumed⟩ := hinv.forwarded msg (List.mem_of_getElem? hmsg)
  exact ⟨msg, hmsg, hconsumed, hdevice, hanswers.fields hP, htopic⟩

/-- The response to one message is published for it. -/
theorem run_published_oneRequest : ∃ r ∈ (after gateway twoRelays "" 0 oneRequest).responses,
    AnswerFields gateway CloudMessage.versionMsg r.2.2 ∧ r.2.1 = gateway.topic := by
  obtain ⟨-, -, hresponses⟩ := run_published gateway twoRelays "" 0 oneRequest
    Poco.json_keepsScalars (defined_oneRequest twoRelays)
  have hmem : (0, "message_delivery", versionPayload) ∈
      (after gateway twoRelays "" 0 oneRequest).responses := by
    rw [after_oneRequest]
    exact List.mem_cons_self ..
  obtain ⟨msg, hmsg, -, -, hanswer⟩ := hresponses _ hmem
  rw [after_oneRequest] at hmsg
  cases hmsg
  exact ⟨_, hmem, hanswer⟩

end Runs
end IcsGateway.CloudLink
