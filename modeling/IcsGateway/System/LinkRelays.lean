import IcsGateway.Manager.RelayRun
import IcsGateway.System.LinkDelivery

/-!
# The relays in the runs of the link

Only a cloud request for this device with the command to set a relay changes the relays, and
however the steps interleave the pins, the running configuration and the persisted text agree.
-/

namespace IcsGateway.CloudLink

open Lib M2CDownlink ManagerDownlinkHandler

/-- The relays are as they were: in the running configuration, at the pins and persisted. -/
structure SameRelays (s s' : ManagerState) : Prop where
  dFRelayState : s'.dFRelayState = s.dFRelayState
  pins : s'.pins = s.pins
  redis : s'.redis = s.redis

/-- Nothing has changed. -/
theorem SameRelays.refl (s : ManagerState) : SameRelays s s := ⟨rfl, rfl, rfl⟩

/-- Nor has it since. -/
theorem SameRelays.trans {s s' s'' : ManagerState} (h : SameRelays s s') (h' : SameRelays s' s'') :
    SameRelays s s'' :=
  ⟨h'.dFRelayState.trans h.dFRelayState, h'.pins.trans h.pins, h'.redis.trans h.redis⟩

/-- Where the relays are as they were, their copies agree as they did. -/
theorem SameRelays.consistent {P : Poco} {s s' : ManagerState} (h : SameRelays s s')
    (hc : Consistent P s) : Consistent P s' := by
  have hrelays : ManagerState.relays s' = ManagerState.relays s := by
    rw [ManagerState.relays, h.dFRelayState]
    rfl
  refine ⟨?_, ?_, ?_, ?_⟩
  · rw [hrelays]
    exact hc.distinct
  · rw [hrelays, h.pins]
    exact hc.levels
  · rw [Listed, h.dFRelayState]
    exact hc.listed
  · rw [Saved, hrelays, h.redis, h.dFRelayState]
    exact hc.persisted

/-- A message for this device with the command to set a relay. -/
def Commands (cfg : Config) (msg : COMStr) : Prop :=
  ∃ pObj rest, WellFormed cfg.poco msg pObj ∧
    Object.text cfg.poco pObj "cum_loa_id" = cfg.devID ∧
    ComUtil.split (Object.text cfg.poco pObj "che_do_phat") ';' =
      "set_air_conditional_status" :: rest

/-! ### One message -/

/-- Another command changes nothing. -/
theorem processCloudReqest_of_ne {P : Poco} {command cmd : COMStr} {rest : List COMStr}
    (hcmd : ComUtil.split command ';' = cmd :: rest) (hne : cmd ≠ "set_air_conditional_status")
    (pIn : Object) (aOutput : List Var) (s : ManagerState) :
    ((processCloudReqest P command pIn aOutput).exec s).2 = s := by
  rw [processCloudReqest, hcmd]
  simp only [if_neg hne, Eff.exec_ite]
  split
  · rfl
  · split
    · unfold cloudGetAlarmConfig ManagerDownlinkHandler.call
      rw [Eff.exec_bind, Eff.exec_get]
      simp only [Eff.exec_bind, Eff.exec_ofExcept]
      cases P.parse (s.redis "COLLECTOR_CONFIG") with
      | error e => rfl
      | ok v =>
        simp only [Except.mapError]
        cases v.extractObject <;> rfl
    · rfl

/-- A cloud request does to the relays what its command does. -/
theorem sameRelays_of_cloud_req {P : Poco} {content : COMStr} {pIn : Object}
    (hparse : P.parse content = .ok (.object .ptr pIn)) (now : ComUtil.Utc) (memory : Bool)
    (s : ManagerState) :
    SameRelays ((processCloudReqest P (Object.text P pIn "che_do_phat") pIn []).exec s).2
      ((processMGRDownlinkMsg P now memory ⟨"cloud_req", content⟩).exec s).2 := by
  rw [exec_processMGRDownlinkMsg rfl hparse]
  rcases (processCloudReqest P (Object.text P pIn "che_do_phat") pIn []).exec s with ⟨r, s'⟩
  cases r with
  | error e => exact .refl s'
  | ok a =>
    simp only
    split
    · exact ⟨rfl, rfl, rfl⟩
    · exact .refl s'

/-- A message of another type leaves the relays alone. -/
theorem sameRelays_of_other {P : Poco} (packet : ComIPCMsg) (htype : packet.type ≠ "cloud_req")
    (now : ComUtil.Utc) (memory : Bool) (s : ManagerState) :
    SameRelays s ((processMGRDownlinkMsg P now memory packet).exec s).2 := by
  by_cases hp : ∃ pIn, P.parse packet.content = .ok (.object .ptr pIn)
  · obtain ⟨pIn, hp⟩ := hp
    rw [processMGRDownlinkMsg, Eff.exec_tryCatch, processMGRDownlinkBody]
    simp only [ManagerDownlinkHandler.call, hp, Except.mapError, Var.extractObject,
      Eff.exec_ofExcept_bind, if_neg htype]
    by_cases hs : packet.type = "StatusInd"
    · simp only [if_pos hs, Eff.exec_bind, Eff.exec_get]
      by_cases hm : s.regInfo.protocol = "MQTT"
      · simp only [if_pos hm, Eff.exec_bind, Eff.exec_set, Eff.exec_ofExcept]
        cases ((WatchDogSection.fromJson P memory packet.content).exec s.m2cMQTT).1 with
        | error e => exact ⟨rfl, rfl, rfl⟩
        | ok _ => exact ⟨rfl, rfl, rfl⟩
      · simp only [if_neg hm]
        exact ⟨rfl, rfl, rfl⟩
    · simp only [if_neg hs]
      exact ⟨rfl, rfl, rfl⟩
  · rw [exec_processMGRDownlinkMsg_of_unread packet fun pIn h ↦ hp ⟨pIn, h⟩]
    exact .refl s

/-- So does a message of the Bridge. -/
theorem sameRelays_processBridgeMsg (P : Poco) (packet : ComIPCMsg) (s : ManagerState) :
    SameRelays s ((processBridgeMsg P packet).exec s).2 := by
  rw [processBridgeMsg, Eff.exec_tryCatch]
  simp only [ManagerDownlinkHandler.call]
  cases P.parse packet.content with
  | error e => exact .refl s
  | ok v =>
    simp only [Except.mapError, Eff.exec_ofExcept_bind]
    cases v.extractObject with
    | error e => exact .refl s
    | ok o =>
      by_cases hs : packet.type = "StatusInd"
      · simp only [if_pos hs, Eff.exec_bind, managerIPCSend, Eff.exec_modify]
        exact ⟨rfl, rfl, rfl⟩
      · simp only [if_neg hs]
        exact ⟨rfl, rfl, rfl⟩

/-! ### Runs -/

/-- The relays agree, and are as they were unless a command to set one has been consumed. -/
structure Commanded (cfg : Config) (es : List Event) (start s : ManagerState) : Prop where
  consistent : Consistent cfg.poco s
  commanded : SameRelays start s ∨ ∃ msg, Consumed es msg ∧ Commands cfg msg

section Steps

variable {cfg : Config} {es : List Event} {reg : RegInfo} {start : ManagerState}

/-- A state with the same relays. -/
theorem Commanded.of_same {s s' : ManagerState} (h : Commanded cfg es start s)
    (hs : SameRelays s s') : Commanded cfg es start s' :=
  ⟨hs.consistent h.consistent, h.commanded.imp_left (·.trans hs)⟩

/-- The effects of a message in the MQTT process do not reach the Manager. -/
theorem manager_foldl_perform (msg : COMStr) (effs : List Effect) (s : Link) :
    (effs.foldl (Link.perform cfg msg) s).manager = s.manager := by
  induction effs generalizing s with
  | nil => rfl
  | cons e effs ih =>
    rw [List.foldl_cons, ih]
    unfold Link.perform
    split
    · rfl
    · cases e with
      | reply text =>
        simp only
        split <;> rfl
      | _ => rfl

/-- The Manager handles a message. -/
theorem commanded_handle {s : Link} (hinv : Inv cfg es reg s)
    (h : Commanded cfg es start s.manager) (i : Nat) (now : ComUtil.Utc) (memory : Bool) :
    Commanded cfg es start (s.handle cfg i now memory).manager := by
  rw [Link.handle]
  split
  · exact h
  · next n packet hi =>
    obtain ⟨msg, hmsg, hpacket⟩ := hinv.waiting _ (List.mem_of_getElem? hi)
    simp only at hmsg hpacket
    subst hpacket
    obtain ⟨⟨pObj, cmd, rest, hw, hd, hcmd⟩, hconsumed⟩ :=
      hinv.forwarded msg (List.mem_of_getElem? hmsg)
    have hsame := sameRelays_of_cloud_req hw.parsed now memory s.manager
    by_cases hset : cmd = "set_air_conditional_status"
    · subst hset
      refine ⟨hsame.consistent ?_, .inr ⟨msg, hconsumed, pObj, rest, hw, hd, hcmd⟩⟩
      rcases processCloudReqest_state cfg.poco _ pObj [] s.manager with hs | ⟨index, state, hsw⟩
      · rw [hs]
        exact h.consistent
      · exact hsw.consistent h.consistent
    · rw [processCloudReqest_of_ne hcmd hset] at hsame
      exact h.of_same hsame

/-- Every step keeps it. -/
theorem commanded_step {s : Link} (hinv : Inv cfg es reg s)
    (h : Commanded cfg es start s.manager) (e : Event) :
    Commanded cfg es start (step cfg s e).manager := by
  cases e with
  | consume msg exec now =>
    rw [step]
    split
    · exact h
    · rw [manager_foldl_perform]
      exact h
  | handle i now memory => exact commanded_handle hinv h i now memory
  | respond i =>
    rw [step, Link.respond]
    split
    · exact h
    · split
      · exact h
      · simp only
        split <;> exact h
  | indicate content now memory =>
    exact h.of_same (sameRelays_of_other ⟨"StatusInd", content⟩
      (show "StatusInd" ≠ "cloud_req" by decide) now memory s.manager)
  | bridge packet => exact h.of_same (sameRelays_processBridgeMsg cfg.poco packet s.manager)
  | loseRequest i =>
    rw [step, Link.loseRequest]
    split <;> exact h
  | loseResponse i =>
    rw [step, Link.loseResponse]
    split <;> exact h
  | _ => exact h

end Steps

/-- From a start where the pins, the running configuration and the persisted text agree, they
agree in every state of every run, and they are as at the start unless a message for this device
with the command to set a relay has been consumed. -/
theorem run_commanded (cfg : Config) (manager : ManagerState) (subscribes : COMStr) (clock : Nat)
    (es : List Event) (hconsistent : Consistent cfg.poco manager)
    (_hdefined : Guarded (step cfg) (Defined cfg) (.initial cfg manager subscribes clock) es) :
    Commanded cfg es manager (after cfg manager subscribes clock es).manager := by
  have hg : Guarded (step cfg) (fun _ e ↦ e ∈ es) (.initial cfg manager subscribes clock) es :=
    guarded_of_forall fun e he ↦ he
  have hrun := @run_invariant_of_guarded _ _ _ _
    (fun s ↦ Inv cfg es manager.regInfo s ∧ Commanded cfg es manager s.manager)
    (fun s e he h ↦ ⟨inv_step h.1 he, commanded_step h.1 h.2 e⟩) _ es hg
    ⟨inv_initial cfg es manager subscribes clock, hconsistent, .inl (.refl manager)⟩
  exact hrun.2

/-- A Manager that has started on the document of two relays that are off. -/
def started : ManagerState :=
  ((managerInitialize Poco.json ⟨"", "", 0, 0, 0⟩).exec beforeStart).2

/-- Its relays agree. -/
theorem consistent_started : Consistent Poco.json started := by
  have htext : beforeStart.redis "DEFAULT_RELAY" =
      Poco.json.stringify (.object .ptr (relayDocument .ptr 0)) := rfl
  have hparse : Poco.json.parse (beforeStart.redis "DEFAULT_RELAY") =
      .ok (.object .ptr (relayDocument .ptr 0)) := by
    rw [htext]
    exact Poco.json_readsBack (by
      simp [relayDocument, relayElement, Var.Regular, RegularVals, RegularFields])
  have hcomplete : ∀ v ∈ [relayElement .ptr 1 23 0, relayElement .ptr 2 24 0],
      CompleteRelay Poco.json v := by
    simp only [List.forall_mem_cons, List.not_mem_nil, false_implies, implies_true, and_true]
    refine ⟨⟨_, _, rfl, rfl, ?_⟩, ⟨_, _, rfl, rfl, ?_⟩⟩ <;>
      intro f <;> cases f <;> exact Option.some_ne_none _
  exact managerInitialize_consistent hparse rfl hcomplete (by decide +kernel)

/-- A request for the version leaves its relays alone. -/
theorem run_commanded_oneRequest :
    SameRelays started (after gateway started "" 0 oneRequest).manager := by
  obtain ⟨-, hsame | ⟨msg, ⟨exec, now, hmem⟩, pObj, rest, hw, -, hcmd⟩⟩ :=
    run_commanded gateway started "" 0 oneRequest consistent_started (defined_oneRequest started)
  · exact hsame
  · have hmsg : msg = CloudMessage.versionMsg := by
      simp only [oneRequest, oneHandled, oneMessage, List.mem_append, List.mem_cons,
        List.not_mem_nil, or_false, reduceCtorEq, false_or, Event.consume.injEq] at hmem
      exact hmem.1
    have hparse := hw.parsed
    rw [hmsg] at hparse
    cases wellFormed_versionMsg.parsed.symm.trans hparse
    exact absurd (List.cons.inj (split_versionObject.symm.trans hcmd)).1 (by decide)

end IcsGateway.CloudLink
