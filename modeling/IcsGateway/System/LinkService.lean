import IcsGateway.M2C.Replies
import IcsGateway.System.LinkDelivery

/-!
# What a link without losses answers

Where no message is lost, the MQTT process does not end, the commands run and the client takes
what is published, the requests answered once nothing is on its way are the messages consumed
that are for the Manager, each as often as it was consumed.
-/

namespace IcsGateway.CloudLink

open Lib M2CDownlink ManagerDownlinkHandler

/-! ### The messages for the Manager -/

/-- A message is for this device and has a command other than the two the MQTT process carries
out itself. -/
def Config.forManager (cfg : Config) (msg : COMStr) : Bool :=
  match cfg.poco.parse msg with
  | .ok (.object .ptr pObj) =>
    !Object.isNull pObj "ban_tin_id" && !Object.isNull pObj "che_do_phat" &&
      !(Object.has pObj "cum_loa_id" && Object.isNull pObj "cum_loa_id") &&
      Object.text cfg.poco pObj "cum_loa_id" = cfg.devID &&
      match ComUtil.split (Object.text cfg.poco pObj "che_do_phat") ';' with
      | [] => false
      | cmd :: _ => cmd ≠ "reboot" && cmd ≠ "restart"
  | _ => false

/-- In terms of the object the message is read as. -/
theorem forManager_iff (cfg : Config) (msg : COMStr) :
    cfg.forManager msg = true ↔ ∃ pObj cmd rest, WellFormed cfg.poco msg pObj ∧
      Object.text cfg.poco pObj "cum_loa_id" = cfg.devID ∧
      ComUtil.split (Object.text cfg.poco pObj "che_do_phat") ';' = cmd :: rest ∧
      cmd ≠ "reboot" ∧ cmd ≠ "restart" := by
  unfold Config.forManager
  constructor
  · intro h
    split at h
    · next pObj hparse =>
      simp only [Bool.and_eq_true, Bool.not_eq_true', decide_eq_true_eq] at h
      obtain ⟨⟨⟨⟨hu, hd⟩, ha⟩, hdev⟩, hcmd⟩ := h
      split at hcmd
      · cases hcmd
      · next cmd rest hsplit =>
        simp only [Bool.and_eq_true, decide_eq_true_eq] at hcmd
        refine ⟨pObj, cmd, rest, ⟨hparse, hu, hd, ?_⟩, hdev, hsplit, hcmd⟩
        intro hhas
        rw [hhas, Bool.true_and] at ha
        exact ha
    · cases h
  · rintro ⟨pObj, cmd, rest, hw, hdev, hsplit, hcmd⟩
    rw [hw.parsed]
    have ha : (Object.has pObj "cum_loa_id" && Object.isNull pObj "cum_loa_id") = false := by
      cases hhas : Object.has pObj "cum_loa_id" with
      | false => rfl
      | true => exact hw.devId hhas
    simp [hw.uuid, hw.data, ha, hdev, hsplit, hcmd]

/-- The messages forwarded among some effects. -/
def forwards (effs : List Effect) : List COMStr :=
  effs.filterMap fun
    | .forward _ content => some content
    | _ => none

/-- A message is forwarded, once, if it is for the Manager. -/
theorem forwards_effects (cfg : Config) {exec : COMStr → Except Exn Unit}
    (hexec : ∀ command, exec command = .ok ()) (now : Nat → ComUtil.Utc) (msg : COMStr) :
    forwards (effects (cfg.env exec now) msg) = if cfg.forManager msg then [msg] else [] := by
  have hr : Returning (cfg.env exec now) := ⟨⟨_, rfl, fun _ ↦ rfl⟩, hexec⟩
  by_cases hw : ∃ pObj, WellFormed cfg.poco msg pObj
  · obtain ⟨pObj, hw⟩ := hw
    have huniq : ∀ o, WellFormed cfg.poco msg o → o = pObj := by
      intro o ho
      have hp := ho.parsed
      rw [hw.parsed] at hp
      cases hp
      rfl
    by_cases hd : Object.text cfg.poco pObj "cum_loa_id" = cfg.devID
    · cases hcmd : ComUtil.split (Object.text cfg.poco pObj "che_do_phat") ';' with
      | nil =>
        have hnot : ¬ cfg.forManager msg = true := by
          rw [forManager_iff]
          rintro ⟨o, cmd, rest, ho, -, hsplit, -⟩
          cases huniq o ho
          rw [hcmd] at hsplit
          cases hsplit
        have hnil : effects (cfg.env exec now) msg = [] := effects_of_no_command hw hd hcmd
        rw [if_neg hnot, hnil]
        rfl
      | cons cmd rest =>
        have hiff : cfg.forManager msg = true ↔ cmd ≠ "reboot" ∧ cmd ≠ "restart" := by
          rw [forManager_iff]
          constructor
          · rintro ⟨o, cmd', rest', ho, -, hsplit, hne⟩
            cases huniq o ho
            rw [hcmd] at hsplit
            cases hsplit
            exact hne
          · intro hne
            exact ⟨pObj, cmd, rest, hw, hd, hcmd, hne⟩
        rw [effects_of_own hr hw hd hcmd, carriedOut]
        by_cases hreboot : cmd = "reboot"
        · rw [if_pos hreboot, if_neg fun h ↦ (hiff.mp h).1 hreboot]
          rfl
        · by_cases hrestart : cmd = "restart"
          · rw [if_neg hreboot, if_pos hrestart, if_neg fun h ↦ (hiff.mp h).2 hrestart]
            rfl
          · rw [if_neg hreboot, if_neg hrestart, if_pos (hiff.mpr ⟨hreboot, hrestart⟩)]
            rfl
    · have hnot : ¬ cfg.forManager msg = true := by
        rw [forManager_iff]
        rintro ⟨o, cmd, rest, ho, hdev, -⟩
        cases huniq o ho
        exact hd hdev
      have hnil : effects (cfg.env exec now) msg = [] := effects_of_foreign hw hd
      rw [if_neg hnot, hnil]
      rfl
  · have hnone : ∀ pObj, ¬ WellFormed (cfg.env exec now).poco msg pObj :=
      fun pObj h ↦ hw ⟨pObj, h⟩
    have hnot : ¬ cfg.forManager msg = true := by
      rw [forManager_iff]
      rintro ⟨o, cmd, rest, ho, -⟩
      exact hw ⟨o, ho⟩
    rw [if_neg hnot, forwards, List.filterMap_eq_nil_iff]
    intro e he
    obtain ⟨text, rfl⟩ := (effects_of_not_wellFormed hnone).1 e he
    rfl

/-! ### Runs without losses -/

/-- The messages consumed. -/
def messagesOf (es : List Event) : List COMStr :=
  es.filterMap fun
    | .consume msg _ _ => some msg
    | _ => none

/-- Nothing goes wrong in a step: the MQTT process does not end, its command runner returns, a
message the Manager handles has a command that runs, a response handled is handed to the client,
and nothing is lost. -/
def Serves (cfg : Config) (s : Link) : Event → Prop
  | .client e => (s.client.step e).exited = false
  | .consume msg exec now => (∀ command, exec command = .ok ()) ∧
      (step cfg s (.consume msg exec now)).client.exited = false
  | .handle i _ _ => ∀ n packet, s.toManager[i]? = some (n, packet) →
      ∃ pIn, cfg.poco.parse packet.content = .ok (.object .ptr pIn) ∧
        CommandRuns cfg.poco (Object.text cfg.poco pIn "che_do_phat") pIn s.manager
  | .respond i => ∀ n packet, s.toMQTT[i]? = some (n, packet) → ∃ topic payload,
      M2C_MQTT.processIPC cfg.poco cfg.mqtt s.client.clock s.client.dataSet packet =
        .sends topic payload
  | .loseRequest i => s.toManager[i]? = none
  | .loseResponse i => s.toMQTT[i]? = none
  | _ => True

/-- No request has been lost or dropped, and the MQTT process runs. -/
structure Intact (s : Link) : Prop where
  running : s.client.exited = false
  lost : s.lost = []
  dropped : s.dropped = []

section Serves

variable {cfg : Config} {s : Link}

/-- An MQTT process that has ended carries out no effect. -/
theorem foldl_perform_of_exited (msg : COMStr) (effs : List Effect)
    (h : s.client.exited = true) : effs.foldl (Link.perform cfg msg) s = s := by
  induction effs with
  | nil => rfl
  | cons e effs ih =>
    have hone : s.perform cfg msg e = s := by
      unfold Link.perform
      rw [if_pos h]
    rw [List.foldl_cons, hone, ih]

/-- Effects in an MQTT process that goes on forward what they are to forward, and lose nothing. -/
theorem foldl_perform_of_running (msg : COMStr) (effs : List Effect)
    (h : (effs.foldl (Link.perform cfg msg) s).client.exited = false) :
    (effs.foldl (Link.perform cfg msg) s).lost = s.lost ∧
      (effs.foldl (Link.perform cfg msg) s).dropped = s.dropped ∧
      (effs.foldl (Link.perform cfg msg) s).forwarded =
        s.forwarded ++ (forwards effs).map fun _ ↦ msg := by
  induction effs generalizing s with
  | nil => exact ⟨rfl, rfl, (List.append_nil _).symm⟩
  | cons e effs ih =>
    have hrunning : s.client.exited = false := by
      cases hs : s.client.exited with
      | false => rfl
      | true =>
        rw [foldl_perform_of_exited msg _ hs, hs] at h
        exact h
    obtain ⟨hlost, hdropped, hforwarded⟩ := ih h
    rw [List.foldl_cons, hlost, hdropped, hforwarded]
    unfold Link.perform
    simp only [hrunning, Bool.false_eq_true, if_false]
    cases e with
    | reply text =>
      simp only
      split <;> exact ⟨rfl, rfl, rfl⟩
    | exec command => exact ⟨rfl, rfl, rfl⟩
    | forward type content => exact ⟨rfl, rfl, List.append_assoc ..⟩

/-- A step that serves loses nothing, and forwards what it consumes for the Manager. -/
theorem intact_step {es : List Event} {reg : RegInfo} (hinv : Inv cfg es reg s)
    (hprotocol : reg.protocol = "MQTT") (e : Event) (hs : Serves cfg s e) (h : Intact s) :
    Intact (step cfg s e) ∧
      (step cfg s e).forwarded = s.forwarded ++ (messagesOf [e]).filter cfg.forManager := by
  cases e with
  | client e => exact ⟨⟨hs, h.lost, h.dropped⟩, (List.append_nil _).symm⟩
  | consume msg exec now =>
    obtain ⟨hexec, hrunning⟩ := hs
    rw [step, h.running] at hrunning ⊢
    simp only [Bool.false_eq_true, if_false] at hrunning ⊢
    obtain ⟨hlost, hdropped, hforwarded⟩ := foldl_perform_of_running msg _ hrunning
    refine ⟨⟨hrunning, hlost.trans h.lost, hdropped.trans h.dropped⟩, ?_⟩
    rw [hforwarded, forwards_effects cfg hexec now msg, messagesOf]
    simp only [List.filterMap_cons, List.filterMap_nil]
    cases hm : cfg.forManager msg with
    | true => simp [hm]
    | false => simp [hm]
  | handle i now memory =>
    rw [step, Link.handle]
    split
    · exact ⟨h, (List.append_nil _).symm⟩
    · next n packet hi =>
      obtain ⟨msg, -, hpacket⟩ := hinv.waiting _ (List.mem_of_getElem? hi)
      simp only at hpacket
      subst hpacket
      obtain ⟨pIn, hparse, hruns⟩ := hs n _ hi
      obtain ⟨response, hnew⟩ := forMQTT_of_runs hparse hruns
        (hinv.regInfo.symm ▸ hprotocol) now memory
      simp only [drop_forMQTT hnew, List.cons_ne_nil, if_false]
      exact ⟨⟨h.running, h.lost, h.dropped⟩, (List.append_nil _).symm⟩
  | respond i =>
    rw [step, Link.respond, h.running]
    simp only [Bool.false_eq_true, if_false]
    split
    · exact ⟨h, (List.append_nil _).symm⟩
    · next n packet hi =>
      obtain ⟨topic, payload, hsend⟩ := hs n packet hi
      simp only [hsend]
      exact ⟨⟨h.running, h.lost, h.dropped⟩, (List.append_nil _).symm⟩
  | loseRequest i =>
    rw [step, Link.loseRequest, show s.toManager[i]? = none from hs]
    exact ⟨h, (List.append_nil _).symm⟩
  | loseResponse i =>
    rw [step, Link.loseResponse, show s.toMQTT[i]? = none from hs]
    exact ⟨h, (List.append_nil _).symm⟩
  | restart subscribes secs => exact ⟨⟨rfl, h.lost, h.dropped⟩, (List.append_nil _).symm⟩
  | _ => exact ⟨⟨h.running, h.lost, h.dropped⟩, (List.append_nil _).symm⟩

/-- So does a run. -/
theorem intact_run {es₀ : List Event} {reg : RegInfo} (hprotocol : reg.protocol = "MQTT")
    (es : List Event) (hsub : ∀ e ∈ es, e ∈ es₀) (hinv : Inv cfg es₀ reg s)
    (hs : Guarded (step cfg) (Serves cfg) s es) (h : Intact s) :
    Intact (run (step cfg) s es) ∧
      (run (step cfg) s es).forwarded = s.forwarded ++ (messagesOf es).filter cfg.forManager := by
  induction es generalizing s with
  | nil => exact ⟨h, (List.append_nil _).symm⟩
  | cons e es ih =>
    obtain ⟨hintact, hforwarded⟩ := intact_step hinv hprotocol e hs.1 h
    obtain ⟨hintact', hforwarded'⟩ := ih (fun e' he' ↦ hsub e' (List.mem_cons_of_mem _ he'))
      (inv_step hinv (hsub e (List.mem_cons_self ..))) hs.2 hintact
    refine ⟨hintact', ?_⟩
    rw [run, hforwarded', hforwarded, List.append_assoc, ← List.filter_append]
    have hcons : messagesOf (e :: es) = messagesOf [e] ++ messagesOf es := by
      rw [messagesOf, messagesOf, messagesOf, ← List.filterMap_append, List.singleton_append]
    rw [hcons]

end Serves

/-- The requests answered, by the messages they are. -/
def Link.answered (s : Link) : List COMStr := s.responses.map fun r ↦ s.forwarded.getD r.1 ""

/-- Once nothing is on its way, the requests answered in a run without losses are the messages
consumed that are for the Manager, each as often as it was consumed. -/
theorem run_answered (cfg : Config) (manager : ManagerState) (subscribes : COMStr) (clock : Nat)
    (es : List Event) (hprotocol : manager.regInfo.protocol = "MQTT")
    (_hdefined : Guarded (step cfg) (Defined cfg) (.initial cfg manager subscribes clock) es)
    (hserves : Guarded (step cfg) (Serves cfg) (.initial cfg manager subscribes clock) es)
    (hrequests : (after cfg manager subscribes clock es).toManager = [])
    (hresponses : (after cfg manager subscribes clock es).toMQTT = []) :
    (after cfg manager subscribes clock es).answered.Perm
      ((messagesOf es).filter cfg.forManager) := by
  obtain ⟨hintact, hforwarded⟩ := intact_run hprotocol es (fun e he ↦ he)
    (inv_initial cfg es manager subscribes clock) hserves ⟨rfl, rfl, rfl⟩
  obtain ⟨l, -, hl⟩ := keeps_after cfg manager subscribes clock [] es
    (keeps_initial cfg manager subscribes clock)
  have hperm := hl.1.perm_range Stage.nodup_all Stage.mem_all
  rw [hl.2] at hperm
  -- every place but that of the responses published is empty
  have hplaces : Stage.all.flatMap (after cfg manager subscribes clock es).place =
      (after cfg manager subscribes clock es).responses.map (·.1) := by
    simp only [Stage.all, List.flatMap_cons, List.flatMap_nil, Link.place, hrequests, hresponses,
      List.map_nil, List.nil_append, List.append_nil]
    rw [after, hintact.lost, hintact.dropped]
    simp
  rw [List.nil_append, hplaces] at hperm
  have hmap := hperm.map fun n ↦ (after cfg manager subscribes clock es).forwarded.getD n ""
  rw [List.map_map] at hmap
  have hall : (List.range (after cfg manager subscribes clock es).forwarded.length).map
      (fun n ↦ (after cfg manager subscribes clock es).forwarded.getD n "") =
      (after cfg manager subscribes clock es).forwarded := by
    apply List.ext_getElem
    · rw [List.length_map, List.length_range]
    · intro i hi hi'
      rw [List.getElem_map, List.getElem_range, List.getD_eq_getElem?_getD,
        List.getElem?_eq_getElem hi', Option.getD_some]
  rw [hall] at hmap
  have hmessages : (after cfg manager subscribes clock es).forwarded =
      (messagesOf es).filter cfg.forManager := hforwarded.trans (List.nil_append _)
  rw [hmessages] at hmap
  rw [Link.answered, hmessages]
  exact hmap

/-- Nothing goes wrong with one request. -/
theorem serves_oneRequest :
    Guarded (step gateway) (Serves gateway) (.initial gateway twoRelays "" 0) oneRequest := by
  have hconsume : (after gateway twoRelays "" 0 oneMessage).client.exited = false := by
    rw [after_oneMessage]
    rfl
  have hhandle : Serves gateway (after gateway twoRelays "" 0 oneMessage)
      (.handle 0 ⟨2021, 4, 8, 2, 54, 56, 0⟩ false) := by
    intro n packet hi
    rw [after_oneMessage] at hi ⊢
    cases hi
    refine ⟨CloudMessage.versionObject, wellFormed_versionMsg.parsed, _, _, split_versionObject,
      ?_, ?_⟩
    · intro h
      exact absurd h (by decide)
    · intro h
      exact absurd h (by decide)
  have hrespond : Serves gateway (after gateway twoRelays "" 0 oneHandled) (.respond 0) := by
    intro n packet hi
    rw [after_oneHandled] at hi ⊢
    cases hi
    exact ⟨_, _, processIPC_versionPacket⟩
  exact ⟨rfl, rfl, ⟨fun _ ↦ rfl, hconsume⟩, hhandle, hrespond, trivial⟩

/-- The message of one request is answered. -/
theorem run_answered_oneRequest :
    (after gateway twoRelays "" 0 oneRequest).answered.Perm [CloudMessage.versionMsg] := by
  have hanswered := run_answered gateway twoRelays "" 0 oneRequest rfl
    (defined_oneRequest twoRelays) serves_oneRequest (by rw [after_oneRequest]; rfl)
    (by rw [after_oneRequest]; rfl)
  have hfor : gateway.forManager CloudMessage.versionMsg = true := by
    rw [forManager_iff]
    exact ⟨CloudMessage.versionObject, _, _, wellFormed_versionMsg, rfl, split_versionObject,
      by decide, by decide⟩
  have hmessages : (messagesOf oneRequest).filter gateway.forManager =
      [CloudMessage.versionMsg] := List.filter_cons_of_pos hfor
  rw [hmessages] at hanswered
  exact hanswered

end IcsGateway.CloudLink
