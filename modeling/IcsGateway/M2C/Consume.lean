import IcsGateway.Base.Json
import IcsGateway.M2C.Downlink

/-!
# What a downlink message makes the gateway do

A message that can be decoded and has this device's address is acknowledged, and then acted
on or forwarded; one that can be decoded and has another address has no effect; one that
cannot be decoded is answered with an error, whatever address it has.
-/

namespace IcsGateway.M2CDownlink

open Lib

/-! ### One reply -/

/-- The state after a reply has been handed to a callback. -/
def replied (env : Env) (text : COMStr → COMStr → COMStr → ComUtil.Utc → COMStr) (s : State) :
    State :=
  { s with effects :=
      s.effects ++ [.reply (text s.uuid s.cmd s.devId (env.now s.effects.length))] }

/-- Without a callback there is no reply. -/
theorem exec_respond_none {env : Env} (h : env.res = none)
    (text : COMStr → COMStr → COMStr → ComUtil.Utc → COMStr) (s : State) :
    (respond env text).exec s = (.ok (), s) := by
  rw [respond, Eff.exec_bind, Eff.exec_get]
  simp only [h, Eff.exec_pure]

/-- The callback is called once, and its exception goes on. -/
theorem exec_respond_some {env : Env} {res : COMStr → Except Exn Unit} (h : env.res = some res)
    (text : COMStr → COMStr → COMStr → ComUtil.Utc → COMStr) (s : State) :
    (respond env text).exec s =
      ((res (text s.uuid s.cmd s.devId (env.now s.effects.length))).mapError Halt.threw,
        replied env text s) := by
  rw [respond, Eff.exec_bind, Eff.exec_get]
  simp only [h, Eff.exec_bind, emit, Eff.exec_modify, call, Eff.exec_ofExcept]
  rfl

/-! ### Messages for other devices and messages that cannot be decoded -/

/-- A message with another address has no effect. -/
theorem effects_of_foreign {env : Env} {msg : COMStr} {pObj : Object}
    (h : WellFormed env.poco msg pObj) (hd : Object.text env.poco pObj "cum_loa_id" ≠ env.devID) :
    effects env msg = [] := by
  rw [effects, processDownlinkConsume, consume, Eff.exec_bind, Eff.exec_tryCatch, Eff.exec_bind,
    exec_decodeFields h]
  simp only
  rw [Eff.exec_bind, handleCommand, Eff.exec_bind, Eff.exec_get]
  simp only [if_pos (Ne.symm hd), Eff.exec_pure, ↓reduceIte]

/-- A message that cannot be decoded has at most replies for effect, and none without a
callback. -/
theorem effects_of_not_wellFormed {env : Env} {msg : COMStr}
    (h : ∀ pObj, ¬ WellFormed env.poco msg pObj) :
    (∀ e ∈ effects env msg, ∃ text, e = .reply text) ∧
      (env.res = none → effects env msg = []) ∧
      ((∀ e, env.poco.parse msg = .error e → e.isStd = true) → ∀ res, env.res = some res →
        ∃ uuid devId, effects env msg = [.reply (errorReply uuid "" devId (env.now 0))]) := by
  obtain ⟨e, s, hexec, hstd, hcmd, hnone⟩ := exec_decodeFields_of_not_wellFormed h
  rw [effects, processDownlinkConsume, consume, Eff.exec_bind, Eff.exec_tryCatch,
    Eff.exec_bind_of_error hexec]
  by_cases hs : e.isStd = true
  · simp only [if_pos hs, Eff.exec_bind]
    cases hres : env.res with
    | none =>
      rw [exec_respond_none hres]
      simp only [Eff.exec_pure, hnone]
      exact ⟨nofun, fun _ ↦ trivial, nofun⟩
    | some res =>
      rw [exec_respond_some hres]
      have heffects : (replied env errorReply s).effects =
          [.reply (errorReply s.uuid "" s.devId (env.now 0))] := by
        rw [replied, hcmd, hnone]
        rfl
      have hreplied : (∀ e ∈ (replied env errorReply s).effects, ∃ text, e = .reply text) ∧
          ∃ uuid devId, (replied env errorReply s).effects =
            [.reply (errorReply uuid "" devId (env.now 0))] := by
        rw [heffects]
        refine ⟨?_, s.uuid, s.devId, rfl⟩
        intro e he
        exact ⟨_, List.mem_singleton.mp he⟩
      -- the callback may throw, after it has been called
      cases hr : res (errorReply s.uuid s.cmd s.devId (env.now s.effects.length)) with
      | ok _ => exact ⟨hreplied.1, nofun, fun _ _ _ ↦ hreplied.2⟩
      | error _ => exact ⟨hreplied.1, nofun, fun _ _ _ ↦ hreplied.2⟩
  · simp only [if_neg hs, Eff.exec_throw, hnone]
    refine ⟨nofun, fun _ ↦ trivial, ?_⟩
    intro hp
    exact absurd (hstd.elim (hp e) id) hs

/-! ### Messages for this device -/

/-- A callback and a command runner that return. -/
structure Returning (env : Env) : Prop where
  res : ∃ res, env.res = some res ∧ ∀ text, res text = .ok ()
  exec : ∀ command, env.exec command = .ok ()

/-- A reply is handed over. -/
theorem exec_respond_of_returning {env : Env} (h : Returning env)
    (text : COMStr → COMStr → COMStr → ComUtil.Utc → COMStr) (s : State) :
    (respond env text).exec s = (.ok (), replied env text s) := by
  obtain ⟨res, hres, hok⟩ := h.res
  rw [exec_respond_some hres, hok]
  rfl

/-- A command is carried out here or forwarded, with the replies that go with it. -/
def carriedOut (env : Env) (msg uuid cmd : COMStr) : List Effect :=
  if cmd = "reboot" then [.reply (resultReply uuid cmd env.devID (env.now 1)), .exec "reboot"]
  else if cmd = "restart" then
    [.reply (resultReply uuid cmd env.devID (env.now 1)),
      .exec "systemctl restart it5-manager.service"]
  else [.forward "cloud_req" msg]

/-- A message for this device is acknowledged and carried out. -/
theorem effects_of_own {env : Env} (hr : Returning env) {msg : COMStr} {pObj : Object}
    (h : WellFormed env.poco msg pObj) (hd : Object.text env.poco pObj "cum_loa_id" = env.devID)
    {cmd : COMStr} {rest : List COMStr}
    (hcmd : ComUtil.split (Object.text env.poco pObj "che_do_phat") ';' = cmd :: rest) :
    effects env msg =
      .reply (readyReply (Object.text env.poco pObj "ban_tin_id") cmd env.devID (env.now 0)) ::
        carriedOut env msg (Object.text env.poco pObj "ban_tin_id") cmd := by
  rw [effects, processDownlinkConsume, consume, Eff.exec_bind, Eff.exec_tryCatch, Eff.exec_bind,
    exec_decodeFields h]
  simp only
  rw [Eff.exec_bind, handleCommand, Eff.exec_bind, Eff.exec_get]
  simp only [hd, ne_eq, not_true_eq_false, ↓reduceIte, hcmd, Eff.exec_bind, Eff.exec_modify,
    exec_respond_of_returning hr]
  rw [carriedOut]
  by_cases hreboot : cmd = "reboot"
  · simp only [if_pos hreboot, Eff.exec_bind, exec_respond_of_returning hr, comReboot, call,
      emit, Eff.exec_modify, Eff.exec_ofExcept, hr.exec]
    rfl
  · rw [if_neg hreboot, if_neg hreboot]
    by_cases hrestart : cmd = "restart"
    · simp only [if_pos hrestart, Eff.exec_bind, exec_respond_of_returning hr, comRestart, call,
        emit, Eff.exec_modify, Eff.exec_ofExcept, hr.exec]
      rfl
    · rw [if_neg hrestart, if_neg hrestart]
      rfl

/-- A message for this device with a command is acknowledged once and then carried out here or
forwarded, once; a message that cannot be decoded has one error reply for effect (for a parser
that throws standard exceptions). -/
theorem effects_exactlyOnce (env : Env) (msg : COMStr) (hr : Returning env)
    (hstd : ∀ e, env.poco.parse msg = .error e → e.isStd = true) :
    (∀ pObj, WellFormed env.poco msg pObj → Object.text env.poco pObj "cum_loa_id" = env.devID →
      Object.text env.poco pObj "che_do_phat" ≠ "" →
      ∃ cmd rest, ComUtil.split (Object.text env.poco pObj "che_do_phat") ';' = cmd :: rest ∧
        effects env msg =
          .reply (readyReply (Object.text env.poco pObj "ban_tin_id") cmd env.devID
            (env.now 0)) ::
          carriedOut env msg (Object.text env.poco pObj "ban_tin_id") cmd) ∧
      ((∀ pObj, ¬ WellFormed env.poco msg pObj) →
        ∃ uuid devId, effects env msg = [.reply (errorReply uuid "" devId (env.now 0))]) := by
  constructor
  · intro pObj h hd hdata
    cases hcmd : ComUtil.split (Object.text env.poco pObj "che_do_phat") ';' with
    | nil => exact absurd ((ComUtil.split_eq_nil_iff _ _).mp hcmd) hdata
    | cons cmd rest => exact ⟨cmd, rest, rfl, effects_of_own hr h hd hcmd⟩
  · intro h
    obtain ⟨res, hres, -⟩ := hr.res
    exact (effects_of_not_wellFormed h).2.2 hstd res hres

/-- A gateway whose callback and command runner return. -/
def returningEnv : Env where
  poco := Poco.json
  devID := "d378e0b5"
  res := some fun _ ↦ .ok ()
  exec _ := .ok ()
  now _ := ⟨2021, 4, 8, 2, 54, 55, 0⟩

/-- A request to reboot it. -/
def rebootMsg : COMStr :=
  "\x7b\"ban_tin_id\":\"1\",\"che_do_phat\":\"reboot\",\"cum_loa_id\":\"d378e0b5\"\x7d"

/-- The object of that request. -/
def rebootObject : Object :=
  [("ban_tin_id", .str "1"), ("che_do_phat", .str "reboot"), ("cum_loa_id", .str "d378e0b5")]

/-- It is read as that object. -/
theorem parse_rebootMsg : Poco.json.parse rebootMsg = .ok (.object .ptr rebootObject) :=
  Poco.json_parse (v := .object .ptr rebootObject)
    (by simp [rebootObject, Var.Regular, RegularFields]) (by decide +kernel)

/-- Two replies and the reboot are its effects, in this order. -/
theorem effects_exactlyOnce_reboot : ∃ pObj, WellFormed Poco.json rebootMsg pObj ∧
    effects returningEnv rebootMsg =
      [.reply (readyReply "1" "reboot" "d378e0b5" ⟨2021, 4, 8, 2, 54, 55, 0⟩),
        .reply (resultReply "1" "reboot" "d378e0b5" ⟨2021, 4, 8, 2, 54, 55, 0⟩),
        .exec "reboot"] := by
  have hwell : WellFormed Poco.json rebootMsg rebootObject :=
    ⟨parse_rebootMsg, rfl, rfl, fun _ ↦ rfl⟩
  have hpoco : returningEnv.poco = Poco.json := rfl
  have hstd : ∀ e, returningEnv.poco.parse rebootMsg = .error e → e.isStd = true := by
    intro e he
    rw [hpoco, parse_rebootMsg] at he
    cases he
  have hr : Returning returningEnv := ⟨⟨_, rfl, fun _ ↦ rfl⟩, fun _ ↦ rfl⟩
  obtain ⟨cmd, rest, hcmd, he⟩ := (effects_exactlyOnce returningEnv rebootMsg hr hstd).1
    rebootObject hwell rfl (by decide)
  cases hcmd
  exact ⟨rebootObject, hwell, he⟩

/-! ### Forwarded messages -/

/-- Effects without a forwarded message. -/
private def NotForwarded (s : State) : Prop := ∀ type content, .forward type content ∉ s.effects

section NotForwarded

variable (env : Env)

/-- Another effect forwards nothing. -/
private theorem leads_notForwarded_emit {e : Effect}
    (he : ∀ type content, e ≠ .forward type content) :
    Eff.Leads NotForwarded NotForwarded (emit e) := by
  apply Eff.leads_modify
  intro s h type content hm
  rcases List.mem_append.mp hm with hm | hm
  · exact h type content hm
  · exact he type content (List.mem_singleton.mp hm).symm

/-- Nor does a reply. -/
private theorem leads_notForwarded_respond
    (text : COMStr → COMStr → COMStr → ComUtil.Utc → COMStr) :
    Eff.Leads NotForwarded NotForwarded (respond env text) := by
  intro s h
  cases hres : env.res with
  | none =>
    rw [exec_respond_none hres]
    exact h
  | some res =>
    rw [exec_respond_some hres]
    exact leads_notForwarded_emit (fun _ _ he ↦ by cases he) s h

/-- Nor does a local action. -/
private theorem leads_notForwarded_action (command : COMStr) :
    Eff.Leads NotForwarded NotForwarded (do emit (.exec command); call (env.exec command)) := by
  apply Eff.Leads.bind (leads_notForwarded_emit fun _ _ he ↦ by cases he)
  intro _
  exact Eff.leads_ofExcept _

/-- Nor does the command. -/
private theorem leads_notForwarded_handleCommand :
    Eff.Leads NotForwarded NotForwarded (handleCommand env) := by
  intro s h
  rw [handleCommand, Eff.exec_bind_of_ok (Eff.exec_get s)]
  split
  · exact h
  · split
    · exact h
    · next cmd rest hcmd =>
      refine Eff.Leads.bind (Eff.leads_modify ?_) ?_ s h
      · intro _ hs
        exact hs
      intro _
      apply Eff.Leads.bind (leads_notForwarded_respond env _)
      intro _
      split
      · apply Eff.Leads.bind (leads_notForwarded_respond env _)
        intro _
        exact Eff.Leads.bind (leads_notForwarded_action env _) fun _ ↦ Eff.leads_pure _
      · split
        · apply Eff.Leads.bind (leads_notForwarded_respond env _)
          intro _
          exact Eff.Leads.bind (leads_notForwarded_action env _) fun _ ↦ Eff.leads_pure _
        · exact Eff.leads_pure _

/-- Nothing is forwarded inside the `try` block or its handler. -/
private theorem leads_notForwarded_consume (msg : COMStr) :
    Eff.Leads (· = .start) NotForwarded (consume env msg) := by
  apply Eff.Leads.tryCatch
  · rintro s rfl
    have hempty : ∀ s : State, s.effects = [] → NotForwarded s := by
      intro s hs type content hm
      rw [hs] at hm
      cases hm
    by_cases hw : ∃ pObj, WellFormed env.poco msg pObj
    · obtain ⟨pObj, hw⟩ := hw
      rw [Eff.exec_bind_of_ok (exec_decodeFields hw)]
      apply Eff.Leads.bind (leads_notForwarded_handleCommand env) _ _ (hempty _ rfl)
      intro _
      exact Eff.leads_pure _
    · obtain ⟨e, s, hexec, -, -, hnone⟩ :=
        exec_decodeFields_of_not_wellFormed fun pObj hp ↦ hw ⟨pObj, hp⟩
      rw [Eff.exec_bind_of_error hexec]
      exact hempty s hnone
  · intro e
    cases e with
    | threw e =>
      simp only
      split
      · exact Eff.Leads.bind (leads_notForwarded_respond env _) fun _ ↦ Eff.leads_pure _
      · exact Eff.leads_throw _
    | undefined => exact Eff.leads_throw _

end NotForwarded

/-- The command is left to the Manager only if the message is for this device, and after the
reply. -/
private theorem exec_handleCommand_false {env : Env} {s s' : State}
    (h : (handleCommand env).exec s = (.ok false, s')) :
    s.devId = env.devID ∧ ∃ cmd rest, ComUtil.split s.data ';' = cmd :: rest ∧
      (respond env readyReply).exec { s with cmd := cmd } = (.ok (), s') := by
  rw [handleCommand, Eff.exec_bind_of_ok (Eff.exec_get s)] at h
  split at h
  · cases h
  · next hd =>
    refine ⟨(not_not.mp hd).symm, ?_⟩
    split at h
    · cases h
    · next cmd rest hcmd =>
      refine ⟨cmd, rest, hcmd, ?_⟩
      rw [Eff.exec_bind_of_ok (Eff.exec_modify _ _), Eff.exec_bind] at h
      rcases hr : (respond env readyReply).exec { s with cmd := cmd } with ⟨r, s₁⟩
      rw [hr] at h
      cases r with
      | error e => cases h
      | ok _ =>
        simp only at h
        split at h
        · apply absurd h
          apply Eff.exec_bind_ne
          intro _ s₂
          exact Eff.exec_bind_pure_ne (by decide) _ s₂ _
        · split at h
          · apply absurd h
            apply Eff.exec_bind_ne
            intro _ s₂
            exact Eff.exec_bind_pure_ne (by decide) _ s₂ _
          · cases h
            rfl

/-- The function goes on after the `try` block only with such a message. -/
private theorem exec_consume_none {env : Env} {msg : COMStr} {s' : State}
    (h : (consume env msg).exec .start = (.ok none, s')) :
    ∃ pObj cmd rest, WellFormed env.poco msg pObj ∧
      Object.text env.poco pObj "cum_loa_id" = env.devID ∧
      ComUtil.split (Object.text env.poco pObj "che_do_phat") ';' = cmd :: rest ∧
      (respond env readyReply).exec ⟨Object.text env.poco pObj "ban_tin_id", env.devID,
        Object.text env.poco pObj "che_do_phat", cmd, []⟩ = (.ok (), s') := by
  have hcatch : ∀ (e : Exn) s, ((if e.isStd then do
      respond env errorReply
      pure (some false)
    else throw (Halt.threw e) : M (Option Bool)).exec s) ≠ (.ok none, s') := by
    intro e s
    split
    · exact Eff.exec_bind_pure_ne (Option.some_ne_none _) _ _ _
    · intro he
      cases he
  rw [consume, Eff.exec_tryCatch] at h
  by_cases hw : ∃ pObj, WellFormed env.poco msg pObj
  · obtain ⟨pObj, hw⟩ := hw
    rw [Eff.exec_bind_of_ok (exec_decodeFields hw), Eff.exec_bind] at h
    rcases hexec : (handleCommand env).exec ⟨Object.text env.poco pObj "ban_tin_id",
      Object.text env.poco pObj "cum_loa_id", Object.text env.poco pObj "che_do_phat", "", []⟩
      with ⟨r, s⟩
    rw [hexec] at h
    cases r with
    | error e =>
      cases e with
      | threw e => exact absurd h (hcatch e s)
      | undefined => cases h
    | ok returned =>
      cases returned with
      | true => cases h
      | false =>
        cases h
        obtain ⟨hd, cmd, rest, hcmd, hr⟩ := exec_handleCommand_false hexec
        simp only at hd
        rw [hd] at hr
        exact ⟨pObj, cmd, rest, hw, hd, hcmd, hr⟩
  · obtain ⟨e, s, hexec, -⟩ :=
      exec_decodeFields_of_not_wellFormed fun pObj hp ↦ hw ⟨pObj, hp⟩
    rw [Eff.exec_bind_of_error hexec] at h
    exact absurd h (hcatch e s)

/-- Only the message itself is forwarded, as a cloud request for this device, and its one reply
is the first. -/
theorem of_forward_mem {env : Env} {msg type content : COMStr}
    (h : .forward type content ∈ effects env msg) :
    type = "cloud_req" ∧ content = msg ∧ ∃ pObj cmd rest, WellFormed env.poco msg pObj ∧
      Object.text env.poco pObj "cum_loa_id" = env.devID ∧
      ComUtil.split (Object.text env.poco pObj "che_do_phat") ';' = cmd :: rest ∧
      ∀ text, .reply text ∈ effects env msg →
        text = readyReply (Object.text env.poco pObj "ban_tin_id") cmd env.devID (env.now 0) := by
  have hnone := leads_notForwarded_consume env msg .start rfl
  rw [effects, processDownlinkConsume, Eff.exec_bind] at h ⊢
  rcases hexec : (consume env msg).exec .start with ⟨r, s⟩
  rw [hexec] at h hnone
  cases r with
  | error e => exact absurd h (hnone type content)
  | ok returned =>
    cases returned with
    | some returned => exact absurd h (hnone type content)
    | none =>
      obtain ⟨pObj, cmd, rest, hw, hd, hcmd, hr⟩ := exec_consume_none hexec
      have heffects : s.effects = [] ∨ s.effects = [.reply (readyReply
          (Object.text env.poco pObj "ban_tin_id") cmd env.devID (env.now 0))] := by
        cases hres : env.res with
        | none =>
          rw [exec_respond_none hres] at hr
          cases hr
          exact .inl rfl
        | some res =>
          rw [exec_respond_some hres] at hr
          have hs : replied env readyReply _ = s := congrArg Prod.snd hr
          rw [← hs]
          exact .inr rfl
      have hmem : .forward type content ∈ s.effects ++ [.forward "cloud_req" msg] := h
      rcases List.mem_append.mp hmem with hmem | hmem
      · exact absurd hmem (hnone type content)
      · rw [List.mem_singleton, Effect.forward.injEq] at hmem
        refine ⟨hmem.1, hmem.2, pObj, cmd, rest, hw, hd, hcmd, ?_⟩
        intro text ht
        have ht' : .reply text ∈ s.effects ++ [.forward "cloud_req" msg] := ht
        rcases heffects with he | he
        · rw [he] at ht'
          simp at ht'
        · rw [he] at ht'
          simpa using ht'

/-! ### The address -/

/-- The device acts on no message but its own, and is silent on a message whose address is
another device. -/
structure Addressed (env : Env) (msg : COMStr) : Prop where
  own : ∀ e ∈ effects env msg, (∀ text, e ≠ .reply text) →
    ∃ pObj, env.poco.parse msg = .ok (.object .ptr pObj) ∧
      Object.has pObj "cum_loa_id" = true ∧ Object.text env.poco pObj "cum_loa_id" = env.devID
  foreign : ∀ pObj d, env.poco.parse msg = .ok (.object .ptr pObj) →
    Object.get pObj "cum_loa_id" = .str d → d ≠ env.devID → effects env msg = []

/-- The address of an object that has a string for it. -/
private theorem devId_of_str {P : Poco} {pObj : Object} {d : COMStr}
    (h : Object.get pObj "cum_loa_id" = .str d) :
    Object.isNull pObj "cum_loa_id" = false ∧ Object.text P pObj "cum_loa_id" = d := by
  rw [Object.isNull, Object.text, h]
  exact ⟨rfl, rfl⟩

/-- A message respects the address exactly when, if it has another one, there is no callback
or its identifier and its command are there. -/
theorem addressed_iff (env : Env) (msg : COMStr) (hdev : env.devID ≠ "") :
    Addressed env msg ↔ ∀ pObj d, env.poco.parse msg = .ok (.object .ptr pObj) →
      Object.get pObj "cum_loa_id" = .str d → d ≠ env.devID →
      env.res = none ∨
        (Object.isNull pObj "ban_tin_id" = false ∧ Object.isNull pObj "che_do_phat" = false) := by
  constructor
  · intro h pObj d hp hd hne
    have hsilent := h.foreign pObj d hp hd hne
    cases hres : env.res with
    | none => exact .inl rfl
    | some res =>
      right
      by_cases hw : ∃ o, WellFormed env.poco msg o
      · obtain ⟨o, hw⟩ := hw
        have ho := hw.parsed
        rw [hp] at ho
        cases ho
        exact ⟨hw.uuid, hw.data⟩
      · -- the `catch` block has replied
        have hno : ∀ o, ¬ WellFormed env.poco msg o := fun o ho ↦ hw ⟨o, ho⟩
        have hstd : ∀ e, env.poco.parse msg = .error e → e.isStd = true := by
          intro e he
          rw [hp] at he
          cases he
        obtain ⟨uuid, devId, he⟩ := (effects_of_not_wellFormed hno).2.2 hstd res hres
        rw [hsilent] at he
        cases he
  · intro h
    refine ⟨?_, ?_⟩
    · intro e he hreply
      by_cases hw : ∃ pObj, WellFormed env.poco msg pObj
      · obtain ⟨pObj, hw⟩ := hw
        have hown : Object.text env.poco pObj "cum_loa_id" = env.devID := by
          by_cases hd : Object.text env.poco pObj "cum_loa_id" = env.devID
          · exact hd
          · rw [effects_of_foreign hw hd] at he
            cases he
        refine ⟨pObj, hw.parsed, ?_, hown⟩
        cases hh : Object.has pObj "cum_loa_id" with
        | true => rfl
        | false =>
          rw [text_of_absent hh] at hown
          exact absurd hown.symm hdev
      · have hno : ∀ pObj, ¬ WellFormed env.poco msg pObj := fun pObj hp ↦ hw ⟨pObj, hp⟩
        obtain ⟨text, rfl⟩ := (effects_of_not_wellFormed hno).1 e he
        exact absurd rfl (hreply text)
    · intro pObj d hp hd hne
      obtain ⟨hnull, htext⟩ := devId_of_str (P := env.poco) hd
      by_cases hw : ∃ o, WellFormed env.poco msg o
      · obtain ⟨o, hw⟩ := hw
        have ho := hw.parsed
        rw [hp] at ho
        cases ho
        apply effects_of_foreign hw
        rw [htext]
        exact hne
      · rcases h pObj d hp hd hne with hres | ⟨hu, hdata⟩
        · exact (effects_of_not_wellFormed fun o ho ↦ hw ⟨o, ho⟩).2.1 hres
        · exact absurd ⟨pObj, hp, hu, hdata, fun _ ↦ hnull⟩ hw

/-- A message for another device with all its fields respects the address. -/
theorem addressed_iff_foreign :
    Addressed { returningEnv with devID := "5bb57fd0" } rebootMsg := by
  apply (addressed_iff { returningEnv with devID := "5bb57fd0" } rebootMsg (by decide)).mpr
  intro pObj d hp hd hne
  have hpoco : ({ returningEnv with devID := "5bb57fd0" } : Env).poco = Poco.json := rfl
  rw [hpoco, parse_rebootMsg] at hp
  cases hp
  exact .inr ⟨rfl, rfl⟩

/-- A message for another device without any other field. -/
def otherMsg : COMStr := "\x7b\"cum_loa_id\":\"5bb57fd0\"\x7d"

/-- It is answered with an error. -/
theorem not_addressed_otherMsg :
    effects returningEnv otherMsg =
      [.reply (errorReply "" "" "" ⟨2021, 4, 8, 2, 54, 55, 0⟩)] ∧
    ¬ Addressed returningEnv otherMsg := by
  have hparse : Poco.json.parse otherMsg =
      .ok (.object .ptr [("cum_loa_id", .str "5bb57fd0")]) :=
    Poco.json_parse (v := .object .ptr [("cum_loa_id", .str "5bb57fd0")])
      (by simp [Var.Regular, RegularFields]) (by decide +kernel)
  have heffects : effects returningEnv otherMsg =
      [.reply (errorReply "" "" "" ⟨2021, 4, 8, 2, 54, 55, 0⟩)] := by
    have hpoco : returningEnv.poco = Poco.json := rfl
    rw [effects, processDownlinkConsume, consume, decodeFields, hpoco, hparse]
    rfl
  refine ⟨heffects, ?_⟩
  intro h
  have hsilent := h.foreign _ "5bb57fd0" hparse rfl (by decide)
  rw [hsilent] at heffects
  cases heffects

end IcsGateway.M2CDownlink
