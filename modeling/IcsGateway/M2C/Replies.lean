import IcsGateway.M2C.Consume

/-!
# The replies as JSON texts

A reply is concatenated from the identifier, the command and the address as they were decoded,
without escaping them again. So it is an object with these three strings exactly when they
need no escaping.
-/

namespace IcsGateway.M2CDownlink

open Lib Lib.JsonText

/-- A text is an object that has the three strings. -/
def Echoes (text uuid cmd devId : COMStr) : Prop :=
  ∃ ms, decode text.toList = some (.object ms) ∧ Holds ms "ban_tin_id" uuid ∧
    Holds ms "che_do_phat" cmd ∧ Holds ms "cum_loa_id" devId

/-! ### The text of a reply -/

/-- The characters of a text of four pasted members, by those of the parts between them. -/
private theorem toList_pasted {a b c d e f k₁ k₂ k₃ : String}
    (ha : a.toList = '\x7b' :: '"' :: (k₁.toList ++ ['"', ':', '"']))
    (hb : b.toList = '"' :: ',' :: '"' :: (k₂.toList ++ ['"', ':', '"']))
    (hc : c.toList = '"' :: ',' :: '"' :: (k₃.toList ++ ['"', ':', '"']))
    (hd : d.toList = ['"', ',', '"']) (he : e.toList = ['"', ':', '"'])
    (hf : f.toList = ['"', ',']) (s₁ s₂ s₃ k₄ s₄ rest : String) :
    (a ++ s₁ ++ b ++ s₂ ++ c ++ s₃ ++ d ++ k₄ ++ e ++ s₄ ++ f ++ rest).toList =
      '\x7b' :: pasted k₁ s₁ (pasted k₂ s₂ (pasted k₃ s₃ (pasted k₄ s₄ rest.toList))) := by
  simp only [String.toList_append, ha, hb, hc, hd, he, hf, List.append_assoc, List.cons_append,
    List.nil_append, pasted]

/-- A reply pastes the three strings and the time into an object. -/
theorem toList_reply (timeKey rest uuid cmd devId : COMStr) (now : ComUtil.Utc) :
    (reply timeKey rest uuid cmd devId now).toList =
      '\x7b' :: pasted "ban_tin_id" uuid (pasted "che_do_phat" cmd (pasted "cum_loa_id" devId
        (pasted timeKey (ComUtil.utcNowString now) rest.toList))) :=
  toList_pasted (by decide +kernel) (by decide +kernel) (by decide +kernel) (by decide +kernel)
    (by decide +kernel) (by decide +kernel) uuid cmd devId timeKey (ComUtil.utcNowString now) rest

/-- A time is plain text. -/
theorem plainText_utcNowString (t : ComUtil.Utc) : PlainText (ComUtil.utcNowString t) := by
  have htwo : ∀ n, PlainText (ComUtil.twoDigits n) := by
    intro n
    rw [ComUtil.twoDigits]
    split
    · exact plainText_append (by decide) (plainText_toString n)
    · exact plainText_toString n
  have hdash : PlainText "-" := by decide
  have hspace : PlainText " " := by decide
  have hcolon : PlainText ":" := by decide
  have hdot : PlainText "." := by decide
  rw [ComUtil.utcNowString]
  apply plainText_append _ (plainText_toString _)
  apply plainText_append _ hdot
  apply plainText_append _ (htwo _)
  apply plainText_append _ hcolon
  apply plainText_append _ (htwo _)
  apply plainText_append _ hcolon
  apply plainText_append _ (htwo _)
  apply plainText_append _ hspace
  apply plainText_append _ (htwo _)
  apply plainText_append _ hdash
  apply plainText_append _ (htwo _)
  exact plainText_append (plainText_toString _) hdash

/-- The members from the time on are well formed, and none has the name of one of the three. -/
def TailDecodes (timeKey rest : COMStr) : Prop :=
  ∀ now, ∃ ms, (∀ n, members (n + 8) (pasted timeKey (ComUtil.utcNowString now) rest.toList) =
      some (ms, [])) ∧
    ∀ v, ("ban_tin_id", v) ∉ ms ∧ ("che_do_phat", v) ∉ ms ∧ ("cum_loa_id", v) ∉ ms

/-- The tail of the first reply, -/
theorem tailDecodes_ready : TailDecodes "thoi_gian_doc" readyRest := by
  intro now
  have hrest : readyRest.toList = pasted "trang_thai" "san_sang"
      ['"', 'd', 'a', 't', 'a', '"', ':', ' ', '[', '\x7b', '\x7d', ']', '\x7d'] := by
    rw [readyRest, String.toList_ofList]
    decide +kernel
  have hdata : ∀ n, members (n + 6)
      ['"', 'd', 'a', 't', 'a', '"', ':', ' ', '[', '\x7b', '\x7d', ']', '\x7d'] =
      some ([("data", .array [.object []])], []) := fun _ ↦ rfl
  refine ⟨[("thoi_gian_doc", .string (ComUtil.utcNowString now)),
    ("trang_thai", .string "san_sang"), ("data", .array [.object []])], ?_, ?_⟩
  · intro n
    rw [hrest]
    exact members_pasted (by decide) (plainText_utcNowString now)
      (members_pasted (by decide) (by decide) (hdata n))
  · intro v
    simp

/-- of the reply to a local action, -/
theorem tailDecodes_result : TailDecodes "thoi_gian_xu_ly" resultRest := by
  intro now
  have hrest : resultRest.toList =
      '"' :: 'k' :: 'e' :: 't' :: '_' :: 'q' :: 'u' :: 'a' :: '"' :: ':' :: 't' :: 'r' :: 'u' ::
        'e' :: ',' :: pasted "thong_bao" "successful" ['"', 'd', 'u', '_', 'l', 'i', 'e', 'u',
          '"', ':', ' ', '[', '\x7b', '\x7d', ']', '\x7d'] := by
    rw [resultRest, String.toList_ofList]
    decide +kernel
  have hbool : ∀ n cs, members (n + 7) ('"' :: 'k' :: 'e' :: 't' :: '_' :: 'q' :: 'u' :: 'a' ::
      '"' :: ':' :: 't' :: 'r' :: 'u' :: 'e' :: ',' :: cs) =
      (members (n + 6) cs).map fun found ↦ (("ket_qua", .bool true) :: found.1, found.2) :=
    fun _ _ ↦ rfl
  have hdata : ∀ n, members (n + 5) ['"', 'd', 'u', '_', 'l', 'i', 'e', 'u', '"', ':', ' ', '[',
      '\x7b', '\x7d', ']', '\x7d'] = some ([("du_lieu", .array [.object []])], []) :=
    fun _ ↦ rfl
  refine ⟨[("thoi_gian_xu_ly", .string (ComUtil.utcNowString now)), ("ket_qua", .bool true),
    ("thong_bao", .string "successful"), ("du_lieu", .array [.object []])], ?_, ?_⟩
  · intro n
    apply members_pasted (by decide) (plainText_utcNowString now)
    rw [hrest, hbool, members_pasted (by decide) (by decide) (hdata n)]
    rfl
  · intro v
    simp

/-- and of the reply to what cannot be decoded. -/
theorem tailDecodes_error : TailDecodes "thoi_gian_doc" errorRest := by
  intro now
  have hrest : errorRest.toList = pasted "trang_thai" "error"
      ['"', 'd', 'u', '_', 'l', 'i', 'e', 'u', '"', ':', ' ', '[', '\x7b', '\x7d', ']', '\x7d'] := by
    rw [errorRest, String.toList_ofList]
    decide +kernel
  have hdata : ∀ n, members (n + 6) ['"', 'd', 'u', '_', 'l', 'i', 'e', 'u', '"', ':', ' ', '[',
      '\x7b', '\x7d', ']', '\x7d'] = some ([("du_lieu", .array [.object []])], []) :=
    fun _ ↦ rfl
  refine ⟨[("thoi_gian_doc", .string (ComUtil.utcNowString now)),
    ("trang_thai", .string "error"), ("du_lieu", .array [.object []])], ?_, ?_⟩
  · intro n
    rw [hrest]
    exact members_pasted (by decide) (plainText_utcNowString now)
      (members_pasted (by decide) (by decide) (hdata n))
  · intro v
    simp

/-- A reply echoes its strings, with a command that its own begins, exactly when they are plain
and that command is its own. -/
theorem echoes_reply_iff_of_isPrefix {timeKey rest : COMStr} (htail : TailDecodes timeKey rest)
    (uuid devId : COMStr) {cmd data : COMStr} (hpre : cmd.toList <+: data.toList)
    (now : ComUtil.Utc) :
    Echoes (reply timeKey rest uuid cmd devId now) uuid data devId ↔
      data = cmd ∧ PlainText uuid ∧ PlainText cmd ∧ PlainText devId := by
  have huuid : PlainText "ban_tin_id" := by decide
  have hcmd : PlainText "che_do_phat" := by decide
  have hdev : PlainText "cum_loa_id" := by decide
  rw [Echoes, toList_reply]
  obtain ⟨last, hlast, hnone⟩ := htail now
  have hsteps : ∃ n, (pasted "ban_tin_id" uuid (pasted "che_do_phat" cmd (pasted "cum_loa_id"
      devId (pasted timeKey (ComUtil.utcNowString now) rest.toList)))).length + 1 = n + 11 := by
    have h₁ := length_pasted "ban_tin_id" uuid (pasted "che_do_phat" cmd (pasted "cum_loa_id"
      devId (pasted timeKey (ComUtil.utcNowString now) rest.toList)))
    have h₂ := length_pasted "che_do_phat" cmd (pasted "cum_loa_id" devId
      (pasted timeKey (ComUtil.utcNowString now) rest.toList))
    exact ⟨_, (Nat.sub_add_cancel (by omega)).symm⟩
  obtain ⟨n, hn⟩ := hsteps
  constructor
  · rintro ⟨ms₁, hms, hu, hc, hd⟩
    obtain ⟨end₁, h₁⟩ := members_of_decode hms
    rw [hn] at h₁
    obtain ⟨-, hplain₁, ms₂, rfl, h₂⟩ := plainText_of_members_pasted huuid h₁ hu List.prefix_rfl
    rw [holds_cons_of_ne (by decide)] at hc hd
    obtain ⟨he, hplain₂, ms₃, rfl, h₃⟩ := plainText_of_members_pasted hcmd h₂ hc hpre
    rw [holds_cons_of_ne (by decide)] at hd
    exact ⟨he, hplain₁, hplain₂,
      (plainText_of_members_pasted hdev h₃ hd List.prefix_rfl).2.1⟩
  · rintro ⟨rfl, hu, hc, hd⟩
    refine ⟨("ban_tin_id", .string uuid) :: ("che_do_phat", .string data) ::
      ("cum_loa_id", .string devId) :: last, ?_, ?_, ?_, ?_⟩
    · apply decode_of_members
      rw [hn]
      exact members_pasted huuid hu (members_pasted hcmd hc (members_pasted hdev hd (hlast n)))
    · apply holds_cons_self
      simp [fun v ↦ (hnone v).1]
    · rw [holds_cons_of_ne (by decide)]
      apply holds_cons_self
      simp [fun v ↦ (hnone v).2.1]
    · rw [holds_cons_of_ne (by decide), holds_cons_of_ne (by decide)]
      apply holds_cons_self
      simp [fun v ↦ (hnone v).2.2]

/-- A reply echoes three strings exactly when they are plain. -/
theorem echoes_reply_iff {timeKey rest : COMStr} (htail : TailDecodes timeKey rest)
    (uuid cmd devId : COMStr) (now : ComUtil.Utc) :
    Echoes (reply timeKey rest uuid cmd devId now) uuid cmd devId ↔
      PlainText uuid ∧ PlainText cmd ∧ PlainText devId := by
  rw [echoes_reply_iff_of_isPrefix htail uuid devId List.prefix_rfl now]
  simp only [true_and]

/-! ### The replies to a message -/

/-- What holds once a message for this device has been acknowledged: there is a reply if there
is a callback, and every reply is made of the three strings. -/
structure Acknowledged (env : Env) (uuid cmd devId : COMStr) (s : State) : Prop where
  uuid_eq : s.uuid = uuid
  cmd_eq : s.cmd = cmd
  devId_eq : s.devId = devId
  replies : ∀ text, .reply text ∈ s.effects → env.res ≠ none ∧
    ∃ timeKey rest now, TailDecodes timeKey rest ∧ text = reply timeKey rest uuid cmd devId now
  first : env.res ≠ none → .reply (readyReply uuid cmd devId (env.now 0)) ∈ s.effects

section Acknowledged

variable {env : Env} {uuid cmd devId : COMStr}

/-- Another effect is no reply. -/
private theorem leads_emit {e : Effect} (he : ∀ text, e ≠ .reply text) :
    Eff.Leads (Acknowledged env uuid cmd devId) (Acknowledged env uuid cmd devId) (emit e) := by
  apply Eff.leads_modify
  intro s h
  refine ⟨h.uuid_eq, h.cmd_eq, h.devId_eq, ?_, ?_⟩
  · intro text ht
    rcases List.mem_append.mp ht with ht | ht
    · exact h.replies text ht
    · exact absurd (List.mem_singleton.mp ht).symm (he text)
  · intro hres
    exact List.mem_append_left _ (h.first hres)

/-- A further reply is made of the three strings too. -/
private theorem leads_respond {timeKey rest : COMStr} (htail : TailDecodes timeKey rest) :
    Eff.Leads (Acknowledged env uuid cmd devId) (Acknowledged env uuid cmd devId)
      (respond env (reply timeKey rest)) := by
  intro s h
  cases hres : env.res with
  | none =>
    rw [exec_respond_none hres]
    exact h
  | some res =>
    rw [exec_respond_some hres]
    refine ⟨h.uuid_eq, h.cmd_eq, h.devId_eq, ?_, ?_⟩
    · intro text ht
      rcases List.mem_append.mp ht with ht | ht
      · exact h.replies text ht
      · rw [h.uuid_eq, h.cmd_eq, h.devId_eq, List.mem_singleton, Effect.reply.injEq] at ht
        exact ⟨hres ▸ Option.some_ne_none res, timeKey, rest, _, htail, ht⟩
    · intro hsome
      exact List.mem_append_left _ (h.first hsome)

/-- The first reply acknowledges the message. -/
private theorem leads_acknowledged (env : Env) (s₁ : State) (hu : s₁.uuid = uuid)
    (hc : s₁.cmd = cmd) (hd : s₁.devId = devId) (he : s₁.effects = []) :
    Eff.Leads (· = s₁) (Acknowledged env uuid cmd devId) (respond env readyReply) := by
  rintro s rfl
  cases hres : env.res with
  | none =>
    rw [exec_respond_none hres]
    refine ⟨hu, hc, hd, ?_, fun h ↦ absurd hres h⟩
    intro text ht
    rw [he] at ht
    cases ht
  | some res =>
    rw [exec_respond_some hres]
    have heffects : (replied env readyReply s).effects =
        [.reply (readyReply uuid cmd devId (env.now 0))] := by
      rw [replied, hu, hc, hd, he]
      rfl
    refine ⟨hu, hc, hd, ?_, ?_⟩
    · intro text ht
      rw [heffects, List.mem_singleton, Effect.reply.injEq] at ht
      exact ⟨hres ▸ Option.some_ne_none res, _, _, _, tailDecodes_ready, ht⟩
    · intro _
      rw [heffects]
      exact List.mem_singleton_self _

/-- A local action gives no further reply. -/
private theorem leads_action (command : COMStr) :
    Eff.Leads (Acknowledged env uuid cmd devId) (Acknowledged env uuid cmd devId)
      (do emit (.exec command); call (env.exec command)) := by
  apply Eff.Leads.bind (leads_emit fun _ h ↦ by cases h)
  intro _
  exact Eff.leads_ofExcept _

end Acknowledged

/-- A message for this device with a command is acknowledged, however its handling ends. -/
theorem acknowledged {env : Env} {msg : COMStr} {pObj : Object} (h : WellFormed env.poco msg pObj)
    (hd : Object.text env.poco pObj "cum_loa_id" = env.devID) {cmd : COMStr} {rest : List COMStr}
    (hcmd : ComUtil.split (Object.text env.poco pObj "che_do_phat") ';' = cmd :: rest) :
    Acknowledged env (Object.text env.poco pObj "ban_tin_id") cmd env.devID
      ((processDownlinkConsume env msg).exec .start).2 := by
  have hhandle : Eff.Leads (· = .start)
      (Acknowledged env (Object.text env.poco pObj "ban_tin_id") cmd env.devID) (do
        decodeFields env msg
        let returned ← handleCommand env
        pure (if returned then some true else none)) := by
    rintro s rfl
    rw [Eff.exec_bind_of_ok (exec_decodeFields h), handleCommand]
    rw [Eff.exec_bind_congr (Eff.exec_bind_of_ok (Eff.exec_get _))]
    simp only [hd, ne_eq, not_true_eq_false, ↓reduceIte, hcmd]
    rw [Eff.exec_bind_congr (Eff.exec_bind_of_ok (Eff.exec_modify _ _))]
    have hready := leads_acknowledged env ⟨Object.text env.poco pObj "ban_tin_id", env.devID,
        Object.text env.poco pObj "che_do_phat", cmd, []⟩ rfl rfl rfl rfl
    apply Eff.Leads.bind (Eff.Leads.bind hready ?_) ?_ _ rfl
    · intro _
      split
      · apply Eff.Leads.bind (leads_respond tailDecodes_result)
        intro _
        exact Eff.Leads.bind (leads_action "reboot") fun _ ↦ Eff.leads_pure _
      · split
        · apply Eff.Leads.bind (leads_respond tailDecodes_result)
          intro _
          exact Eff.Leads.bind (leads_action _) fun _ ↦ Eff.leads_pure _
        · exact Eff.leads_pure _
    · intro _
      exact Eff.leads_pure _
  have hconsume : Eff.Leads (· = .start)
      (Acknowledged env (Object.text env.poco pObj "ban_tin_id") cmd env.devID)
      (consume env msg) := by
    apply Eff.Leads.tryCatch hhandle
    intro e
    cases e with
    | threw e =>
      simp only
      split
      · exact Eff.Leads.bind (leads_respond tailDecodes_error) fun _ ↦ Eff.leads_pure _
      · exact Eff.leads_throw _
    | undefined => exact Eff.leads_throw _
  apply Eff.Leads.bind hconsume ?_ _ rfl
  intro returned
  cases returned with
  | some returned => exact Eff.leads_pure _
  | none => exact Eff.Leads.bind (leads_emit fun _ h ↦ by cases h) fun _ ↦ Eff.leads_pure _

/-- A message for this device without a command has no effect: its first token is taken from an
empty list. -/
theorem effects_of_no_command {env : Env} {msg : COMStr} {pObj : Object}
    (h : WellFormed env.poco msg pObj) (hd : Object.text env.poco pObj "cum_loa_id" = env.devID)
    (hcmd : ComUtil.split (Object.text env.poco pObj "che_do_phat") ';' = []) :
    effects env msg = [] := by
  rw [effects, processDownlinkConsume, consume, Eff.exec_bind, Eff.exec_tryCatch, Eff.exec_bind,
    exec_decodeFields h]
  simp only
  rw [Eff.exec_bind, handleCommand, Eff.exec_bind, Eff.exec_get]
  simp only [hd, ne_eq, not_true_eq_false, ↓reduceIte, hcmd, Eff.exec_throw]

/-- The command of a message. -/
def firstToken (data : COMStr) : COMStr := (ComUtil.split data ';').headD ""

/-- Every reply to a message of three strings is an object that has them exactly when there is
no reply, since the message is for another device, has no command or there is no callback, or
the strings are plain. -/
theorem replies_echo_iff (env : Env) (msg uuid data devId : COMStr) (pObj : Object)
    (hparse : env.poco.parse msg = .ok (.object .ptr pObj))
    (hu : Object.get pObj "ban_tin_id" = .str uuid)
    (hc : Object.get pObj "che_do_phat" = .str data)
    (hd : Object.get pObj "cum_loa_id" = .str devId) :
    (∀ text, .reply text ∈ effects env msg → Echoes text uuid (firstToken data) devId) ↔
      devId ≠ env.devID ∨ env.res = none ∨ data = "" ∨
        (PlainText uuid ∧ PlainText (firstToken data) ∧ PlainText devId) := by
  have hwell : WellFormed env.poco msg pObj := by
    refine ⟨hparse, ?_, ?_, ?_⟩
    · rw [Object.isNull, hu]
      rfl
    · rw [Object.isNull, hc]
      rfl
    · intro _
      rw [Object.isNull, hd]
      rfl
  have huuid : Object.text env.poco pObj "ban_tin_id" = uuid := by
    rw [Object.text, hu]
    rfl
  have hdata : Object.text env.poco pObj "che_do_phat" = data := by
    rw [Object.text, hc]
    rfl
  have hdevId : Object.text env.poco pObj "cum_loa_id" = devId := by
    rw [Object.text, hd]
    rfl
  by_cases hown : devId = env.devID
  · rw [← hdevId] at hown
    cases hcmd : ComUtil.split data ';' with
    | nil =>
      have hempty : data = "" := (ComUtil.split_eq_nil_iff _ _).mp hcmd
      rw [effects_of_no_command hwell hown (hdata.symm ▸ hcmd)]
      simp [hempty]
    | cons cmd rest =>
      have hne : data ≠ "" := by
        intro he
        rw [(ComUtil.split_eq_nil_iff _ _).mpr he] at hcmd
        cases hcmd
      have hack := acknowledged hwell hown (hdata.symm ▸ hcmd)
      rw [huuid, ← hown, hdevId] at hack
      have hfirst : firstToken data = cmd := by
        rw [firstToken, hcmd]
        rfl
      rw [hdevId] at hown
      rw [hfirst, effects]
      constructor
      · intro h
        by_cases hres : env.res = none
        · exact .inr (.inl hres)
        · have hready := h _ (hack.first hres)
          exact .inr (.inr (.inr ((echoes_reply_iff tailDecodes_ready _ _ _ _).mp hready)))
      · intro h text ht
        obtain ⟨hres, timeKey, tail, now, htail, rfl⟩ := hack.replies text ht
        have hplain : PlainText uuid ∧ PlainText cmd ∧ PlainText devId := by
          rcases h with h | h | h | h
          · exact absurd hown h
          · exact absurd h hres
          · exact absurd h hne
          · exact h
        exact (echoes_reply_iff htail _ _ _ _).mpr hplain
  · rw [effects_of_foreign hwell (hdevId.symm ▸ hown)]
    simp [hown]

/-- The request to reboot is replied to, and the replies echo it. -/
theorem replies_echo_iff_reboot : (∃ text, .reply text ∈ effects returningEnv rebootMsg) ∧
    ∀ text, .reply text ∈ effects returningEnv rebootMsg →
      Echoes text "1" "reboot" "d378e0b5" := by
  have hwell : WellFormed returningEnv.poco rebootMsg rebootObject :=
    ⟨parse_rebootMsg, rfl, rfl, fun _ ↦ rfl⟩
  have hcmd : ComUtil.split (Object.text returningEnv.poco rebootObject "che_do_phat") ';' =
      ["reboot"] := rfl
  refine ⟨⟨_, (acknowledged hwell rfl hcmd).first (Option.some_ne_none _)⟩, ?_⟩
  exact (replies_echo_iff returningEnv rebootMsg "1" "reboot" "d378e0b5" rebootObject
    parse_rebootMsg rfl rfl rfl).mpr (.inr (.inr (.inr (by decide))))

/-- A request whose identifier has a quotation mark. -/
def quotedMsg : COMStr :=
  "\x7b\"ban_tin_id\":\"1\\\"2\",\"che_do_phat\":\"get_version\"," ++
    "\"cum_loa_id\":\"d378e0b5\"\x7d"

/-- The object of that request. -/
def quotedObject : Object :=
  [("ban_tin_id", .str "1\"2"), ("che_do_phat", .str "get_version"),
    ("cum_loa_id", .str "d378e0b5")]

/-- It is acknowledged with a text that is no JSON. -/
theorem not_echoes_quoted :
    Poco.json.parse quotedMsg = .ok (.object .ptr quotedObject) ∧
    ∃ text, .reply text ∈ effects returningEnv quotedMsg ∧ decode text.toList = none ∧
      ¬ Echoes text "1\"2" "get_version" "d378e0b5" := by
  have hparse : Poco.json.parse quotedMsg = .ok (.object .ptr quotedObject) :=
    Poco.json_parse (v := .object .ptr quotedObject)
      (by simp [quotedObject, Var.Regular, RegularFields]) (by decide +kernel)
  have hwell : WellFormed returningEnv.poco quotedMsg quotedObject :=
    ⟨hparse, rfl, rfl, fun _ ↦ rfl⟩
  have hcmd : ComUtil.split (Object.text returningEnv.poco quotedObject "che_do_phat") ';' =
      ["get_version"] := rfl
  have hack := acknowledged hwell rfl hcmd
  have hnone : decode (readyReply "1\"2" "get_version" "d378e0b5"
      ⟨2021, 4, 8, 2, 54, 55, 0⟩).toList = none := by
    rw [readyReply, toList_reply]
    decide +kernel
  refine ⟨hparse, _, hack.first (Option.some_ne_none _), hnone, ?_⟩
  rintro ⟨ms, hms, -⟩
  cases hnone.symm.trans hms

end IcsGateway.M2CDownlink
