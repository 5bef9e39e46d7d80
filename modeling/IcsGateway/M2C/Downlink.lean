import IcsGateway.Lib.Effect
import IcsGateway.Common.ComUtil

/-!
# The downlink of the MQTT process

A message from the cloud is decoded, checked for its address, acknowledged with a reply and
then handled here (`reboot`, `restart`) or forwarded to the Manager; a message that cannot be
decoded is answered with an error (`M2C_MQTT/M2CMQTTDownlink.cpp`). The replies are
concatenated from the decoded fields.
-/

namespace IcsGateway.M2CDownlink

open Lib

/-- What the handler does to the outside. -/
inductive Effect where
  /-- The response callback is called. -/
  | reply (text : COMStr)
  /-- `CommandRunner::Exec`. -/
  | exec (command : COMStr)
  /-- `IPCSEND`. -/
  | forward (type content : COMStr)
  deriving DecidableEq, Repr

/-- What the handler finds around it. -/
structure Env where
  poco : Poco
  /-- `MQTTConfig::RegInfo().DevID`. -/
  devID : COMStr
  /-- The response callback, null or a function that may throw. -/
  res : Option (COMStr → Except Exn Unit)
  /-- `CommandRunner::Exec`. -/
  exec : COMStr → Except Exn Unit
  /-- The clock after a number of effects. -/
  now : Nat → ComUtil.Utc

/-- The local variables, which the `catch` block reads too, and the effects so far. -/
structure State where
  uuid : COMStr
  devId : COMStr
  data : COMStr
  cmd : COMStr
  effects : List Effect

/-- The state a message finds. -/
def State.start : State := ⟨"", "", "", "", []⟩

/-- Code of the handler. -/
abbrev M := Eff Halt State

/-- A call that may throw. -/
def call {α : Type} (r : Except Exn α) : M α := Eff.ofExcept (r.mapError Halt.threw)

/-- Something done to the outside. -/
def emit (e : Effect) : M Unit := modify fun s ↦ { s with effects := s.effects ++ [e] }

/-! ### Replies -/

/-- The text all replies share: the fields, and the time under its key. -/
def reply (timeKey rest uuid cmd devId : COMStr) (now : ComUtil.Utc) : COMStr :=
  "\x7b\"ban_tin_id\":\"" ++ uuid ++ "\",\"che_do_phat\":\"" ++ cmd ++ "\",\"cum_loa_id\":\"" ++
    devId ++ "\",\"" ++ timeKey ++ "\":\"" ++ ComUtil.utcNowString now ++ "\"," ++ rest

/-- The members after the time; `M2C_MQTT/M2CMQTTDownlink.cpp:46–47`. -/
def readyRest : COMStr := "\"trang_thai\":\"san_sang\",\"data\": [\x7b\x7d]\x7d"

/-- The members after the time; `M2C_MQTT/M2CMQTTDownlink.cpp:60–62`. -/
def resultRest : COMStr :=
  "\"ket_qua\":true,\"thong_bao\":\"successful\",\"du_lieu\": [\x7b\x7d]\x7d"

/-- The members after the time; `M2C_MQTT/M2CMQTTDownlink.cpp:84–85`. -/
def errorRest : COMStr := "\"trang_thai\":\"error\",\"du_lieu\": [\x7b\x7d]\x7d"

/-- The first reply to a message; `M2C_MQTT/M2CMQTTDownlink.cpp:42–47`. -/
def readyReply : COMStr → COMStr → COMStr → ComUtil.Utc → COMStr := reply "thoi_gian_doc" readyRest

/-- The reply to a local action; `M2C_MQTT/M2CMQTTDownlink.cpp:56–62`. -/
def resultReply : COMStr → COMStr → COMStr → ComUtil.Utc → COMStr :=
  reply "thoi_gian_xu_ly" resultRest

/-- The reply of the `catch` block; `M2C_MQTT/M2CMQTTDownlink.cpp:80–85`. -/
def errorReply : COMStr → COMStr → COMStr → ComUtil.Utc → COMStr := reply "thoi_gian_doc" errorRest

/-- A reply made of the local variables is handed to the callback, if there is one. -/
def respond (env : Env) (text : COMStr → COMStr → COMStr → ComUtil.Utc → COMStr) : M Unit := do
  let s ← get
  match env.res with
  | none => pure ()
  | some res => do
    let t := text s.uuid s.cmd s.devId (env.now s.effects.length)
    emit (.reply t)
    call (res t)

/-! ### `ProcessDownlinkConsume` -/

/-- The fields are decoded; `M2C_MQTT/M2CMQTTDownlink.cpp:20–29`. -/
def decodeFields (env : Env) (msg : COMStr) : M Unit := do
  let elements ← call (env.poco.parse msg)
  let pObj ← call elements.extractObject
  let uuid ← call (Object.getValue env.poco.convertStr pObj "ban_tin_id")
  modify fun s ↦ { s with uuid := uuid }
  let data ← call (Object.getValue env.poco.convertStr pObj "che_do_phat")
  modify fun s ↦ { s with data := data }
  if Object.has pObj "cum_loa_id" then
    let devId ← call (Object.getValue env.poco.convertStr pObj "cum_loa_id")
    modify fun s ↦ { s with devId := devId }

/-- `ComReboot`; `M2C_MQTT/M2CMQTTDownlink.cpp:99`. -/
def comReboot (env : Env) : M Unit := do
  emit (.exec "reboot")
  call (env.exec "reboot")

/-- `ComRestart`; `M2C_MQTT/M2CMQTTDownlink.cpp:107`. -/
def comRestart (env : Env) : M Unit := do
  emit (.exec "systemctl restart it5-manager.service")
  call (env.exec "systemctl restart it5-manager.service")

/-- The decoded message is handled: true where the function returns, false where it goes on
after the `try` block; `M2C_MQTT/M2CMQTTDownlink.cpp:31–76`. An empty command has no token. -/
def handleCommand (env : Env) : M Bool := do
  let s ← get
  if env.devID ≠ s.devId then pure true
  else
    match ComUtil.split s.data ';' with
    | [] => throw .undefined
    | cmd :: _ => do
      modify fun s ↦ { s with cmd := cmd }
      respond env readyReply
      if cmd = "reboot" then do
        respond env resultReply
        comReboot env
        pure true
      else if cmd = "restart" then do
        respond env resultReply
        comRestart env
        pure true
      else pure false

/-- The `try` block and its `catch`: the value the function returns there, or none where it
goes on; `M2C_MQTT/M2CMQTTDownlink.cpp:19–91`. -/
def consume (env : Env) (msg : COMStr) : M (Option Bool) :=
  tryCatch (do
    decodeFields env msg
    let returned ← handleCommand env
    pure (if returned then some true else none)) fun
    | .threw e =>
      if e.isStd then do
        respond env errorReply
        pure (some false)
      else throw (.threw e)
    | .undefined => throw .undefined

/-- `ProcessDownlinkConsume`; `M2C_MQTT/M2CMQTTDownlink.cpp:14`. -/
def processDownlinkConsume (env : Env) (msg : COMStr) : M Bool := do
  match ← consume env msg with
  | some returned => pure returned
  | none => do
    emit (.forward "cloud_req" msg)
    pure true

/-- The effects of a message. -/
def effects (env : Env) (msg : COMStr) : List Effect :=
  ((processDownlinkConsume env msg).exec .start).2.effects

/-! ### Decoding -/

/-- A message that can be decoded: an object with an identifier and a command, and no null
address. -/
structure WellFormed (P : Poco) (msg : COMStr) (pObj : Object) : Prop where
  parsed : P.parse msg = .ok (.object .ptr pObj)
  uuid : Object.isNull pObj "ban_tin_id" = false
  data : Object.isNull pObj "che_do_phat" = false
  devId : Object.has pObj "cum_loa_id" = true → Object.isNull pObj "cum_loa_id" = false

section Decoding

variable {P : Poco} {pObj : Object} {k : COMStr}

/-- A property that is not null converts to its text. -/
private theorem getValue_of_not_null (h : Object.isNull pObj k = false) :
    Object.getValue P.convertStr pObj k = .ok (Object.text P pObj k) := by
  rw [Object.isNull] at h
  rw [Object.getValue, Object.text]
  cases hv : Object.get pObj k with
  | empty =>
    rw [hv] at h
    cases h
  | _ => rfl

/-- A null property throws. -/
private theorem getValue_of_null (h : Object.isNull pObj k = true) :
    Object.getValue P.convertStr pObj k = .error .invalidAccess := by
  rw [Object.isNull] at h
  rw [Object.getValue]
  cases hv : Object.get pObj k with
  | empty => rfl
  | _ =>
    rw [hv] at h
    cases h

/-- An absent property has no text. -/
theorem text_of_absent (h : Object.has pObj k = false) : Object.text P pObj k = "" := by
  rw [Object.text, Object.get, Object.lookup_eq_none_of_has h]
  rfl

end Decoding

/-- The locals and effects after a message that can be decoded. -/
theorem exec_decodeFields {env : Env} {msg : COMStr} {pObj : Object}
    (h : WellFormed env.poco msg pObj) :
    (decodeFields env msg).exec .start =
      (.ok (), ⟨Object.text env.poco pObj "ban_tin_id", Object.text env.poco pObj "cum_loa_id",
        Object.text env.poco pObj "che_do_phat", "", []⟩) := by
  simp only [decodeFields, call, h.parsed, Except.mapError, Var.extractObject,
    Eff.exec_ofExcept_bind, getValue_of_not_null h.uuid, getValue_of_not_null h.data]
  simp only [Eff.exec_bind, Eff.exec_modify, Eff.exec_ofExcept]
  by_cases hd : Object.has pObj "cum_loa_id" = true
  · rw [if_pos hd, getValue_of_not_null (h.devId hd)]
    rfl
  · have habsent : Object.text env.poco pObj "cum_loa_id" = "" :=
      text_of_absent (Bool.eq_false_iff.mpr hd)
    rw [if_neg hd, habsent]
    rfl

/-- Any other message throws before it has any effect, and a standard exception unless the
parser throws another. -/
theorem exec_decodeFields_of_not_wellFormed {env : Env} {msg : COMStr}
    (h : ∀ pObj, ¬ WellFormed env.poco msg pObj) :
    ∃ e s, (decodeFields env msg).exec .start = (.error (.threw e), s) ∧
      (env.poco.parse msg = .error e ∨ e.isStd = true) ∧ s.cmd = "" ∧ s.effects = [] := by
  simp only [decodeFields, call]
  cases hp : env.poco.parse msg with
  | error e => exact ⟨e, .start, rfl, .inl rfl, rfl, rfl⟩
  | ok v =>
    simp only [Except.mapError, Eff.exec_ofExcept_bind]
    cases hv : v.extractObject with
    | error e =>
      refine ⟨e, .start, rfl, .inr ?_, rfl, rfl⟩
      cases v with
      | object held o =>
        cases held with
        | ptr => cases hv
        | value => cases hv; rfl
      | _ => cases hv; rfl
    | ok pObj =>
      have hobj : v = .object .ptr pObj := Var.eq_of_extractObject hv
      subst hobj
      simp only
      cases hu : Object.isNull pObj "ban_tin_id" with
      | true =>
        rw [getValue_of_null hu]
        exact ⟨.invalidAccess, .start, rfl, .inr rfl, rfl, rfl⟩
      | false =>
        simp only [getValue_of_not_null hu, Eff.exec_bind, Eff.exec_modify, Eff.exec_ofExcept]
        cases hd : Object.isNull pObj "che_do_phat" with
        | true =>
          rw [getValue_of_null hd]
          exact ⟨.invalidAccess, _, rfl, .inr rfl, rfl, rfl⟩
        | false =>
          simp only [getValue_of_not_null hd]
          cases hh : Object.has pObj "cum_loa_id" with
          | false =>
            -- then nothing is wrong with the message
            refine absurd ⟨hp, hu, hd, ?_⟩ (h pObj)
            rw [hh]
            exact nofun
          | true =>
            cases ha : Object.isNull pObj "cum_loa_id" with
            | false => exact absurd ⟨hp, hu, hd, fun _ ↦ ha⟩ (h pObj)
            | true =>
              rw [getValue_of_null ha]
              exact ⟨.invalidAccess, _, rfl, .inr rfl, rfl, rfl⟩

end IcsGateway.M2CDownlink
