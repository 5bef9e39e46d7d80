import IcsGateway.System.CloudLink
import Mathlib.Data.List.Perm.Basic

/-!
# What holds in every run of the link

However the steps of the two processes interleave, every request forwarded is in one place: on
its way to the Manager, on its way back as a response, published, lost, or dropped. So no request
is answered twice, and none disappears. What is published is a reply to a message consumed or
the Manager's response to one that is for this device.
-/

namespace IcsGateway.CloudLink

open Lib M2CDownlink ManagerDownlinkHandler

/-! ### The stages of a request -/

/-- The stage a request is in. -/
inductive Stage where
  | waiting
  | responding
  | published
  | lost
  | dropped
  deriving DecidableEq

/-- How a request goes on. -/
inductive Stage.Next : Stage → Stage → Prop where
  | handled : Next waiting responding
  | unanswered : Next waiting dropped
  | lost : Next waiting lost
  | published : Next responding published
  | dropped : Next responding dropped

/-- All stages. -/
def Stage.all : List Stage := [.waiting, .responding, .published, .lost, .dropped]

/-- Each of them once. -/
theorem Stage.nodup_all : Stage.all.Nodup := by decide

/-- Every stage is among them. -/
theorem Stage.mem_all (a : Stage) : a ∈ Stage.all := by
  cases a <;> decide

/-- The requests in a stage. -/
def Link.place (s : Link) : Stage → List Nat
  | .waiting => s.toManager.map (·.1)
  | .responding => s.toMQTT.map (·.1)
  | .published => s.responses.map (·.1)
  | .lost => s.lost
  | .dropped => s.dropped

/-! ### What goes with a request -/

/-- A message for this device with a command. -/
def ForDevice (cfg : Config) (msg : COMStr) : Prop :=
  ∃ pObj cmd rest, WellFormed cfg.poco msg pObj ∧
    Object.text cfg.poco pObj "cum_loa_id" = cfg.devID ∧
    ComUtil.split (Object.text cfg.poco pObj "che_do_phat") ';' = cmd :: rest

/-- The topic of replies and responses. -/
def Config.topic (cfg : Config) : COMStr :=
  if cfg.mqtt.topicCtrl = "" then cfg.mqtt.topicData else cfg.mqtt.topicCtrl

/-- A message is consumed among some events. -/
def Consumed (es : List Event) (msg : COMStr) : Prop := ∃ exec now, Event.consume msg exec now ∈ es

/-- A text published answers a message: it is printed from the object read from a response the
Manager makes for the message. -/
def Answers (cfg : Config) (devID msg payload : COMStr) : Prop :=
  ∃ response o, Responds cfg.poco devID msg response ∧
    cfg.poco.parse response = .ok (.object .ptr o) ∧ payload = cfg.poco.stringify (.object .ptr o)

/-- What holds in a run on some events, of the messages on their way and those published. -/
structure Inv (cfg : Config) (es : List Event) (reg : RegInfo) (s : Link) : Prop where
  regInfo : s.manager.regInfo = reg
  topicData : s.client.dataSet.topicData = cfg.mqtt.topicData
  forwarded : ∀ msg ∈ s.forwarded, ForDevice cfg msg ∧ Consumed es msg
  waiting : ∀ p ∈ s.toManager, ∃ msg, s.forwarded[p.1]? = some msg ∧ p.2 = ⟨"cloud_req", msg⟩
  responding : ∀ p ∈ s.toMQTT, ∃ msg response, s.forwarded[p.1]? = some msg ∧
    Responds cfg.poco reg.devID msg response ∧ p.2 = ⟨"cloud_resp", response⟩
  responses : ∀ r ∈ s.responses, ∃ msg, s.forwarded[r.1]? = some msg ∧
    Answers cfg reg.devID msg r.2.2 ∧ r.2.1 = cfg.topic
  replies : ∀ r ∈ s.replies, ∃ exec now, Event.consume r.1 exec now ∈ es ∧
    .reply r.2.2 ∈ effects (cfg.env exec now) r.1 ∧ r.2.1 = cfg.topic

section Steps

variable {cfg : Config} {es : List Event} {reg : RegInfo} {s : Link}

/-- Nothing has been consumed. -/
theorem inv_initial (cfg : Config) (es : List Event) (manager : ManagerState)
    (subscribes : COMStr) (clock : Nat) :
    Inv cfg es manager.regInfo (.initial cfg manager subscribes clock) :=
  ⟨rfl, rfl, nofun, nofun, nofun, nofun, nofun⟩

/-- The topic of the data does not change. -/
theorem topicData_step (c : M2CMQTTDataSet.Process) (e : M2CMQTTDataSet.Event) :
    (c.step e).dataSet.topicData = c.dataSet.topicData := by
  unfold M2CMQTTDataSet.Process.step
  split
  · rfl
  · cases e with
    | connect config isPub name =>
      simp only [M2CMQTTDataSet.Process.act, M2CMQTTDataSet.beginConnect]
      split <;> rfl
    | answer answered =>
      simp only [M2CMQTTDataSet.Process.act, M2CMQTTDataSet.endConnect]
      split
      · rfl
      · split <;> rfl
    | connected =>
      simp only [M2CMQTTDataSet.Process.act, M2CMQTTDataSet.connected]
      split <;> rfl
    | connectionLost =>
      simp only [M2CMQTTDataSet.Process.act, M2CMQTTDataSet.connectionLost]
      split <;> rfl
    | disconnect throws =>
      simp only [M2CMQTTDataSet.Process.act, M2CMQTTDataSet.disconnect]
      split <;> rfl
    | _ => rfl

/-- Where the topic of the data is the configured one, so is that of a text for `TopicCtrl`. -/
theorem topic_of_publish {topic payload text : COMStr} {now : Nat} {d : M2CMQTTDataSet}
    (hd : d.topicData = cfg.mqtt.topicData)
    (h : d.publish now text cfg.mqtt.topicCtrl = .sends topic payload) :
    payload = text ∧ topic = cfg.topic := by
  obtain ⟨hp, ht⟩ := M2C_MQTT.publish_eq_sends h
  rw [Config.topic, ht, hd]
  exact ⟨hp, rfl⟩

/-- One effect of a message consumed. -/
theorem inv_perform {msg : COMStr} {exec : COMStr → Except Exn Unit} {now : Nat → ComUtil.Utc}
    (hmem : Event.consume msg exec now ∈ es) (h : Inv cfg es reg s) {e : Effect}
    (he : e ∈ effects (cfg.env exec now) msg) : Inv cfg es reg (s.perform cfg msg e) := by
  unfold Link.perform
  split
  · exact h
  · cases e with
    | reply text =>
      simp only
      split
      · exact h
      · exact ⟨h.regInfo, h.topicData, h.forwarded, h.waiting, h.responding, h.responses,
          h.replies⟩
      · next topic payload hsend =>
        refine ⟨h.regInfo, h.topicData, h.forwarded, h.waiting, h.responding, h.responses, ?_⟩
        intro r hr
        rcases List.mem_append.mp hr with hr | hr
        · exact h.replies r hr
        · cases List.mem_singleton.mp hr
          rw [M2C_MQTT.processDev2CloudCTRL, M2C_MQTT.publishReady] at hsend
          split at hsend
          · obtain ⟨hp, ht⟩ := topic_of_publish h.topicData hsend
            exact ⟨exec, now, hmem, hp ▸ he, ht⟩
          · cases hsend
    | exec command =>
      exact ⟨h.regInfo, h.topicData, h.forwarded, h.waiting, h.responding, h.responses, h.replies⟩
    | forward type content =>
      obtain ⟨rfl, rfl, pObj, cmd, rest, hw, hd, hcmd, -⟩ := of_forward_mem he
      -- the numbers given before stand for the same messages
      have hold : ∀ (n : Nat) m, s.forwarded[n]? = some m →
          (s.forwarded ++ [content])[n]? = some m := by
        intro n m hn
        rw [List.getElem?_append_left (List.getElem?_eq_some_iff.mp hn).1]
        exact hn
      refine ⟨h.regInfo, h.topicData, ?_, ?_, ?_, ?_, h.replies⟩
      · intro m hm
        rcases List.mem_append.mp hm with hm | hm
        · exact h.forwarded m hm
        · cases List.mem_singleton.mp hm
          exact ⟨⟨pObj, cmd, rest, hw, hd, hcmd⟩, exec, now, hmem⟩
      · intro p hp
        rcases List.mem_append.mp hp with hp | hp
        · obtain ⟨m, hn, hm⟩ := h.waiting p hp
          exact ⟨m, hold _ _ hn, hm⟩
        · cases List.mem_singleton.mp hp
          refine ⟨content, ?_, rfl⟩
          rw [List.getElem?_append_right (Nat.le_refl _), Nat.sub_self]
          rfl
      · intro p hp
        obtain ⟨m, response, hn, hm⟩ := h.responding p hp
        exact ⟨m, response, hold _ _ hn, hm⟩
      · intro r hr
        obtain ⟨m, hn, hm⟩ := h.responses r hr
        exact ⟨m, hold _ _ hn, hm⟩

/-- The effects of a message consumed. -/
theorem inv_foldl_perform {msg : COMStr} {exec : COMStr → Except Exn Unit}
    {now : Nat → ComUtil.Utc} (hmem : Event.consume msg exec now ∈ es) (effs : List Effect)
    (heffs : ∀ e ∈ effs, e ∈ effects (cfg.env exec now) msg) (h : Inv cfg es reg s) :
    Inv cfg es reg (effs.foldl (Link.perform cfg msg) s) := by
  induction effs generalizing s with
  | nil => exact h
  | cons e effs ih =>
    exact ih (fun e' he' ↦ heffs e' (List.mem_cons_of_mem _ he'))
      (inv_perform hmem h (heffs e (List.mem_cons_self ..)))

/-- What the Manager sends is added after what it has sent. -/
theorem drop_forMQTT {sent sent' : List (ComIPCMsg × List COMStr)} {new : List ComIPCMsg}
    (h : forMQTT sent' = forMQTT sent ++ new) :
    (forMQTT sent').drop (forMQTT sent).length = new := by
  rw [h, List.drop_left]

/-- The Manager handles a message. -/
theorem inv_handle (h : Inv cfg es reg s) (i : Nat) (now : ComUtil.Utc) (memory : Bool) :
    Inv cfg es reg (s.handle cfg i now memory) := by
  unfold Link.handle
  split
  · exact h
  · next n packet hi =>
    obtain ⟨msg, hmsg, hpacket⟩ := h.waiting _ (List.mem_of_getElem? hi)
    simp only at hmsg hpacket
    subst hpacket
    have hwaiting : ∀ p ∈ s.toManager.eraseIdx i, ∃ msg, s.forwarded[p.1]? = some msg ∧
        p.2 = ⟨"cloud_req", msg⟩ := fun p hp ↦ h.waiting p (List.mem_of_mem_eraseIdx hp)
    obtain ⟨hreg, hnew⟩ := forMQTT_of_cloud_req cfg.poco msg now memory s.manager
    rcases hnew with hnew | ⟨response, hresponds, hnew⟩
    · have hnil := drop_forMQTT (hnew.trans (List.append_nil _).symm)
      simp only [hnil, List.map_nil, List.append_nil, if_true]
      exact ⟨hreg.trans h.regInfo, h.topicData, h.forwarded, hwaiting, h.responding, h.responses,
        h.replies⟩
    · have hone := drop_forMQTT hnew
      simp only [hone, List.map_cons, List.map_nil, List.cons_ne_nil, if_false]
      refine ⟨hreg.trans h.regInfo, h.topicData, h.forwarded, hwaiting, ?_, h.responses, h.replies⟩
      intro p hp
      rcases List.mem_append.mp hp with hp | hp
      · exact h.responding p hp
      · cases List.mem_singleton.mp hp
        rw [h.regInfo] at hresponds
        exact ⟨msg, response, hmsg, hresponds, rfl⟩

/-- The MQTT process handles a response. -/
theorem inv_respond (h : Inv cfg es reg s) (i : Nat) : Inv cfg es reg (s.respond cfg i) := by
  unfold Link.respond
  split
  · exact h
  · split
    · exact h
    · next n packet hi =>
      have hresponding : ∀ p ∈ s.toMQTT.eraseIdx i, ∃ msg response,
          s.forwarded[p.1]? = some msg ∧ Responds cfg.poco reg.devID msg response ∧
            p.2 = ⟨"cloud_resp", response⟩ :=
        fun p hp ↦ h.responding p (List.mem_of_mem_eraseIdx hp)
      simp only
      split
      · exact ⟨h.regInfo, h.topicData, h.forwarded, h.waiting, hresponding, h.responses, h.replies⟩
      · exact ⟨h.regInfo, h.topicData, h.forwarded, h.waiting, hresponding, h.responses, h.replies⟩
      · next topic payload hsend =>
        refine ⟨h.regInfo, h.topicData, h.forwarded, h.waiting, hresponding, ?_, h.replies⟩
        intro r hr
        rcases List.mem_append.mp hr with hr | hr
        · exact h.responses r hr
        · cases List.mem_singleton.mp hr
          obtain ⟨msg, response, hmsg, hresponds, rfl⟩ := h.responding _ (List.mem_of_getElem? hi)
          rw [M2C_MQTT.processIPC] at hsend
          split at hsend
          · next text htext =>
            obtain ⟨-, o, hparse, rfl⟩ := M2C_MQTT.responseText_eq_some_iff.mp htext
            obtain ⟨rfl, htopic⟩ := topic_of_publish h.topicData hsend
            exact ⟨msg, hmsg, ⟨response, o, hresponds, hparse, rfl⟩, htopic⟩
          · cases hsend

/-- Every step keeps it. -/
theorem inv_step (h : Inv cfg es reg s) {e : Event} (he : e ∈ es) :
    Inv cfg es reg (step cfg s e) := by
  cases e with
  | client e =>
    exact ⟨h.regInfo, (topicData_step _ _).trans h.topicData, h.forwarded, h.waiting, h.responding,
      h.responses, h.replies⟩
  | consume msg exec now =>
    rw [step]
    split
    · exact h
    · exact inv_foldl_perform he _ (fun e he ↦ he) h
  | handle i now memory => exact inv_handle h i now memory
  | respond i => exact inv_respond h i
  | indicate content now memory =>
    obtain ⟨-, hreg⟩ := forMQTT_of_other (P := cfg.poco) ⟨"StatusInd", content⟩
      (show "StatusInd" ≠ "cloud_req" by decide) now memory s.manager
    exact ⟨hreg.trans h.regInfo, h.topicData, h.forwarded, h.waiting, h.responding, h.responses,
      h.replies⟩
  | bridge packet =>
    obtain ⟨-, hreg⟩ := forMQTT_processBridgeMsg cfg.poco packet s.manager
    exact ⟨hreg.trans h.regInfo, h.topicData, h.forwarded, h.waiting, h.responding, h.responses,
      h.replies⟩
  | loseRequest i =>
    rw [step, Link.loseRequest]
    split
    · exact h
    · exact ⟨h.regInfo, h.topicData, h.forwarded,
        fun p hp ↦ h.waiting p (List.mem_of_mem_eraseIdx hp), h.responding, h.responses, h.replies⟩
  | loseResponse i =>
    rw [step, Link.loseResponse]
    split
    · exact h
    · exact ⟨h.regInfo, h.topicData, h.forwarded, h.waiting,
        fun p hp ↦ h.responding p (List.mem_of_mem_eraseIdx hp), h.responses, h.replies⟩
  | restart subscribes secs =>
    exact ⟨h.regInfo, rfl, h.forwarded, h.waiting, h.responding, h.responses, h.replies⟩

/-! ### The ledger of the requests -/

/-- The link shows a ledger of the requests forwarded. -/
def Keeps (s : Link) (l : List Stage) : Prop :=
  Ledger.Shows s.place l ∧ l.length = s.forwarded.length

/-- A link in which every request is where it was shows the same ledger. -/
theorem Keeps.of_place_eq {s' : Link} {l : List Stage} (h : Keeps s l)
    (hplace : ∀ a, s'.place a = s.place a) (hforwarded : s'.forwarded = s.forwarded) :
    ∃ l', Ledger.Reaches .waiting Stage.Next l l' ∧ Keeps s' l' := by
  refine ⟨l, .refl, h.1.perm fun a ↦ ?_, ?_⟩
  · rw [hplace]
  · rw [hforwarded]
    exact h.2

/-- A link in which a request has passed to another stage shows the ledger in which it has. -/
theorem Keeps.of_pass {s' : Link} {l : List Stage} (h : Keeps s l) (n : Nat) {a b : Stage}
    (hnext : a.Next b) (hfrom : (s.place a).Perm (n :: s'.place a))
    (hto : s'.place b = s.place b ++ [n])
    (hothers : ∀ c, c ≠ a → c ≠ b → s'.place c = s.place c)
    (hforwarded : s'.forwarded = s.forwarded) :
    ∃ l', Ledger.Reaches .waiting Stage.Next l l' ∧ Keeps s' l' := by
  have hn : l[n]? = some a :=
    (h.1.mem_iff a n).mp (hfrom.mem_iff.mpr (List.mem_cons_self ..))
  have hab : a ≠ b := by
    rintro rfl
    cases hnext
  refine ⟨l.set n b, .single (.pass hn hnext), h.1.pass hab hfrom hto hothers, ?_⟩
  rw [List.length_set, hforwarded]
  exact h.2

/-- Taking an element out of a list of numbered messages takes out its number. -/
theorem perm_map_eraseIdx {α : Type} {l : List (Nat × α)} {i n : Nat} {x : α}
    (h : l[i]? = some (n, x)) :
    (l.map (·.1)).Perm (n :: (l.eraseIdx i).map (·.1)) := by
  obtain ⟨hi, hx⟩ := List.getElem?_eq_some_iff.mp h
  have hperm := (List.getElem_cons_eraseIdx_perm hi).symm.map (·.1)
  rw [hx] at hperm
  exact hperm

/-- The effects of a message consumed make at most requests. -/
theorem keeps_foldl_perform (msg : COMStr) (effs : List Effect) {l : List Stage} (h : Keeps s l) :
    ∃ l', Ledger.Reaches .waiting Stage.Next l l' ∧
      Keeps (effs.foldl (Link.perform cfg msg) s) l' := by
  induction effs generalizing s l with
  | nil => exact ⟨l, .refl, h⟩
  | cons e effs ih =>
    have hone : ∃ l', Ledger.Reaches .waiting Stage.Next l l' ∧ Keeps (s.perform cfg msg e) l' := by
      unfold Link.perform
      split
      · exact ⟨l, .refl, h⟩
      · cases e with
        | reply text =>
          simp only
          split <;> exact h.of_place_eq (fun a ↦ by cases a <;> rfl) rfl
        | exec command => exact h.of_place_eq (fun a ↦ by cases a <;> rfl) rfl
        | forward type content =>
          refine ⟨l ++ [.waiting], .single (.make l), h.1.make ?_ ?_, ?_⟩
          · rw [h.2]
            exact List.map_append
          · intro a ha
            cases a with
            | waiting => exact absurd rfl ha
            | _ => rfl
          · simp only [List.length_append, List.length_singleton, h.2]
    obtain ⟨l₁, hl₁, h₁⟩ := hone
    obtain ⟨l₂, hl₂, h₂⟩ := ih h₁
    exact ⟨l₂, hl₁.trans hl₂, h₂⟩

/-- Handling a message moves it to the responses, or drops it. -/
theorem keeps_handle (hinv : Inv cfg es reg s) (i : Nat) (now : ComUtil.Utc) (memory : Bool)
    {l : List Stage} (h : Keeps s l) :
    ∃ l', Ledger.Reaches .waiting Stage.Next l l' ∧ Keeps (s.handle cfg i now memory) l' := by
  unfold Link.handle
  split
  · exact ⟨l, .refl, h⟩
  · next n packet hi =>
    obtain ⟨msg, -, hpacket⟩ := hinv.waiting _ (List.mem_of_getElem? hi)
    simp only at hpacket
    subst hpacket
    obtain ⟨-, hnew⟩ := forMQTT_of_cloud_req cfg.poco msg now memory s.manager
    rcases hnew with hnew | ⟨response, -, hnew⟩
    · have hnil := drop_forMQTT (hnew.trans (List.append_nil _).symm)
      simp only [hnil, List.map_nil, List.append_nil, if_true]
      refine h.of_pass n .unanswered ?_ ?_ ?_ rfl
      · exact perm_map_eraseIdx hi
      · exact rfl
      · intro c hc hc'
        cases c <;> first | rfl | exact absurd rfl hc | exact absurd rfl hc'
    · have hone := drop_forMQTT hnew
      simp only [hone, List.map_cons, List.map_nil, List.cons_ne_nil, if_false]
      refine h.of_pass n .handled ?_ ?_ ?_ rfl
      · exact perm_map_eraseIdx hi
      · exact List.map_append
      · intro c hc hc'
        cases c <;> first | rfl | exact absurd rfl hc | exact absurd rfl hc'

/-- Handling a response publishes it, or drops it. -/
theorem keeps_respond (i : Nat) {l : List Stage} (h : Keeps s l) :
    ∃ l', Ledger.Reaches .waiting Stage.Next l l' ∧ Keeps (s.respond cfg i) l' := by
  unfold Link.respond
  split
  · exact ⟨l, .refl, h⟩
  · split
    · exact ⟨l, .refl, h⟩
    · next n packet hi =>
      simp only
      split
      · refine h.of_pass n .dropped ?_ ?_ ?_ rfl
        · exact perm_map_eraseIdx hi
        · rfl
        · intro c hc hc'
          cases c <;> first | rfl | exact absurd rfl hc | exact absurd rfl hc'
      · refine h.of_pass n .dropped ?_ ?_ ?_ rfl
        · exact perm_map_eraseIdx hi
        · rfl
        · intro c hc hc'
          cases c <;> first | rfl | exact absurd rfl hc | exact absurd rfl hc'
      · refine h.of_pass n .published ?_ ?_ ?_ rfl
        · exact perm_map_eraseIdx hi
        · exact List.map_append
        · intro c hc hc'
          cases c <;> first | rfl | exact absurd rfl hc | exact absurd rfl hc'

/-- Every step makes requests or takes one a stage further. -/
theorem keeps_step (hinv : Inv cfg es reg s) (e : Event) {l : List Stage} (h : Keeps s l) :
    ∃ l', Ledger.Reaches .waiting Stage.Next l l' ∧ Keeps (step cfg s e) l' := by
  cases e with
  | consume msg exec now =>
    rw [step]
    split
    · exact ⟨l, .refl, h⟩
    · exact keeps_foldl_perform msg _ h
  | handle i now memory => exact keeps_handle hinv i now memory h
  | respond i => exact keeps_respond i h
  | loseRequest i =>
    rw [step, Link.loseRequest]
    split
    · exact ⟨l, .refl, h⟩
    · next n packet hi =>
      refine h.of_pass n .lost ?_ ?_ ?_ rfl
      · exact perm_map_eraseIdx hi
      · exact rfl
      · intro c hc hc'
        cases c <;> first | rfl | exact absurd rfl hc | exact absurd rfl hc'
  | loseResponse i =>
    rw [step, Link.loseResponse]
    split
    · exact ⟨l, .refl, h⟩
    · next n packet hi =>
      refine h.of_pass n .dropped ?_ ?_ ?_ rfl
      · exact perm_map_eraseIdx hi
      · exact rfl
      · intro c hc hc'
        cases c <;> first | rfl | exact absurd rfl hc | exact absurd rfl hc'
  | _ => exact h.of_place_eq (fun a ↦ by cases a <;> rfl) rfl

end Steps

end IcsGateway.CloudLink
