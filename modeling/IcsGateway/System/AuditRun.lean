import IcsGateway.System.AuditTrail
import Mathlib.Algebra.Order.Ring.Int
import Mathlib.Data.List.Perm.Basic

/-!
# What becomes of the audits

In every run, each audit pushed waits in the queue until it is popped, once; what is published is
an audit that one of the processes has made; and a Manager reports on the system neither too often
nor too seldom.
-/

namespace IcsGateway.AuditTrail

open Lib COM_Queue ManagerWatchDog

/-! ### Audits in the queue -/

/-- The texts of some audits. -/
def texts (cfg : Config) (as : List Audit) : List COMStr := as.map (·.text cfg.poco cfg.reg)

/-- An audit of a registered gateway is pushed, any other is not. -/
theorem COM_AUDIT_eq (cfg : Config) (a : Audit) (redis : Redis) :
    COM_AUDIT cfg.poco cfg.reg a redis =
      if cfg.Registered then redis.push mqttAuditQueue (a.text cfg.poco cfg.reg) else redis := by
  rw [COM_AUDIT, pushAudit]
  by_cases hdev : cfg.reg.devID = ""
  · have hnot : ¬ cfg.Registered := fun h ↦ h.1 hdev
    rw [if_pos hdev, if_neg hnot]
    rfl
  · rw [if_neg hdev]
    by_cases hprotocol : cfg.reg.protocol = "MQTT"
    · have hreg : cfg.Registered := ⟨hdev, hprotocol⟩
      rw [if_pos hprotocol, if_pos hreg]
      rfl
    · have hnot : ¬ cfg.Registered := fun h ↦ hprotocol h.2
      rw [if_neg hprotocol, if_neg hnot]
      rfl

/-- Audits of a registered gateway, one after another. -/
theorem lists_foldl_COM_AUDIT {cfg : Config} (hreg : cfg.Registered) (as : List Audit) :
    ∀ redis : Redis, (as.foldl (fun redis a ↦ COM_AUDIT cfg.poco cfg.reg a redis)
      redis).lists mqttAuditQueue = (texts cfg as).reverse ++ redis.lists mqttAuditQueue := by
  induction as with
  | nil => exact fun _ ↦ rfl
  | cons a as ih =>
    intro redis
    rw [List.foldl_cons, ih, COM_AUDIT_eq, if_pos hreg, Store.lists_push_self, texts, texts,
      List.map_cons, List.reverse_cons, List.append_assoc, List.singleton_append]

/-- Those of any other change nothing. -/
theorem foldl_COM_AUDIT {cfg : Config} (hreg : ¬ cfg.Registered) (as : List Audit) :
    ∀ redis : Redis,
      as.foldl (fun redis a ↦ COM_AUDIT cfg.poco cfg.reg a redis) redis = redis := by
  induction as with
  | nil => exact fun _ ↦ rfl
  | cons a as ih =>
    intro redis
    rw [List.foldl_cons, ih, COM_AUDIT_eq, if_neg hreg]

/-- They touch no value. -/
theorem vals_foldl_COM_AUDIT (cfg : Config) (as : List Audit) :
    ∀ redis : Redis, (as.foldl (fun redis a ↦ COM_AUDIT cfg.poco cfg.reg a redis) redis).vals =
      redis.vals := by
  induction as with
  | nil => exact fun _ ↦ rfl
  | cons a as ih =>
    intro redis
    rw [List.foldl_cons, ih, COM_AUDIT_eq]
    split <;> rfl

/-! ### Where an audit comes from -/

/-- The state of the gateway is that of the start, or one that was set. -/
def WasSet (vals : COMStr → COMStr) (es : List Event) (state : COMStr) : Prop :=
  vals gatewayState = state ∨ Event.setState state ∈ es

/-- A process that runs has been without a connection for more than 300 seconds, by the second that
it keeps with the state of its connection. -/
structure Lost (client : M2CMQTTDataSet.Process) : Prop where
  running : client.exited = false
  state : client.dataSet.mState ≠ .dataSetConnected
  secs : 300 < client.dataSet.stateSecs client.clock

/-- An audit that a process has made, in a run from a start. -/
inductive Made (cfg : Config) (start : Trail) (es : List Event) : Audit → Prop where
  | report {t : Tick} (ht : .tick t ∈ es) : Made cfg start es t.report
  | success {t : Tick} (ht : .tick t ∈ es) (hset : WasSet start.redis.vals es "InstallSuccess") :
      Made cfg start es t.success
  | failure {t : Tick} (ht : .tick t ∈ es) (hset : WasSet start.redis.vals es "InstallFail") :
      Made cfg start es t.failure
  | connected {timeStamp : COMStr} (he : .connected timeStamp ∈ es) :
      Made cfg start es ⟨connectedNotice, timeStamp, cfg.mqttInfo⟩
  | failed {what timeStamp : COMStr} (he : .failed what timeStamp ∈ es) :
      Made cfg start es ⟨failedNotice what, timeStamp, cfg.mqttInfo⟩
  | lost {before : List Event} (hbefore : before <+: es) {client : M2CMQTTDataSet.Process}
      (hclient : client = (run (step cfg) start before).client) (hlost : Lost client)
      (timeStamp : COMStr) : Made cfg start es
        ⟨lostNotice (client.dataSet.stateSecs client.clock), timeStamp, cfg.mqttInfo⟩

/-- The audits of a call of the watch dog. -/
theorem made_of_mem_audits {cfg : Config} {start : Trail} {es : List Event} {t : Tick}
    (ht : .tick t ∈ es) {dog : ManagerWatchDog} {state : COMStr}
    (hset : WasSet start.redis.vals es state) {a : Audit}
    (ha : a ∈ audits cfg.toConfig t dog state) : Made cfg start es a := by
  rw [audits, List.mem_append] at ha
  rcases ha with ha | ha
  · split at ha
    · next he =>
      rw [List.mem_singleton.mp ha]
      exact .success ht (he ▸ hset)
    · split at ha
      · next he =>
        rw [List.mem_singleton.mp ha]
        exact .failure ht (he ▸ hset)
      · cases ha
  · split at ha
    · rw [List.mem_singleton.mp ha]
      exact .report ht
    · cases ha

/-- The parameters of an audit are those of a map. -/
theorem Made.sorted {cfg : Config} {start : Trail} {es : List Event} {a : Audit}
    (h : Made cfg start es a) : a.notice.params.Sorted := by
  cases h with
  | report ht =>
    apply ComMap.sorted_assignAll
    exact List.Pairwise.nil
  | _ => exact List.Pairwise.nil

/-! ### Every audit is kept -/

/-- What holds in a run on some events. -/
structure Kept (cfg : Config) (start : Trail) (es : List Event) (s : Trail) : Prop where
  /-- An audit pushed waits, or has been popped. -/
  conserved : (texts cfg s.audits).Perm (s.redis.lists mqttAuditQueue ++ s.delivered)
  registered : s.audits ≠ [] → cfg.Registered
  made : ∀ a ∈ s.audits, Made cfg start es a
  state : WasSet start.redis.vals es (s.redis.vals gatewayState)
  published : ∀ p ∈ s.published, p.1 = "audit_log" ∧ p.2 ∈ texts cfg s.audits

section Kept

variable {cfg : Config} {start : Trail} {es : List Event} {s : Trail}

/-- Nothing has happened. -/
theorem kept_initial (cfg : Config) (vals : COMStr → COMStr) (es : List Event)
    (subscribes : COMStr) (clock : Nat) :
    Kept cfg (.initial cfg vals subscribes clock) es (.initial cfg vals subscribes clock) :=
  ⟨.refl _, fun h ↦ absurd rfl h, nofun, .inl rfl, nofun⟩

/-- The MQTT process pushes an audit. -/
theorem Kept.audit (h : Kept cfg start es s) {n : Notice} {timeStamp : COMStr}
    (hmade : Made cfg start es ⟨n, timeStamp, cfg.mqttInfo⟩) :
    Kept cfg start es (s.audit cfg n timeStamp) := by
  rw [Trail.audit, Trail.record]
  by_cases hreg : cfg.Registered
  · simp only [COM_AUDIT_eq, if_pos hreg]
    refine ⟨?_, fun _ ↦ hreg, ?_, h.state, ?_⟩
    · rw [texts, List.map_append, List.map_singleton, Store.lists_push_self]
      exact List.perm_append_singleton _ _ |>.trans (h.conserved.cons _)
    · intro a ha
      rcases List.mem_append.mp ha with ha | ha
      · exact h.made a ha
      · rw [List.mem_singleton.mp ha]
        exact hmade
    · intro p hp
      obtain ⟨htopic, hmem⟩ := h.published p hp
      rw [texts, List.map_append]
      exact ⟨htopic, List.mem_append_left _ hmem⟩
  · simp only [COM_AUDIT_eq, if_neg hreg]
    exact ⟨h.conserved, h.registered, h.made, h.state, h.published⟩

/-- The watch dog is called. -/
theorem Kept.tick (h : Kept cfg start es s) {t : Tick} (ht : .tick t ∈ es) :
    Kept cfg start es (s.tick cfg t) := by
  have hmade : ∀ a ∈ audits cfg.toConfig t s.dog (s.redis.vals gatewayState),
      Made cfg start es a := fun a ha ↦ made_of_mem_audits ht h.state ha
  have hdrain : (drain s.redis).lists mqttAuditQueue = s.redis.lists mqttAuditQueue :=
    lists_drain s.redis (by decide)
  have hredis := watchdog_redis cfg.toConfig t s.dog s.redis
  have hstate : (watchdog cfg.toConfig t s.dog s.redis).2.vals = s.redis.vals := by
    rw [hredis, vals_foldl_COM_AUDIT]
    rfl
  rw [Trail.tick]
  simp only
  generalize audits cfg.toConfig t s.dog (s.redis.vals gatewayState) = as at hmade hredis ⊢
  rw [Trail.record]
  by_cases hreg : cfg.Registered
  · rw [if_pos hreg]
    refine ⟨?_, fun _ ↦ hreg, ?_, ?_, ?_⟩
    · simp only
      rw [hredis, lists_foldl_COM_AUDIT hreg, hdrain, texts, List.map_append, List.append_assoc]
      exact List.perm_append_comm.trans ((List.reverse_perm _).symm.append h.conserved)
    · intro a ha
      rcases List.mem_append.mp ha with ha | ha
      · exact h.made a ha
      · exact hmade a ha
    · simp only [hstate]
      exact h.state
    · intro p hp
      obtain ⟨htopic, hmem⟩ := h.published p hp
      rw [texts, List.map_append]
      exact ⟨htopic, List.mem_append_left _ hmem⟩
  · rw [if_neg hreg]
    rw [foldl_COM_AUDIT hreg] at hredis
    refine ⟨?_, h.registered, h.made, ?_, h.published⟩
    · simp only
      rw [hredis, hdrain]
      exact h.conserved
    · simp only [hstate]
      exact h.state

/-- The MQTT process ends because its connection is lost. -/
theorem Kept.exit (h : Kept cfg start es s) {before : List Event} (hbefore : before <+: es)
    (hs : s = run (step cfg) start before) (hrunning : s.client.exited = false)
    {msg topic : COMStr} (hexits : s.client.dataSet.publish s.client.clock msg topic = .exits)
    (timeStamp : COMStr) : Kept cfg start es (s.exit cfg timeStamp) := by
  have hlost : Lost s.client := by
    obtain ⟨-, hstate, hlong⟩ := (M2CMQTTDataSet.publish_eq_exits_iff _ _ _ _).mp hexits
    refine ⟨hrunning, hstate, ?_⟩
    rw [M2CMQTTDataSet.stateSecs]
    omega
  have hmade : Made cfg start es ⟨lostNotice (s.client.dataSet.stateSecs s.client.clock), timeStamp,
      cfg.mqttInfo⟩ := .lost hbefore (congrArg Trail.client hs) hlost timeStamp
  have haudit := h.audit hmade
  exact ⟨haudit.conserved, haudit.registered, haudit.made, haudit.state, haudit.published⟩

/-- Something happens around the connection. -/
theorem Kept.around (h : Kept cfg start es s) {before : List Event} (hbefore : before <+: es)
    (hs : s = run (step cfg) start before) (e : M2CMQTTDataSet.Event) (timeStamp : COMStr) :
    Kept cfg start es (s.around cfg e timeStamp) := by
  rw [Trail.around]
  split
  · next hexits =>
    rw [Bool.and_eq_true, Bool.not_eq_true'] at hexits
    obtain ⟨hrun, hend⟩ := hexits
    rw [M2CMQTTDataSet.Process.step, hrun, if_neg Bool.false_ne_true] at hend
    cases e with
    | publish msg topic => exact h.exit hbefore hs hrun (of_decide_eq_true hend) timeStamp
    | connect config isPub name =>
      exact absurd (hrun.symm.trans hend) Bool.false_ne_true
    | answer answered =>
      simp only [M2CMQTTDataSet.Process.act] at hend
      split at hend
      · exact absurd (hrun.symm.trans hend) Bool.false_ne_true
      · exact absurd (hrun.symm.trans hend) Bool.false_ne_true
    | _ => exact absurd (hrun.symm.trans hend) Bool.false_ne_true
  · exact ⟨h.conserved, h.registered, h.made, h.state, h.published⟩

/-- A message of the queue is handled. -/
theorem Kept.publish (h : Kept cfg start es s) {before : List Event} (hbefore : before <+: es)
    (hs : s = run (step cfg) start before) (i : Nat) (delivered : Bool) (timeStamp : COMStr) :
    Kept cfg start es (s.publish cfg i delivered timeStamp) := by
  unfold Trail.publish
  split
  · exact h
  · next hrunning =>
    rw [Bool.not_eq_true] at hrunning
    split
    · exact h
    · next msg hmsg =>
      split
      · exact h
      · next hexits =>
        rw [M2C_MQTT.processAuditQueue, M2C_MQTT.publishReady] at hexits
        split at hexits
        · exact h.exit hbefore hs hrunning hexits timeStamp
        · cases hexits
      · next topic payload hsends =>
        have hpublished : ∀ p ∈ s.published ++ [(topic, payload)],
            p.1 = "audit_log" ∧ p.2 ∈ texts cfg s.audits := by
          intro p hp
          rcases List.mem_append.mp hp with hp | hp
          · exact h.published p hp
          · rw [M2C_MQTT.processAuditQueue, M2C_MQTT.publishReady] at hsends
            split at hsends
            · obtain ⟨rfl, htopic⟩ := M2C_MQTT.publish_eq_sends hsends
              cases List.mem_singleton.mp hp
              refine ⟨htopic, h.conserved.mem_iff.mpr ?_⟩
              exact List.mem_append_left _ (List.mem_of_getElem? hmsg)
            · cases hsends
        cases delivered with
        | false => exact ⟨h.conserved, h.registered, h.made, h.state, hpublished⟩
        | true =>
          refine ⟨?_, h.registered, h.made, h.state, hpublished⟩
          obtain ⟨hi, rfl⟩ := List.getElem?_eq_some_iff.mp hmsg
          have herase := List.getElem_cons_eraseIdx_perm hi
          simp only [if_true, Store.erase]
          exact h.conserved.trans ((herase.symm.append_right _).trans
            (List.perm_middle.symm.trans ((List.perm_append_singleton _ _).symm.append_left _)))

/-- Any event of a run. -/
theorem kept_step (h : Kept cfg start es s) {before : List Event} {e : Event}
    (hbefore : before ++ [e] <+: es) (hs : s = run (step cfg) start before) :
    Kept cfg start es (step cfg s e) := by
  have he : e ∈ es := hbefore.subset (List.mem_append_right _ (List.mem_singleton_self e))
  have hbefore' : before <+: es := (List.prefix_append before [e]).trans hbefore
  cases e with
  | tick t => exact h.tick he
  | respawn => exact ⟨h.conserved, h.registered, h.made, h.state, h.published⟩
  | setState state =>
    refine ⟨h.conserved, h.registered, h.made, .inr ?_, h.published⟩
    rw [step, setGlobalState, Store.vals_set_self]
    exact he
  | note text =>
    refine ⟨?_, h.registered, h.made, h.state, h.published⟩
    have hlists : (s.redis.push "SystemInfor" text).lists mqttAuditQueue =
        s.redis.lists mqttAuditQueue := Store.lists_push_of_ne _ _ (by decide)
    rw [step]
    simp only [hlists]
    exact h.conserved
  | client e timeStamp => exact h.around hbefore' hs e timeStamp
  | connected timeStamp =>
    rw [step]
    split
    · exact h
    · exact h.audit (.connected he)
  | failed what timeStamp =>
    rw [step]
    split
    · exact h
    · exact h.audit (.failed he)
  | publish i delivered timeStamp => exact h.publish hbefore' hs i delivered timeStamp
  | restart subscribes secs => exact ⟨h.conserved, h.registered, h.made, h.state, h.published⟩

end Kept

/-! ### How often the system is reported on -/

/-- The interval between reports. -/
def Config.interval (cfg : Config) : Int := cfg.sysReportInterval.toNat

/-- What holds in the life of a Manager of a registered gateway, whose watch dog is called every
`w` seconds. -/
structure Paced (cfg : Config) (w : Int) (dog : ManagerWatchDog) (l : Life) (last : Int) :
    Prop where
  sysreportTime : dog.sysreportTime = some last
  ticked : last ≤ l.ticked
  spaced : Throttle.Spaced cfg.interval l.since ⟨last, l.reports⟩
  recent : 0 < cfg.interval → l.ticked - last < cfg.interval
  frequent : 0 < cfg.interval → Throttle.Frequent cfg.interval w l.since ⟨last, l.reports⟩

/-- That it holds, if the watch dog has been called. -/
def InPace (cfg : Config) (w : Int) (s : Trail) : Prop :=
  match s.life with
  | none => s.dog.sysreportTime = none
  | some l => ∃ last, Paced cfg w s.dog l last

section Paced

variable {cfg : Config} {w : Int} {s : Trail}

/-- Nothing has been reported. -/
theorem inPace_initial (cfg : Config) (w : Int) (vals : COMStr → COMStr) (subscribes : COMStr)
    (clock : Nat) : InPace cfg w (.initial cfg vals subscribes clock) := rfl

/-- A call makes one audit of the system, if a report is due. -/
theorem systemAudits_audits (cfg : ManagerWatchDog.Config) (t : Tick) (dog : ManagerWatchDog)
    (state : COMStr) :
    systemAudits (audits cfg t dog state) = if Due cfg dog t then [t.report] else [] := by
  have hreport : systemAudits (if Due cfg dog t then [t.report] else []) =
      if Due cfg dog t then [t.report] else [] := by
    split <;> rfl
  have hstate : systemAudits (if state = "InstallSuccess" then [t.success]
      else if state = "InstallFail" then [t.failure] else []) = [] := by
    split
    · rfl
    · split <;> rfl
  rw [systemAudits, audits, List.filter_append, ← systemAudits, ← systemAudits, hstate, hreport,
    List.nil_append]

/-- What a call of the watch dog comes to. -/
theorem tick_eq (hreg : cfg.Registered) {t : Tick} {last : Int} {reports : List Int}
    (hlast : s.dog.sysreportTime.getD t.first = last)
    (hreports : s.life.elim [] (·.reports) = reports) (hclocked : Clocked s (.tick t)) :
    (s.tick cfg t).dog.sysreportTime =
        some (Throttle.tick cfg.interval ⟨last, reports⟩ t.now).last ∧
      (s.tick cfg t).life = some ⟨s.life.elim t.first (·.since),
        (Throttle.tick cfg.interval ⟨last, reports⟩ t.now).times, t.now⟩ := by
  rw [Clocked, hlast] at hclocked
  obtain ⟨htime, htimes⟩ := watchdog_sysreportTime (c := cfg.toConfig) hlast hclocked s.redis
    reports
  have hnew : (systemAudits (audits cfg.toConfig t s.dog (s.redis.vals gatewayState))).map
      (fun _ ↦ t.now) ++ reports = (Throttle.tick cfg.interval ⟨last, reports⟩ t.now).times := by
    rw [Config.interval, htimes, systemAudits_audits]
    split <;> rfl
  simp only [Trail.tick, Trail.record, if_pos hreg]
  refine ⟨htime, ?_⟩
  rw [← hnew, ← hreports]
  cases s.life with
  | none => simp only [Option.elim_none, List.append_nil]
  | some l => rfl

/-- The watch dog is called in time. -/
theorem InPace.tick (hreg : cfg.Registered) (h : InPace cfg w s) {t : Tick}
    (hclocked : Clocked s (.tick t)) (hpunctual : Punctual w s (.tick t)) :
    InPace cfg w (s.tick cfg t) := by
  rw [InPace] at h
  rw [Punctual] at hpunctual
  cases hlife : s.life with
  | none =>
    rw [hlife] at h hpunctual
    have hlast : s.dog.sysreportTime.getD t.first = t.first := by
      rw [h]
      rfl
    have hreports : s.life.elim [] (·.reports) = [] := by
      rw [hlife]
      rfl
    obtain ⟨htime, hnew⟩ := tick_eq hreg hlast hreports hclocked
    rw [Clocked, hlast] at hclocked
    rw [hlife] at hnew
    rw [InPace, hnew]
    refine ⟨_, htime, Throttle.last_tick_le _ hclocked.1,
      (Throttle.spaced_start cfg.interval t.first).tick t.now, ?_, ?_⟩
    · exact fun hd ↦ Throttle.sub_last_lt_of_tick hd _ _
    · intro hd
      have hrecent : t.first - (Throttle.start t.first).last < cfg.interval := by
        rw [Throttle.start, sub_self]
        exact hd
      exact (Throttle.frequent_start cfg.interval w t.first).tick hrecent hpunctual
  | some l =>
    rw [hlife] at h hpunctual
    obtain ⟨last, hpaced⟩ := h
    have hlast : s.dog.sysreportTime.getD t.first = last := by
      rw [hpaced.sysreportTime]
      rfl
    have hreports : s.life.elim [] (·.reports) = l.reports := by
      rw [hlife]
      rfl
    obtain ⟨htime, hnew⟩ := tick_eq hreg hlast hreports hclocked
    rw [Clocked, hlast] at hclocked
    rw [hlife] at hnew
    rw [InPace, hnew]
    refine ⟨_, htime, Throttle.last_tick_le _ hclocked.1, hpaced.spaced.tick t.now, ?_, ?_⟩
    · exact fun hd ↦ Throttle.sub_last_lt_of_tick hd _ _
    · intro hd
      exact (hpaced.frequent hd).tick (hpaced.recent hd) hpunctual

/-- Any other event leaves the watch dog alone, or starts it anew. -/
theorem inPace_step (hreg : cfg.Registered) {e : Event} (he : Clocked s e ∧ Punctual w s e)
    (h : InPace cfg w s) : InPace cfg w (step cfg s e) := by
  have haudit (n : Notice) (timeStamp : COMStr) : InPace cfg w (s.audit cfg n timeStamp) := by
    rw [Trail.audit, Trail.record]
    split <;> exact h
  cases e with
  | tick t => exact h.tick hreg he.1 he.2
  | respawn => exact rfl
  | client e timeStamp =>
    rw [step, Trail.around]
    split
    · exact haudit _ _
    · exact h
  | connected timeStamp =>
    rw [step]
    split
    · exact h
    · exact haudit _ _
  | failed what timeStamp =>
    rw [step]
    split
    · exact h
    · exact haudit _ _
  | publish i delivered timeStamp =>
    rw [step]
    unfold Trail.publish
    split
    · exact h
    · split
      · exact h
      · split
        · exact h
        · exact haudit _ _
        · cases delivered with
          | true => exact h
          | false => exact h
  | setState | note | restart => exact h

end Paced

/-! ### The results -/

/-- In every run, an audit that was pushed is in the queue or was popped from it, each as often as
it was pushed; an audit is pushed only for a registered gateway, when one of the processes makes
it; and what is published for the topic of the audits is the text of one, which says its fields. -/
theorem run_kept (cfg : Config)
    (hP : ∀ o, (Var.object .value o).Regular → cfg.poco.ReadsBackValue o) (vals : COMStr → COMStr)
    (subscribes : COMStr) (clock : Nat) (es : List Event) :
    let s := run (step cfg) (.initial cfg vals subscribes clock) es
    (texts cfg s.audits).Perm (s.redis.lists mqttAuditQueue ++ s.delivered) ∧
      (∀ a ∈ s.audits, cfg.Registered ∧ Made cfg (.initial cfg vals subscribes clock) es a) ∧
      ∀ p ∈ s.published, p.1 = "audit_log" ∧ ∃ a ∈ s.audits, p.2 = a.text cfg.poco cfg.reg ∧
        Says cfg.poco p.2 "audit_log"
          (field cfg.reg.devID a.timeStamp (auditData a.info) a.notice) := by
  intro s
  have hkept : Kept cfg (.initial cfg vals subscribes clock) es s :=
    run_invariant_of_prefix es (fun _ _ hbefore h ↦ kept_step h hbefore rfl)
      (kept_initial cfg vals es subscribes clock)
  refine ⟨hkept.conserved, fun a ha ↦ ⟨hkept.registered (List.ne_nil_of_mem ha), hkept.made a ha⟩,
    ?_⟩
  intro p hp
  obtain ⟨htopic, hmem⟩ := hkept.published p hp
  obtain ⟨a, ha, htext⟩ := List.mem_map.mp hmem
  refine ⟨htopic, a, ha, htext.symm, ?_⟩
  rw [← htext]
  exact says_auditText hP (hkept.made a ha).sorted

/-- A gateway registered for MQTT, with its broker. -/
def gateway : Config where
  poco := Poco.json
  reg := registered
  host := "cloud"
  sysReportInterval := 60
  mqtt := M2CMQTTDataSet.Process.cloud
  mqttInfo := rootProcess

/-- The connection is made and audited, and the audit is published. -/
def oneAudit : List Event :=
  [.client (.connect none true "d378e0b5_PUB") "", .client .connected "", .connected "0",
    .publish 0 true ""]

/-- The audit is published, and says that the connection is made. -/
theorem run_kept_oneAudit :
    ∃ p ∈ (run (step gateway) (.initial gateway (fun _ ↦ "") "" 0) oneAudit).published,
      Says Poco.json p.2 "audit_log"
        (field "d378e0b5" "0" (auditData rootProcess) connectedNotice) := by
  obtain ⟨-, -, hpublished⟩ := run_kept gateway (fun _ ↦ Poco.json_readsBackValue) (fun _ ↦ "") ""
    0 oneAudit
  have hone : (run (step gateway) (.initial gateway (fun _ ↦ "") "" 0) oneAudit).published =
      [("audit_log", Audit.text Poco.json registered ⟨connectedNotice, "0", rootProcess⟩)] := rfl
  have haudits : (run (step gateway) (.initial gateway (fun _ ↦ "") "" 0) oneAudit).audits =
      [⟨connectedNotice, "0", rootProcess⟩] := rfl
  rw [hone, haudits] at hpublished
  rw [hone]
  obtain ⟨-, a, ha, -, hsays⟩ := hpublished _ (List.mem_singleton_self _)
  rw [List.mem_singleton.mp ha] at hsays
  exact ⟨_, List.mem_singleton_self _, hsays⟩

/-- While the Manager of a registered gateway runs, with a clock that is not set back and calls of
the watch dog at most `w` seconds apart, its audits of the system are an interval apart; and their
number is right for the time since the start, up to the interval and `w`. -/
theorem run_inPace (cfg : Config) (hreg : cfg.Registered) (w : Int) (vals : COMStr → COMStr)
    (subscribes : COMStr) (clock : Nat) (es : List Event)
    (hes : Guarded (step cfg) (fun s e ↦ Clocked s e ∧ Punctual w s e)
      (.initial cfg vals subscribes clock) es) {l : Life}
    (hl : (run (step cfg) (.initial cfg vals subscribes clock) es).life = some l) :
    (l.reports ++ [l.since]).IsChain (fun later earlier ↦ cfg.interval ≤ later - earlier) ∧
      l.reports.length * cfg.interval ≤ l.ticked - l.since ∧
      (0 < cfg.interval →
        l.ticked - l.since < l.reports.length * (cfg.interval + w) + cfg.interval) := by
  have hpace := @run_invariant_of_guarded _ _ _ _ (InPace cfg w)
    (fun _ _ he h ↦ inPace_step hreg he h) _ es hes
    (inPace_initial cfg w vals subscribes clock)
  rw [InPace, hl] at hpace
  obtain ⟨last, hpaced⟩ := hpace
  have htime : last ≤ l.ticked := hpaced.ticked
  refine ⟨hpaced.spaced.chain, ?_, ?_⟩
  · have hle := hpaced.spaced.nsmul_le
    rw [nsmul_eq_mul] at hle
    exact hle.trans (sub_le_sub_right htime _)
  · intro hd
    have hlt := (hpaced.frequent hd).sub_lt (hpaced.recent hd)
    rw [nsmul_eq_mul] at hlt
    exact hlt

/-- A call of the watch dog at a time. -/
def tickAt (now : Int) : Tick where
  first := now
  now := now
  reachable := true
  system := ⟨"", "", "", "", "", "", "", "", ""⟩
  info := rootProcess
  stateStamp := ""
  systemStamp := ""

/-- Three calls, of which the second is early. -/
def threeTicks : List Event := [.tick (tickAt 0), .tick (tickAt 50), .tick (tickAt 100)]

/-- The last reports on the system. -/
theorem run_inPace_threeTicks : ∃ l,
    (run (step gateway) (.initial gateway (fun _ ↦ "") "" 0) threeTicks).life = some l ∧
      l.reports = [100] ∧ l.reports.length * gateway.interval ≤ l.ticked - l.since ∧
        l.ticked - l.since < l.reports.length * (gateway.interval + 50) + gateway.interval := by
  have hlife : (run (step gateway) (.initial gateway (fun _ ↦ "") "" 0) threeTicks).life =
      some ⟨0, [100], 100⟩ := rfl
  have hes : Guarded (step gateway) (fun s e ↦ Clocked s e ∧ Punctual 50 s e)
      (.initial gateway (fun _ ↦ "") "" 0) threeTicks := by
    refine ⟨⟨?_, ?_⟩, ⟨?_, ?_⟩, ⟨?_, ?_⟩, trivial⟩
    · exact ⟨by decide, by decide⟩
    · exact (by decide : (0 : Int) ≤ 0 + 50)
    · exact ⟨by decide, by decide⟩
    · exact (by decide : (50 : Int) ≤ 0 + 50)
    · exact ⟨by decide, by decide⟩
    · exact (by decide : (100 : Int) ≤ 50 + 50)
  obtain ⟨-, hle, hlt⟩ := run_inPace gateway (by decide) 50 (fun _ ↦ "") "" 0 threeTicks hes hlife
  exact ⟨_, hlife, rfl, hle, hlt (by decide)⟩

end IcsGateway.AuditTrail
