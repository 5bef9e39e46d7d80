import Mathlib.Data.List.Nodup
import IcsGateway.Lib.Transition
import IcsGateway.Base.Json
import IcsGateway.Bridge.Bridge

/-!
# What a report contains

Messages are handled one after another and a tick follows. The tick reads the key of a type
once for every device of that type and clears it the first time; the report keeps what was
read last. So the tags of a device are in the report when no other device has its type.
-/

namespace IcsGateway.Bridge

open Lib

/-! ### The loop over the devices -/

/-- The object the empty data are the text of. -/
def emptyDataObject : Object :=
  [("good_tags", .array .ptr []), ("error_tags", .array .ptr []), ("low_alarm", .array .ptr []),
    ("high_alarm", .array .ptr [])]

/-- The text a tick parses for a type. -/
def dataOf (s : Redis) (deviceType : COMStr) : COMStr :=
  if s.vals (collectorKey deviceType) = "" then emptyData else s.vals (collectorKey deviceType)

/-- The store after a tick has read the data of a type. -/
def taken (s : Redis) (deviceType : COMStr) : Redis :=
  if s.vals (collectorKey deviceType) = "" then s else s.set (collectorKey deviceType) ""

/-- Types have keys of their own. -/
theorem collectorKey_inj {t t' : COMStr} : collectorKey t = collectorKey t' ↔ t = t' := by
  rw [collectorKey, collectorKey, String.append_right_inj]

/-- A type that was read is clear. -/
theorem vals_taken_self (s : Redis) (t : COMStr) : (taken s t).vals (collectorKey t) = "" := by
  rw [taken]
  split
  · assumption
  · exact Store.vals_set_self s _ _

/-- Reading a type leaves the others. -/
theorem vals_taken_of_ne (s : Redis) {t t' : COMStr} (h : t' ≠ t) :
    (taken s t).vals (collectorKey t') = s.vals (collectorKey t') := by
  rw [taken]
  split
  · rfl
  · exact Store.vals_set_of_ne s _ fun he ↦ h (collectorKey_inj.mp he)

/-- Reading a type touches no list. -/
theorem lists_taken (s : Redis) (t : COMStr) : (taken s t).lists = s.lists := by
  rw [taken]
  split <;> rfl

/-- What is parsed for a type that was read, -/
theorem dataOf_taken_self (s : Redis) (t : COMStr) : dataOf (taken s t) t = emptyData := by
  rw [dataOf, if_pos (vals_taken_self s t)]

/-- and for any other. -/
theorem dataOf_taken_of_ne (s : Redis) {t t' : COMStr} (h : t' ≠ t) :
    dataOf (taken s t) t' = dataOf s t' := by
  rw [dataOf, dataOf, vals_taken_of_ne s h]

/-- The loop at a device whose data can be parsed. -/
private theorem exec_dataPoints_cons {P : Poco} {s : Redis} {dev : DeviceConfig} {o : Object}
    (h : P.parse (dataOf s dev.deviceType) = .ok (.object .ptr o)) (dataPoint : Object)
    (rest : List DeviceConfig) :
    (dataPoints P dataPoint (dev :: rest)).exec s =
      (dataPoints P (Object.set dataPoint dev.deviceType (.object .ptr o)) rest).exec
        (taken s dev.deviceType) := by
  rw [dataPoints, Prog.exec]
  rw [dataOf] at h
  rw [taken]
  split
  · next he =>
    rw [if_pos he] at h
    simp only [h]
    rfl
  · next he =>
    rw [if_neg he] at h
    simp only [h]
    rfl

/-- What the loop does when all data can be parsed: it clears the keys it reads, and under each
type stands what was parsed for it if one device has the type, the empty data if several
have. -/
theorem exec_dataPoints {P : Poco} (hempty : P.parse emptyData = .ok (.object .ptr emptyDataObject))
    (devices : List DeviceConfig) :
    ∀ dataPoint s, (∀ d ∈ devices, ∃ o, P.parse (dataOf s d.deviceType) = .ok (.object .ptr o)) →
      ∃ report s', (dataPoints P dataPoint devices).exec s = (.ok report, s') ∧
        s'.lists = s.lists ∧
        (∀ d ∈ devices, s'.vals (collectorKey d.deviceType) = "") ∧
        (∀ t, t ∉ devices.map (·.deviceType) →
          s'.vals (collectorKey t) = s.vals (collectorKey t) ∧
            Object.get report t = Object.get dataPoint t) ∧
        (∀ t o, (devices.map (·.deviceType)).count t = 1 →
          P.parse (dataOf s t) = .ok (.object .ptr o) →
          Object.get report t = .object .ptr o) ∧
        (∀ t, 1 < (devices.map (·.deviceType)).count t →
          Object.get report t = .object .ptr emptyDataObject) := by
  induction devices with
  | nil =>
    intro dataPoint s _
    refine ⟨dataPoint, s, rfl, rfl, nofun, fun t _ ↦ ⟨rfl, rfl⟩, ?_, ?_⟩
    · intro t o h
      simp at h
    · intro t h
      simp at h
  | cons d rest ih =>
    intro dataPoint s hparse
    obtain ⟨o, ho⟩ := hparse d (List.mem_cons_self ..)
    have hrest : ∀ d' ∈ rest, ∃ o,
        P.parse (dataOf (taken s d.deviceType) d'.deviceType) = .ok (.object .ptr o) := by
      intro d' hd'
      by_cases he : d'.deviceType = d.deviceType
      · rw [he, dataOf_taken_self]
        exact ⟨_, hempty⟩
      · rw [dataOf_taken_of_ne s he]
        exact hparse d' (List.mem_cons_of_mem _ hd')
    obtain ⟨report, s', hexec, hlists, hclear, hother, hone, hmany⟩ :=
      ih (Object.set dataPoint d.deviceType (.object .ptr o)) _ hrest
    refine ⟨report, s', (exec_dataPoints_cons ho dataPoint rest).trans hexec,
      hlists.trans (lists_taken s _), ?_, ?_, ?_, ?_⟩
    · intro d' hd'
      rcases List.mem_cons.mp hd' with rfl | hd'
      · by_cases hm : d'.deviceType ∈ rest.map (·.deviceType)
        · obtain ⟨d'', hd'', he⟩ := List.mem_map.mp hm
          rw [← he]
          exact hclear d'' hd''
        · rw [(hother _ hm).1]
          exact vals_taken_self s _
      · exact hclear d' hd'
    · intro t ht
      rw [List.map_cons, List.mem_cons, not_or] at ht
      obtain ⟨hvals, hget⟩ := hother t ht.2
      exact ⟨hvals.trans (vals_taken_of_ne s ht.1), hget.trans (Object.get_set_of_ne _ _ ht.1)⟩
    · intro t o' hcount ho'
      by_cases he : t = d.deviceType
      · subst he
        rw [List.map_cons, List.count_cons_self] at hcount
        have hnot : d.deviceType ∉ rest.map (·.deviceType) := by
          rw [← List.count_eq_zero]
          omega
        rw [ho] at ho'
        cases ho'
        rw [(hother _ hnot).2]
        exact Object.get_set_self _ _ _
      · rw [List.map_cons, List.count_cons_of_ne (fun h ↦ he h.symm)] at hcount
        apply hone t o' hcount
        rwa [dataOf_taken_of_ne s he]
    · intro t hcount
      by_cases he : t = d.deviceType
      · subst he
        rw [List.map_cons, List.count_cons_self] at hcount
        by_cases hrest1 : (rest.map (·.deviceType)).count d.deviceType = 1
        · apply hone _ _ hrest1
          rw [dataOf_taken_self]
          exact hempty
        · apply hmany
          omega
      · rw [List.map_cons, List.count_cons_of_ne (fun h ↦ he h.symm)] at hcount
        exact hmany t hcount

/-! ### The messages before the tick -/

/-- The store after the listener has handled a message. -/
def listen (P : Poco) (cfg : CollectorConfig_T) (s : Redis) (msg : COMStr) : Redis :=
  ((processCollectData P cfg msg).exec s).2

/-- The last message accepted from a device with a property. -/
def latest (P : Poco) (cfg : CollectorConfig_T) (p : DeviceConfig → Prop) [DecidablePred p] :
    List COMStr → Option Object
  | [] => none
  | msg :: msgs => (latest P cfg p msgs).or
      ((accepted P cfg msg).bind fun dm ↦ if p dm.1 then some dm.2 else none)

/-- The text stored for a message. -/
def storedText (P : Poco) (jmsg : Object) : COMStr :=
  P.stringify (.object .value (collectDataPoint jmsg))

/-- A message that is accepted replaces the data of its type. -/
theorem listen_of_accepted {P : Poco} {cfg : CollectorConfig_T} {msg : COMStr}
    {d : DeviceConfig} {jmsg : Object} (h : accepted P cfg msg = some (d, jmsg)) (s : Redis) :
    listen P cfg s msg = s.set (collectorKey d.deviceType) (storedText P jmsg) := by
  rw [listen, processCollectData_eq, h]
  rfl

/-- Any other message changes nothing. -/
theorem listen_of_not_accepted {P : Poco} {cfg : CollectorConfig_T} {msg : COMStr}
    (h : accepted P cfg msg = none) (s : Redis) : listen P cfg s msg = s := by
  rw [listen, processCollectData_eq, h]
  rfl

/-- The messages touch no list. -/
theorem lists_run_listen (P : Poco) (cfg : CollectorConfig_T) (msgs : List COMStr) :
    ∀ s, (run (listen P cfg) s msgs).lists = s.lists := by
  induction msgs with
  | nil => exact fun _ ↦ rfl
  | cons msg msgs ih =>
    intro s
    rw [run, ih]
    cases h : accepted P cfg msg with
    | none => rw [listen_of_not_accepted h]
    | some dm => rw [listen_of_accepted h, Store.lists_set]

/-- After the messages a type has the data of its last message. -/
theorem vals_run_listen (P : Poco) (cfg : CollectorConfig_T) (t : COMStr)
    (msgs : List COMStr) :
    ∀ s, (run (listen P cfg) s msgs).vals (collectorKey t) =
      ((latest P cfg (·.deviceType = t) msgs).map (storedText P)).getD
        (s.vals (collectorKey t)) := by
  induction msgs with
  | nil => exact fun _ ↦ rfl
  | cons msg msgs ih =>
    intro s
    rw [run, ih, latest]
    cases latest P cfg (·.deviceType = t) msgs with
    | some jmsg => rfl
    | none =>
      simp only [Option.map_none, Option.getD_none, Option.none_or]
      cases h : accepted P cfg msg with
      | none => rw [listen_of_not_accepted h]; rfl
      | some dm =>
        obtain ⟨d, jmsg⟩ := dm
        rw [listen_of_accepted h, Option.bind_some]
        by_cases he : d.deviceType = t
        · rw [if_pos he, he]
          exact Store.vals_set_self s _ _
        · rw [if_neg he]
          exact Store.vals_set_of_ne s _ fun hk ↦ he (collectorKey_inj.mp hk).symm

/-- The last message is one of the messages, and its device has the property. -/
theorem exists_of_latest {P : Poco} {cfg : CollectorConfig_T} {p : DeviceConfig → Prop}
    [DecidablePred p] {msgs : List COMStr} {jmsg : Object}
    (h : latest P cfg p msgs = some jmsg) :
    ∃ msg ∈ msgs, ∃ d, accepted P cfg msg = some (d, jmsg) ∧ p d := by
  induction msgs with
  | nil => cases h
  | cons msg msgs ih =>
    rw [latest, Option.or_eq_some_iff] at h
    rcases h with h | ⟨-, h⟩
    · obtain ⟨msg', hm, hd⟩ := ih h
      exact ⟨msg', List.mem_cons_of_mem _ hm, hd⟩
    · rw [Option.bind_eq_some_iff] at h
      obtain ⟨⟨d, jmsg'⟩, ha, hp⟩ := h
      split at hp
      · next hpd =>
        cases hp
        exact ⟨msg, List.mem_cons_self .., d, ha, hpd⟩
      · cases hp

/-- Two properties of the configured devices that agree give the same last message. -/
theorem latest_congr (P : Poco) {cfg : CollectorConfig_T} {p q : DeviceConfig → Prop}
    [DecidablePred p] [DecidablePred q] (h : ∀ d ∈ cfg.devices, p d ↔ q d)
    (msgs : List COMStr) : latest P cfg p msgs = latest P cfg q msgs := by
  induction msgs with
  | nil => rfl
  | cons msg msgs ih =>
    rw [latest, latest, ih]
    congr 1
    cases ha : accepted P cfg msg with
    | none => rfl
    | some dm =>
      have ha' : accepted P cfg msg = some (dm.1, dm.2) := ha
      have hpq := h dm.1 (mem_of_accepted ha')
      simp only [Option.bind_some, hpq]

/-! ### The report -/

/-- What the library is relied on for: the empty data are the text of an object, the empty
text is none, and the objects printed here are read back. -/
structure ReadsData (P : Poco) (cfg : CollectorConfig_T) (msgs : List COMStr) : Prop where
  empty : P.parse emptyData = .ok (.object .ptr emptyDataObject)
  noText : ∀ v, P.parse "" ≠ .ok v
  stored : ∀ msg ∈ msgs, ∀ d jmsg, accepted P cfg msg = some (d, jmsg) →
    P.ReadsBackValue (collectDataPoint jmsg)

/-- The object a tick parses for a type. -/
def objectOf (P : Poco) (cfg : CollectorConfig_T) (t : COMStr) (msgs : List COMStr) : Object :=
  match latest P cfg (·.deviceType = t) msgs with
  | some jmsg => Object.reparse (collectDataPoint jmsg)
  | none => emptyDataObject

/-- After messages from a clear key, the tick can parse what it finds. -/
theorem parse_dataOf {P : Poco} {cfg : CollectorConfig_T} {msgs : List COMStr}
    (hP : ReadsData P cfg msgs) {s : Redis} {t : COMStr} (hs : s.vals (collectorKey t) = "") :
    P.parse (dataOf (run (listen P cfg) s msgs) t) =
      .ok (.object .ptr (objectOf P cfg t msgs)) := by
  rw [dataOf, vals_run_listen, objectOf]
  cases h : latest P cfg (·.deviceType = t) msgs with
  | none =>
    simp only [Option.map_none, Option.getD_none, hs, ↓reduceIte]
    exact hP.empty
  | some jmsg =>
    obtain ⟨msg, hm, d, ha, -⟩ := exists_of_latest h
    have hback := hP.stored msg hm d jmsg ha
    rw [Poco.ReadsBackValue] at hback
    have hne : storedText P jmsg ≠ "" := by
      intro he
      rw [storedText] at he
      rw [he] at hback
      exact hP.noText _ hback
    simp only [Option.map_some, Option.getD_some, if_neg hne]
    exact hback

/-- The tags a report has for a type. -/
def reportedTags (report : Object) (deviceType key : COMStr) : List Var :=
  match Object.get report deviceType with
  | .object .ptr o => tags o key
  | _ => []

/-- No other configured device has the type. -/
def SoleOfType (cfg : CollectorConfig_T) (d : DeviceConfig) : Prop :=
  (cfg.devices.map (·.deviceType)).count d.deviceType = 1

/-- One report was pushed, and for every device that has sent a message it has the tags of
the last one. -/
def Reported (P : Poco) (cfg : CollectorConfig_T) (msgs : List COMStr) (s s' : Redis) : Prop :=
  ∃ text report, s'.lists m2cDataQueue = text :: s.lists m2cDataQueue ∧
    P.parse text = .ok (.object .ptr report) ∧
    ∀ d ∈ cfg.devices, ∀ jmsg, latest P cfg (·.subID = d.subID) msgs = some jmsg →
      ∀ key ∈ tagKeys, reportedTags report d.deviceType key = (tags jmsg key).map Var.reparse

/-- A key of a device is not the key of the live data. -/
theorem collectorKey_ne_liveDataKey (t : COMStr) : collectorKey t ≠ liveDataKey := by
  intro h
  have hhead := congrArg (fun s ↦ s.toList.head?) h
  simp [collectorKey, liveDataKey] at hhead

/-- What a tick does when all data can be parsed: it pushes the report and clears the keys. -/
theorem exec_dataPointProcessor {P : Poco} {cfg : BridgeConfig} (hdev : cfg.devID ≠ "")
    {timeStamp : COMStr} {s s' : Redis} {report : Object}
    (h : (dataPoints P (header cfg timeStamp) cfg.collector.devices).exec s = (.ok report, s')) :
    (dataPointProcessor P cfg timeStamp).exec s =
      (.ok (), (s'.push m2cDataQueue (P.stringify (.object .value report))).set liveDataKey
        (P.stringify (.object .value report))) := by
  rw [dataPointProcessor, Prog.exec_bind, h]
  simp only [pushReport, if_neg hdev]
  rfl

/-- A tick leaves the keys of the devices clear. -/
theorem vals_dataPointProcessor {P : Poco} {cfg : BridgeConfig} (hdev : cfg.devID ≠ "")
    (hempty : P.parse emptyData = .ok (.object .ptr emptyDataObject)) (timeStamp : COMStr)
    {s : Redis} (hparse : ∀ d ∈ cfg.collector.devices,
      ∃ o, P.parse (dataOf s d.deviceType) = .ok (.object .ptr o)) :
    ∀ d ∈ cfg.collector.devices,
      ((dataPointProcessor P cfg timeStamp).exec s).2.vals (collectorKey d.deviceType) = "" := by
  intro d hd
  obtain ⟨report, s', hexec, -, hclear, -⟩ :=
    exec_dataPoints hempty cfg.collector.devices (header cfg timeStamp) s hparse
  rw [exec_dataPointProcessor hdev hexec, Store.vals_set_of_ne _ _ (collectorKey_ne_liveDataKey _),
    Store.vals_push]
  exact hclear d hd

/-- The keys of the devices have no data. -/
def Clear (cfg : CollectorConfig_T) (s : Redis) : Prop :=
  ∀ d ∈ cfg.devices, s.vals (collectorKey d.deviceType) = ""

/-- Messages are handled, and a tick comes. -/
def round (P : Poco) (cfg : BridgeConfig) (s : Redis) (r : List COMStr × COMStr) : Redis :=
  ((dataPointProcessor P cfg r.2).exec (run (listen P cfg.collector) s r.1)).2

/-- Where the keys were clear before the messages, they are clear after the tick. -/
theorem Clear.round {P : Poco} {cfg : BridgeConfig} (hdev : cfg.devID ≠ "")
    {r : List COMStr × COMStr} (hP : ReadsData P cfg.collector r.1) {s : Redis}
    (hs : Clear cfg.collector s) : Clear cfg.collector (round P cfg s r) := by
  apply vals_dataPointProcessor hdev hP.empty r.2
  intro d hd
  exact ⟨_, parse_dataOf hP (hs d hd)⟩

/-- So a Bridge that starts with clear keys finds them clear after every tick. -/
theorem clear_run_round {P : Poco} {cfg : BridgeConfig} (hdev : cfg.devID ≠ "")
    {rounds : List (List COMStr × COMStr)} (hP : ∀ r ∈ rounds, ReadsData P cfg.collector r.1)
    {s : Redis} (hs : Clear cfg.collector s) :
    Clear cfg.collector (run (round P cfg) s rounds) := by
  have hguarded : Guarded (round P cfg) (fun _ r ↦ ReadsData P cfg.collector r.1) s rounds :=
    guarded_of_forall hP
  exact run_invariant_of_guarded (fun _ _ hr h ↦ h.round hdev hr) rounds hguarded hs

/-- The tags read back from a report for a type it has an object for. -/
private theorem reportedTags_reparse {report o : Object} {t : COMStr}
    (h : Object.get report t = .object .ptr o) (key : COMStr) :
    reportedTags (Object.reparse report) t key = tags (Object.reparse o) key := by
  rw [reportedTags, Object.get_reparse, h]
  rfl

/-- The empty data are read back. -/
theorem reparse_emptyDataObject : Object.reparse emptyDataObject = emptyDataObject := rfl

/-- They have no tags. -/
theorem tags_emptyDataObject {key : COMStr} (h : key ∈ tagKeys) :
    tags emptyDataObject key = [] := by
  simp only [tagKeys, List.mem_cons, List.not_mem_nil, or_false] at h
  rcases h with rfl | rfl | rfl | rfl <;> rfl

/-- Where a value of `f` occurs once, one element has it. -/
private theorem eq_of_count_map {α : Type} {f : α → COMStr} {l : List α} {x y : α} (hx : x ∈ l)
    (hy : y ∈ l) (hcount : (l.map f).count (f x) = 1) (he : f y = f x) : y = x := by
  obtain ⟨a, b, rfl⟩ := List.append_of_mem hx
  rw [List.map_append, List.map_cons, List.count_append, List.count_cons_self] at hcount
  have ha : f x ∉ a.map f := by
    rw [← List.count_eq_zero]
    omega
  have hb : f x ∉ b.map f := by
    rw [← List.count_eq_zero]
    omega
  rcases List.mem_append.mp hy with hy | hy
  · exact absurd (he ▸ List.mem_map_of_mem hy) ha
  · rcases List.mem_cons.mp hy with hy | hy
    · exact hy
    · exact absurd (he ▸ List.mem_map_of_mem hy) hb

/-- Among configured devices with distinct identifiers, the messages of the only device of a
type are those of the type. -/
private theorem latest_of_sole {P : Poco} {cfg : CollectorConfig_T}
    (hsub : (cfg.devices.map (·.subID)).Nodup) {d : DeviceConfig} (hd : d ∈ cfg.devices)
    (hsole : SoleOfType cfg d) (msgs : List COMStr) :
    latest P cfg (·.deviceType = d.deviceType) msgs =
      latest P cfg (·.subID = d.subID) msgs := by
  apply latest_congr
  intro d' hd'
  constructor
  · intro ht
    rw [eq_of_count_map (f := DeviceConfig.deviceType) hd hd' hsole ht]
  · intro hs
    rw [List.inj_on_of_nodup_map hsub hd' hd hs]

/-- After messages handled one by one, a tick reports the last tags of every device exactly
when each device that sent some is the only one of its type or has sent no tags last. -/
theorem dataPointProcessor_reported_iff (P : Poco) (cfg : BridgeConfig) (timeStamp : COMStr)
    (s : Redis) (msgs : List COMStr) (hsub : (cfg.collector.devices.map (·.subID)).Nodup)
    (hdev : cfg.devID ≠ "")
    (hclear : ∀ d ∈ cfg.collector.devices, s.vals (collectorKey d.deviceType) = "")
    (hP : ReadsData P cfg.collector msgs)
    (hreport : ∀ report s', (dataPoints P (header cfg timeStamp) cfg.collector.devices).exec
      (run (listen P cfg.collector) s msgs) = (.ok report, s') → P.ReadsBackValue report) :
    Reported P cfg.collector msgs s ((dataPointProcessor P cfg timeStamp).exec
        (run (listen P cfg.collector) s msgs)).2 ↔
      ∀ d ∈ cfg.collector.devices, ∀ jmsg,
        latest P cfg.collector (·.subID = d.subID) msgs = some jmsg →
        SoleOfType cfg.collector d ∨ ∀ key ∈ tagKeys, tags jmsg key = [] := by
  have hparse : ∀ d ∈ cfg.collector.devices,
      ∃ o, P.parse (dataOf (run (listen P cfg.collector) s msgs) d.deviceType) =
        .ok (.object .ptr o) :=
    fun d hd ↦ ⟨_, parse_dataOf hP (hclear d hd)⟩
  obtain ⟨report, s', hexec, hlists, -, -, hone, hmany⟩ :=
    exec_dataPoints hP.empty cfg.collector.devices (header cfg timeStamp) _ hparse
  have hback := hreport report s' hexec
  rw [Poco.ReadsBackValue] at hback
  have hqueue : ((dataPointProcessor P cfg timeStamp).exec
      (run (listen P cfg.collector) s msgs)).2.lists m2cDataQueue =
      P.stringify (.object .value report) :: s.lists m2cDataQueue := by
    rw [exec_dataPointProcessor hdev hexec, Store.lists_set, Store.lists_push_self, hlists,
      lists_run_listen]
  have hdevice : ∀ d ∈ cfg.collector.devices, ∀ jmsg,
      latest P cfg.collector (·.subID = d.subID) msgs = some jmsg →
      ((∀ key ∈ tagKeys, reportedTags (Object.reparse report) d.deviceType key =
          (tags jmsg key).map Var.reparse) ↔
        SoleOfType cfg.collector d ∨ ∀ key ∈ tagKeys, tags jmsg key = []) := by
    intro d hd jmsg hlatest
    by_cases hsole : SoleOfType cfg.collector d
    · have hget := hone d.deviceType _ hsole (parse_dataOf hP (hclear d hd))
      rw [objectOf, latest_of_sole hsub hd hsole, hlatest] at hget
      simp only [hsole, true_or, iff_true]
      intro key hkey
      rw [reportedTags_reparse hget, Object.reparse_reparse]
      exact tags_reparse_collectDataPoint jmsg hkey
    · have hmore : 1 < (cfg.collector.devices.map (·.deviceType)).count d.deviceType := by
        have hpos : 0 < (cfg.collector.devices.map (·.deviceType)).count d.deviceType :=
          List.count_pos_iff.mpr (List.mem_map_of_mem hd)
        rw [SoleOfType] at hsole
        omega
      simp only [hsole, false_or]
      apply forall₂_congr
      intro key hkey
      rw [reportedTags_reparse (hmany _ hmore), reparse_emptyDataObject,
        tags_emptyDataObject hkey, eq_comm, List.map_eq_nil_iff]
  constructor
  · rintro ⟨text, report', hq, ht, htags⟩ d hd jmsg hlatest
    rw [hqueue] at hq
    have htext : P.stringify (.object .value report) = text := (List.cons.inj hq).1
    rw [← htext, hback] at ht
    cases ht
    exact (hdevice d hd jmsg hlatest).mp (htags d hd jmsg hlatest)
  · intro h
    refine ⟨_, Object.reparse report, hqueue, hback, ?_⟩
    intro d hd jmsg hlatest
    exact (hdevice d hd jmsg hlatest).mpr (h d hd jmsg hlatest)

/-! ### At a few devices -/

/-- A Bridge with one device. -/
def oneDevice : BridgeConfig :=
  ⟨"gateway", "d378e0b5", ⟨60, [⟨"power_meter", "s1", "MODBUS", 10, []⟩]⟩⟩

/-- A Bridge with two devices of one type. -/
def twoDevices : BridgeConfig :=
  ⟨"gateway", "d378e0b5",
    ⟨60, [⟨"power_meter", "s1", "MODBUS", 10, []⟩, ⟨"power_meter", "s2", "MODBUS", 10, []⟩]⟩⟩

/-- The object of a message of the first device with one good tag. -/
def tagObject (value : Int) : Object :=
  [("good_tags", .array .ptr [.int value]), ("sub_device_id", .str "s1")]

/-- That message. -/
def tagMsg (value : Int) : COMStr := Poco.json.stringify (.object .ptr (tagObject value))

/-- An empty Redis. -/
def emptyRedis : Redis := ⟨fun _ ↦ "", fun _ ↦ []⟩

/-- The message is parsed, -/
private theorem parse_tagMsg (value : Int) :
    Poco.json.parse (tagMsg value) = .ok (.object .ptr (tagObject value)) :=
  Poco.json_readsBack (o := tagObject value)
    (by simp [tagObject, Var.Regular, RegularVals, RegularFields])

/-- and accepted where the device is configured. -/
theorem accepted_tagMsg {cfg : CollectorConfig_T} {d : DeviceConfig}
    (hd : cfg.findBySubId "s1" = some d) (value : Int) :
    accepted Poco.json cfg (tagMsg value) = some (d, tagObject value) := by
  have htext : Object.text Poco.json (tagObject value) "sub_device_id" = "s1" := rfl
  rw [accepted, parse_tagMsg]
  change (cfg.findBySubId (Object.text Poco.json (tagObject value) "sub_device_id")).map _ = _
  rw [htext, hd]
  rfl

/-- The data point of the message is read back. -/
private theorem readsBackValue_tagObject (value : Int) :
    Poco.json.ReadsBackValue (collectDataPoint (tagObject value)) := by
  apply Poco.json_readsBackValue
  simp [tagObject, collectDataPoint, copyTags, JGET_ARR, Object.has, Object.getArray,
    ArrayPtr.vals, Object.set, Var.Regular, RegularVals, RegularFields]

/-- The library reads the data of these messages. -/
theorem readsData_tagMsg {cfg : CollectorConfig_T} {d : DeviceConfig}
    (hd : cfg.findBySubId "s1" = some d) (values : List Int) :
    ReadsData Poco.json cfg (values.map tagMsg) := by
  refine ⟨?_, ?_, ?_⟩
  · exact Poco.json_parse (v := .object .ptr emptyDataObject)
      (by simp [emptyDataObject, Var.Regular, RegularVals, RegularFields]) (by decide +kernel)
  · intro v
    rw [Poco.json_parse_empty]
    intro h
    cases h
  · intro msg hmsg d' jmsg ha
    obtain ⟨value, -, rfl⟩ := List.mem_map.mp hmsg
    rw [accepted_tagMsg hd] at ha
    cases ha
    exact readsBackValue_tagObject value

/-- A tick finds the data of the message. -/
private theorem parse_dataOf_tagMsg {cfg : CollectorConfig_T} {d : DeviceConfig}
    (hd : cfg.findBySubId "s1" = some d) :
    Poco.json.parse (dataOf (run (listen Poco.json cfg) emptyRedis [tagMsg 1]) d.deviceType) =
      .ok (.object .ptr (Object.reparse (collectDataPoint (tagObject 1)))) := by
  have hparse := parse_dataOf (readsData_tagMsg hd [1]) (s := emptyRedis) (t := d.deviceType) rfl
  have hobject : objectOf Poco.json cfg d.deviceType [tagMsg 1] =
      Object.reparse (collectDataPoint (tagObject 1)) := by
    rw [objectOf, latest, latest, accepted_tagMsg hd]
    simp
  rw [List.map_cons, List.map_nil, hobject] at hparse
  exact hparse

/-- The tags of the only device of its type are reported. -/
theorem dataPointProcessor_reported_iff_oneDevice :
    Reported Poco.json oneDevice.collector [tagMsg 1] emptyRedis
      ((dataPointProcessor Poco.json oneDevice "2021-04-08").exec
        (run (listen Poco.json oneDevice.collector) emptyRedis [tagMsg 1])).2 := by
  have hfind : oneDevice.collector.findBySubId "s1" =
      some ⟨"power_meter", "s1", "MODBUS", 10, []⟩ := rfl
  apply (dataPointProcessor_reported_iff Poco.json oneDevice "2021-04-08" emptyRedis [tagMsg 1]
    (by decide) (by decide) (fun _ _ ↦ rfl) (readsData_tagMsg hfind [1]) ?_).mpr
  · intro d hd jmsg _
    rw [List.mem_singleton.mp hd]
    left
    rw [SoleOfType]
    decide
  · intro report s' h
    have hparse := parse_dataOf_tagMsg hfind
    generalize run (listen Poco.json oneDevice.collector) emptyRedis [tagMsg 1] = s at h hparse
    rw [oneDevice, exec_dataPoints_cons hparse] at h
    cases h
    apply Poco.json_readsBackValue
    simp [header, tagObject, collectDataPoint, copyTags, JGET_ARR, Object.has, Object.getArray,
      ArrayPtr.vals, Object.set, Object.reparse, reparseFields, Var.reparse, reparseVals,
      Var.Regular, RegularVals, RegularFields]

/-- The tags of the first of two devices of one type are not. -/
theorem not_reported_twoDevices :
    ¬ Reported Poco.json twoDevices.collector [tagMsg 1] emptyRedis
      ((dataPointProcessor Poco.json twoDevices "2021-04-08").exec
        (run (listen Poco.json twoDevices.collector) emptyRedis [tagMsg 1])).2 := by
  have hfind : twoDevices.collector.findBySubId "s1" =
      some ⟨"power_meter", "s1", "MODBUS", 10, []⟩ := rfl
  have hP := readsData_tagMsg hfind [1]
  have hlatest : latest Poco.json twoDevices.collector (·.subID = "s1") [tagMsg 1] =
      some (tagObject 1) := by
    rw [latest, latest, accepted_tagMsg hfind]
    rfl
  have hparse := parse_dataOf_tagMsg hfind
  have hlists := lists_run_listen Poco.json twoDevices.collector [tagMsg 1] emptyRedis
  generalize run (listen Poco.json twoDevices.collector) emptyRedis [tagMsg 1] = s at *
  -- the second device finds the key clear and replaces what the first has read
  have hexec : (dataPoints Poco.json (header twoDevices "2021-04-08")
      twoDevices.collector.devices).exec s = (.ok (Object.set (Object.set
        (header twoDevices "2021-04-08") "power_meter" (.object .ptr (Object.reparse
          (collectDataPoint (tagObject 1))))) "power_meter" (.object .ptr emptyDataObject)),
        taken (taken s "power_meter") "power_meter") := by
    have hclear : Poco.json.parse (dataOf (taken s "power_meter") "power_meter") =
        .ok (.object .ptr emptyDataObject) := by
      rw [dataOf_taken_self]
      exact hP.empty
    rw [twoDevices, exec_dataPoints_cons hparse, exec_dataPoints_cons hclear]
    rfl
  have hback : Poco.json.ReadsBackValue (Object.set (Object.set (header twoDevices "2021-04-08")
      "power_meter" (.object .ptr (Object.reparse (collectDataPoint (tagObject 1)))))
      "power_meter" (.object .ptr emptyDataObject)) := by
    apply Poco.json_readsBackValue
    simp [header, emptyDataObject, Object.set, Var.Regular, RegularVals, RegularFields]
  rintro ⟨text, report, hqueue, htext, hall⟩
  rw [exec_dataPointProcessor (by decide) hexec, Store.lists_set, Store.lists_push_self] at hqueue
  rw [Poco.ReadsBackValue, (List.cons.inj hqueue).1, htext] at hback
  cases hback
  have htags := hall ⟨"power_meter", "s1", "MODBUS", 10, []⟩ (List.mem_cons_self ..) _ hlatest
    "good_tags" (by decide)
  exact absurd (congrArg List.length htags) (by decide)

/-! ### A tick without a report -/

/-- A tick that pushes no report leaves the keys of all types as they were. -/
def KeepsData (P : Poco) (cfg : BridgeConfig) (timeStamp : COMStr) (s : Redis) : Prop :=
  ((dataPointProcessor P cfg timeStamp).exec s).2.lists m2cDataQueue = s.lists m2cDataQueue →
    ∀ t, ((dataPointProcessor P cfg timeStamp).exec s).2.vals (collectorKey t) =
      s.vals (collectorKey t)

/-- The text found for a type is that of an object. -/
def Decodes (P : Poco) (s : Redis) (t : COMStr) : Prop :=
  ∃ o, P.parse (dataOf s t) = .ok (.object .ptr o)

/-- Text that is not that of an object stops the program that parses it. -/
private theorem exec_parse_stop {P : Poco} {data : COMStr}
    (h : ¬ ∃ o, P.parse data = .ok (.object .ptr o)) (k : Object → RedisProg Object) (s : Redis) :
    ∃ x, (do
      let result ← Prog.ofExcept (P.parse data)
      let jData ← Prog.ofExcept result.extractObject
      k jData : RedisProg Object).exec s = (.error x, s) := by
  cases hparse : P.parse data with
  | error x => exact ⟨x, rfl⟩
  | ok v =>
    cases hextract : v.extractObject with
    | error x =>
      refine ⟨x, ?_⟩
      rw [Prog.exec_bind, Prog.ofExcept, Prog.exec]
      simp only [hextract]
      rfl
    | ok o => exact absurd ⟨o, hparse.trans (congrArg _ (Var.eq_of_extractObject hextract))⟩ h

/-- The loop stops at a device whose data are not those of an object, after it has cleared them. -/
private theorem exec_dataPoints_stop {P : Poco} {s : Redis} {dev : DeviceConfig}
    (h : ¬ Decodes P s dev.deviceType) (dataPoint : Object) (rest : List DeviceConfig) :
    ∃ x, (dataPoints P dataPoint (dev :: rest)).exec s = (.error x, taken s dev.deviceType) := by
  rw [dataPoints, Prog.exec]
  rw [Decodes, dataOf] at h
  rw [taken]
  split
  · next he =>
    rw [if_pos he] at h
    exact exec_parse_stop h _ s
  · next he =>
    rw [if_neg he] at h
    exact exec_parse_stop h _ _

/-- A loop that stops has cleared a key: the data it could not decode, if no others. -/
private theorem exec_dataPoints_error {P : Poco}
    (hempty : ∃ o, P.parse emptyData = .ok (.object .ptr o)) (devices : List DeviceConfig) :
    ∀ dataPoint s, ¬ (∀ d ∈ devices, Decodes P s d.deviceType) →
      ∃ x s', (dataPoints P dataPoint devices).exec s = (.error x, s') ∧ s'.lists = s.lists ∧
        ∃ t, s.vals (collectorKey t) ≠ "" ∧ s'.vals (collectorKey t) = "" := by
  induction devices with
  | nil =>
    intro dataPoint s h
    exact absurd (fun d hd ↦ absurd hd List.not_mem_nil) h
  | cons d rest ih =>
    intro dataPoint s h
    by_cases hd : Decodes P s d.deviceType
    · obtain ⟨o, ho⟩ := hd
      have hrest : ¬ ∀ d' ∈ rest, Decodes P (taken s d.deviceType) d'.deviceType := by
        intro hall
        apply h
        intro d' hd'
        by_cases he : d'.deviceType = d.deviceType
        · rw [he]
          exact ⟨o, ho⟩
        · rcases List.mem_cons.mp hd' with rfl | hd'
          · exact absurd rfl he
          · have hdecodes := hall d' hd'
            rw [Decodes, dataOf_taken_of_ne s he] at hdecodes
            exact hdecodes
      obtain ⟨x, s', hexec, hlists, t, hne, hclear⟩ :=
        ih (Object.set dataPoint d.deviceType (.object .ptr o)) _ hrest
      have ht : t ≠ d.deviceType := by
        rintro rfl
        exact hne (vals_taken_self s _)
      rw [vals_taken_of_ne s ht] at hne
      exact ⟨x, s', (exec_dataPoints_cons ho dataPoint rest).trans hexec,
        hlists.trans (lists_taken s _), t, hne, hclear⟩
    · obtain ⟨x, hexec⟩ := exec_dataPoints_stop hd dataPoint rest
      refine ⟨x, _, hexec, lists_taken s _, d.deviceType, ?_, vals_taken_self s _⟩
      intro he
      rw [Decodes, dataOf, if_pos he] at hd
      exact hd hempty

/-- Reading clear keys changes nothing. -/
private theorem exec_dataPoints_clear {P : Poco} (devices : List DeviceConfig) :
    ∀ dataPoint s, (∀ d ∈ devices, s.vals (collectorKey d.deviceType) = "") →
      ((dataPoints P dataPoint devices).exec s).2 = s := by
  induction devices with
  | nil => exact fun _ _ _ ↦ rfl
  | cons d rest ih =>
    intro dataPoint s h
    have hd := h d (List.mem_cons_self ..)
    have htaken : taken s d.deviceType = s := if_pos hd
    by_cases hdecodes : Decodes P s d.deviceType
    · obtain ⟨o, ho⟩ := hdecodes
      rw [exec_dataPoints_cons ho, htaken]
      exact ih _ s fun d' hd' ↦ h d' (List.mem_cons_of_mem _ hd')
    · obtain ⟨x, hexec⟩ := exec_dataPoints_stop hdecodes dataPoint rest
      rw [hexec, htaken]

/-- A tick without a report loses no data exactly if there are none, or the device is registered and
all data can be decoded, so that a report is pushed: the keys are cleared before either is known. -/
theorem keepsData_iff (P : Poco) (hempty : P.parse emptyData = .ok (.object .ptr emptyDataObject))
    (cfg : BridgeConfig) (timeStamp : COMStr) (s : Redis) :
    KeepsData P cfg timeStamp s ↔
      (∀ d ∈ cfg.collector.devices, s.vals (collectorKey d.deviceType) = "") ∨
        cfg.devID ≠ "" ∧ ∀ d ∈ cfg.collector.devices, Decodes P s d.deviceType := by
  constructor
  · intro h
    by_cases hall : ∀ d ∈ cfg.collector.devices, Decodes P s d.deviceType
    · obtain ⟨report, s', hexec, hlists, hclear, -⟩ :=
        exec_dataPoints hempty cfg.collector.devices (header cfg timeStamp) s hall
      by_cases hdev : cfg.devID = ""
      · left
        intro d hd
        have htick : (dataPointProcessor P cfg timeStamp).exec s = (.ok (), s') := by
          rw [dataPointProcessor, Prog.exec_bind, hexec]
          simp only [pushReport, if_pos hdev]
          rfl
        rw [KeepsData, htick] at h
        rw [← h (congrFun hlists _) d.deviceType]
        exact hclear d hd
      · exact .inr ⟨hdev, hall⟩
    · obtain ⟨x, s', hexec, hlists, t, hne, hclear⟩ :=
        exec_dataPoints_error ⟨_, hempty⟩ cfg.collector.devices (header cfg timeStamp) s hall
      have htick : (dataPointProcessor P cfg timeStamp).exec s = (.error x, s') := by
        rw [dataPointProcessor, Prog.exec_bind, hexec]
      rw [KeepsData, htick] at h
      exact absurd ((h (congrFun hlists _) t).symm.trans hclear) hne
  · rintro (hclear | ⟨hdev, hall⟩)
    · intro hqueue t
      have hstore := exec_dataPoints_clear (P := P) cfg.collector.devices (header cfg timeStamp) s
        hclear
      rcases hexec : (dataPoints P (header cfg timeStamp) cfg.collector.devices).exec s with ⟨r, s'⟩
      rw [hexec] at hstore
      cases hstore
      cases r with
      | error x =>
        rw [dataPointProcessor, Prog.exec_bind, hexec]
      | ok report =>
        by_cases hdev : cfg.devID = ""
        · rw [dataPointProcessor, Prog.exec_bind, hexec]
          simp only [pushReport, if_pos hdev]
          rfl
        · rw [exec_dataPointProcessor hdev hexec,
            Store.vals_set_of_ne _ _ (collectorKey_ne_liveDataKey _), Store.vals_push]
    · intro hqueue
      obtain ⟨report, s', hexec, hlists, -⟩ :=
        exec_dataPoints hempty cfg.collector.devices (header cfg timeStamp) s hall
      rw [exec_dataPointProcessor hdev hexec, Store.lists_set, Store.lists_push_self,
        hlists] at hqueue
      exact absurd hqueue (List.cons_ne_self _ _)

/-- The gateway of one device loses nothing while it is registered. -/
theorem keepsData_iff_oneDevice :
    KeepsData Poco.json oneDevice "2021-04-08"
      (run (listen Poco.json oneDevice.collector) emptyRedis [tagMsg 1]) := by
  have hfind : oneDevice.collector.findBySubId "s1" =
      some ⟨"power_meter", "s1", "MODBUS", 10, []⟩ := rfl
  apply (keepsData_iff Poco.json (readsData_tagMsg hfind [1]).empty oneDevice "2021-04-08" _).mpr
  right
  refine ⟨by decide, ?_⟩
  intro d hd
  rw [List.mem_singleton.mp hd]
  exact ⟨_, parse_dataOf_tagMsg hfind⟩

/-- The gateway of one device before it is registered. -/
def unregistered : BridgeConfig := { oneDevice with devID := "" }

/-- It clears the data of the device and pushes no report. -/
theorem not_keepsData_unregistered :
    ¬ KeepsData Poco.json unregistered "2021-04-08"
      (run (listen Poco.json oneDevice.collector) emptyRedis [tagMsg 1]) := by
  have hfind : oneDevice.collector.findBySubId "s1" =
      some ⟨"power_meter", "s1", "MODBUS", 10, []⟩ := rfl
  have hparse := parse_dataOf_tagMsg hfind
  have hne : (run (listen Poco.json oneDevice.collector) emptyRedis [tagMsg 1]).vals
      (collectorKey "power_meter") ≠ "" := by
    intro he
    rw [dataOf, if_pos he, (readsData_tagMsg hfind [1]).empty, Except.ok.injEq,
      Var.object.injEq] at hparse
    have htags := congrArg (fun o ↦ (tags o "good_tags").length) hparse.2
    revert htags
    decide
  generalize run (listen Poco.json oneDevice.collector) emptyRedis [tagMsg 1] = s at hparse hne ⊢
  have htick : (dataPointProcessor Poco.json unregistered "2021-04-08").exec s =
      (.ok (), taken s "power_meter") := by
    rw [dataPointProcessor, Prog.exec_bind]
    have hdevices : unregistered.collector.devices =
      [⟨"power_meter", "s1", "MODBUS", 10, []⟩] := rfl
    rw [hdevices, exec_dataPoints_cons hparse]
    rfl
  intro h
  rw [KeepsData, htick] at h
  have hkept := h (congrFun (lists_taken s _) _) "power_meter"
  rw [vals_taken_self] at hkept
  exact hne hkept.symm

end IcsGateway.Bridge
