import IcsGateway.Base.Json
import IcsGateway.Common.WatchDogMessage
import IcsGateway.Manager.RelayControl

/-!
# A status that cannot be read

`FromJson` changes the section entry by entry in the pass that throws at the first value that is
no entry, and the handler of `StatusInd` catches the exception and goes on
(`Common/ComUtil.cpp:680`, `Manager/ManagerDownlinkHandler.cpp:116–135`). The section is as it
was before exactly when the entries read up to there say nothing new (`Harmless`).
-/

namespace IcsGateway

open Lib

namespace TimedSection

/-! ### What is to hold -/

/-- `FromJson` leaves the section as it was when it throws. -/
def KeepsSection (P : Poco) (text : COMStr) (s : TimedSection) : Prop :=
  ∀ now memory e s', (fromJson P now memory text).exec s = (.error e, s') →
    s'.info = s.info ∧ SameEntries s' s

/-- So does the handler, for the section of the MQTT client. -/
def KeepsStatus (P : Poco) (text : COMStr) (s : WatchDogSection) : Prop :=
  ∀ (st : ManagerState) utc memory e, st.m2cMQTT = s →
    ((WatchDogSection.fromJson P memory text).exec s).1 = .error e →
    let st' := ((ManagerDownlinkHandler.processMGRDownlinkMsg P utc memory
      ⟨"StatusInd", text⟩).exec st).2
    st'.m2cMQTT.info = s.info ∧ ∀ key, st'.m2cMQTT.entries.lookup key = s.entries.lookup key

/-- Where the reading stops at a value that is no entry, what it leaves is the section with the text
of the message and the entries before that value, one after another; the handler keeps it. -/
def KeepsBefore (P : Poco) (text : COMStr) (s : TimedSection) : Prop :=
  ∀ pobj before key after, P.parse text = .ok (.object .ptr pobj) →
    entryKeys pobj = before ++ key :: after →
    (∀ k ∈ before, (Object.get pobj k).getObject.isSome = true) →
    (Object.get pobj key).getObject = none →
    ∀ now memory,
      let left := (before.foldl (Loop.step (own P pobj) now) (start P pobj memory s)).sec
      (fromJson P now memory text).exec s = (.error .nullPointer, left) ∧
        ∀ (st : ManagerState) utc, st.m2cMQTT = s.erase → st.regInfo.protocol = "MQTT" →
          ((ManagerDownlinkHandler.processMGRDownlinkMsg P utc memory
            ⟨"StatusInd", text⟩).exec st).2.m2cMQTT = left.erase

/-- Entries that say nothing new: each is known by its name, and its state and its text are given
or carried along as they were. -/
structure Idle (own : COMStr → Given) (s : TimedSection) (keys : List COMStr) : Prop where
  known : ∀ key ∈ keys, (s.entries.lookup key).isSome = true
  name : ∀ key ∈ keys, (own key).name.getD (s.previous key).name = (s.previous key).name
  state : ∀ before key after, keys = before ++ key :: after →
    carried (fun k ↦ (own k).state) (before ++ [key]) = some (s.previous key).state
  info : ∀ before key after, keys = before ++ key :: after →
    (carried (fun k ↦ (own k).info) (before ++ [key])).getD "" = (s.previous key).info

/-- A text that says nothing new before the first value that is no entry, if there is one. -/
def Harmless (P : Poco) (text : COMStr) (s : TimedSection) : Prop :=
  ∀ pobj before key after, P.parse text = .ok (.object .ptr pobj) →
    entryKeys pobj = before ++ key :: after →
    (∀ k ∈ before, (Object.get pobj k).getObject.isSome = true) →
    (Object.get pobj key).getObject = none →
    (P.convertStr (Object.get pobj "Info")).toOption.getD s.info = s.info ∧
      Idle (own P pobj) s before

/-! ### Entries that say nothing new -/

section Idle

variable {own : COMStr → Given} {now : COMStr → Times}

/-- They change nothing. -/
theorem Idle.sameEntries_foldl {c : Loop} {keys : List COMStr} (h : Idle own c.sec keys)
    (hnodup : keys.Nodup) (hinfo : c.info = "") :
    SameEntries (keys.foldl (Loop.step own now) c).sec c.sec := by
  have hfits : Fits own c.sec keys := by
    intro key hkey hnone
    have hsome := h.known key hkey
    rw [hnone] at hsome
    cases hsome
  intro key
  by_cases hkey : key ∈ keys
  · obtain ⟨p, hp⟩ := Option.isSome_iff_exists.mp (h.known key hkey)
    have hprevious : c.sec.previous key = p.toWatchDogParam_T := by
      rw [previous, hp]
      rfl
    have hname := h.name key hkey
    obtain ⟨before, after, rfl⟩ := List.append_of_mem hkey
    rw [hfits.lookup_of_mem hnodup, h.state before key after rfl, hinfo,
      h.info before key after rfl, hprevious, hp]
    rw [hprevious] at hname
    exact congrArg some (written_self _ hname)
  · exact hfits.lookup_of_notMem hnodup hkey

/-- Entries read at a time the section has not seen leave that time wherever they write. -/
def Marked (time : Int) (s : TimedSection) (key : COMStr) : Prop :=
  ∃ p, s.entries.lookup key = some p ∧ p.changeTime = time

/-- What is written over an entry of that time, or as a new one, has it. -/
private theorem changeTime_written {time : Int} (g : Given) {old : Option TimedParam}
    (hold : ∀ p, old = some p → p.changeTime = time) (state : Bool) (info : COMStr) :
    (written g ⟨time, time, time⟩ old state info).changeTime = time := by
  rw [written, TimedParam.change]
  split
  · cases old with
    | some p => exact hold p rfl
    | none => rfl
  · rfl

/-- A pass writes the time under its key or leaves what is there. -/
private theorem Marked.step {time : Int} {c : Loop} {k : COMStr} (h : Marked time c.sec k)
    (key : COMStr) : Marked time (c.step own (fun _ ↦ ⟨time, time, time⟩) key).sec k := by
  obtain ⟨p, hp, htime⟩ := h
  rw [Marked, lookup_step]
  split
  · next hk =>
    refine ⟨_, rfl, changeTime_written _ ?_ _ _⟩
    intro q hq
    -- an entry that was there is written under its key
    have htarget : target (own key) c.sec key = key := by
      rw [target, hq]
      rfl
    rw [htarget] at hk
    subst hk
    cases hp.symm.trans hq
    exact htime
  · exact ⟨p, hp, htime⟩

/-- The passes after it keep the time. -/
private theorem Marked.foldl {time : Int} {c : Loop} {k : COMStr} (h : Marked time c.sec k)
    (keys : List COMStr) :
    Marked time (keys.foldl (Loop.step own fun _ ↦ ⟨time, time, time⟩) c).sec k := by
  induction keys generalizing c with
  | nil => exact h
  | cons key keys ih => exact ih (h.step key)

/-- A pass for a new entry leaves its time somewhere. -/
private theorem exists_marked {time : Int} {c : Loop} {key : COMStr}
    (h : c.sec.entries.lookup key = none) :
    ∃ k, Marked time (c.step own (fun _ ↦ ⟨time, time, time⟩) key).sec k := by
  refine ⟨target (own key) c.sec key, ?_⟩
  rw [Marked, lookup_step, if_pos rfl]
  refine ⟨_, rfl, changeTime_written _ ?_ _ _⟩
  intro p hp
  rw [h] at hp
  cases hp

/-- When the time is nowhere at the end, every entry was known. -/
private theorem known_of_not_marked {time : Int} {c : Loop} {keys : List COMStr}
    (hnodup : keys.Nodup)
    (h : ∀ k, ¬ Marked time (keys.foldl (Loop.step own fun _ ↦ ⟨time, time, time⟩) c).sec k) :
    ∀ key ∈ keys, (c.sec.entries.lookup key).isSome = true := by
  induction keys generalizing c with
  | nil => exact fun k hk ↦ absurd hk List.not_mem_nil
  | cons key keys ih =>
    obtain ⟨hnot, hnodup⟩ := List.nodup_cons.mp hnodup
    have hkey : c.sec.entries.lookup key ≠ none := by
      intro hnone
      obtain ⟨k, hk⟩ : ∃ k, Marked time (c.step own (fun _ ↦ ⟨time, time, time⟩) key).sec k :=
        exists_marked hnone
      exact h k (hk.foldl keys)
    intro k hk
    rcases List.mem_cons.mp hk with rfl | hk
    · exact Option.isSome_iff_ne_none.mpr hkey
    · have hrest := ih hnodup h k hk
      have hne : k ≠ key := fun he ↦ hnot (he ▸ hk)
      rw [lookup_step, target_eq fun hnone ↦ absurd hnone hkey, if_neg hne] at hrest
      exact hrest

/-- There is a time the section has not seen. -/
private theorem exists_time (s : TimedSection) : ∃ time, ∀ key, ¬ Marked time s key := by
  have hbound : ∃ time : Int, ∀ p ∈ s.entries, p.2.changeTime < time := by
    induction s.entries with
    | nil => exact ⟨0, fun p hp ↦ absurd hp List.not_mem_nil⟩
    | cons q entries ih =>
      obtain ⟨time, htime⟩ := ih
      refine ⟨max time (q.2.changeTime + 1), ?_⟩
      intro p hp
      rcases List.mem_cons.mp hp with rfl | hp
      · omega
      · have hlt := htime p hp
        omega
  obtain ⟨time, htime⟩ := hbound
  refine ⟨time, ?_⟩
  rintro key ⟨p, hp, he⟩
  obtain ⟨l, l', hl, -⟩ := List.lookup_eq_some_iff.mp hp
  have hlt := htime (key, p) (by rw [hl]; simp)
  simp only at hlt
  omega

/-- Entries that change nothing, whatever time it is and wherever the state starts, say nothing
new. -/
theorem idle_of_sameEntries {s : TimedSection} {keys : List COMStr} (hnodup : keys.Nodup)
    (h : ∀ now memory, SameEntries (keys.foldl (Loop.step own now) ⟨memory, "", s⟩).sec s) :
    Idle own s keys := by
  obtain ⟨time, htime⟩ := exists_time s
  have hnot : ∀ k, ¬ Marked time
      (keys.foldl (Loop.step own fun _ ↦ ⟨time, time, time⟩) ⟨true, "", s⟩).sec k := by
    rintro k ⟨p, hp, he⟩
    rw [h] at hp
    exact htime k ⟨p, hp, he⟩
  have hknown : ∀ key ∈ keys, (s.entries.lookup key).isSome = true :=
    known_of_not_marked hnodup hnot
  have hfits : Fits own s keys := by
    intro key hkey hnone
    have hsome := hknown key hkey
    rw [hnone] at hsome
    cases hsome
  -- what is written is what was there
  have hwritten : ∀ memory {before after : List COMStr} {key : COMStr},
      keys = before ++ key :: after →
      (own key).name.getD (s.previous key).name = (s.previous key).name ∧
        (carried (fun k ↦ (own k).state) (before ++ [key])).getD memory =
          (s.previous key).state ∧
        (carried (fun k ↦ (own k).info) (before ++ [key])).getD "" = (s.previous key).info := by
    intro memory before after key hsplit
    subst hsplit
    have hkey : key ∈ before ++ key :: after := List.mem_append_right _ List.mem_cons_self
    obtain ⟨p, hp⟩ := Option.isSome_iff_exists.mp (hknown key hkey)
    have hstart : Fits own (Loop.mk memory "" s).sec (before ++ key :: after) := hfits
    have hsame := (hstart.lookup_of_mem hnodup).symm.trans
      (h (fun _ ↦ ⟨time, time, time⟩) memory key)
    simp only [hp, Option.some.injEq] at hsame
    have hname := congrArg (·.name) hsame
    have hstate := congrArg (·.state) hsame
    have hinfo := congrArg (·.info) hsame
    simp only [written, TimedParam.change_name, TimedParam.change_state, TimedParam.change_info,
      Option.getD_some] at hname hstate hinfo
    rw [previous, hp]
    exact ⟨hname, hstate, hinfo⟩
  refine ⟨hknown, ?_, ?_, ?_⟩
  · intro key hkey
    obtain ⟨before, after, hsplit⟩ := List.append_of_mem hkey
    exact (hwritten true hsplit).1
  · intro before key after hsplit
    exact eq_some_of_forall_getD fun memory ↦ (hwritten memory hsplit).2.1
  · intro before key after hsplit
    exact (hwritten true hsplit).2.2

end Idle

/-! ### Texts that stop the reading -/

section Text

variable {P : Poco} {text : COMStr} {s : TimedSection}

/-- A message with a value that is no entry has a first one. -/
private theorem exists_first_none {pobj : Object}
    (h : ¬ ∀ key ∈ entryKeys pobj, (Object.get pobj key).getObject.isSome = true) :
    ∃ before key after, entryKeys pobj = before ++ key :: after ∧
      (∀ k ∈ before, (Object.get pobj k).getObject.isSome = true) ∧
      (Object.get pobj key).getObject = none := by
  cases hfind : (entryKeys pobj).find? fun key ↦ (Object.get pobj key).getObject.isNone with
  | none =>
    rw [List.find?_eq_none] at hfind
    refine absurd ?_ h
    intro key hkey
    have hsome := hfind key hkey
    rw [Option.isNone_iff_eq_none] at hsome
    exact Option.isSome_iff_ne_none.mpr hsome
  | some key =>
    obtain ⟨hnone, before, after, hsplit, hbefore⟩ := List.find?_eq_some_iff_append.mp hfind
    refine ⟨before, key, after, hsplit, ?_, Option.isNone_iff_eq_none.mp hnone⟩
    intro k hk
    simpa using hbefore k hk

/-- When the reading stops, either nothing has been done, or the entries before the first value
that is no entry have been read. -/
private theorem of_exec_error {now : COMStr → Times} {memory : Bool} {e : Exn}
    {s' : TimedSection} (h : (fromJson P now memory text).exec s = (.error e, s')) :
    s' = s ∨ ∃ pobj before key after, P.parse text = .ok (.object .ptr pobj) ∧
      entryKeys pobj = before ++ key :: after ∧
      (∀ k ∈ before, (Object.get pobj k).getObject.isSome = true) ∧
      (Object.get pobj key).getObject = none ∧
      s' = (before.foldl (Loop.step (own P pobj) now) (start P pobj memory s)).sec := by
  cases hparse : P.parse text with
  | error e' =>
    rw [fromJson] at h
    simp only [hparse, Eff.exec_ofExcept_bind] at h
    cases h
    exact .inl rfl
  | ok result =>
    cases hobject : result.extractObject with
    | error e' =>
      rw [fromJson] at h
      simp only [hparse, hobject, Eff.exec_ofExcept_bind] at h
      cases h
      exact .inl rfl
    | ok pobj =>
      cases Var.eq_of_extractObject hobject
      by_cases hall : ∀ key ∈ entryKeys pobj, (Object.get pobj key).getObject.isSome = true
      · rw [exec_fromJson_of_forall P now hparse hall] at h
        cases h
      · obtain ⟨before, key, after, hsplit, hbefore, hnone⟩ := exists_first_none hall
        rw [exec_fromJson_of_none P now hparse hsplit hbefore hnone] at h
        cases h
        exact .inr ⟨pobj, before, key, after, rfl, hsplit, hbefore, hnone, rfl⟩

/-- The keys before one are distinct. -/
private theorem nodup_before {pobj : Object} (hkeys : (pobj.map (·.1)).Nodup)
    {before after : List COMStr} {key : COMStr} (hsplit : entryKeys pobj = before ++ key :: after) :
    before.Nodup := by
  have hnodup := nodup_entryKeys hkeys
  rw [hsplit] at hnodup
  exact List.Nodup.of_append_left hnodup

/-- A text that says nothing new leaves the section as it was. -/
theorem Harmless.keepsSection (h : Harmless P text s)
    (hkeys : ∀ pobj, P.parse text = .ok (.object .ptr pobj) → (pobj.map (·.1)).Nodup) :
    KeepsSection P text s := by
  intro now memory e s' hexec
  rcases of_exec_error hexec with rfl | ⟨pobj, before, key, after, hparse, hsplit, hobj, hnone, rfl⟩
  · exact ⟨rfl, fun _ ↦ rfl⟩
  · obtain ⟨hinfo, hidle⟩ := h pobj before key after hparse hsplit hobj hnone
    have hstart : start P pobj memory s = ⟨memory, "", s⟩ := by
      rw [start, hinfo]
    have hidle' : Idle (own P pobj) (Loop.mk memory "" s).sec before := hidle
    rw [hstart]
    exact ⟨sec_info_foldl before _,
      hidle'.sameEntries_foldl (nodup_before (hkeys pobj hparse) hsplit) rfl⟩

/-- A text that leaves it so says nothing new. -/
theorem KeepsSection.harmless (h : KeepsSection P text s)
    (hkeys : ∀ pobj, P.parse text = .ok (.object .ptr pobj) → (pobj.map (·.1)).Nodup) :
    Harmless P text s := by
  intro pobj before key after hparse hsplit hobj hnone
  have hkeeps : ∀ now memory,
      (before.foldl (Loop.step (own P pobj) now) (start P pobj memory s)).sec.info = s.info ∧
        SameEntries (before.foldl (Loop.step (own P pobj) now) (start P pobj memory s)).sec s :=
    fun now memory ↦
      h now memory _ _ (exec_fromJson_of_none P now hparse hsplit hobj hnone memory s)
  have hinfo : (P.convertStr (Object.get pobj "Info")).toOption.getD s.info = s.info := by
    have hsec := (hkeeps (fun _ ↦ ⟨0, 0, 0⟩) true).1
    rw [sec_info_foldl] at hsec
    exact hsec
  refine ⟨hinfo, idle_of_sameEntries (nodup_before (hkeys pobj hparse) hsplit) ?_⟩
  intro now memory
  have hstart : start P pobj memory s = ⟨memory, "", s⟩ := by
    rw [start, hinfo]
  rw [← hstart]
  exact (hkeeps now memory).2

end Text

/-! ### The handler -/

/-- The handler keeps what `FromJson` leaves, however it ends. -/
theorem m2cMQTT_statusInd (P : Poco) (utc : ComUtil.Utc) (memory : Bool) (text : COMStr)
    (st : ManagerState) :
    ((ManagerDownlinkHandler.processMGRDownlinkMsg P utc memory
        ⟨"StatusInd", text⟩).exec st).2.m2cMQTT =
      if st.regInfo.protocol = "MQTT" then
        ((WatchDogSection.fromJson P memory text).exec st.m2cMQTT).2
      else st.m2cMQTT := by
  rw [ManagerDownlinkHandler.processMGRDownlinkMsg, Eff.exec_tryCatch,
    ManagerDownlinkHandler.processMGRDownlinkBody]
  simp only [ManagerDownlinkHandler.call, Eff.exec_ofExcept_bind]
  cases hparse : P.parse text with
  | error e =>
    rw [WatchDogSection.fromJson]
    simp only [Except.mapError, Eff.exec_pure, hparse, Eff.exec_ofExcept_bind, ite_self]
  | ok result =>
    cases hobject : result.extractObject with
    | error e =>
      rw [WatchDogSection.fromJson]
      simp only [Except.mapError, Eff.exec_pure, hparse, hobject, Eff.exec_ofExcept_bind, ite_self]
    | ok pobj =>
      have hno : ¬ "StatusInd" = "cloud_req" := by decide
      simp only [Except.mapError, hobject, if_neg hno, if_true]
      rw [Eff.exec_bind_of_ok (Eff.exec_get st)]
      by_cases hproto : st.regInfo.protocol = "MQTT"
      · rw [if_pos hproto, if_pos hproto]
        generalize (WatchDogSection.fromJson P memory text).exec st.m2cMQTT = outcome
        obtain ⟨r, s'⟩ := outcome
        rw [Eff.exec_bind_of_ok (Eff.exec_set st _)]
        cases r <;> rfl
      · rw [if_neg hproto, if_neg hproto]
        rfl

/-- What the section keeps, the handler keeps. -/
theorem KeepsSection.keepsStatus {P : Poco} {text : COMStr} {s : TimedSection}
    (h : KeepsSection P text s) : KeepsStatus P text s.erase := by
  intro st utc memory e hst herror
  have herase := exec_fromJson_erase P (fun _ ↦ ⟨0, 0, 0⟩) memory text s
  rw [herase] at herror
  obtain ⟨hinfo, hsame⟩ := h _ memory e _ (Prod.ext herror rfl)
  simp only [m2cMQTT_statusInd, hst, herase]
  split
  · refine ⟨hinfo, ?_⟩
    intro key
    rw [lookup_erase, lookup_erase, hsame key]
  · exact ⟨rfl, fun _ ↦ rfl⟩

/-- The entries before a value that is no entry are applied and kept, wherever it stands. -/
theorem keepsBefore (P : Poco) (text : COMStr) (s : TimedSection) : KeepsBefore P text s := by
  intro pobj before key after hparse hsplit hobj hnone now memory left
  have hexec : (fromJson P now memory text).exec s = (.error .nullPointer, left) :=
    exec_fromJson_of_none P now hparse hsplit hobj hnone memory s
  refine ⟨hexec, ?_⟩
  intro st utc hst hproto
  rw [m2cMQTT_statusInd, if_pos hproto, hst, exec_fromJson_erase P now memory text s, hexec]

/-- A status that throws leaves the section as it was, and so does the handler, exactly when its
text says nothing new before the first value that is no entry. The entries before that value are
applied and kept. -/
theorem keeps_iff {P : Poco} {text : COMStr}
    (hkeys : ∀ pobj, P.parse text = .ok (.object .ptr pobj) → (pobj.map (·.1)).Nodup)
    (s : TimedSection) :
    ((KeepsSection P text s ∧ KeepsStatus P text s.erase) ↔ Harmless P text s) ∧
      KeepsBefore P text s := by
  refine ⟨?_, keepsBefore P text s⟩
  constructor
  · rintro ⟨h, -⟩
    exact h.harmless hkeys
  · intro h
    exact ⟨h.keepsSection hkeys, (h.keepsSection hkeys).keepsStatus⟩

/-- A status with an entry and a value that is none. -/
def brokenMessage : Object :=
  [("Info", .str ""), ("Name", .str "MQTT"),
    ("b", .object .ptr [("Name", .str "b"), ("Info", .str ""), ("State", .bool false),
      ("ChangeTime", .int 0)]),
    ("c", .bool true)]

/-- Its text. -/
def brokenText : COMStr :=
  "\x7b\"Info\":\"\",\"Name\":\"MQTT\",\"b\":\x7b\"Name\":\"b\",\"Info\":\"\",\"State\":false," ++
    "\"ChangeTime\":0\x7d,\"c\":true\x7d"

private theorem parse_brokenText : Poco.json.parse brokenText = .ok (.object .ptr brokenMessage) :=
  Poco.json_parse (v := .object .ptr brokenMessage)
    (by simp [brokenMessage, Var.Regular, RegularFields]) (by decide +kernel)

private theorem entryKeys_brokenMessage : entryKeys brokenMessage = ["b", "c"] := by
  rw [entryKeys, List.mergeSort_of_pairwise (by decide)]
  decide

private theorem nodup_brokenText (pobj : Object)
    (h : Poco.json.parse brokenText = .ok (.object .ptr pobj)) : (pobj.map (·.1)).Nodup := by
  rw [parse_brokenText] at h
  cases h
  decide

/-- The entry before the value changes nothing where its component was off. -/
theorem keeps_brokenText : KeepsSection Poco.json brokenText (knownSection false) ∧
    KeepsStatus Poco.json brokenText (knownSection false).erase := by
  apply (keeps_iff nodup_brokenText _).1.mpr
  intro pobj before key after hparse hsplit hobj hnone
  rw [parse_brokenText] at hparse
  cases hparse
  rw [entryKeys_brokenMessage] at hsplit
  refine ⟨rfl, ?_⟩
  rcases before with _ | ⟨k, _ | ⟨k', before⟩⟩
  · cases hsplit
    cases hnone
  · cases hsplit
    refine ⟨by decide, by decide, ?_, ?_⟩
    · intro before' key' after' hsplit'
      rcases before' with _ | ⟨k', before'⟩
      · cases hsplit'
        rfl
      · simp at hsplit'
    · intro before' key' after' hsplit'
      rcases before' with _ | ⟨k', before'⟩
      · cases hsplit'
        rfl
      · simp at hsplit'
  · simp at hsplit

/-- Where it was on, it stays off after the exception. -/
theorem not_keeps_brokenText : ¬ KeepsSection Poco.json brokenText (knownSection true) ∧
    ¬ KeepsStatus Poco.json brokenText (knownSection true).erase := by
  have hbefore : ∀ k ∈ ["b"], (Object.get brokenMessage k).getObject.isSome = true := by decide
  have hnone : (Object.get brokenMessage "c").getObject = none := rfl
  constructor
  · intro h
    have hidle := (h.harmless nodup_brokenText brokenMessage ["b"] "c" [] parse_brokenText
      entryKeys_brokenMessage hbefore hnone).2
    have hstate := hidle.state [] "b" [] rfl
    revert hstate
    decide
  · intro h
    have hexec := exec_fromJson_of_none Poco.json (fun _ ↦ ⟨0, 0, 0⟩) parse_brokenText
      entryKeys_brokenMessage hbefore hnone true (knownSection true)
    have herase := exec_fromJson_erase Poco.json (fun _ ↦ ⟨0, 0, 0⟩) true brokenText
      (knownSection true)
    rw [hexec] at herase
    obtain ⟨st, hst, hproto⟩ : ∃ st : ManagerState,
        st.m2cMQTT = (knownSection true).erase ∧ st.regInfo.protocol = "MQTT" :=
      ⟨{ ManagerDownlinkHandler.twoRelays with m2cMQTT := (knownSection true).erase }, rfl, rfl⟩
    have hlookup := (h st ⟨2021, 4, 8, 2, 54, 56, 0⟩ true .nullPointer hst
      (congrArg Prod.fst herase)).2 "b"
    rw [m2cMQTT_statusInd, if_pos hproto, hst, herase] at hlookup
    revert hlookup
    decide

end TimedSection
end IcsGateway
