import Mathlib.Data.List.Nodup
import IcsGateway.Common.ConfigElements
import IcsGateway.Manager.RelayControl

/-!
# The relays over a run

The state of a relay exists three times: in the running configuration, on its pin and in the
persisted document. `Consistent` says that the three agree; it holds when the Manager has
started and is kept by every request, accepted or not.
-/

namespace IcsGateway.ManagerDownlinkHandler

open Lib

/-- A persisted text decodes to a relay list. -/
def Decodes (P : Poco) (memory : DefaultRelayState) (text : COMStr)
    (rs : List DefaultRelayState) : Prop :=
  ∃ cfg, loadDFRelayState P memory text = .ok cfg ∧ cfg.fields.dFRelay = rs

/-- The three copies of the relays' state agree: the pins have the states in memory, and the
persisted text is one that decodes to the list or that `Save` has printed for it. -/
structure Consistent (P : Poco) (s : ManagerState) : Prop where
  distinct : ((ManagerState.relays s).map (·.gpio)).Nodup
  levels : ∀ r ∈ ManagerState.relays s, s.pins r.gpio = r.state
  listed : Listed s
  persisted : (∀ memory, Decodes P memory (s.redis "DEFAULT_RELAY") (ManagerState.relays s)) ∨
    Saved P s

/-! ### One request -/

/-- What a request can do to the state: nothing, or the switch of `CloudSetAirCState`. -/
theorem processCloudReqest_state (P : Poco) (command : COMStr) (pInput : Object)
    (aOutput : List Var) (s : ManagerState) :
    ((processCloudReqest P command pInput aOutput).exec s).2 = s ∨
      ∃ index state, Switches P index state s
        ((processCloudReqest P command pInput aOutput).exec s).2 := by
  unfold processCloudReqest
  cases ComUtil.split command ';' with
  | nil => exact .inl rfl
  | cons cmd rest =>
    simp only
    split
    · exact .inl rfl
    · split
      · by_cases ha : ∃ vs, dataIn pInput = some vs ∧ Accepted P vs
        · obtain ⟨vs, hd, ha⟩ := ha
          obtain ⟨out, s', hexec, hsw⟩ := exec_cloudSetAirCState_of_accepted hd ha aOutput s
          rw [hexec]
          exact .inr ⟨_, _, hsw⟩
        · have hno : ∀ vs, dataIn pInput = some vs → ¬ Accepted P vs :=
            fun vs hd ha' ↦ ha ⟨vs, hd, ha'⟩
          obtain ⟨res, hexec, -⟩ := exec_cloudSetAirCState_of_not_accepted hno aOutput s
          rw [hexec]
          exact .inl rfl
      · split
        · left
          unfold cloudGetAlarmConfig call
          rw [Eff.exec_bind, Eff.exec_get]
          simp only [Eff.exec_bind, Eff.exec_ofExcept]
          cases P.parse (s.redis "COLLECTOR_CONFIG") with
          | error e => rfl
          | ok v =>
            simp only [Except.mapError]
            cases v.extractObject <;> rfl
        · exact .inl rfl

/-- With distinct pins, the pin of a relay that is not switched is not driven. -/
private theorem not_driven_of_not_switched {index state : Int32} {rs : List DefaultRelayState}
    (hd : (rs.map (·.gpio)).Nodup) {r : DefaultRelayState} (hr : r ∈ rs)
    (h : ¬ Switched index state r) : ¬ Driven index state rs r.gpio := by
  rintro ⟨r', hr', hsw, hp⟩
  have he := List.inj_on_of_nodup_map hd hr' hr hp
  rw [he] at hsw
  exact h hsw

/-- A switch keeps the three copies equal. -/
theorem Switches.consistent {P : Poco} {index state : Int32} {s s' : ManagerState}
    (h : Switches P index state s s') (hc : Consistent P s) : Consistent P s' := by
  by_cases hany : ∃ r ∈ ManagerState.relays s, Switched index state r
  · have hsaved := h.saved hc.listed hany
    refine ⟨?_, ?_, hsaved.listed, .inr hsaved⟩
    · have hmap : (ManagerState.relays s').map (·.gpio) =
          (ManagerState.relays s).map (·.gpio) := by
        rw [h.relays, List.map_map]
        apply List.map_congr_left
        intro r _
        exact gpio_relayAfter index state r
      rw [hmap]
      exact hc.distinct
    · intro r' hr'
      rw [h.relays] at hr'
      obtain ⟨r, hr, rfl⟩ := List.mem_map.mp hr'
      rw [gpio_relayAfter, h.pins]
      unfold pinAfter
      by_cases hsw : Switched index state r
      · have hd : Driven index state (ManagerState.relays s) r.gpio := ⟨r, hr, hsw, rfl⟩
        rw [if_pos hd, relayAfter_of_switched hsw]
      · rw [if_neg (not_driven_of_not_switched hc.distinct hr hsw), hc.levels r hr,
          relayAfter_of_not_switched hsw]
  · have hs : s' = s := h.same fun r hr hsw ↦ hany ⟨r, hr, hsw⟩
    rw [hs]
    exact hc

/-- The state after a request; an exception leaves it as it was. -/
def requestStep (P : Poco) (s : ManagerState) (request : COMStr × Object) : ManagerState :=
  ((processCloudReqest P request.1 request.2 []).exec s).2

/-- Every request keeps the three copies equal. -/
theorem requestStep_consistent (P : Poco) (s : ManagerState) (request : COMStr × Object)
    (h : Consistent P s) : Consistent P (requestStep P s request) := by
  unfold requestStep
  rcases processCloudReqest_state P request.1 request.2 [] s with hs | ⟨index, state, hsw⟩
  · rw [hs]
    exact h
  · exact hsw.consistent h

/-! ### Start -/

/-- A relay of a document with every field present. -/
def CompleteRelay (P : Poco) (v : Var) : Prop :=
  ∃ o g, v.getObject = some o ∧ given o (DefaultRelayState.reads P) = .ok g ∧ ∀ f, g f ≠ none

/-- The loop of `Initialize` drives the pin of every relay and touches nothing else. -/
theorem exec_driveRelays (rs : List DefaultRelayState) :
    ∀ s, ∃ pins, (driveRelays rs).exec s = (.ok (), { s with pins := pins }) ∧
      ((rs.map (·.gpio)).Nodup → ∀ r ∈ rs, pins r.gpio = r.state) ∧
      ∀ p, p ∉ rs.map (·.gpio) → pins p = s.pins p := by
  induction rs with
  | nil =>
    intro s
    exact ⟨s.pins, rfl, nofun, fun _ _ ↦ rfl⟩
  | cons r rs ih =>
    intro s
    obtain ⟨pins, hexec, hall, hother⟩ :=
      ih { s with pins := fun p ↦ if p = r.gpio then r.state else s.pins p }
    refine ⟨pins, ?_, ?_, ?_⟩
    · unfold driveRelays
      rw [Eff.exec_bind]
      exact hexec
    · intro hd r' hr'
      rw [List.map_cons, List.nodup_cons] at hd
      rcases List.mem_cons.mp hr' with rfl | hr'
      · rw [hother _ hd.1]
        exact if_pos rfl
      · exact hall hd.2 r' hr'
    · intro p hp
      rw [List.map_cons, List.mem_cons, not_or] at hp
      rw [hother p hp.2]
      exact if_neg hp.1

/-- What a text decodes to. -/
theorem decodes_of_parse {P : Poco} {text : COMStr} {doc : Object}
    (h : P.parse text = .ok (.object .ptr doc)) {vs : List Var}
    (hvs : Object.getArray doc "Relays" = some vs) {rs : List DefaultRelayState}
    {memory : DefaultRelayState}
    (hrs : (decodeList (pushRecord DefaultRelayState.layout (DefaultRelayState.reads P)) 0
      (declared DefaultRelayState.layout DefaultRelayState.initialisers memory) vs).out = rs) :
    Decodes P memory text rs := by
  have hl := list_load (DefaultRelayState_T.faithful P memory) .new doc
  have helems : listElements (DefaultRelayState_T.table P memory).reads
      (DefaultRelayState_T.table P memory).key doc = vs := by
    change (Object.getArray doc "Relays").getD [] = vs
    rw [hvs]
    rfl
  rw [helems] at hl
  refine ⟨((DefaultRelayState_T.load P memory).exec ⟨.new, some doc⟩).2, ?_, ?_⟩
  · unfold loadDFRelayState
    rw [h]
    rfl
  · rw [← hrs]
    exact hl

/-- What `Save` has printed decodes to the list, if the library reads it back. -/
theorem Saved.decodes {P : Poco} {s : ManagerState} (h : Saved P s)
    (hP : ∀ j ∈ s.dFRelayState.jConf, P.ReadsBack j) (memory : DefaultRelayState) :
    Decodes P memory (s.redis "DEFAULT_RELAY") (ManagerState.relays s) := by
  obtain ⟨j, hj, hg, hr⟩ := h
  have hback := hP j hj
  unfold Poco.ReadsBack at hback
  rw [← hr] at hback
  apply decodes_of_parse hback (Object.getArray_reparse hg)
  rw [List.map_map]
  exact decodeList_out_of_exact (DefaultRelayState_T.faithful P memory).exact _ 0 _

/-- `Initialize` on a document that can be parsed loads it and drives its relays. -/
private theorem exec_managerInitialize {P : Poco} (memory : DefaultRelayState) {s : ManagerState}
    {doc : Object} (hparse : P.parse (s.redis "DEFAULT_RELAY") = .ok (.object .ptr doc)) :
    (managerInitialize P memory).exec s =
      (driveRelays
        ((DefaultRelayState_T.load P memory).exec ⟨.new, some doc⟩).2.fields.dFRelay).exec
        { s with
          dFRelayState := ((DefaultRelayState_T.load P memory).exec ⟨.new, some doc⟩).2 } := by
  have hload : loadDFRelayState P memory (s.redis "DEFAULT_RELAY") =
      .ok ((DefaultRelayState_T.load P memory).exec ⟨.new, some doc⟩).2 := by
    unfold loadDFRelayState
    rw [hparse]
    rfl
  unfold managerInitialize call
  rw [Eff.exec_bind, Eff.exec_get]
  simp only [hload, Except.mapError, Eff.exec_bind, Eff.exec_ofExcept, Eff.exec_modify]

/-- After `Initialize` on a document whose relays have every field, the three copies agree. -/
theorem managerInitialize_consistent {P : Poco} {memory : DefaultRelayState} {s : ManagerState}
    {doc : Object} {vs : List Var}
    (hparse : P.parse (s.redis "DEFAULT_RELAY") = .ok (.object .ptr doc))
    (hvs : Object.getArray doc "Relays" = some vs) (hcomplete : ∀ v ∈ vs, CompleteRelay P v)
    (hdistinct : ((ManagerState.relays ((managerInitialize P memory).exec s).2).map
      (·.gpio)).Nodup) :
    Consistent P ((managerInitialize P memory).exec s).2 := by
  obtain ⟨j, hj, hk⟩ := ListConfig.load_kept (DefaultRelayState_T.table P memory) .new doc
  obtain ⟨pins, hexec, hall, -⟩ := exec_driveRelays
    ((DefaultRelayState_T.load P memory).exec ⟨.new, some doc⟩).2.fields.dFRelay
    { s with dFRelayState := ((DefaultRelayState_T.load P memory).exec ⟨.new, some doc⟩).2 }
  have hstate : ((managerInitialize P memory).exec s).2 =
      { s with
        dFRelayState := ((DefaultRelayState_T.load P memory).exec ⟨.new, some doc⟩).2
        pins := pins } := by
    rw [exec_managerInitialize memory hparse, hexec]
  rw [hstate] at hdistinct ⊢
  refine ⟨hdistinct, hall hdistinct, ⟨j, hj, hk.list (hvs ▸ Option.some_ne_none _)⟩, .inl ?_⟩
  intro m
  apply decodes_of_parse hparse hvs
  have hne : DefaultRelayState.reads P ≠ [] := by simp [DefaultRelayState.reads]
  have hreal := pushRecord_realises DefaultRelayState.layout hne
  have htotal : ∀ a ∈ readings (pushReading (DefaultRelayState.reads P)) 0 vs,
      ∀ f, a.2.given f ≠ none := by
    intro a ha
    obtain ⟨hmem, k, hk⟩ := reading_of_mem 0 ha
    obtain ⟨o, g, ho, hg, hf⟩ := hcomplete a.1 hmem
    unfold pushReading at hk
    rw [ho] at hk
    simp only [deref, bind, Except.bind, hg] at hk
    rw [← Except.ok.inj hk]
    exact hf
  have hl := list_load (DefaultRelayState_T.faithful P memory) .new doc
  have helems : listElements (DefaultRelayState_T.table P memory).reads
      (DefaultRelayState_T.table P memory).key doc = vs := by
    change (Object.getArray doc "Relays").getD [] = vs
    rw [hvs]
    rfl
  rw [helems] at hl
  rw [decodeList_out hreal, records_congr DefaultRelayState.layout htotal _
    (declared DefaultRelayState.layout DefaultRelayState.initialisers memory),
    ← decodeList_out hreal]
  exact hl.symm

/-! ### The run -/

/-- The state after a start and a sequence of requests. -/
def requestRun (P : Poco) (memory : DefaultRelayState) (s : ManagerState)
    (requests : List (COMStr × Object)) : ManagerState :=
  run (requestStep P) ((managerInitialize P memory).exec s).2 requests

/-- From a start on a document whose relays have every field and pins of their own, after any
requests, every pin has the state of its relay and the persisted document decodes to the
relays in memory (for a library that reads back the document `Save` has printed). -/
theorem requestRun_consistent (P : Poco) (memory : DefaultRelayState) (s : ManagerState)
    (doc : Object) (vs : List Var)
    (hparse : P.parse (s.redis "DEFAULT_RELAY") = .ok (.object .ptr doc))
    (hvs : Object.getArray doc "Relays" = some vs) (hcomplete : ∀ v ∈ vs, CompleteRelay P v)
    (hdistinct : ((ManagerState.relays ((managerInitialize P memory).exec s).2).map
      (·.gpio)).Nodup) (requests : List (COMStr × Object)) :
    (∀ r ∈ ManagerState.relays (requestRun P memory s requests),
        (requestRun P memory s requests).pins r.gpio = r.state) ∧
      ((∀ j ∈ (requestRun P memory s requests).dFRelayState.jConf, P.ReadsBack j) →
        ∀ memory', Decodes P memory' ((requestRun P memory s requests).redis "DEFAULT_RELAY")
          (ManagerState.relays (requestRun P memory s requests))) := by
  have hinit := managerInitialize_consistent hparse hvs hcomplete hdistinct
  have hrun : Consistent P (requestRun P memory s requests) :=
    run_invariant (requestStep_consistent P) requests hinit
  refine ⟨hrun.levels, ?_⟩
  intro hP memory'
  rcases hrun.persisted with h | h
  · exact h memory'
  · exact h.decodes hP memory'

/-- The element of a document for a relay. -/
def relayElement (held : Held) (index gpio state : Int) : Var :=
  .object held [("description", .str "Relay"), ("tag", .str "relay"), ("state", .int state),
    ("gpio", .int gpio), ("index", .int index)]

/-- The document of two relays, the first in a state. -/
def relayDocument (held : Held) (state : Int) : Object :=
  [("Relays", .array .ptr [relayElement held 1 23 state, relayElement held 2 24 0])]

/-- A Manager that is about to start on the document of two relays that are off. -/
def beforeStart : ManagerState :=
  { twoRelays with redis := fun _ ↦ Poco.json.stringify (.object .ptr (relayDocument .ptr 0)) }

/-- The Manager after a start, a rejected and an accepted request. -/
def afterTurnOn : ManagerState :=
  requestRun Poco.json ⟨"", "", 0, 0, 0⟩ beforeStart
    [("reset", []), ("set_air_conditional_status", [("data", .array .ptr [turnOn 1])])]

/-- The document is read back. -/
private theorem readsBack_relayDocument (held : Held) (state : Int) :
    Poco.json.parse (Poco.json.stringify (.object .ptr (relayDocument held state))) =
      .ok (.object .ptr (relayDocument .ptr state)) :=
  Poco.json_readsBack (by
    simp [relayDocument, relayElement, Var.Regular, RegularVals, RegularFields])

/-- Its pins and its text agree with its relays. -/
theorem requestRun_consistent_afterTurnOn :
    (∀ r ∈ ManagerState.relays afterTurnOn, afterTurnOn.pins r.gpio = r.state) ∧
      Decodes Poco.json ⟨"", "", 0, 0, 0⟩ (afterTurnOn.redis "DEFAULT_RELAY")
        (ManagerState.relays afterTurnOn) := by
  have htext : beforeStart.redis "DEFAULT_RELAY" =
      Poco.json.stringify (.object .ptr (relayDocument .ptr 0)) := rfl
  have hparse : Poco.json.parse (beforeStart.redis "DEFAULT_RELAY") =
      .ok (.object .ptr (relayDocument .ptr 0)) := by
    rw [htext]
    exact readsBack_relayDocument .ptr 0
  have hcomplete : ∀ v ∈ [relayElement .ptr 1 23 0, relayElement .ptr 2 24 0],
      CompleteRelay Poco.json v := by
    simp only [List.forall_mem_cons, List.not_mem_nil, false_implies, implies_true, and_true]
    refine ⟨⟨_, _, rfl, rfl, ?_⟩, ⟨_, _, rfl, rfl, ?_⟩⟩ <;>
      intro f <;> cases f <;> exact Option.some_ne_none _
  obtain ⟨hlevels, hdecodes⟩ := requestRun_consistent Poco.json ⟨"", "", 0, 0, 0⟩ beforeStart
    (relayDocument .ptr 0) [relayElement .ptr 1 23 0, relayElement .ptr 2 24 0] hparse rfl hcomplete
    (by decide +kernel)
    [("reset", []), ("set_air_conditional_status", [("data", .array .ptr [turnOn 1])])]
  have hsaved : afterTurnOn.dFRelayState.jConf = some (relayDocument .value 1) := by
    rw [afterTurnOn, requestRun, exec_managerInitialize _ hparse]
    rfl
  unfold afterTurnOn at hsaved ⊢
  refine ⟨hlevels, hdecodes ?_ _⟩
  intro j hj
  cases hsaved.symm.trans hj
  exact readsBack_relayDocument .value 1

end IcsGateway.ManagerDownlinkHandler
