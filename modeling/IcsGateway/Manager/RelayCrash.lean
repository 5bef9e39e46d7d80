import IcsGateway.Base.Json
import IcsGateway.Lib.CrashRuns
import IcsGateway.Manager.RelayRun

/-!
# The relays when the Manager ends and starts again

A request that switches relays is, for each of them, a change of the list in memory, the pin,
`Save` and the respawn, in this order (`Manager/ManagerDownlinkHandler.cpp:231–244`). The
Manager can end after any of these; it then starts from the persisted document
(`Manager/Manager.cpp:24,54–62`). The effects below are those of `relayLoop` and
`managerInitialize`, one by one.
-/

namespace IcsGateway.ManagerDownlinkHandler

open Lib

/-! ### The effects -/

/-- An effect of a request or of a start. -/
inductive RelayEffect where
  | setDFRelay (rs : List DefaultRelayState)
  | digitalWrite (pin value : Int32)
  | save
  | respawn (proto : COMStr)
  | load (cfg : ComConfig DefaultRelayState_T)

/-- The state after an effect. -/
def RelayEffect.perform (P : Poco) (s : ManagerState) : RelayEffect → ManagerState
  | .setDFRelay rs => ((ManagerDownlinkHandler.setDFRelay rs).exec s).2
  | .digitalWrite pin value => ((ManagerDownlinkHandler.digitalWrite pin value).exec s).2
  | .save => ((saveDFRelayState P).exec s).2
  | .respawn proto => ((ManagerDownlinkHandler.respawn proto).exec s).2
  | .load cfg => { s with dFRelayState := cfg }

/-- The index and the state `CloudSetAirCState` goes on with, if it gets to the loop over the
relays; `Manager/ManagerDownlinkHandler.cpp:200–229`. -/
def switching (P : Poco) (pInput : Object) : Option (Int32 × Int32) :=
  match (JGET_ARR pInput "data").1.vals with
  | none => none
  | some vs =>
    match readDataIn P (-1) (-1) vs with
    | .ok (some (index, state)) =>
      if state ≠ 1 ∧ state ≠ 0 then none
      else if index ≤ 0 ∨ index > 2 then none
      else some (index, state)
    | _ => none

/-- The index and the state a request switches, if it is one that does;
`Manager/ManagerDownlinkHandler.cpp:144–174`. -/
def commanded (P : Poco) (request : COMStr × Object) : Option (Int32 × Int32) :=
  match ComUtil.split request.1 ';' with
  | [] => none
  | cmd :: _ => if cmd = "set_air_conditional_status" then switching P request.2 else none

/-- The effects of a start; none is a document that cannot be loaded. -/
def startEffects (P : Poco) (memory : DefaultRelayState) (s : ManagerState) :
    Option (List RelayEffect) :=
  match loadDFRelayState P memory (s.redis "DEFAULT_RELAY") with
  | .error _ => none
  | .ok cfg => some (.load cfg :: cfg.fields.dFRelay.map fun r ↦ .digitalWrite r.gpio r.state)

/-- Driving the pins of the relays is its effects. -/
private theorem exec_driveRelays_eq_run (P : Poco) (rs : List DefaultRelayState) :
    ∀ s, (driveRelays rs).exec s = (.ok (), run (RelayEffect.perform P) s
      (rs.map fun r ↦ .digitalWrite r.gpio r.state)) := by
  induction rs with
  | nil => exact fun _ ↦ rfl
  | cons r rs ih =>
    intro s
    unfold driveRelays
    rw [Eff.exec_bind]
    exact ih _

/-- A start is its effects, or fails. -/
theorem exec_managerInitialize_eq_run (P : Poco) (memory : DefaultRelayState) (s : ManagerState) :
    match startEffects P memory s with
    | none => ∃ x, (managerInitialize P memory).exec s = (.error x, s)
    | some es =>
      (managerInitialize P memory).exec s = (.ok (), run (RelayEffect.perform P) s es) := by
  unfold startEffects managerInitialize call
  rw [Eff.exec_bind, Eff.exec_get]
  simp only [Eff.exec_bind, Eff.exec_ofExcept]
  cases loadDFRelayState P memory (s.redis "DEFAULT_RELAY") with
  | error x => exact ⟨_, rfl⟩
  | ok cfg => exact exec_driveRelays_eq_run P _ _

/-! ### The Manager as a process -/

/-- A regular document with a relay list, which decodes to the relays whatever the memory. -/
def Durable (P : Poco) (text : COMStr) (rs : List DefaultRelayState) : Prop :=
  ∃ doc vs, P.parse text = .ok (.object .ptr doc) ∧ Object.getArray doc "Relays" = some vs ∧
    (Var.object .ptr doc).Regular ∧
    ∀ memory, (decodeList (pushRecord DefaultRelayState.layout (DefaultRelayState.reads P)) 0
      (declared DefaultRelayState.layout DefaultRelayState.initialisers memory) vs).out = rs

/-- The running configuration has a regular document with a relay list. -/
def Documented (s : ManagerState) : Prop :=
  ∃ j vs, s.dFRelayState.jConf = some j ∧ Object.getArray j "Relays" = some vs ∧
    (Var.object .ptr j).Regular

variable {P : Poco} {s : ManagerState} {rs : List DefaultRelayState}

/-- A durable text decodes to its relays. -/
theorem Durable.decodes {text : COMStr} (h : Durable P text rs) (memory : DefaultRelayState) :
    Decodes P memory text rs := by
  obtain ⟨doc, vs, hparse, hvs, -, hout⟩ := h
  exact decodes_of_parse hparse hvs (hout memory)

/-- While the Manager runs: memory, pins and text agree on the relays. -/
structure RelaysUp (P : Poco) (rs : List DefaultRelayState) (s : ManagerState) : Prop where
  relays : ManagerState.relays s = rs
  distinct : (rs.map (·.gpio)).Nodup
  levels : ∀ r ∈ rs, s.pins r.gpio = r.state
  documented : Documented s
  durable : Durable P (s.redis "DEFAULT_RELAY") rs

/-- The three copies then agree in the sense of a run without ends. -/
theorem RelaysUp.consistent (h : RelaysUp P rs s) : Consistent P s := by
  obtain ⟨rfl, hdistinct, hlevels, hdoc, hdur⟩ := h
  refine ⟨hdistinct, hlevels, ?_, .inl hdur.decodes⟩
  obtain ⟨j, vs, hj, hvs, -⟩ := hdoc
  refine ⟨j, hj, ?_⟩
  rw [hvs]
  exact Option.some_ne_none _

end IcsGateway.ManagerDownlinkHandler
