import IcsGateway.Lib.Transition
import IcsGateway.Common.ConfigRoundTrip
import IcsGateway.Manager.DownlinkHandler

/-!
# Switching the relays

`CloudSetAirCState` reads all elements of the request into one index and one state, checks
these after the loop, and switches the relays that have the index. The lemmas below say what
one call does to the list, the pins and the persisted document; from them follow when a call
serves the whole request, and what every run of requests preserves.
-/

namespace IcsGateway.ManagerDownlinkHandler

open Lib

/-! ### The loop over the relays -/

/-- A relay the loop switches. -/
def Switched (index state : Int32) (r : DefaultRelayState) : Prop :=
  r.index = index ∧ r.state ≠ state

instance (index state : Int32) (r : DefaultRelayState) : Decidable (Switched index state r) :=
  inferInstanceAs (Decidable (_ ∧ _))

/-- A relay after the loop. -/
def relayAfter (index state : Int32) (r : DefaultRelayState) : DefaultRelayState :=
  if r.index = index then { r with state := state } else r

/-- A switched relay has the pin: the loop drives it. -/
def Driven (index state : Int32) (rs : List DefaultRelayState) (p : Int32) : Prop :=
  ∃ r ∈ rs, Switched index state r ∧ r.gpio = p

instance (index state : Int32) (rs : List DefaultRelayState) (p : Int32) :
    Decidable (Driven index state rs p) :=
  inferInstanceAs (Decidable (∃ r ∈ rs, Switched index state r ∧ r.gpio = p))

/-- A pin after the loop. -/
def pinAfter (index state : Int32) (rs : List DefaultRelayState) (pins : Int32 → Int32)
    (p : Int32) : Int32 :=
  if Driven index state rs p then state else pins p

/-- The relay list of the running configuration. -/
def ManagerState.relays (s : ManagerState) : List DefaultRelayState :=
  s.dFRelayState.fields.dFRelay

/-- The object `JSave` adds for a relay. -/
def encodeRelay : DefaultRelayState → Var :=
  addRecord DefaultRelayState.layout DefaultRelayState.writes

/-- The document of the running configuration holds its relays, and Redis its text. -/
def Saved (P : Poco) (s : ManagerState) : Prop :=
  ∃ j, s.dFRelayState.jConf = some j ∧
    Object.getArray j "Relays" = some ((ManagerState.relays s).map encodeRelay) ∧
    s.redis "DEFAULT_RELAY" = P.stringify (.object .ptr j)

/-- The document of the running configuration has its list. -/
def Listed (s : ManagerState) : Prop :=
  ∃ j, s.dFRelayState.jConf = some j ∧ Object.getArray j "Relays" ≠ none

/-- The pins driven by the first relay and by the others. -/
private theorem driven_cons_iff {index state : Int32} {r : DefaultRelayState}
    {rs : List DefaultRelayState} {p : Int32} :
    Driven index state (r :: rs) p ↔
      (Switched index state r ∧ r.gpio = p) ∨ Driven index state rs p := by
  unfold Driven
  simp only [List.mem_cons, exists_eq_or_imp]

/-- A relay that is switched already is not changed. -/
theorem relayAfter_of_not_switched {index state : Int32} {r : DefaultRelayState}
    (h : ¬ Switched index state r) : relayAfter index state r = r := by
  unfold relayAfter
  split
  · next hi =>
    have hs : r.state = state := by
      by_contra hne
      exact h ⟨hi, hne⟩
    rw [← hs]
  · rfl

/-- A switched relay has the state. -/
theorem relayAfter_of_switched {index state : Int32} {r : DefaultRelayState}
    (h : Switched index state r) : relayAfter index state r = { r with state := state } := by
  unfold relayAfter
  rw [if_pos h.1]

/-- The state after one relay has been switched: list, pin, document, text, respawn. -/
def switchRelay (P : Poco) (state : Int32) (done : List DefaultRelayState)
    (r : DefaultRelayState) (rest : List DefaultRelayState) (s : ManagerState) : ManagerState :=
  ((do
    setDFRelay (done ++ { r with state := state } :: rest)
    digitalWrite r.gpio state
    saveDFRelayState P
    respawn "SENSOR" : M Unit).exec s).2

/-- The loop at a relay it switches. -/
theorem exec_relayLoop_switched {P : Poco} {index state : Int32} {r : DefaultRelayState}
    (h : Switched index state r) (done : List DefaultRelayState) (data : Object)
    (rest : List DefaultRelayState) (s : ManagerState) :
    (relayLoop P index state done data (r :: rest)).exec s =
      (relayLoop P index state (done ++ [{ r with state := state }]) data rest).exec
        (switchRelay P state done r rest s) := by
  have hi : index = r.index := h.1.symm
  have hs : state ≠ r.state := fun he ↦ h.2 he.symm
  rw [relayLoop, if_pos hi, if_neg hs]
  rfl

/-- The loop at any other relay. -/
theorem exec_relayLoop_other {P : Poco} {index state : Int32} {r : DefaultRelayState}
    (h : ¬ Switched index state r) (done : List DefaultRelayState) (data : Object)
    (rest : List DefaultRelayState) :
    ∃ data', relayLoop P index state done data (r :: rest) =
      relayLoop P index state (done ++ [r]) data' rest := by
  by_cases hi : index = r.index
  · have hs : state = r.state := by
      by_contra hne
      exact h ⟨hi.symm, fun he ↦ hne he.symm⟩
    refine ⟨Object.set data "info" (.str "State cmd equal state current"), ?_⟩
    rw [relayLoop, if_pos hi, if_pos hs]
  · refine ⟨data, ?_⟩
    rw [relayLoop, if_neg hi]

/-- `JSave` on the relays, in a document that is there. -/
theorem jSave_exec_some (f : DefaultRelayState_T) (j : Object) :
    DefaultRelayState_T.jSave.exec ⟨f, some j⟩ =
      (.ok true, ⟨f, some (saveArray "Relays" encodeRelay f.dFRelay j)⟩) := rfl

/-- Switching a relay changes its entry of the list, -/
theorem relays_switchRelay (P : Poco) (state : Int32) (done : List DefaultRelayState)
    (r : DefaultRelayState) (rest : List DefaultRelayState) (s : ManagerState) :
    ManagerState.relays (switchRelay P state done r rest s) =
      done ++ { r with state := state } :: rest := by
  change (DefaultRelayState_T.jSave.exec _).2.fields.dFRelay = _
  cases hj : s.dFRelayState.jConf with
  | none =>
    change (DefaultRelayState_T.jSave.exec ⟨_, s.dFRelayState.jConf⟩).2.fields.dFRelay = _
    rw [hj]
    rfl
  | some j =>
    change (DefaultRelayState_T.jSave.exec ⟨_, s.dFRelayState.jConf⟩).2.fields.dFRelay = _
    rw [hj, jSave_exec_some]

/-- and drives its pin. -/
private theorem pins_switchRelay (P : Poco) (state : Int32) (done : List DefaultRelayState)
    (r : DefaultRelayState) (rest : List DefaultRelayState) (s : ManagerState) (p : Int32) :
    (switchRelay P state done r rest s).pins p = if p = r.gpio then state else s.pins p := rfl

/-- A relay that is switched has its pin driven before those of the others. -/
private theorem pinAfter_switchRelay {P : Poco} {index state : Int32} {r : DefaultRelayState}
    (h : Switched index state r) (done rest : List DefaultRelayState) (s : ManagerState)
    (p : Int32) :
    pinAfter index state rest (switchRelay P state done r rest s).pins p =
      pinAfter index state (r :: rest) s.pins p := by
  unfold pinAfter
  rw [pins_switchRelay]
  by_cases hr : Driven index state rest p
  · rw [if_pos hr, if_pos (driven_cons_iff.mpr (.inr hr))]
  · rw [if_neg hr]
    by_cases hp : p = r.gpio
    · rw [if_pos hp, if_pos (driven_cons_iff.mpr (.inl ⟨h, hp.symm⟩))]
    · rw [if_neg hp, if_neg]
      rw [driven_cons_iff]
      rintro (⟨-, hp'⟩ | hr')
      · exact hp hp'.symm
      · exact hr hr'

/-- One that is not changes no pin. -/
private theorem pinAfter_cons_of_not {index state : Int32} {r : DefaultRelayState}
    (h : ¬ Switched index state r) (rest : List DefaultRelayState) (pins : Int32 → Int32)
    (p : Int32) :
    pinAfter index state (r :: rest) pins p = pinAfter index state rest pins p := by
  unfold pinAfter
  simp only [driven_cons_iff, h, false_and, false_or]

/-- `Save` prints the document it has written. -/
private theorem redis_saveDFRelayState {P : Poco} {s : ManagerState} {o : Object}
    (h : (DefaultRelayState_T.jSave.exec s.dFRelayState).2.jConf = some o) :
    ((saveDFRelayState P).exec s).2.redis "DEFAULT_RELAY" = P.stringify (.object .ptr o) := by
  rw [saveDFRelayState, Eff.exec_modify]
  simp only [h, ↓reduceIte]

/-- Switching a relay leaves the document and the text saved. -/
private theorem saved_switchRelay (P : Poco) {s : ManagerState} (h : Listed s) (state : Int32)
    (done : List DefaultRelayState) (r : DefaultRelayState) (rest : List DefaultRelayState) :
    Saved P (switchRelay P state done r rest s) := by
  obtain ⟨j, hj, hg⟩ := h
  obtain ⟨vs, hvs⟩ := Option.ne_none_iff_exists'.mp hg
  have hdoc : (switchRelay P state done r rest s).dFRelayState.jConf =
      some (Object.set j "Relays" (.array .ptr
        ((done ++ { r with state := state } :: rest).map encodeRelay))) := by
    change (DefaultRelayState_T.jSave.exec ⟨_, s.dFRelayState.jConf⟩).2.jConf = _
    rw [hj, jSave_exec_some, saveArray_of_getArray hvs]
  refine ⟨_, hdoc, ?_, ?_⟩
  · rw [relays_switchRelay, Object.getArray_set_ptr]
  · apply redis_saveDFRelayState
    exact hdoc

/-- What was saved is listed. -/
theorem Saved.listed {P : Poco} {s : ManagerState} (h : Saved P s) : Listed s := by
  obtain ⟨j, hj, hg, -⟩ := h
  refine ⟨j, hj, ?_⟩
  rw [hg]
  exact Option.some_ne_none _

/-- What the loop over the relays does: each relay of the index gets the state, the pins of
those it switches are driven, nothing is sent, and, if it switches any, the result is saved. -/
theorem exec_relayLoop (P : Poco) (index state : Int32) (todo : List DefaultRelayState) :
    ∀ done data s, ManagerState.relays s = done ++ todo →
      ∃ data' s', (relayLoop P index state done data todo).exec s = (.ok data', s') ∧
        ManagerState.relays s' = done ++ todo.map (relayAfter index state) ∧
        (∀ p, s'.pins p = pinAfter index state todo s.pins p) ∧
        (s'.sent = s.sent ∧ s'.regInfo = s.regInfo) ∧
        ((∀ r ∈ todo, ¬ Switched index state r) → s' = s) ∧
        (Listed s → (∃ r ∈ todo, Switched index state r) → Saved P s') := by
  induction todo with
  | nil =>
    intro done data s hs
    refine ⟨data, s, rfl, hs, ?_, ⟨rfl, rfl⟩, fun _ ↦ rfl, ?_⟩
    · intro p
      simp [pinAfter, Driven]
    · rintro - ⟨r, hr, -⟩
      cases hr
  | cons r rest ih =>
    intro done data s hs
    by_cases hsw : Switched index state r
    · have hrelays : ManagerState.relays (switchRelay P state done r rest s) =
          (done ++ [{ r with state := state }]) ++ rest := by
        rw [relays_switchRelay, List.append_assoc]
        rfl
      obtain ⟨data', s', hexec, hlist, hpins, hframe, hsame, hsaved⟩ := ih _ data _ hrelays
      refine ⟨data', s', ?_, ?_, ?_, hframe, ?_, ?_⟩
      · rw [exec_relayLoop_switched hsw, hexec]
      · rw [hlist, List.map_cons, relayAfter_of_switched hsw, List.append_assoc]
        rfl
      · intro p
        rw [hpins, pinAfter_switchRelay hsw]
      · intro hno
        exact absurd hsw (hno r (List.mem_cons_self ..))
      · intro hlisted _
        have hsw' := saved_switchRelay P hlisted state done r rest
        by_cases hrest : ∃ r' ∈ rest, Switched index state r'
        · exact hsaved hsw'.listed hrest
        · have hs' : s' = switchRelay P state done r rest s := by
            apply hsame
            intro r' hr' hr''
            exact hrest ⟨r', hr', hr''⟩
          rw [hs']
          exact hsw'
    · have hrelays : ManagerState.relays s = (done ++ [r]) ++ rest := by
        rw [hs, List.append_assoc]
        rfl
      obtain ⟨data₁, hstep⟩ := exec_relayLoop_other (P := P) hsw done data rest
      obtain ⟨data', s', hexec, hlist, hpins, hframe, hsame, hsaved⟩ := ih _ data₁ _ hrelays
      refine ⟨data', s', ?_, ?_, ?_, hframe, ?_, ?_⟩
      · rw [hstep, hexec]
      · rw [hlist, List.map_cons, relayAfter_of_not_switched hsw, List.append_assoc]
        rfl
      · intro p
        rw [hpins, pinAfter_cons_of_not hsw]
      · intro hno
        apply hsame
        intro r' hr'
        exact hno r' (List.mem_cons_of_mem _ hr')
      · rintro hlisted ⟨r', hr', hsw'⟩
        apply hsaved hlisted
        rcases List.mem_cons.mp hr' with rfl | hr'
        · exact absurd hsw' hsw
        · exact ⟨r', hr', hsw'⟩

/-! ### The elements of the request -/

/-- The int a property gives, if it gives one. -/
def givenInt (P : Poco) (k : COMStr) (v : Var) : Option Int32 :=
  match v.getObject with
  | none => none
  | some o =>
    match Object.getNullableValue P.convertInt o k with
    | .ok x => x
    | .error _ => none

/-- The last int the elements give under a key, or else `d`. -/
def lastGiven (P : Poco) (k : COMStr) (d : Int32) : List Var → Int32
  | [] => d
  | v :: vs => lastGiven P k ((givenInt P k v).getD d) vs

/-- A property the loop can read into an `int`: absent, null, or convertible. -/
def ReadableInt (P : Poco) (o : Object) (k : COMStr) : Prop :=
  ∃ x, Object.getNullableValue P.convertInt o k = .ok x

/-- An element the loop reads without leaving the function. -/
def ReadableElement (P : Poco) (v : Var) : Prop :=
  ∃ o, v.getObject = some o ∧ o ≠ [] ∧ ReadableInt P o "state" ∧ ReadableInt P o "index"

/-- The loop over a readable element. -/
theorem readDataIn_cons {P : Poco} {v : Var} {o : Object} (hv : v.getObject = some o)
    (hne : o ≠ []) (index state : Int32) (vs : List Var) :
    readDataIn P index state (v :: vs) =
      match Object.getNullableValue P.convertInt o "state",
        Object.getNullableValue P.convertInt o "index" with
      | .ok x, .ok y => readDataIn P (y.getD index) (x.getD state) vs
      | .error e, _ => .error e
      | .ok _, .error e => .error e := by
  have hlen : o.length ≠ 0 := fun h ↦ hne (List.eq_nil_of_length_eq_zero h)
  rw [readDataIn, hv]
  simp only [deref, bind, Except.bind, if_neg hlen, JGET_some]
  cases Object.getNullableValue P.convertInt o "state" with
  | error e => rfl
  | ok x =>
    cases Object.getNullableValue P.convertInt o "index" with
    | error e => rfl
    | ok y => rfl

/-- The loop reaches its end exactly when it can read every element; it then holds the last
index and the last state given. -/
theorem readDataIn_eq_some_iff (P : Poco) (vs : List Var) :
    ∀ index state i s, readDataIn P index state vs = .ok (some (i, s)) ↔
      (∀ v ∈ vs, ReadableElement P v) ∧ i = lastGiven P "index" index vs ∧
        s = lastGiven P "state" state vs := by
  induction vs with
  | nil =>
    intro index state i s
    simp only [readDataIn, lastGiven, List.not_mem_nil, false_implies, implies_true, true_and]
    constructor
    · intro h
      cases h
      exact ⟨rfl, rfl⟩
    · rintro ⟨rfl, rfl⟩
      rfl
  | cons v vs ih =>
    intro index state i s
    simp only [List.forall_mem_cons, lastGiven]
    cases hv : v.getObject with
    | none =>
      constructor
      · intro h
        rw [readDataIn, hv] at h
        cases h
      · rintro ⟨⟨⟨o, ho, -⟩, -⟩, -⟩
        rw [hv] at ho
        cases ho
    | some o =>
      by_cases hne : o = []
      · constructor
        · intro h
          rw [readDataIn, hv, hne] at h
          cases h
        · rintro ⟨⟨⟨o', ho, hne', -⟩, -⟩, -⟩
          rw [hv] at ho
          cases ho
          exact absurd hne hne'
      · rw [readDataIn_cons hv hne]
        have hread : ReadableElement P v ↔ ReadableInt P o "state" ∧ ReadableInt P o "index" := by
          constructor
          · rintro ⟨o', ho, -, h⟩
            rw [hv] at ho
            cases ho
            exact h
          · intro h
            exact ⟨o, hv, hne, h⟩
        rw [hread]
        unfold ReadableInt givenInt
        rw [hv]
        cases hst : Object.getNullableValue P.convertInt o "state" with
        | error e => simp
        | ok x =>
          cases hix : Object.getNullableValue P.convertInt o "index" with
          | error e => simp
          | ok y => simp [ih, hst, hix]

/-! ### One call -/

/-- The elements `CloudSetAirCState` goes through: none is the null array it throws on. -/
def dataIn (pInput : Object) : Option (List Var) := (JGET_ARR pInput "data").1.vals

/-- A request the checks after the loop let pass. -/
structure Accepted (P : Poco) (vs : List Var) : Prop where
  readable : ∀ v ∈ vs, ReadableElement P v
  state : lastGiven P "state" (-1) vs = 1 ∨ lastGiven P "state" (-1) vs = 0
  index : 0 < lastGiven P "index" (-1) vs ∧ lastGiven P "index" (-1) vs ≤ 2

/-- The state after a call that switched, in terms of the one before. -/
structure Switches (P : Poco) (index state : Int32) (s s' : ManagerState) : Prop where
  relays : ManagerState.relays s' = (ManagerState.relays s).map (relayAfter index state)
  pins : ∀ p, s'.pins p = pinAfter index state (ManagerState.relays s) s.pins p
  frame : s'.sent = s.sent ∧ s'.regInfo = s.regInfo
  same : (∀ r ∈ ManagerState.relays s, ¬ Switched index state r) → s' = s
  saved : Listed s → (∃ r ∈ ManagerState.relays s, Switched index state r) → Saved P s'

/-- A call on an accepted request returns true and has switched. -/
theorem exec_cloudSetAirCState_of_accepted {P : Poco} {pInput : Object} {vs : List Var}
    (hd : dataIn pInput = some vs) (ha : Accepted P vs) (aOutput : List Var)
    (s : ManagerState) :
    ∃ out s', (cloudSetAirCState P pInput aOutput).exec s = (.ok (true, out), s') ∧
      Switches P (lastGiven P "index" (-1) vs) (lastGiven P "state" (-1) vs) s s' := by
  have hread := (readDataIn_eq_some_iff P vs (-1) (-1) _ _).mpr ⟨ha.readable, rfl, rfl⟩
  have hst : ¬ (lastGiven P "state" (-1) vs ≠ 1 ∧ lastGiven P "state" (-1) vs ≠ 0) := by
    rintro ⟨h₁, h₀⟩
    exact ha.state.elim h₁ h₀
  have hix : ¬ (lastGiven P "index" (-1) vs ≤ 0 ∨ lastGiven P "index" (-1) vs > 2) := by
    rintro (h | h)
    · exact Int32.not_le.mpr ha.index.1 h
    · exact Int32.not_lt.mpr ha.index.2 h
  obtain ⟨data, s', hexec, hlist, hpins, hframe, hsame, hsaved⟩ :=
    exec_relayLoop P (lastGiven P "index" (-1) vs) (lastGiven P "state" (-1) vs)
      (ManagerState.relays s) [] [] s rfl
  refine ⟨aOutput ++ [.object .value data], s', ?_, hlist, hpins, hframe, hsame, hsaved⟩
  unfold cloudSetAirCState call
  unfold dataIn at hd
  unfold ManagerState.relays at hexec
  rw [Eff.exec_bind, Eff.exec_ofExcept, hd]
  simp only [deref, Except.mapError, Eff.exec_bind, Eff.exec_ofExcept, hread, if_neg hst,
    if_neg hix, Eff.exec_get, hexec, Eff.exec_pure]

/-- Any other call leaves the state alone and does not return true. -/
theorem exec_cloudSetAirCState_of_not_accepted {P : Poco} {pInput : Object}
    (h : ∀ vs, dataIn pInput = some vs → ¬ Accepted P vs) (aOutput : List Var)
    (s : ManagerState) :
    ∃ res, (cloudSetAirCState P pInput aOutput).exec s = (res, s) ∧
      ∀ out, res ≠ .ok (true, out) := by
  unfold cloudSetAirCState call
  unfold dataIn at h
  rw [Eff.exec_bind, Eff.exec_ofExcept]
  cases hd : (JGET_ARR pInput "data").1.vals with
  | none => exact ⟨.error (.threw .nullPointer), rfl, fun _ h ↦ by cases h⟩
  | some vs =>
    simp only [deref, Except.mapError, Eff.exec_bind, Eff.exec_ofExcept]
    cases hr : readDataIn P (-1) (-1) vs with
    | error e => exact ⟨.error (.threw e), rfl, fun _ h ↦ by cases h⟩
    | ok x =>
      cases x with
      | none => exact ⟨.ok (false, aOutput), rfl, fun _ h ↦ by cases h⟩
      | some is =>
        obtain ⟨i, st⟩ := is
        obtain ⟨hread, hi, hst⟩ := (readDataIn_eq_some_iff P vs _ _ _ _).mp hr
        simp only
        by_cases hs : st ≠ 1 ∧ st ≠ 0
        · rw [if_pos hs]
          exact ⟨.ok (false, aOutput), rfl, fun _ h ↦ by cases h⟩
        · rw [if_neg hs]
          by_cases hx : i ≤ 0 ∨ i > 2
          · rw [if_pos hx]
            exact ⟨.ok (false, aOutput), rfl, fun _ h ↦ by cases h⟩
          · exfalso
            rw [not_or, Int32.not_le] at hx
            apply h vs hd
            refine ⟨hread, ?_, ?_⟩
            · rw [← hst]
              by_contra hno
              rw [not_or] at hno
              exact hs hno
            · rw [← hi]
              exact ⟨hx.1, Int32.not_lt.mp hx.2⟩

/-! ### The whole request -/

/-- The state the request asks of an index: that of the last element that names the index and
a state. -/
def requested (P : Poco) (i : Int32) : List Var → Option Int32
  | [] => none
  | v :: vs => (requested P i vs).or
      (if givenInt P "index" v = some i then givenInt P "state" v else none)

/-- The request is served or it has no effect: after true, every relay asked for is there, has
its state and its pin; after anything else, relays, pins and persisted text are as before. -/
def AllOrNothing (P : Poco) (vs : List Var) (s : ManagerState)
    (after : Except Halt (Bool × List Var) × ManagerState) : Prop :=
  match after with
  | (.ok (true, _), s') => ∀ i st, requested P i vs = some st →
      (∃ r ∈ ManagerState.relays s', r.index = i) ∧
        ∀ r ∈ ManagerState.relays s', r.index = i → r.state = st ∧ s'.pins r.gpio = st
  | (_, s') => ManagerState.relays s' = ManagerState.relays s ∧ s'.pins = s.pins ∧
      s'.redis "DEFAULT_RELAY" = s.redis "DEFAULT_RELAY"

/-- One index and one state serve the request: for every index asked for there is a relay;
it is the one index, asked for with the one state, or its relays have the state asked for
already; and the pins of its relays are driven to that state or have it already. -/
structure Serves (P : Poco) (index state : Int32) (vs : List Var) (s : ManagerState) : Prop where
  found : ∀ i st, requested P i vs = some st → ∃ r ∈ ManagerState.relays s, r.index = i
  states : ∀ i st, requested P i vs = some st → (i = index ∧ st = state) ∨
    (i ≠ index ∧ ∀ r ∈ ManagerState.relays s, r.index = i → r.state = st)
  pins : ∀ i st, requested P i vs = some st → ∀ r ∈ ManagerState.relays s, r.index = i →
    (Driven index state (ManagerState.relays s) r.gpio ∧ st = state) ∨
      (¬ Driven index state (ManagerState.relays s) r.gpio ∧ s.pins r.gpio = st)

/-- The loop keeps the indexes of the relays. -/
theorem index_relayAfter (index state : Int32) (r : DefaultRelayState) :
    (relayAfter index state r).index = r.index := by
  unfold relayAfter
  split <;> rfl

/-- The loop keeps the pins of the relays. -/
theorem gpio_relayAfter (index state : Int32) (r : DefaultRelayState) :
    (relayAfter index state r).gpio = r.gpio := by
  unfold relayAfter
  split <;> rfl

/-- Switching serves the request exactly when every relay asked for ends in its state, on its
pin too. -/
private theorem serves_iff (P : Poco) (index state : Int32) (vs : List Var) (s : ManagerState) :
    Serves P index state vs s ↔ ∀ i st, requested P i vs = some st →
      (∃ r ∈ ManagerState.relays s, r.index = i) ∧
        ∀ r ∈ ManagerState.relays s, r.index = i → (relayAfter index state r).state = st ∧
          pinAfter index state (ManagerState.relays s) s.pins r.gpio = st := by
  constructor
  · intro h i st hreq
    refine ⟨h.found i st hreq, ?_⟩
    intro r hr hi
    constructor
    · unfold relayAfter
      rcases h.states i st hreq with ⟨he, hst⟩ | ⟨hne, hall⟩
      · rw [if_pos (hi.trans he), hst]
      · have hne' : r.index ≠ index := fun he ↦ hne (hi.symm.trans he)
        rw [if_neg hne', hall r hr hi]
    · unfold pinAfter
      rcases h.pins i st hreq r hr hi with ⟨hd, hst⟩ | ⟨hd, hp⟩
      · rw [if_pos hd, hst]
      · rw [if_neg hd, hp]
  · intro h
    refine ⟨fun i st hreq ↦ (h i st hreq).1, ?_, ?_⟩
    · intro i st hreq
      obtain ⟨⟨r, hr, hi⟩, hall⟩ := h i st hreq
      by_cases he : i = index
      · have hst := (hall r hr hi).1
        unfold relayAfter at hst
        rw [if_pos (hi.trans he)] at hst
        exact .inl ⟨he, hst.symm⟩
      · refine .inr ⟨he, ?_⟩
        intro r' hr' hi'
        have hst := (hall r' hr' hi').1
        unfold relayAfter at hst
        have hne : r'.index ≠ index := fun h' ↦ he (hi'.symm.trans h')
        rwa [if_neg hne] at hst
    · intro i st hreq r hr hi
      have hp := ((h i st hreq).2 r hr hi).2
      unfold pinAfter at hp
      by_cases hd : Driven index state (ManagerState.relays s) r.gpio
      · rw [if_pos hd] at hp
        exact .inl ⟨hd, hp.symm⟩
      · rw [if_neg hd] at hp
        exact .inr ⟨hd, hp⟩

/-- A request with a `data` array is all or nothing exactly when, if the checks let it pass,
switching the last index given to the last state given serves it. -/
theorem cloudSetAirCState_allOrNothing_iff (P : Poco) (pInput : Object) (vs : List Var)
    (hdata : Object.getArray pInput "data" = some vs) (aOutput : List Var) (s : ManagerState) :
    AllOrNothing P vs s ((cloudSetAirCState P pInput aOutput).exec s) ↔
      (Accepted P vs → Serves P (lastGiven P "index" (-1) vs) (lastGiven P "state" (-1) vs)
        vs s) := by
  have hd : dataIn pInput = some vs := by
    unfold dataIn
    rw [JGET_ARR_of_getArray hdata]
    rfl
  by_cases ha : Accepted P vs
  · obtain ⟨out, s', hexec, hsw⟩ := exec_cloudSetAirCState_of_accepted hd ha aOutput s
    rw [hexec]
    simp only [ha, true_implies]
    rw [serves_iff]
    unfold AllOrNothing
    simp only [hsw.relays, hsw.pins, List.mem_map, exists_exists_and_eq_and,
      forall_exists_index, and_imp, forall_apply_eq_imp_iff₂, index_relayAfter, gpio_relayAfter]
  · have hno : ∀ vs', dataIn pInput = some vs' → ¬ Accepted P vs' := by
      intro vs' hd'
      rw [hd] at hd'
      cases hd'
      exact ha
    obtain ⟨res, hexec, hres⟩ := exec_cloudSetAirCState_of_not_accepted hno aOutput s
    rw [hexec]
    constructor
    · intro _ ha'
      exact absurd ha' ha
    · intro _
      unfold AllOrNothing
      split
      · next out s' heq =>
        cases heq
        exact absurd rfl (hres out)
      · next s' _ heq =>
        cases heq
        exact ⟨rfl, rfl, rfl⟩

/-- A Manager with two relays, both off, on the pins 23 and 24. -/
def twoRelays : ManagerState where
  manager := ⟨mqttManager, none⟩
  regInfo := ⟨"d378e0b5", "MQTT"⟩
  dFRelayState :=
    ⟨{ state := 0, relay1 := 23, relay2 := 24,
       dFRelay := [⟨"Relay 1", "relay_1", 0, 23, 1⟩, ⟨"Relay 2", "relay_2", 0, 24, 2⟩] },
      some [("Relays", .array .ptr [])]⟩
  pins _ := 0
  redis _ := ""
  m2cMQTT := ⟨"MQTT", "", []⟩
  sent := []
  respawned := []

/-- The element of a request that asks a relay to be on. -/
def turnOn (index : Int) : Var := .object .ptr [("index", .int index), ("state", .int 1)]

/-- A request for one relay is served. -/
theorem cloudSetAirCState_allOrNothing_iff_one :
    AllOrNothing Poco.json [turnOn 1] twoRelays
      ((cloudSetAirCState Poco.json [("data", .array .ptr [turnOn 1])] []).exec
        twoRelays) := by
  apply (cloudSetAirCState_allOrNothing_iff Poco.json
    [("data", .array .ptr [turnOn 1])] [turnOn 1] rfl [] twoRelays).mpr
  intro _
  have hreq : ∀ i st, requested Poco.json i [turnOn 1] = some st → i = 1 ∧ st = 1 := by
    intro i st h
    have hidx : givenInt Poco.json "index" (turnOn 1) = some 1 := by decide
    have hst : givenInt Poco.json "state" (turnOn 1) = some 1 := by decide
    simp only [requested, Option.none_or, hidx, hst] at h
    split at h
    · next he =>
      cases h
      exact ⟨(Option.some.inj he).symm, rfl⟩
    · cases h
  have hindex : lastGiven Poco.json "index" (-1) [turnOn 1] = 1 := by decide
  have hstate : lastGiven Poco.json "state" (-1) [turnOn 1] = 1 := by decide
  rw [hindex, hstate]
  refine ⟨?_, ?_, ?_⟩
  · intro i st h
    obtain ⟨rfl, -⟩ := hreq i st h
    decide
  · intro i st h
    exact .inl (hreq i st h)
  · intro i st h r hr hi
    obtain ⟨rfl, rfl⟩ := hreq i st h
    left
    revert r
    decide

/-- The call on a request for two relays. -/
def twoTurnOn : Except Halt (Bool × List Var) × ManagerState :=
  (cloudSetAirCState Poco.json [("data", .array .ptr [turnOn 1, turnOn 2])] []).exec
    twoRelays

/-- It returns true and switches the last relay only. -/
theorem not_allOrNothing_twoTurnOn :
    (ManagerState.relays twoTurnOn.2).map (fun r ↦ (r.index, r.state)) = [(1, 0), (2, 1)] ∧
      ¬ AllOrNothing Poco.json [turnOn 1, turnOn 2] twoRelays twoTurnOn := by
  refine ⟨by decide, ?_⟩
  intro h
  have hret : twoTurnOn = (.ok (true, [.object .value []]), twoTurnOn.2) := rfl
  rw [hret] at h
  obtain ⟨-, hall⟩ := h 1 1 (by decide)
  have hoff := hall ⟨"Relay 1", "relay_1", 0, 23, 1⟩ (by decide) rfl
  exact absurd hoff.1 (by decide)

end IcsGateway.ManagerDownlinkHandler
