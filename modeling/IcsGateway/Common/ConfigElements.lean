import IcsGateway.Common.ConfigRoundTrip

/-!
# Element by element

`Load` reads a list through one record variable declared before the loop. Its records are
those of the elements alone only while no element lacks a member that its predecessors, or
the memory the variable was declared on, would lend it.
-/

namespace IcsGateway

open Lib

variable {F ρ ψ φ : Type} [DecidableEq ψ] [DecidableEq φ] {tyF : ψ → Type} {ty : φ → Type}

/-! ### What an element says -/

/-- What the body of a plain loop reads from an element. -/
def pushReading (reads : List (Jget ty)) (_i : Nat) (v : Var) : Except Exn (Reading ty) := do
  let o ← deref v.getObject
  let g ← given o reads
  .ok ⟨true, g⟩

/-- What an element says on its own: the members it gives, and the initialisers of the
record type elsewhere. -/
def own (reads : List (Jget ty)) (initialisers : Given ty) (v : Var) : Given ty :=
  match pushReading reads 0 v with
  | .ok a => a.given.orElse initialisers
  | .error _ => Given.nothing

/-- The records are, one by one, those the elements make on their own. -/
def Elementwise (L : Layout ρ ty) (own : Var → Given ty) (as : List (Var × Reading ty))
    (rs : List ρ) : Prop :=
  List.Forall₂ (fun a r ↦ ∀ f, own a.1 f = some (L.get r f)) (keptOf as) rs

/-- No element of a list takes a member from the ones before it: a member it lacks has an
initialiser, and the last element that gave the member gave that very value. -/
def NoneCarried (initialisers : Given ty) (as : List (Var × Reading ty)) : Prop :=
  ∀ pre a post, as = pre ++ a :: post → a.2.kept = true → ∀ f, a.2.given f = none →
    ∃ d, initialisers f = some d ∧ ∀ x, carried (pre.map (·.2.given)) f = some x → x = d

/-- An element that can be read lays what it gives over the record. -/
theorem exec_readFields_of_pushReading (L : Layout ρ ty) {reads : List (Jget ty)} {i : Nat}
    {v : Var} {a : Reading ty} (h : pushReading reads i v = .ok a) (r : ρ) :
    (readFields L v.getObject reads).exec r = (.ok (), L.overlay a.given r) ∧ a.kept = true := by
  unfold pushReading at h
  cases hv : v.getObject with
  | none => rw [hv] at h; cases h
  | some o =>
    cases hg : given o reads with
    | error x =>
      rw [hv] at h
      simp only [deref, bind, Except.bind, hg] at h
      cases h
    | ok g =>
      rw [hv] at h
      simp only [deref, bind, Except.bind, hg] at h
      cases h
      exact ⟨exec_readFields_of_given L hg r, rfl⟩

/-- An element that cannot be read stops the run. -/
theorem exec_readFields_of_pushReading_error (L : Layout ρ ty) {reads : List (Jget ty)}
    (hne : reads ≠ []) {i : Nat} {v : Var} {x : Exn} (h : pushReading reads i v = .error x)
    (r : ρ) : ((readFields L v.getObject reads).exec r).1 = .error x := by
  unfold pushReading at h
  cases hv : v.getObject with
  | none =>
    rw [hv] at h
    cases h
    rw [exec_readFields_none L hne]
  | some o =>
    cases hg : given o reads with
    | ok g =>
      rw [hv] at h
      simp only [deref, bind, Except.bind, hg] at h
      cases h
    | error y =>
      rw [hv] at h
      simp only [deref, bind, Except.bind, hg] at h
      cases h
      exact exec_readFields_of_error L hg r

/-- The plain body lays what it reads over the record. -/
theorem pushRecord_realises (L : Layout ρ ty) {reads : List (Jget ty)} (h : reads ≠ []) :
    Realises L (pushRecord L reads) (pushReading reads) id where
  ok := by
    intro i v a r ha
    obtain ⟨hrun, hkept⟩ := exec_readFields_of_pushReading L ha r
    unfold pushRecord
    rw [Eff.exec_bind_of_ok hrun, hkept]
    rfl
  error := by
    intro i v x r hx
    have hstop := exec_readFields_of_pushReading_error L h hx r
    unfold pushRecord
    rcases hr : (readFields L v.getObject reads).exec r with ⟨res, r'⟩
    rw [hr] at hstop
    simp only at hstop
    rw [hstop] at hr
    rw [Eff.exec_bind_of_error hr]

omit [DecidableEq φ] in
/-- Every reading is that of its element. -/
theorem reading_of_mem {reading : Nat → Var → Except Exn (Reading ty)}
    {a : Var × Reading ty} {es : List Var} :
    ∀ i, a ∈ readings reading i es → a.1 ∈ es ∧ ∃ k, reading k a.1 = .ok a.2 := by
  induction es with
  | nil =>
    intro i h
    cases h
  | cons e es ih =>
    intro i h
    unfold readings at h
    cases hr : reading i e with
    | error x => rw [hr] at h; cases h
    | ok b =>
      rw [hr] at h
      rcases List.mem_cons.mp h with rfl | h
      · exact ⟨List.mem_cons_self .., i, hr⟩
      · exact ⟨List.mem_cons_of_mem _ (ih (i + 1) h).1, (ih (i + 1) h).2⟩

/-- The plain loop decodes element by element exactly when nothing is carried. -/
private theorem pushRecord_elementwise_iff (L : Layout ρ ty) {reads : List (Jget ty)}
    (h : reads ≠ []) (initialisers : Given ty) (memory : ρ) (es : List Var) :
    Elementwise L (own reads initialisers) (readings (pushReading reads) 0 es)
        (decodeList (pushRecord L reads) 0 (declared L initialisers memory) es).out ↔
      NoneCarried initialisers (readings (pushReading reads) 0 es) := by
  have hown : ∀ a ∈ readings (pushReading reads) 0 es, ∀ f,
      own reads initialisers a.1 f = (a.2.given f).or (initialisers f) := by
    intro a ha f
    obtain ⟨-, k, hk⟩ := reading_of_mem 0 ha
    have hk' : pushReading reads 0 a.1 = .ok a.2 := hk
    unfold own
    rw [hk']
    rfl
  have hinit : ∀ (a : Var × Reading ty) f x, a ∈ readings (pushReading reads) 0 es →
      a.2.given f = none → own reads initialisers a.1 f = some x →
      L.get (declared L initialisers memory) f = x := by
    intro a f x ha hn hx
    rw [hown a ha f, hn, Option.none_or] at hx
    unfold declared
    rw [L.get_overlay, hx]
    rfl
  rw [decodeList_out (pushRecord_realises L h)]
  unfold Elementwise
  rw [elementwise_iff L (fun a ↦ own reads initialisers a.1) _ _ hinit]
  unfold NoneCarried
  constructor
  · intro hall pre a post hp hk f hn
    have hmem : a ∈ readings (pushReading reads) 0 es := by rw [hp]; simp
    obtain ⟨x, hx, -, hc⟩ := hall pre a post hp hk f
    rw [hown a hmem f, hn, Option.none_or] at hx
    exact ⟨x, hx, hc hn⟩
  · intro hall pre a post hp hk f
    have hmem : a ∈ readings (pushReading reads) 0 es := by rw [hp]; simp
    rw [hown a hmem f]
    cases hg : a.2.given f with
    | some y => exact ⟨y, rfl, fun z hz ↦ (Option.some.inj hz).symm, nofun⟩
    | none =>
      obtain ⟨d, hd, hc⟩ := hall pre a post hp hk f hg
      exact ⟨d, hd, nofun, fun _ ↦ hc⟩

/-! ### The list after `Load` -/

/-- The elements the loop of `Load` runs over: none when a conversion fails before it, or
when the key holds no array. -/
def listElements (reads : List (Jget tyF)) (key : COMStr) (o : Object) : List Var :=
  match given o reads with
  | .error _ => []
  | .ok _ => (Object.getArray o key).getD []

/-- The list after `Load`, which may have thrown. -/
theorem list_load {C : ListConfig F ρ tyF} (hC : C.Faithful) (f : F) (o : Object) :
    C.list (C.load.exec ⟨f, some o⟩).2.fields =
      (decodeList C.body 0 C.record (listElements C.reads C.key o)).out := by
  unfold listElements
  cases hg : given o C.reads with
  | error x =>
    have hstop := exec_readFields_of_error C.layout hg (C.clear f)
    obtain ⟨g, hst, hnone⟩ := exec_readFields_snd C.layout o C.reads (C.clear f)
    unfold ListConfig.load
    rw [Eff.exec_bind, Eff.exec_get]
    simp only [Eff.exec_bind, Eff.exec_set, exec_onFields, hstop, hst]
    change C.list (C.layout.overlay g (C.clear f)) = []
    rw [hC.list_overlay g _ hnone, hC.list_clear]
  | ok g =>
    rw [ListConfig.load_fields_of_given hg]
    have hnone : ∀ p, (∀ s ∈ C.reads, s.field ≠ p) → g p = none := by
      intro p hp
      exact (given_eq_none_iff hg p).mpr fun s hs he ↦ absurd he (hp s hs)
    cases hga : Object.getArray o C.key with
    | some vs =>
      rw [exec_loadArray_of_getArray hga]
      exact hC.list_push _ _
    | none =>
      cases hh : Object.has o C.key with
      | true =>
        rw [exec_loadArray_of_has hh hga]
        change C.list (C.layout.overlay g (C.clear f)) = []
        rw [hC.list_overlay g _ hnone, hC.list_clear]
      | false =>
        rw [exec_loadArray_of_absent hh]
        exact hC.list_push _ _

/-- A class whose loop is the plain one decodes element by element exactly when nothing is
carried. -/
private theorem load_elementwise_iff {C : ListConfig F ρ tyF} (hC : C.Faithful)
    {L : Layout ρ ty} {reads : List (Jget ty)} (hne : reads ≠ []) {initialisers : Given ty}
    {memory : ρ} (hbody : C.body = pushRecord L reads)
    (hrecord : C.record = declared L initialisers memory) (f : F) (o : Object) :
    Elementwise L (own reads initialisers)
        (readings (pushReading reads) 0 (listElements C.reads C.key o))
        (C.list (C.load.exec ⟨f, some o⟩).2.fields) ↔
      NoneCarried initialisers
        (readings (pushReading reads) 0 (listElements C.reads C.key o)) := by
  rw [list_load hC, hbody, hrecord]
  exact pushRecord_elementwise_iff L hne initialisers memory _

/-! ### Devices and their alarms -/

namespace DeviceConfig

/-- The alarms of an element, none for the list that makes the loop skip it. -/
def alarmsOf (v : Var) : Option (List Var) :=
  v.getObject.bind fun o ↦ (JGET_ARR o "alarms").1.vals

/-- What the body reads from an element. -/
def reading (P : Poco) (memory : Nat → Nat → AlarmConfig) (i : Nat) (v : Var) :
    Except Exn (Reading Field.type) := do
  let pdev ← deref v.getObject
  let g ← given pdev (reads P)
  match (JGET_ARR pdev "alarms").1.vals with
  | none => .ok ⟨false, g⟩
  | some vs =>
    let as ← readAlarms P (memory i) 0 vs
    .ok ⟨true, Function.update g .alarms (some as)⟩

/-- Every alarm object gives the members of `AlarmConfig` that have no initialiser. -/
def alarmsComplete (vs : List Var) : Bool :=
  vs.all fun v ↦
    match v.getObject with
    | none => true
    | some o => !Object.isNull o "state" && !Object.isNull o "high" && !Object.isNull o "low"

/-- The alarms an element makes on its own: those whose members are all determined. -/
def alarmsAlone (P : Poco) (vs : List Var) : Option (List AlarmConfig) :=
  if alarmsComplete vs then (readAlarms P (fun _ ↦ ⟨"", "", 0, 0, 0, ""⟩) 0 vs).toOption else none

/-- What an element says on its own. -/
def own (P : Poco) (v : Var) : Given Field.type :=
  Function.update (IcsGateway.own (reads P) initialisers v) .alarms
    ((alarmsOf v).bind (alarmsAlone P))

variable (P : Poco)

/-- A complete alarm is read alike on any memory. -/
private theorem exec_readFields_alarm {o : Object} (hs : Object.isNull o "state" = false)
    (hh : Object.isNull o "high" = false) (hl : Object.isNull o "low" = false)
    (m m' : AlarmConfig) {g : Given AlarmConfig.Field.type}
    (hg : given o (AlarmConfig.reads P) = .ok g) :
    AlarmConfig.layout.overlay g (declared AlarmConfig.layout AlarmConfig.initialisers m) =
      AlarmConfig.layout.overlay g (declared AlarmConfig.layout AlarmConfig.initialisers m') := by
  have hnone : ∀ f, g f = none → ∀ s ∈ AlarmConfig.reads P, s.field = f →
      Object.isNull o s.key = true := fun f ↦ (given_eq_none_iff hg f).mp
  simp only [AlarmConfig.reads, List.forall_mem_cons] at hnone
  apply AlarmConfig.layout.ext
  intro f
  unfold declared
  simp only [AlarmConfig.layout.get_overlay]
  cases hgf : g f with
  | some x => rfl
  | none =>
    obtain ⟨-, -, hstate, hhigh, hlow, -⟩ := hnone f hgf
    cases f with
    | desc => rfl
    | tag => rfl
    | level => rfl
    | state => rw [hstate rfl] at hs; cases hs
    | high => rw [hhigh rfl] at hh; cases hh
    | low => rw [hlow rfl] at hl; cases hl

/-- Complete alarms are read alike on any memory. -/
private theorem readAlarms_congr {vs : List Var} (h : alarmsComplete vs = true)
    (m m' : Nat → AlarmConfig) : ∀ j j', readAlarms P m j vs = readAlarms P m' j' vs := by
  induction vs with
  | nil => intro j j'; rfl
  | cons v vs ih =>
    intro j j'
    unfold alarmsComplete at h
    rw [List.all_cons, Bool.and_eq_true] at h
    have htail := ih h.2 (j + 1) (j' + 1)
    unfold readAlarms
    cases hv : v.getObject with
    | none => exact htail
    | some o =>
      have hc := h.1
      rw [hv] at hc
      simp only [Bool.and_eq_true, Bool.not_eq_eq_eq_not, Bool.not_true] at hc
      obtain ⟨⟨hs, hh⟩, hl⟩ := hc
      cases hg : given o (AlarmConfig.reads P) with
      | error x =>
        have hx := exec_readFields_of_error AlarmConfig.layout hg
        simp only [hx]
        rfl
      | ok g =>
        have hrun := exec_readFields_of_given AlarmConfig.layout hg
        simp only [hrun, htail]
        rw [exec_readFields_alarm P hs hh hl (m j) (m' j') hg]

/-- What the body reads it lays over the record, and where the reading stops it stops. -/
private theorem exec_body (memory : Nat → Nat → AlarmConfig) (i : Nat) (v : Var)
    (r : DeviceConfig) :
    match reading P memory i v with
    | .ok a => (body P memory i v).exec r = (.ok (a.kept, match v.getObject with
        | none => v
        | some o => .object .ptr (JGET_ARR o "alarms").2), layout.overlay a.given r)
    | .error x => ((body P memory i v).exec r).1 = .error x := by
  cases hv : v.getObject with
  | none =>
    have hne : reads P ≠ [] := by simp [reads]
    rw [reading, body, hv, Eff.exec_bind_of_error (exec_readFields_none layout hne r)]
    rfl
  | some o =>
    rw [body, hv]
    cases hg : given o (reads P) with
    | error x =>
      have hread : reading P memory i v = .error x := by
        simp only [reading, hv, deref, bind, Except.bind, hg]
      have hstop := exec_readFields_of_error layout hg r
      rcases hr : (readFields layout (some o) (reads P)).exec r with ⟨res, r'⟩
      rw [hr] at hstop
      simp only at hstop
      rw [hstop] at hr
      rw [hread, Eff.exec_bind_of_error hr]
    | ok g =>
      rw [Eff.exec_bind_of_ok (exec_readFields_of_given layout hg r)]
      simp only [deref, Eff.exec_bind, Eff.exec_ofExcept]
      cases hal : (JGET_ARR o "alarms").1.vals with
      | none =>
        have hread : reading P memory i v = .ok ⟨false, g⟩ := by
          simp only [reading, hv, deref, bind, Except.bind, hg, hal]
        rw [hread]
        rfl
      | some vs =>
        cases has : readAlarms P (memory i) 0 vs with
        | error x =>
          have hread : reading P memory i v = .error x := by
            simp only [reading, hv, deref, bind, Except.bind, hg, hal, has]
          rw [hread]
          simp only [has, Eff.exec_bind, Eff.exec_ofExcept]
        | ok as =>
          have hread : reading P memory i v =
              .ok ⟨true, Function.update g .alarms (some as)⟩ := by
            simp only [reading, hv, deref, bind, Except.bind, hg, hal, has]
          have hrec : ({ layout.overlay g r with alarms := as } : DeviceConfig) =
              layout.overlay (Function.update g .alarms (some as)) r := by
            apply layout.ext
            intro f
            rw [layout.get_overlay]
            cases f <;> rfl
          rw [hread]
          simp only [has, Eff.exec_bind, Eff.exec_ofExcept, Eff.exec_modify, Eff.exec_pure]
          exact congrArg (Prod.mk _) hrec

/-- The body lays what it reads over the record. -/
theorem body_realises (memory : Nat → Nat → AlarmConfig) :
    Realises layout (body P memory) (reading P memory)
      (fun v ↦ match v.getObject with
        | none => v
        | some o => .object .ptr (JGET_ARR o "alarms").2) where
  ok := by
    intro i v a r ha
    have hexec := exec_body P memory i v r
    rw [ha] at hexec
    exact hexec
  error := by
    intro i v x r hx
    have hexec := exec_body P memory i v r
    rw [hx] at hexec
    exact hexec

/-- What a reading says of its element: the plain members, and, unless the element is
skipped, alarms read on some memory. -/
private theorem reading_spec {memory : Nat → Nat → AlarmConfig} {i : Nat} {v : Var}
    {a : Reading Field.type} (h : reading P memory i v = .ok a) :
    (∀ f, f ≠ .alarms →
      IcsGateway.own (reads P) initialisers v f = (a.given f).or (initialisers f)) ∧
    (a.kept = true → ∃ vs as, alarmsOf v = some vs ∧ readAlarms P (memory i) 0 vs = .ok as ∧
      a.given .alarms = some as) ∧
    (a.kept = false → alarmsOf v = none) := by
  unfold reading at h
  unfold alarmsOf IcsGateway.own pushReading
  cases hv : v.getObject with
  | none => rw [hv] at h; cases h
  | some o =>
    rw [hv] at h
    simp only [deref, bind, Except.bind] at h ⊢
    cases hg : given o (reads P) with
    | error x => rw [hg] at h; cases h
    | ok g =>
      rw [hg] at h
      simp only [Option.bind_some] at h ⊢
      cases hal : (JGET_ARR o "alarms").1.vals with
      | none =>
        rw [hal] at h
        cases h
        exact ⟨fun _ _ ↦ rfl, (fun h ↦ by cases h), fun _ ↦ rfl⟩
      | some vs =>
        rw [hal] at h
        simp only at h
        cases has : readAlarms P (memory i) 0 vs with
        | error x => rw [has] at h; cases h
        | ok as =>
          rw [has] at h
          cases h
          refine ⟨?_, fun _ ↦ ⟨vs, as, rfl, has, ?_⟩, fun h ↦ by cases h⟩
          · intro f hf
            simp [Function.update_of_ne hf]
          · simp

private theorem own_alarms (v : Var) :
    own P v .alarms = (alarmsOf v).bind (alarmsAlone P) := Function.update_self _ _ _

private theorem own_of_ne {f : Field} (hf : f ≠ .alarms) (v : Var) :
    own P v f = IcsGateway.own (reads P) initialisers v f := Function.update_of_ne hf _ _

/-- A member that an element has and its reading has not is the one of a new record. -/
private theorem get_declared_of_own {memory : Nat → Nat → AlarmConfig} {es : List Var}
    (dev : DeviceConfig) {a : Var × Reading Field.type} {f : Field} {x : f.type}
    (ha : a ∈ readings (reading P memory) 0 es) (hn : a.2.given f = none)
    (hx : own P a.1 f = some x) : layout.get (declared layout initialisers dev) f = x := by
  obtain ⟨-, i, hi⟩ := reading_of_mem 0 ha
  obtain ⟨hplain, hkept, hskipped⟩ := reading_spec P hi
  by_cases hf : f = .alarms
  · subst hf
    exfalso
    cases hk : a.2.kept with
    | true =>
      obtain ⟨vs, as, -, -, hg⟩ := hkept hk
      rw [hg] at hn
      cases hn
    | false =>
      rw [own_alarms, hskipped hk] at hx
      cases hx
  · rw [own_of_ne P hf, hplain f hf, hn, Option.none_or] at hx
    unfold declared
    rw [layout.get_overlay, hx]
    rfl

/-- The loop over the devices decodes element by element exactly when nothing is carried and
every alarm it reads is complete. -/
theorem body_elementwise_iff (memory : Nat → Nat → AlarmConfig) (dev : DeviceConfig)
    (es : List Var) :
    Elementwise layout (own P) (readings (reading P memory) 0 es)
        (decodeList (body P memory) 0 (declared layout initialisers dev) es).out ↔
      NoneCarried initialisers (readings (reading P memory) 0 es) ∧
        ∀ a ∈ keptOf (readings (reading P memory) 0 es), ∀ vs, alarmsOf a.1 = some vs →
          alarmsComplete vs = true := by
  rw [decodeList_out (body_realises P memory)]
  unfold Elementwise
  rw [elementwise_iff layout (fun a ↦ own P a.1) _ _
    fun a f x ↦ get_declared_of_own P dev (a := a) (f := f)]
  constructor
  · intro hall
    constructor
    · intro pre a post hp hk f hn
      have hmem : a ∈ readings (reading P memory) 0 es := by rw [hp]; simp
      obtain ⟨-, i, hi⟩ := reading_of_mem 0 hmem
      obtain ⟨hplain, hkept, -⟩ := reading_spec P hi
      obtain ⟨x, hx, -, hc⟩ := hall pre a post hp hk f
      by_cases hf : f = .alarms
      · subst hf
        obtain ⟨vs, as, -, -, hg⟩ := hkept hk
        rw [hg] at hn
        cases hn
      · rw [own_of_ne P hf, hplain f hf, hn, Option.none_or] at hx
        exact ⟨x, hx, hc hn⟩
    · intro a ha vs hvs
      obtain ⟨hmem, hk⟩ := List.mem_filter.mp ha
      obtain ⟨pre, post, hp⟩ := List.append_of_mem hmem
      obtain ⟨x, hx, -, -⟩ := hall pre a post hp hk .alarms
      rw [own_alarms, hvs, Option.bind_some] at hx
      unfold alarmsAlone at hx
      by_contra hc
      rw [if_neg hc] at hx
      cases hx
  · rintro ⟨hnone, hcomplete⟩ pre a post hp hk f
    have hmem : a ∈ readings (reading P memory) 0 es := by rw [hp]; simp
    obtain ⟨-, i, hi⟩ := reading_of_mem 0 hmem
    obtain ⟨hplain, hkept, -⟩ := reading_spec P hi
    by_cases hf : f = .alarms
    · subst hf
      obtain ⟨vs, as, hvs, has, hg⟩ := hkept hk
      have hc := hcomplete a (List.mem_filter.mpr ⟨hmem, hk⟩) vs hvs
      have hcongr := readAlarms_congr P hc (memory i) (fun _ ↦ ⟨"", "", 0, 0, 0, ""⟩) 0 0
      refine ⟨as, ?_, ?_, ?_⟩
      · rw [own_alarms, hvs, Option.bind_some]
        unfold alarmsAlone
        rw [if_pos hc, ← hcongr, has]
        rfl
      · intro y hy
        rw [hg] at hy
        exact (Option.some.inj hy).symm
      · intro hn
        rw [hg] at hn
        cases hn
    · rw [own_of_ne P hf, hplain f hf]
      cases hg : a.2.given f with
      | some y => exact ⟨y, rfl, fun z hz ↦ (Option.some.inj hz).symm, nofun⟩
      | none =>
        obtain ⟨d, hd, hc⟩ := hnone pre a post hp hk f hg
        exact ⟨d, hd, nofun, fun _ ↦ hc⟩

end DeviceConfig

/-! ### The restrict rules -/

namespace NTPConfig

variable (P : Poco)

/-- The elements the second loop of `Load` runs over: none when the first throws or finds no
array. -/
def restrictElements (o : Object) : List Var :=
  match Object.getArray o "Servers" with
  | some vs =>
    match (decodeList (pushServer P) 0 "" vs).stop with
    | some _ => []
    | none => (Object.getArray o "Restrict").getD []
  | none => if Object.has o "Servers" then [] else (Object.getArray o "Restrict").getD []

/-- The pairs `Load` assigns, in order. -/
def restrictPairs (memory : RestrictRule) (o : Object) : List RestrictRule :=
  (decodeList (pushRecord RestrictRule.layout (RestrictRule.reads P)) 0
    (declared RestrictRule.layout RestrictRule.initialisers memory) (restrictElements P o)).out

/-- The second loop of `Load`, on a document that differs from the loaded one at `Servers`. -/
private theorem restrict_loadArray (memory : RestrictRule) (f : NTPConfig) {o o' : Object}
    (h : o'.lookup "Restrict" = o.lookup "Restrict") :
    ((loadArray "Restrict" (pushRecord RestrictRule.layout (RestrictRule.reads P))
        (declared RestrictRule.layout RestrictRule.initialisers memory) assignAll).exec
        ⟨f, some o'⟩).2.fields =
      assignAll (decodeList (pushRecord RestrictRule.layout (RestrictRule.reads P)) 0
        (declared RestrictRule.layout RestrictRule.initialisers memory)
        ((Object.getArray o "Restrict").getD [])).out f := by
  have hga := Object.getArray_congr h
  cases hg : Object.getArray o "Restrict" with
  | some vs =>
    rw [hg] at hga
    rw [exec_loadArray_of_getArray hga]
    rfl
  | none =>
    rw [hg] at hga
    cases hh : Object.has o' "Restrict" with
    | true =>
      rw [exec_loadArray_of_has hh hga]
      rfl
    | false =>
      rw [exec_loadArray_of_absent hh]
      rfl

/-- `Load` leaves in `Restrict` the pairs it assigns. -/
theorem load_restrict (memory : RestrictRule) (f : NTPConfig) (o : Object) :
    ((load P memory).exec ⟨f, some o⟩).2.fields.restrict =
      (restrictPairs P memory o).foldl (fun m r ↦ ComMap.assign m r.ip r.mask) [] := by
  have hother : ∀ v, (Object.set o "Servers" v).lookup "Restrict" = o.lookup "Restrict" := by
    intro v
    rw [Object.lookup_set, if_neg (by decide)]
  unfold load restrictPairs restrictElements
  rw [Eff.exec_bind, Eff.exec_get]
  simp only [Eff.exec_bind, Eff.exec_set]
  cases hg : Object.getArray o "Servers" with
  | some vs =>
    rw [exec_loadArray_of_getArray hg]
    cases hstop : (decodeList (pushServer P) 0 "" vs).stop with
    | some x =>
      simp only [hstop]
      rfl
    | none =>
      simp only [hstop, ↓reduceIte]
      rw [restrict_loadArray P memory _ (hother _)]
      rfl
  | none =>
    cases hh : Object.has o "Servers" with
    | true =>
      rw [exec_loadArray_of_has hh hg]
      rfl
    | false =>
      rw [exec_loadArray_of_absent hh]
      simp only [↓reduceIte]
      rw [restrict_loadArray P memory _ (hother _)]
      rfl

end NTPConfig

/-! ### The five decoders -/

/-- Each `Load` decodes its list element by element, on every memory, exactly when no
element it reads takes a member from the ones before it (and, for the devices, every alarm
read gives the members of `AlarmConfig` that have no initialiser). -/
theorem loads_elementwise_iff (P : Poco) (o : Object) :
    (∀ memory f, Elementwise ProcessConfig.layout
          (own (ProcessConfig.reads P) ProcessConfig.initialisers)
          (readings (pushReading (ProcessConfig.reads P)) 0
            (listElements (ManagerConfig_T.reads P) "Children" o))
          ((ManagerConfig_T.load P memory).exec ⟨f, some o⟩).2.fields.children ↔
        NoneCarried ProcessConfig.initialisers
          (readings (pushReading (ProcessConfig.reads P)) 0
            (listElements (ManagerConfig_T.reads P) "Children" o))) ∧
    (∀ memory dev f, Elementwise DeviceConfig.layout (DeviceConfig.own P)
          (readings (DeviceConfig.reading P memory) 0
            (listElements (CollectorConfig_T.reads P) "devices" o))
          ((CollectorConfig_T.load P memory dev).exec ⟨f, some o⟩).2.fields.devices ↔
        NoneCarried DeviceConfig.initialisers
            (readings (DeviceConfig.reading P memory) 0
              (listElements (CollectorConfig_T.reads P) "devices" o)) ∧
          ∀ a ∈ keptOf (readings (DeviceConfig.reading P memory) 0
              (listElements (CollectorConfig_T.reads P) "devices" o)),
            ∀ vs, DeviceConfig.alarmsOf a.1 = some vs →
              DeviceConfig.alarmsComplete vs = true) ∧
    (∀ memory f, ((NTPConfig.load P memory).exec ⟨f, some o⟩).2.fields.restrict =
          (NTPConfig.restrictPairs P memory o).foldl
            (fun m r ↦ ComMap.assign m r.ip r.mask) [] ∧
        (Elementwise RestrictRule.layout (own (RestrictRule.reads P) RestrictRule.initialisers)
            (readings (pushReading (RestrictRule.reads P)) 0 (NTPConfig.restrictElements P o))
            (NTPConfig.restrictPairs P memory o) ↔
          NoneCarried RestrictRule.initialisers (readings (pushReading (RestrictRule.reads P)) 0
            (NTPConfig.restrictElements P o)))) ∧
    (∀ memory f, Elementwise SensorAlarmConfig.layout
          (own (SensorAlarmConfig.reads P) SensorAlarmConfig.initialisers)
          (readings (pushReading (SensorAlarmConfig.reads P)) 0
            ((Object.getArray o "Sensors").getD []))
          ((SensorGroup_T.load P memory).exec ⟨f, some o⟩).2.fields.sensorAlarm ↔
        NoneCarried SensorAlarmConfig.initialisers
          (readings (pushReading (SensorAlarmConfig.reads P)) 0
            ((Object.getArray o "Sensors").getD []))) ∧
    (∀ memory f, Elementwise DefaultRelayState.layout
          (own (DefaultRelayState.reads P) DefaultRelayState.initialisers)
          (readings (pushReading (DefaultRelayState.reads P)) 0
            ((Object.getArray o "Relays").getD []))
          ((DefaultRelayState_T.load P memory).exec ⟨f, some o⟩).2.fields.dFRelay ↔
        NoneCarried DefaultRelayState.initialisers
          (readings (pushReading (DefaultRelayState.reads P)) 0
            ((Object.getArray o "Relays").getD []))) := by
  refine ⟨?_, ?_, ?_, ?_, ?_⟩
  · intro memory f
    exact load_elementwise_iff (ManagerConfig_T.faithful P memory)
      (by simp [ProcessConfig.reads]) rfl rfl f o
  · intro memory dev f
    have hl := list_load (CollectorConfig_T.faithful P memory dev) f o
    have hb := DeviceConfig.body_elementwise_iff P memory dev
      (listElements (CollectorConfig_T.reads P) "devices" o)
    rw [← hb]
    exact iff_of_eq (congrArg (Elementwise DeviceConfig.layout (DeviceConfig.own P) _) hl)
  · intro memory f
    exact ⟨NTPConfig.load_restrict P memory f o,
      pushRecord_elementwise_iff RestrictRule.layout (by simp [RestrictRule.reads])
        RestrictRule.initialisers memory _⟩
  · intro memory f
    exact load_elementwise_iff (SensorGroup_T.faithful P memory)
      (by simp [SensorAlarmConfig.reads]) rfl rfl f o
  · intro memory f
    exact load_elementwise_iff (DefaultRelayState_T.faithful P memory)
      (by simp [DefaultRelayState.reads]) rfl rfl f o

/-- Two children of which the second gives no priority. -/
def twoChildren : List Var :=
  [.object .ptr [("Protocol", .str "MQTT"), ("Command", .str "it5-mqtt"), ("Priority", .int 5),
      ("MaxSpawnTimes", .int 3), ("IsRespawn", .bool true), ("RespawnDelay", .int 30)],
    .object .ptr [("Protocol", .str "BRIDGE"), ("Command", .str "it5-bridge"),
      ("MaxSpawnTimes", .int 3), ("IsRespawn", .bool true), ("RespawnDelay", .int 30)]]

/-- The second child has the priority of the first, and the default one once the first is
removed from the document. -/
theorem not_elementwise_twoChildren :
    (((ManagerConfig_T.load Poco.json mqttChild).exec
        ⟨mqttManager, some [("Children", .array .ptr twoChildren)]⟩).2.fields.children.map
      fun c ↦ (c.proto, c.priority)) = [("MQTT", 5), ("BRIDGE", 5)] ∧
    (((ManagerConfig_T.load Poco.json mqttChild).exec
        ⟨mqttManager, some [("Children", .array .ptr twoChildren.tail)]⟩).2.fields.children.map
      fun c ↦ (c.proto, c.priority)) = [("BRIDGE", 100)] ∧
    ¬ Elementwise ProcessConfig.layout
      (own (ProcessConfig.reads Poco.json) ProcessConfig.initialisers)
      (readings (pushReading (ProcessConfig.reads Poco.json)) 0
        (listElements (ManagerConfig_T.reads Poco.json) "Children"
          [("Children", .array .ptr twoChildren)]))
      ((ManagerConfig_T.load Poco.json mqttChild).exec
        ⟨mqttManager, some [("Children", .array .ptr twoChildren)]⟩).2.fields.children := by
  refine ⟨by decide, by decide, ?_⟩
  intro h
  cases h with
  | cons _ h =>
    cases h with
    | cons h _ =>
      have hp := h .priority
      revert hp
      decide

end IcsGateway
