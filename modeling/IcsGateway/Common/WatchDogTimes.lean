import Mathlib.Data.List.Induction
import Mathlib.Data.List.Nodup
import IcsGateway.Common.WatchDog

/-!
# Watchdog sections with their times

`WatchDogSection::FromJson` with the times of the last changes (`Common/ComUtil.cpp:642–728`),
which are left out in the model of the sections; without them the two agree. The loop declares
`state` and `info` before it, so an entry without one of them takes the one read before it
(`carried`), and a new entry is stored under the name it gives.
-/

namespace IcsGateway

open Lib

/-! ### Sections with times -/

/-- What the calls of `time(0)` give while an entry is read: the two of a new entry, and that of
`Change`. -/
structure Times where
  created : Int
  createdPrev : Int
  changed : Int

/-- The state of a component with its times; `Common/ComUtil.h:364`. -/
structure TimedParam extends WatchDogParam_T where
  changeTime : Int
  prevChangeTime : Int
  deriving DecidableEq, Repr

namespace TimedParam

/-- A new entry. -/
def new (t : Times) : TimedParam :=
  { WatchDogParam_T.new with changeTime := t.created, prevChangeTime := t.createdPrev }

/-- `WatchDogParam_T::Change`; `Common/ComUtil.cpp:642`. -/
def change (p : TimedParam) (st : Bool) (msg : COMStr) (time : Int) : TimedParam :=
  if st = p.state then { p with info := msg }
  else { p with info := msg, state := st, prevChangeTime := p.changeTime, changeTime := time }

/-- Without its times, an entry is changed as the model without times has it. -/
@[simp] theorem toWatchDogParam_T_change (p : TimedParam) (st : Bool) (msg : COMStr) (time : Int) :
    (p.change st msg time).toWatchDogParam_T = p.toWatchDogParam_T.change st msg := by
  unfold change
  split
  · next h => simp [WatchDogParam_T.change, h]
  · rfl

/-- The text it had does not count. -/
theorem change_overwrites (p : TimedParam) (old : COMStr) (st : Bool) (msg : COMStr) (time : Int) :
    TimedParam.change { p with info := old } st msg time = p.change st msg time := by
  unfold change
  split <;> rfl

/-- The state given. -/
@[simp] theorem change_state (p : TimedParam) (st : Bool) (msg : COMStr) (time : Int) :
    (p.change st msg time).state = st := by
  unfold change
  split
  · next h => exact h.symm
  · rfl

/-- The text given. -/
@[simp] theorem change_info (p : TimedParam) (st : Bool) (msg : COMStr) (time : Int) :
    (p.change st msg time).info = msg := by
  unfold change
  split <;> rfl

/-- The name stays. -/
@[simp] theorem change_name (p : TimedParam) (st : Bool) (msg : COMStr) (time : Int) :
    (p.change st msg time).name = p.name := by
  unfold change
  split <;> rfl

end TimedParam

/-- A process with its components; `Common/ComUtil.h:387`. -/
structure TimedSection where
  name : COMStr
  info : COMStr
  entries : ComMap TimedParam

namespace TimedSection

/-- What was known of a component: its entry, or a new one. -/
def previous (s : TimedSection) (key : COMStr) : WatchDogParam_T :=
  ((s.entries.lookup key).map (·.toWatchDogParam_T)).getD .new

/-- The same entries, with their times. -/
def SameEntries (s t : TimedSection) : Prop :=
  ∀ key, s.entries.lookup key = t.entries.lookup key

/-- `(*this)[key] = wd`. -/
def assign (s : TimedSection) (key : COMStr) (wd : TimedParam) : TimedSection :=
  { s with entries := s.entries.assign key wd }

/-- The loop of `FromJson`; `Common/ComUtil.cpp:695–722`. Each key is met once, at its `now`. -/
def fromJsonEntries (P : Poco) (now : COMStr → Times) (pobj : Object) (state : Bool)
    (info : COMStr) : List COMStr → Eff Exn TimedSection Unit
  | [] => pure ()
  | key :: keys =>
    if key = "Info" ∨ key = "Name" then fromJsonEntries P now pobj state info keys
    else do
      let pit := (Object.get pobj key).getObject
      let state ← Eff.ofExcept (JGET Poco.convertBool state pit "State")
      let info ← Eff.ofExcept (JGET P.convertStr info pit "Info")
      match (← get).entries.lookup key with
      | some wd =>
        let name ← Eff.ofExcept (JGET P.convertStr wd.name pit "Name")
        modify (·.assign key { wd with name := name })
        let own ← Eff.ofExcept (JGET P.convertStr wd.info pit "Info")
        modify (·.assign key { wd with name := name, info := own })
        modify (·.assign key
          (TimedParam.change { wd with name := name, info := own } state info (now key).changed))
      | none =>
        let wd := TimedParam.new (now key)
        let name ← Eff.ofExcept (JGET P.convertStr wd.name pit "Name")
        let own ← Eff.ofExcept (JGET P.convertStr wd.info pit "Info")
        modify (·.assign name
          (TimedParam.change { wd with name := name, info := own } state info (now key).changed))
      fromJsonEntries P now pobj state info keys

/-- `WatchDogSection::FromJson`; `Common/ComUtil.cpp:680`. -/
def fromJson (P : Poco) (now : COMStr → Times) (memory : Bool) (json : COMStr) :
    Eff Exn TimedSection Bool := do
  let result ← Eff.ofExcept (P.parse json)
  let pobj ← Eff.ofExcept result.extractObject
  let own ← Eff.ofExcept (JGET P.convertStr (← get).info (some pobj) "Info")
  modify fun s ↦ { s with info := own }
  fromJsonEntries P now pobj memory "" ((pobj.map (·.1)).mergeSort (· ≤ ·))
  pure true

/-! ### Without the times -/

/-- The section without the times. -/
def erase (s : TimedSection) : WatchDogSection :=
  { name := s.name, info := s.info,
    entries := s.entries.map fun p ↦ (p.1, p.2.toWatchDogParam_T) }

/-- An entry of the section without the times. -/
theorem lookup_erase (s : TimedSection) (key : COMStr) :
    s.erase.entries.lookup key = (s.entries.lookup key).map (·.toWatchDogParam_T) := by
  obtain ⟨name, info, entries⟩ := s
  simp only [erase]
  induction entries with
  | nil => rfl
  | cons p entries ih =>
    rw [List.map_cons, List.lookup_cons, List.lookup_cons]
    cases key == p.1 with
    | true => rfl
    | false => exact ih

/-- An assignment, without the times. -/
theorem erase_assign (s : TimedSection) (key : COMStr) (wd : TimedParam) :
    (s.assign key wd).erase = s.erase.assign key wd.toWatchDogParam_T := by
  obtain ⟨name, info, entries⟩ := s
  have hassign : (entries.assign key wd).map (fun p ↦ (p.1, p.2.toWatchDogParam_T)) =
      ComMap.assign (entries.map fun p ↦ (p.1, p.2.toWatchDogParam_T)) key
        wd.toWatchDogParam_T := by
    induction entries with
    | nil => rfl
    | cons p entries ih =>
      rw [ComMap.assign, List.map_cons, ComMap.assign]
      split
      · rfl
      · split
        · rfl
        · rw [List.map_cons, ih]
  simp only [erase, assign, WatchDogSection.assign, hassign]

/-! ### The loop, entry by entry -/

/-- What the object of an entry gives. -/
structure Given where
  name : Option COMStr
  info : Option COMStr
  state : Option Bool

/-- The values of an object that are there; one of another type is converted. -/
def given (P : Poco) (pit : Object) : Given :=
  { name := (P.convertStr (Object.get pit "Name")).toOption
    info := (P.convertStr (Object.get pit "Info")).toOption
    state := (Poco.convertBool (Object.get pit "State")).toOption }

/-- Reading a text of the object of an entry. -/
private theorem jget_text (P : Poco) (v : COMStr) (o : Object) (k : COMStr) :
    JGET P.convertStr v (some o) k = .ok ((P.convertStr (Object.get o k)).toOption.getD v) :=
  JGET_eq_getD P.convertStr_ok_iff v o k

/-- Reading its state. -/
private theorem jget_bool (v : Bool) (o : Object) (k : COMStr) :
    JGET Poco.convertBool v (some o) k =
      .ok ((Poco.convertBool (Object.get o k)).toOption.getD v) :=
  JGET_eq_getD Poco.convertBool_ok_iff v o k

/-- The variables of the loop, with the section. -/
structure Loop where
  state : Bool
  info : COMStr
  sec : TimedSection

/-- The entry written for what was there. -/
def written (g : Given) (t : Times) (old : Option TimedParam) (state : Bool) (info : COMStr) :
    TimedParam :=
  let p := old.getD (.new t)
  { p with name := g.name.getD p.name }.change state info t.changed

/-- What is written for an entry keeps it when it says nothing new. -/
theorem written_self {g : Given} {p : TimedParam} (t : Times) (h : g.name.getD p.name = p.name) :
    written g t (some p) p.state p.info = p := by
  simp only [written, Option.getD_some, h, TimedParam.change, if_true]

/-- The name written. -/
theorem written_name (g : Given) (t : Times) (old : Option TimedParam) (state : Bool)
    (info : COMStr) :
    g.name.getD (written g t old state info).name = (written g t old state info).name := by
  rw [written, TimedParam.change_name]
  cases g.name <;> rfl

/-- The key it is written under. -/
def target (g : Given) (s : TimedSection) (key : COMStr) : COMStr :=
  if (s.entries.lookup key).isSome then key else g.name.getD ""

/-- One pass of the loop over an entry. -/
def Loop.step (own : COMStr → Given) (now : COMStr → Times) (c : Loop) (key : COMStr) : Loop :=
  let state := (own key).state.getD c.state
  let info := (own key).info.getD c.info
  { state, info
    sec := c.sec.assign (target (own key) c.sec key)
      (written (own key) (now key) (c.sec.entries.lookup key) state info) }

/-- The keys of the entries, in the order of the loop. -/
def entryKeys (pobj : Object) : List COMStr :=
  ((pobj.map (·.1)).mergeSort (· ≤ ·)).filter fun key ↦ key ≠ "Info" ∧ key ≠ "Name"

/-- What the entries of a message give. -/
def own (P : Poco) (pobj : Object) (key : COMStr) : Given :=
  given P ((Object.get pobj key).getObject.getD [])

/-- What an entry gives, by its object. -/
theorem own_of_getObject {P : Poco} {pobj pit : Object} {key : COMStr}
    (h : (Object.get pobj key).getObject = some pit) : own P pobj key = given P pit := by
  rw [own, h]
  rfl

/-- An entry with its object is one pass of the loop. -/
theorem exec_fromJsonEntries_cons (P : Poco) (now : COMStr → Times) {pobj : Object}
    {key : COMStr} (keys : List COMStr) (hkey : ¬ (key = "Info" ∨ key = "Name"))
    (hobj : (Object.get pobj key).getObject.isSome = true) (c : Loop) :
    (fromJsonEntries P now pobj c.state c.info (key :: keys)).exec c.sec =
      (fromJsonEntries P now pobj (c.step (own P pobj) now key).state
        (c.step (own P pobj) now key).info keys).exec (c.step (own P pobj) now key).sec := by
  obtain ⟨pit, hpit⟩ := Option.isSome_iff_exists.mp hobj
  rw [fromJsonEntries, if_neg hkey]
  simp only [hpit, jget_text, jget_bool, Eff.exec_ofExcept_bind]
  rw [Eff.exec_bind_of_ok (Eff.exec_get c.sec)]
  simp only [Loop.step, own_of_getObject hpit]
  cases hold : c.sec.entries.lookup key with
  | some wd =>
    simp only [Eff.exec_ofExcept, Eff.exec_bind, Eff.exec_modify, assign, ComMap.assign_assign]
    rw [target, hold]
    exact congrArg (fun p ↦ Eff.exec _ (c.sec.assign key p))
      (TimedParam.change_overwrites { wd with name := (given P pit).name.getD wd.name } _ _ _ _)
  | none =>
    simp only [Eff.exec_ofExcept, Eff.exec_bind, Eff.exec_modify]
    rw [target, hold]
    exact congrArg (fun p ↦ Eff.exec _ (c.sec.assign _ p)) (TimedParam.change_overwrites
      { TimedParam.new (now key) with name := (given P pit).name.getD "" } _ _ _ _)

/-- The keys of a message are distinct. -/
theorem nodup_entryKeys {pobj : Object} (h : (pobj.map (·.1)).Nodup) : (entryKeys pobj).Nodup :=
  ((List.mergeSort_perm _ _).nodup_iff.mpr h).filter _

/-- A value that is no object stops the loop. -/
theorem exec_fromJsonEntries_none (P : Poco) (now : COMStr → Times) {pobj : Object}
    {key : COMStr} (keys : List COMStr) (hkey : ¬ (key = "Info" ∨ key = "Name"))
    (hobj : (Object.get pobj key).getObject = none) (state : Bool) (info : COMStr)
    (s : TimedSection) :
    (fromJsonEntries P now pobj state info (key :: keys)).exec s = (.error .nullPointer, s) := by
  rw [fromJsonEntries, if_neg hkey]
  simp only [hobj, JGET_none, Eff.exec_ofExcept_bind]

/-- The loop passes over the keys of the section itself. -/
theorem exec_fromJsonEntries_filter (P : Poco) (now : COMStr → Times) (pobj : Object)
    (keys : List COMStr) (c : Loop) :
    (fromJsonEntries P now pobj c.state c.info keys).exec c.sec =
      (fromJsonEntries P now pobj c.state c.info
        (keys.filter fun key ↦ key ≠ "Info" ∧ key ≠ "Name")).exec c.sec := by
  induction keys generalizing c with
  | nil => rfl
  | cons key keys ih =>
    by_cases hkey : key = "Info" ∨ key = "Name"
    · rw [fromJsonEntries, if_pos hkey, List.filter_cons_of_neg (by grind), ih]
    · rw [List.filter_cons_of_pos (by grind)]
      cases hobj : (Object.get pobj key).getObject with
      | none =>
        rw [exec_fromJsonEntries_none P now _ hkey hobj,
          exec_fromJsonEntries_none P now _ hkey hobj]
      | some pit =>
        have hsome : (Object.get pobj key).getObject.isSome = true := by rw [hobj]; rfl
        rw [exec_fromJsonEntries_cons P now _ hkey hsome,
          exec_fromJsonEntries_cons P now _ hkey hsome, ih]

/-- Without the times, the loop is that of the model without them. -/
theorem exec_fromJsonEntries_erase (P : Poco) (now : COMStr → Times) (pobj : Object)
    (keys : List COMStr) (c : Loop) :
    (WatchDogSection.fromJsonEntries P pobj c.state c.info keys).exec c.sec.erase =
      (((fromJsonEntries P now pobj c.state c.info keys).exec c.sec).1,
        ((fromJsonEntries P now pobj c.state c.info keys).exec c.sec).2.erase) := by
  induction keys generalizing c with
  | nil => rfl
  | cons key keys ih =>
    by_cases hkey : key = "Info" ∨ key = "Name"
    · rw [WatchDogSection.fromJsonEntries, fromJsonEntries, if_pos hkey, if_pos hkey, ih]
    · cases hobj : (Object.get pobj key).getObject with
      | none =>
        rw [exec_fromJsonEntries_none P now _ hkey hobj, WatchDogSection.fromJsonEntries,
          if_neg hkey]
        simp only [hobj, JGET_none, Eff.exec_ofExcept_bind]
      | some pit =>
        have hsome : (Object.get pobj key).getObject.isSome = true := by
          rw [hobj]
          rfl
        rw [exec_fromJsonEntries_cons P now _ hkey hsome, ← ih, WatchDogSection.fromJsonEntries,
          if_neg hkey]
        simp only [hobj, jget_text, jget_bool, Eff.exec_ofExcept_bind]
        rw [Eff.exec_bind_of_ok (Eff.exec_get c.sec.erase), lookup_erase]
        simp only [Loop.step, own_of_getObject hobj, erase_assign, target, written,
          TimedParam.toWatchDogParam_T_change]
        cases hold : c.sec.entries.lookup key with
        | some wd =>
          simp only [Option.map_some, Eff.exec_ofExcept, Eff.exec_bind, Eff.exec_modify,
            WatchDogSection.assign, ComMap.assign_assign]
          rfl
        | none =>
          simp only [Option.map_none, Eff.exec_ofExcept, Eff.exec_bind, Eff.exec_modify]
          rfl

/-! ### What the reading leaves -/

/-- The loop before its first pass, with the text of the message for the section. -/
def start (P : Poco) (pobj : Object) (memory : Bool) (s : TimedSection) : Loop :=
  { state := memory
    info := ""
    sec := { s with info := (P.convertStr (Object.get pobj "Info")).toOption.getD s.info } }

/-- The entries before one are passed one after another. -/
private theorem exec_fromJsonEntries_append (P : Poco) (now : COMStr → Times) {pobj : Object}
    {before : List COMStr} (hkeys : ∀ key ∈ before, ¬ (key = "Info" ∨ key = "Name"))
    (hobj : ∀ key ∈ before, (Object.get pobj key).getObject.isSome = true) (after : List COMStr)
    (c : Loop) :
    (fromJsonEntries P now pobj c.state c.info (before ++ after)).exec c.sec =
      (fromJsonEntries P now pobj (before.foldl (Loop.step (own P pobj) now) c).state
        (before.foldl (Loop.step (own P pobj) now) c).info after).exec
        (before.foldl (Loop.step (own P pobj) now) c).sec := by
  induction before generalizing c with
  | nil => rfl
  | cons key before ih =>
    rw [List.forall_mem_cons] at hkeys hobj
    rw [List.cons_append, exec_fromJsonEntries_cons P now _ hkeys.1 hobj.1, ih hkeys.2 hobj.2,
      List.foldl_cons]

/-- The keys of entries. -/
theorem of_mem_entryKeys {pobj : Object} {key : COMStr} (h : key ∈ entryKeys pobj) :
    ¬ (key = "Info" ∨ key = "Name") := by
  have hkey := (List.mem_filter.mp h).2
  rw [decide_eq_true_iff] at hkey
  exact not_or.mpr hkey

/-- An object that is read: first its text, then its entries. -/
private theorem exec_fromJson (P : Poco) (now : COMStr → Times) {text : COMStr} {pobj : Object}
    (hparse : P.parse text = .ok (.object .ptr pobj)) (memory : Bool) (s : TimedSection) :
    (fromJson P now memory text).exec s =
      (fromJsonEntries P now pobj memory "" (entryKeys pobj) >>= fun _ ↦ pure true).exec
        (start P pobj memory s).sec := by
  rw [fromJson]
  simp only [hparse, Var.extractObject, Eff.exec_ofExcept_bind]
  rw [Eff.exec_bind_of_ok (Eff.exec_get s)]
  simp only [jget_text, Eff.exec_ofExcept_bind]
  rw [Eff.exec_bind_of_ok (Eff.exec_modify _ _)]
  apply Eff.exec_bind_congr
  exact exec_fromJsonEntries_filter P now pobj _ (start P pobj memory s)

/-- The section after all entries of a message. -/
def applied (P : Poco) (pobj : Object) (now : COMStr → Times) (memory : Bool)
    (s : TimedSection) : TimedSection :=
  ((entryKeys pobj).foldl (Loop.step (own P pobj) now) (start P pobj memory s)).sec

/-- A message of entries is read to its end. -/
theorem exec_fromJson_of_forall (P : Poco) (now : COMStr → Times) {text : COMStr} {pobj : Object}
    (hparse : P.parse text = .ok (.object .ptr pobj))
    (hobj : ∀ key ∈ entryKeys pobj, (Object.get pobj key).getObject.isSome = true)
    (memory : Bool) (s : TimedSection) :
    (fromJson P now memory text).exec s = (.ok true, applied P pobj now memory s) := by
  have hall := exec_fromJsonEntries_append P now (fun key hkey ↦ of_mem_entryKeys hkey) hobj []
    (start P pobj memory s)
  rw [List.append_nil] at hall
  rw [exec_fromJson P now hparse]
  exact Eff.exec_bind_of_ok hall

/-- A message with a value that is no entry is read up to the first one. -/
theorem exec_fromJson_of_none (P : Poco) (now : COMStr → Times) {text : COMStr} {pobj : Object}
    (hparse : P.parse text = .ok (.object .ptr pobj)) {before after : List COMStr} {key : COMStr}
    (hsplit : entryKeys pobj = before ++ key :: after)
    (hobj : ∀ k ∈ before, (Object.get pobj k).getObject.isSome = true)
    (hnone : (Object.get pobj key).getObject = none) (memory : Bool) (s : TimedSection) :
    (fromJson P now memory text).exec s = (.error .nullPointer,
      (before.foldl (Loop.step (own P pobj) now) (start P pobj memory s)).sec) := by
  have hkeys : ∀ k ∈ before ++ key :: after, ¬ (k = "Info" ∨ k = "Name") := by
    intro k hk
    rw [← hsplit] at hk
    exact of_mem_entryKeys hk
  have hstop := exec_fromJsonEntries_append P now
    (fun k hk ↦ hkeys k (List.mem_append_left _ hk)) hobj (key :: after) (start P pobj memory s)
  rw [exec_fromJsonEntries_none P now after
    (hkeys key (List.mem_append_right _ List.mem_cons_self)) hnone] at hstop
  rw [exec_fromJson P now hparse, hsplit]
  exact Eff.exec_bind_of_error hstop

/-- Without the times, `FromJson` is that of the model without them. -/
theorem exec_fromJson_erase (P : Poco) (now : COMStr → Times) (memory : Bool) (text : COMStr)
    (s : TimedSection) :
    (WatchDogSection.fromJson P memory text).exec s.erase =
      (((fromJson P now memory text).exec s).1, ((fromJson P now memory text).exec s).2.erase) := by
  rw [WatchDogSection.fromJson, fromJson]
  simp only [Eff.exec_ofExcept_bind]
  cases P.parse text with
  | error e => rfl
  | ok result =>
    simp only
    cases result.extractObject with
    | error e => rfl
    | ok pobj =>
      simp only
      rw [Eff.exec_bind_of_ok (Eff.exec_get s.erase), Eff.exec_bind_of_ok (Eff.exec_get s)]
      simp only [jget_text, Eff.exec_ofExcept_bind]
      rw [Eff.exec_bind_of_ok (Eff.exec_modify _ _), Eff.exec_bind_of_ok (Eff.exec_modify _ _)]
      have hloop := exec_fromJsonEntries_erase P now pobj
        ((pobj.map (·.1)).mergeSort (· ≤ ·)) (start P pobj memory s)
      simp only [start, erase] at hloop ⊢
      rw [Eff.exec_bind, Eff.exec_bind, hloop]
      generalize (fromJsonEntries P now pobj memory "" _).exec _ = outcome
      obtain ⟨r, s'⟩ := outcome
      cases r <;> rfl

/-! ### The passes together -/

/-- The last value given. -/
def carried {α : Type} (f : COMStr → Option α) (keys : List COMStr) : Option α :=
  keys.reverse.findSome? f

/-- The one after them counts first. -/
@[simp] theorem carried_concat {α : Type} (f : COMStr → Option α) (keys : List COMStr)
    (key : COMStr) : carried f (keys ++ [key]) = (f key).or (carried f keys) := by
  rw [carried, List.reverse_concat, List.findSome?_cons, carried]
  cases f key <;> rfl

/-- Where nothing is given, what the variable held would count. -/
theorem eq_some_of_forall_getD {o : Option Bool} {b : Bool} (h : ∀ memory, o.getD memory = b) :
    o = some b := by
  cases o with
  | some a => exact congrArg some (h true)
  | none => cases (h true).trans (h false).symm

/-- A variable overlaid key by key. -/
theorem foldl_getD {α : Type} (f : COMStr → Option α) (keys : List COMStr) (v : α) :
    keys.foldl (fun v key ↦ (f key).getD v) v = (carried f keys).getD v := by
  induction keys using List.reverseRecOn with
  | nil => rfl
  | append_singleton keys key ih => rw [List.foldl_concat, carried_concat, Option.getD_or, ih]

section Passes

variable {own : COMStr → Given} {now : COMStr → Times}

/-- The state carried along. -/
theorem state_foldl (keys : List COMStr) (c : Loop) :
    (keys.foldl (Loop.step own now) c).state =
      (carried (fun key ↦ (own key).state) keys).getD c.state := by
  rw [← foldl_getD]
  exact (List.foldl_hom Loop.state fun _ _ ↦ rfl).symm

/-- The text carried along. -/
theorem info_foldl (keys : List COMStr) (c : Loop) :
    (keys.foldl (Loop.step own now) c).info =
      (carried (fun key ↦ (own key).info) keys).getD c.info := by
  rw [← foldl_getD]
  exact (List.foldl_hom Loop.info fun _ _ ↦ rfl).symm

/-- New entries go under their keys. -/
def Fits (own : COMStr → Given) (s : TimedSection) (keys : List COMStr) : Prop :=
  ∀ key ∈ keys, s.entries.lookup key = none → (own key).name.getD "" = key

/-- The passes leave the text of the section. -/
theorem sec_info_foldl (keys : List COMStr) (c : Loop) :
    (keys.foldl (Loop.step own now) c).sec.info = c.sec.info := by
  induction keys generalizing c with
  | nil => rfl
  | cons key keys ih => exact ih _

/-- A pass writes one key. -/
theorem lookup_step (c : Loop) (key k : COMStr) :
    (c.step own now key).sec.entries.lookup k = if k = target (own key) c.sec key then
      some (written (own key) (now key) (c.sec.entries.lookup key)
        ((own key).state.getD c.state) ((own key).info.getD c.info))
      else c.sec.entries.lookup k := by
  simp only [Loop.step, assign, ComMap.lookup_assign]

/-- It is that of the entry when the section has it, or the entry names it. -/
theorem target_eq {g : Given} {s : TimedSection} {key : COMStr}
    (h : s.entries.lookup key = none → g.name.getD "" = key) : target g s key = key := by
  rw [target]
  split
  · rfl
  · next hnone =>
    rw [Option.not_isSome_iff_eq_none] at hnone
    exact h hnone

/-- The keys after one still fit. -/
theorem Fits.step {c : Loop} {key : COMStr} {keys : List COMStr}
    (h : Fits own c.sec (key :: keys)) (hnot : key ∉ keys) :
    Fits own (c.step own now key).sec keys := by
  intro k hk hnone
  have hne : k ≠ key := fun he ↦ hnot (he ▸ hk)
  rw [lookup_step, target_eq (h key List.mem_cons_self), if_neg hne] at hnone
  exact h k (List.mem_cons_of_mem _ hk) hnone

/-- The entries under other keys stay. -/
theorem Fits.lookup_of_notMem {c : Loop} {keys : List COMStr} (h : Fits own c.sec keys)
    (hnodup : keys.Nodup) {k : COMStr} (hk : k ∉ keys) :
    (keys.foldl (Loop.step own now) c).sec.entries.lookup k = c.sec.entries.lookup k := by
  induction keys generalizing c with
  | nil => rfl
  | cons key keys ih =>
    obtain ⟨hnot, hnodup⟩ := List.nodup_cons.mp hnodup
    rw [List.mem_cons, not_or] at hk
    rw [List.foldl_cons, ih (h.step hnot) hnodup hk.2, lookup_step,
      target_eq (h key List.mem_cons_self), if_neg hk.1]

/-- The keys before some fit, -/
theorem Fits.left {s : TimedSection} {before after : List COMStr}
    (h : Fits own s (before ++ after)) : Fits own s before :=
  fun k hk ↦ h k (List.mem_append_left after hk)

/-- and those after them when they have been passed. -/
theorem Fits.foldl {c : Loop} {before after : List COMStr} (h : Fits own c.sec (before ++ after))
    (hnodup : (before ++ after).Nodup) :
    Fits own (before.foldl (Loop.step own now) c).sec after := by
  intro k hk hnone
  have hnot : k ∉ before := fun hb ↦ List.disjoint_of_nodup_append hnodup hb hk
  rw [h.left.lookup_of_notMem (List.Nodup.of_append_left hnodup) hnot] at hnone
  exact h k (List.mem_append_right before hk) hnone

/-- The entry of a message is written for the one that was there, with the values carried. -/
theorem Fits.lookup_of_mem {c : Loop} {before after : List COMStr} {key : COMStr}
    (h : Fits own c.sec (before ++ key :: after)) (hnodup : (before ++ key :: after).Nodup) :
    ((before ++ key :: after).foldl (Loop.step own now) c).sec.entries.lookup key =
      some (written (own key) (now key) (c.sec.entries.lookup key)
        ((carried (fun k ↦ (own k).state) (before ++ [key])).getD c.state)
        ((carried (fun k ↦ (own k).info) (before ++ [key])).getD c.info)) := by
  obtain ⟨hnot, -⟩ := List.nodup_cons.mp (List.nodup_middle.mp hnodup)
  rw [List.mem_append, not_or] at hnot
  have hrest : Fits own (before.foldl (Loop.step own now) c).sec (key :: after) := h.foldl hnodup
  obtain ⟨-, hafter⟩ := List.nodup_cons.mp (List.Nodup.of_append_right hnodup)
  rw [List.foldl_append, List.foldl_cons, (hrest.step hnot.2).lookup_of_notMem hafter hnot.2,
    lookup_step, target_eq (hrest key List.mem_cons_self), if_pos rfl,
    h.left.lookup_of_notMem (List.Nodup.of_append_left hnodup) hnot.1, state_foldl, info_foldl,
    carried_concat, carried_concat, Option.getD_or, Option.getD_or]

/-- When every entry of a message ends up under its key, the new ones were stored there. -/
theorem fits_of_forall_isSome {c : Loop} {keys : List COMStr} (hnodup : keys.Nodup)
    (h : ∀ key ∈ keys,
      ((keys.foldl (Loop.step own now) c).sec.entries.lookup key).isSome = true) :
    Fits own c.sec keys := by
  induction keys generalizing c with
  | nil => exact fun k hk ↦ absurd hk List.not_mem_nil
  | cons key keys ih =>
    obtain ⟨hnot, hnodup⟩ := List.nodup_cons.mp hnodup
    rw [List.forall_mem_cons, List.foldl_cons] at h
    have hrest := ih hnodup h.2
    -- nothing after its own pass writes under the key
    have hsome := h.1
    rw [hrest.lookup_of_notMem hnodup hnot] at hsome
    have hkey : c.sec.entries.lookup key = none → (own key).name.getD "" = key := by
      intro hnone
      by_contra hne
      have htarget : target (own key) c.sec key = (own key).name.getD "" := by
        rw [target, hnone]
        rfl
      rw [lookup_step, htarget, if_neg (Ne.symm hne), hnone] at hsome
      cases hsome
    intro k hk hnone
    rcases List.mem_cons.mp hk with rfl | hk
    · exact hkey hnone
    · apply hrest k hk
      have hne : k ≠ key := fun he ↦ hnot (he ▸ hk)
      rw [lookup_step, target_eq hkey, if_neg hne]
      exact hnone

end Passes

end TimedSection
end IcsGateway
