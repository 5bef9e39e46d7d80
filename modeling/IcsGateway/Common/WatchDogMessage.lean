import IcsGateway.Base.Json
import IcsGateway.Common.WatchDogTimes

/-!
# What a status message says

A message read into a section is to do what its entries say, each for itself, and nothing more
when it is read again. It does exactly when what is carried from entry to entry makes no
difference (`Settled`).
-/

namespace IcsGateway

open Lib

namespace TimedSection

/-- Every value of a message but those of the section itself is an entry. -/
def OfEntries (pobj : Object) : Prop :=
  ∀ key ∈ entryKeys pobj, (Object.get pobj key).getObject.isSome = true

/-- A section does what a message says: an entry has the state and the text its own object gives,
else those it had, and a component the message has no entry for stays as it was. -/
structure Follows (P : Poco) (pobj : Object) (s s' : TimedSection) : Prop where
  entry : ∀ key pit, key ∈ entryKeys pobj → (Object.get pobj key).getObject = some pit →
    ∃ p, s'.entries.lookup key = some p ∧
      p.state = (given P pit).state.getD (s.previous key).state ∧
      p.info = (given P pit).info.getD (s.previous key).info
  other : ∀ key, key ∉ entryKeys pobj → s'.entries.lookup key = s.entries.lookup key

/-- A message read into a section is followed, and read again changes no entry. -/
def FollowsText (P : Poco) (text : COMStr) (pobj : Object) (s : TimedSection) : Prop :=
  ∀ now memory, ∃ s', (fromJson P now memory text).exec s = (.ok true, s') ∧
    Follows P pobj s s' ∧
    ∀ now' memory', ∃ s'', (fromJson P now' memory' text).exec s' = (.ok true, s'') ∧
      SameEntries s'' s'

/-- What is carried from entry to entry makes no difference: a new entry names its key, and one
without a state or a text finds its own carried along. -/
structure Settled (own : COMStr → Given) (s : TimedSection) (keys : List COMStr) : Prop where
  name : Fits own s keys
  state : ∀ before key after, keys = before ++ key :: after → (own key).state = none →
    carried (fun k ↦ (own k).state) before = some (s.previous key).state
  info : ∀ before key after, keys = before ++ key :: after → (own key).info = none →
    (carried (fun k ↦ (own k).info) before).getD "" = (s.previous key).info

section Settled

variable {own : COMStr → Given}

/-- The state and the text written are those of the entry itself. -/
theorem Settled.values {s : TimedSection} {before after : List COMStr} {key : COMStr}
    (h : Settled own s (before ++ key :: after)) (memory : Bool) :
    (carried (fun k ↦ (own k).state) (before ++ [key])).getD memory =
        (own key).state.getD (s.previous key).state ∧
      (carried (fun k ↦ (own k).info) (before ++ [key])).getD "" =
        (own key).info.getD (s.previous key).info := by
  rw [carried_concat, carried_concat, Option.getD_or, Option.getD_or]
  constructor
  · cases hstate : (own key).state with
    | some state => rfl
    | none =>
      rw [h.state before key after rfl hstate]
      rfl
  · cases hinfo : (own key).info with
    | some info => rfl
    | none => exact h.info before key after rfl hinfo

end Settled

section Message

variable {P : Poco} {text : COMStr} {pobj : Object} {s : TimedSection}

/-- The section after a settled message. -/
theorem Settled.lookup (h : Settled (own P pobj) s (entryKeys pobj))
    (hnodup : (entryKeys pobj).Nodup) (now : COMStr → Times) (memory : Bool) (key : COMStr) :
    (applied P pobj now memory s).entries.lookup key =
      if key ∈ entryKeys pobj then
        some (written (own P pobj key) (now key) (s.entries.lookup key)
          ((own P pobj key).state.getD (s.previous key).state)
          ((own P pobj key).info.getD (s.previous key).info))
      else s.entries.lookup key := by
  split
  · next hmem =>
    obtain ⟨before, after, hsplit⟩ := List.append_of_mem hmem
    rw [applied, hsplit]
    rw [hsplit] at h hnodup
    have hvalues := h.values memory
    have hfits : Fits (own P pobj) (start P pobj memory s).sec (before ++ key :: after) := h.name
    rw [hfits.lookup_of_mem hnodup, ← hvalues.1, ← hvalues.2]
    rfl
  · next hmem =>
    have hfits : Fits (own P pobj) (start P pobj memory s).sec (entryKeys pobj) := h.name
    exact hfits.lookup_of_notMem hnodup hmem

/-- It does what the message says, -/
theorem Settled.follows (h : Settled (own P pobj) s (entryKeys pobj))
    (hnodup : (entryKeys pobj).Nodup) (now : COMStr → Times) (memory : Bool) :
    Follows P pobj s (applied P pobj now memory s) := by
  constructor
  · intro key pit hkey hpit
    refine ⟨_, (h.lookup hnodup now memory key).trans (if_pos hkey), ?_, ?_⟩
    · rw [written, TimedParam.change_state, own_of_getObject hpit]
    · rw [written, TimedParam.change_info, own_of_getObject hpit]
  · intro key hkey
    rw [h.lookup hnodup, if_neg hkey]

/-- the values of each entry being known then, -/
theorem Settled.previous_applied (h : Settled (own P pobj) s (entryKeys pobj))
    (hnodup : (entryKeys pobj).Nodup) (now : COMStr → Times) (memory : Bool) {key : COMStr}
    (hkey : key ∈ entryKeys pobj) :
    ((applied P pobj now memory s).previous key).state =
        (own P pobj key).state.getD (s.previous key).state ∧
      ((applied P pobj now memory s).previous key).info =
        (own P pobj key).info.getD (s.previous key).info := by
  rw [previous, h.lookup hnodup, if_pos hkey, written]
  exact ⟨TimedParam.change_state .., TimedParam.change_info ..⟩

/-- and is settled for the same message. -/
theorem Settled.again (h : Settled (own P pobj) s (entryKeys pobj))
    (hnodup : (entryKeys pobj).Nodup) (now : COMStr → Times) (memory : Bool) :
    Settled (own P pobj) (applied P pobj now memory s) (entryKeys pobj) := by
  have hmem {before after : List COMStr} {key : COMStr}
      (hsplit : entryKeys pobj = before ++ key :: after) : key ∈ entryKeys pobj := by
    rw [hsplit]
    exact List.mem_append_right _ List.mem_cons_self
  constructor
  · intro key hkey hnone
    rw [h.lookup hnodup, if_pos hkey] at hnone
    cases hnone
  · intro before key after hsplit hstate
    rw [(h.previous_applied hnodup now memory (hmem hsplit)).1, hstate]
    exact h.state before key after hsplit hstate
  · intro before key after hsplit hinfo
    rw [(h.previous_applied hnodup now memory (hmem hsplit)).2, hinfo]
    exact h.info before key after hsplit hinfo

/-- The same message changes nothing any more. -/
theorem Settled.applied_applied (h : Settled (own P pobj) s (entryKeys pobj))
    (hnodup : (entryKeys pobj).Nodup) (now now' : COMStr → Times) (memory memory' : Bool) :
    SameEntries (applied P pobj now' memory' (applied P pobj now memory s))
      (applied P pobj now memory s) := by
  intro key
  rw [(h.again hnodup now memory).lookup hnodup now' memory' key]
  split
  · next hkey =>
    have hagain : ∀ {α : Type} (o : Option α) (a : α), o.getD (o.getD a) = o.getD a := by
      intro α o a
      cases o <;> rfl
    rw [previous, h.lookup hnodup, if_pos hkey]
    obtain ⟨p, hp⟩ : ∃ p, p = written (own P pobj key) (now key) (s.entries.lookup key)
      ((own P pobj key).state.getD (s.previous key).state)
      ((own P pobj key).info.getD (s.previous key).info) := ⟨_, rfl⟩
    have hstate : (own P pobj key).state.getD p.state = p.state := by
      rw [hp, written, TimedParam.change_state, hagain]
    have hinfo : (own P pobj key).info.getD p.info = p.info := by
      rw [hp, written, TimedParam.change_info, hagain]
    have hname : (own P pobj key).name.getD p.name = p.name := by
      rw [hp, written_name]
    rw [← hp]
    simp only [Option.map_some, Option.getD_some, hstate, hinfo, written_self _ hname]
  · rfl

/-- A settled message is followed. -/
theorem followsText_of_settled (hparse : P.parse text = .ok (.object .ptr pobj))
    (hnodup : (entryKeys pobj).Nodup) (hobj : OfEntries pobj)
    (h : Settled (own P pobj) s (entryKeys pobj)) : FollowsText P text pobj s := by
  intro now memory
  refine ⟨_, exec_fromJson_of_forall P now hparse hobj memory s, h.follows hnodup now memory, ?_⟩
  intro now' memory'
  exact ⟨_, exec_fromJson_of_forall P now' hparse hobj memory' _,
    h.applied_applied hnodup now now' memory memory'⟩

/-- A message that is followed wherever its state starts is settled. -/
theorem settled_of_follows (hnodup : (entryKeys pobj).Nodup) (hobj : OfEntries pobj)
    (now : COMStr → Times) (h : ∀ memory, Follows P pobj s (applied P pobj now memory s)) :
    Settled (own P pobj) s (entryKeys pobj) := by
  have hfits : Fits (own P pobj) s (entryKeys pobj) := by
    have hsome : ∀ key ∈ entryKeys pobj,
        ((applied P pobj now true s).entries.lookup key).isSome = true := by
      intro key hkey
      obtain ⟨pit, hpit⟩ := Option.isSome_iff_exists.mp (hobj key hkey)
      obtain ⟨p, hp, -⟩ := (h true).entry key pit hkey hpit
      rw [hp]
      rfl
    have hstart : Fits (own P pobj) (start P pobj true s).sec (entryKeys pobj) :=
      fits_of_forall_isSome hnodup hsome
    exact hstart
  -- the values written are those carried up to the entry
  have hvalues : ∀ memory {before after : List COMStr} {key : COMStr},
      entryKeys pobj = before ++ key :: after →
      (carried (fun k ↦ (own P pobj k).state) (before ++ [key])).getD memory =
          (own P pobj key).state.getD (s.previous key).state ∧
        (carried (fun k ↦ (own P pobj k).info) (before ++ [key])).getD "" =
          (own P pobj key).info.getD (s.previous key).info := by
    intro memory before after key hsplit
    have hkey : key ∈ entryKeys pobj := by
      rw [hsplit]
      exact List.mem_append_right _ List.mem_cons_self
    obtain ⟨pit, hpit⟩ := Option.isSome_iff_exists.mp (hobj key hkey)
    obtain ⟨p, hp, hstate, hinfo⟩ := (h memory).entry key pit hkey hpit
    rw [own_of_getObject hpit, ← hstate, ← hinfo]
    rw [hsplit] at hnodup hfits
    have hstart : Fits (own P pobj) (start P pobj memory s).sec (before ++ key :: after) := hfits
    rw [applied, hsplit, hstart.lookup_of_mem hnodup] at hp
    cases hp
    rw [written, TimedParam.change_state, TimedParam.change_info]
    exact ⟨rfl, rfl⟩
  refine ⟨hfits, ?_, ?_⟩
  · intro before key after hsplit hstate
    apply eq_some_of_forall_getD
    intro memory
    have hvalue := (hvalues memory hsplit).1
    rw [carried_concat, hstate, Option.none_or] at hvalue
    exact hvalue
  · intro before key after hsplit hinfo
    have hvalue := (hvalues true hsplit).2
    rw [carried_concat, hinfo, Option.none_or] at hvalue
    exact hvalue

end Message

/-! ### The result -/

/-- A message that is followed is settled. -/
private theorem settled_of_followsText {P : Poco} {text : COMStr} {pobj : Object}
    {s : TimedSection} (hparse : P.parse text = .ok (.object .ptr pobj))
    (hkeys : (pobj.map (·.1)).Nodup) (hobj : OfEntries pobj) (h : FollowsText P text pobj s) :
    Settled (own P pobj) s (entryKeys pobj) := by
  apply settled_of_follows (nodup_entryKeys hkeys) hobj fun _ ↦ ⟨0, 0, 0⟩
  intro memory
  obtain ⟨s', hexec, hfollows, -⟩ := h (fun _ ↦ ⟨0, 0, 0⟩) memory
  rw [exec_fromJson_of_forall P _ hparse hobj] at hexec
  cases hexec
  exact hfollows

/-- A message of entries, in which any may lack its name, its state or its text, is followed, and
changes nothing when it is read again, exactly when it is settled. -/
theorem followsText_iff {P : Poco} {text : COMStr} {pobj : Object}
    (hparse : P.parse text = .ok (.object .ptr pobj)) (hkeys : (pobj.map (·.1)).Nodup)
    (hobj : OfEntries pobj) (s : TimedSection) :
    FollowsText P text pobj s ↔ Settled (own P pobj) s (entryKeys pobj) :=
  ⟨settled_of_followsText hparse hkeys hobj,
    followsText_of_settled hparse (nodup_entryKeys hkeys) hobj⟩

/-- A status with two components, of which the second gives no state. -/
def statelessMessage : Object :=
  [("Info", .str ""), ("Name", .str "SENSOR"),
    ("a", .object .ptr [("Name", .str "a"), ("Info", .str ""), ("State", .bool false),
      ("ChangeTime", .int 0)]),
    ("b", .object .ptr [("Name", .str "b"), ("Info", .str ""), ("ChangeTime", .int 0)])]

/-- Its text. -/
def statelessText : COMStr :=
  "\x7b\"Info\":\"\",\"Name\":\"SENSOR\",\"a\":\x7b\"Name\":\"a\",\"Info\":\"\",\"State\":false," ++
    "\"ChangeTime\":0\x7d,\"b\":\x7b\"Name\":\"b\",\"Info\":\"\",\"ChangeTime\":0\x7d\x7d"

/-- A section that knows both, the second in a given state. -/
def knownSection (state : Bool) : TimedSection :=
  { name := "SENSOR", info := ""
    entries := [("a", ⟨⟨"a", true, ""⟩, 0, 0⟩), ("b", ⟨⟨"b", state, ""⟩, 0, 0⟩)] }

private theorem parse_statelessText :
    Poco.json.parse statelessText = .ok (.object .ptr statelessMessage) :=
  Poco.json_parse (v := .object .ptr statelessMessage)
    (by simp [statelessMessage, Var.Regular, RegularFields]) (by decide +kernel)

private theorem entryKeys_statelessMessage : entryKeys statelessMessage = ["a", "b"] := by
  rw [entryKeys, List.mergeSort_of_pairwise (by decide)]
  decide

private theorem ofEntries_statelessMessage : OfEntries statelessMessage := by
  rw [OfEntries, entryKeys_statelessMessage]
  decide

/-- The second is followed where it was off, as the first says. -/
theorem followsText_stateless :
    FollowsText Poco.json statelessText statelessMessage (knownSection false) := by
  apply (followsText_iff parse_statelessText (by decide) ofEntries_statelessMessage _).mpr
  rw [entryKeys_statelessMessage]
  refine ⟨by unfold Fits; decide, ?_, ?_⟩
  · intro before key after hsplit hstate
    rcases before with _ | ⟨k, _ | ⟨k', before⟩⟩
    · cases hsplit
      cases hstate
    · cases hsplit
      rfl
    · simp at hsplit
  · intro before key after hsplit hinfo
    rcases before with _ | ⟨k, _ | ⟨k', before⟩⟩
    · cases hsplit
      cases hinfo
    · cases hsplit
      cases hinfo
    · simp at hsplit

/-- Where it was on, it takes the state of the first. -/
theorem not_followsText_stateless :
    (∀ p ∈ (knownSection true).entries, p.2.name = p.1) ∧
      Poco.json.parse statelessText = .ok (.object .ptr statelessMessage) ∧
      OfEntries statelessMessage ∧
      ¬ FollowsText Poco.json statelessText statelessMessage (knownSection true) := by
  refine ⟨by decide, parse_statelessText, ofEntries_statelessMessage, ?_⟩
  intro h
  have hsettled := settled_of_followsText parse_statelessText (by decide)
    ofEntries_statelessMessage h
  have hstate := hsettled.state ["a"] "b" [] entryKeys_statelessMessage rfl
  revert hstate
  decide

end TimedSection
end IcsGateway
