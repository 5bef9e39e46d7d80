import IcsGateway.Lib.Transition
import IcsGateway.Base.Json
import IcsGateway.Common.WatchDog

/-!
# The Manager's copy of a watchdog section

A client process changes its section and sends it as text from time to time; the Manager
applies the texts in order to its own section. After each delivery the Manager has the entries
the client had when it sent the text: the text has all of them, and a client never drops one.
-/

namespace IcsGateway

open Lib

namespace WatchDogSection

/-! ### The text of a section -/

/-- The section of a client: its keys are in order, each entry has its key for name, and none is
a key of the text itself. -/
structure Own (s : WatchDogSection) : Prop where
  sorted : s.entries.Sorted
  name_eq : ∀ key p, s.entries.lookup key = some p → p.name = key
  name_none : s.entries.lookup "Name" = none
  info_none : s.entries.lookup "Info" = none

/-- Setting the entries one after another. -/
private theorem lookup_foldl_set {α : Type} (f : COMStr × α → Var) (m : ComMap α)
    (hm : (m.map (·.1)).Nodup) (o : Object) (key : COMStr) :
    (m.foldl (fun obj it ↦ Object.set obj it.1 (f it)) o).lookup key =
      ((m.lookup key).map fun a ↦ f (key, a)).or (o.lookup key) := by
  induction m generalizing o with
  | nil => rfl
  | cons p m ih =>
    obtain ⟨k, a⟩ := p
    rw [List.map_cons, List.nodup_cons] at hm
    rw [List.foldl_cons, ih hm.2, Object.lookup_set, List.lookup_cons]
    by_cases hk : key = k
    · subst hk
      have hnone : m.lookup key = none := by
        rw [List.lookup_eq_none_iff]
        intro p hp
        rw [bne_iff_ne]
        intro he
        exact hm.1 (List.mem_map.mpr ⟨p, hp, he.symm⟩)
      simp [hnone]
    · have hb : (key == k) = false := by simpa using hk
      rw [if_neg hk, hb]

/-- The object of a section has its entries, -/
theorem lookup_toJsonObject {s : WatchDogSection} (h : s.Own) (changeSecs : COMStr → Int)
    {key : COMStr} (hname : key ≠ "Name") (hinfo : key ≠ "Info") :
    (toJsonObject s changeSecs).lookup key =
      (s.entries.lookup key).map fun p ↦ .object .value (paramToJson p (changeSecs key)) := by
  have hn : (key == "Name") = false := by simpa using hname
  have hi : (key == "Info") = false := by simpa using hinfo
  rw [toJsonObject, lookup_foldl_set _ _ h.sorted.nodup]
  simp [List.lookup_cons, hn, hi]

/-- and its information. -/
theorem lookup_toJsonObject_info {s : WatchDogSection} (h : s.Own) (changeSecs : COMStr → Int) :
    (toJsonObject s changeSecs).lookup "Info" = some (.str s.info) := by
  rw [toJsonObject, lookup_foldl_set _ _ h.sorted.nodup, h.info_none]
  rfl

/-- It is regular. -/
theorem regular_toJsonObject (s : WatchDogSection) (changeSecs : COMStr → Int) :
    (Var.object .value (toJsonObject s changeSecs)).Regular := by
  have hparam : ∀ (p : WatchDogParam_T) (secs : Int),
      (Var.object .value (paramToJson p secs)).Regular := by
    intro p secs
    have hwhole : 1 = 2 ^ Nat.log2 1 := by decide
    simpa [paramToJson, Var.Regular, RegularFields] using hwhole
  have hfold : ∀ (m : ComMap WatchDogParam_T) (o : Object), (Var.object .value o).Regular →
      (Var.object .value (m.foldl (fun obj it ↦
        Object.set obj it.1 (.object .value (paramToJson it.2 (changeSecs it.1)))) o)).Regular := by
    intro m
    induction m with
    | nil =>
      intro o ho
      exact ho
    | cons p m ih =>
      intro o ho
      exact ih _ (Object.regular_set ho (hparam _ _))
  apply hfold
  simp [Var.Regular, RegularFields]

/-! ### Reading it -/

/-- An entry read from its object is assigned to its key, whether there is one already or not. -/
private theorem exec_fromJsonEntries_cons {P : Poco} {pobj : Object} {key : COMStr}
    {keys : List COMStr} {p : WatchDogParam_T} {secs : Int} (hname : key ≠ "Name")
    (hinfo : key ≠ "Info") (hp : p.name = key)
    (hget : Object.get pobj key = .object .ptr (Object.reparse (paramToJson p secs)))
    (state : Bool) (info : COMStr) (s : WatchDogSection) :
    (fromJsonEntries P pobj state info (key :: keys)).exec s =
      (fromJsonEntries P pobj p.state p.info keys).exec (s.assign key p) := by
  subst hp
  have hpit : (Object.get pobj p.name).getObject = some (Object.reparse (paramToJson p secs)) := by
    rw [hget]
    rfl
  have hstate : JGET Poco.convertBool state (some (Object.reparse (paramToJson p secs))) "State" =
      .ok p.state := JGET_of_get _ _ rfl (fun h ↦ by cases h) rfl
  have hown : ∀ old, JGET P.convertStr old (some (Object.reparse (paramToJson p secs))) "Info" =
      .ok p.info := fun old ↦ JGET_of_get _ old rfl (fun h ↦ by cases h) rfl
  have hnew : ∀ old, JGET P.convertStr old (some (Object.reparse (paramToJson p secs))) "Name" =
      .ok p.name := fun old ↦ JGET_of_get _ old rfl (fun h ↦ by cases h) rfl
  have hkey : ¬ (p.name = "Info" ∨ p.name = "Name") := by
    rintro (h | h)
    · exact hinfo h
    · exact hname h
  rw [fromJsonEntries, if_neg hkey]
  simp only [hpit, hstate, hown, hnew, Eff.exec_ofExcept_bind]
  rw [Eff.exec_bind_of_ok (Eff.exec_get s)]
  cases s.entries.lookup p.name with
  | some wd =>
    simp only [Eff.exec_ofExcept, Eff.exec_bind, Eff.exec_modify]
    simp only [assign, ComMap.assign_assign, WatchDogParam_T.change]
  | none =>
    simp only [Eff.exec_ofExcept, Eff.exec_bind, Eff.exec_modify, WatchDogParam_T.change]

/-- The loop assigns each entry of the object to its key and leaves the other keys. -/
private theorem exec_fromJsonEntries (P : Poco) (pobj : Object) (entry : COMStr → WatchDogParam_T)
    (secs : COMStr → Int) (keys : List COMStr)
    (hget : ∀ key ∈ keys, key ≠ "Name" → key ≠ "Info" → (entry key).name = key ∧
      Object.get pobj key = .object .ptr (Object.reparse (paramToJson (entry key) (secs key)))) :
    ∀ state info s, ∃ s', (fromJsonEntries P pobj state info keys).exec s = (.ok (), s') ∧
      ∀ key, s'.entries.lookup key = if key ∈ keys ∧ key ≠ "Name" ∧ key ≠ "Info" then
        some (entry key) else s.entries.lookup key := by
  induction keys with
  | nil =>
    intro state info s
    exact ⟨s, rfl, fun key ↦ by simp⟩
  | cons k keys ih =>
    intro state info s
    have ih := ih fun key hkey ↦ hget key (List.mem_cons_of_mem _ hkey)
    by_cases hk : k ≠ "Name" ∧ k ≠ "Info"
    · obtain ⟨hname, hentry⟩ := hget k (List.mem_cons_self ..) hk.1 hk.2
      obtain ⟨s', hexec, hlookup⟩ := ih (entry k).state (entry k).info (s.assign k (entry k))
      refine ⟨s', ?_, ?_⟩
      · rw [exec_fromJsonEntries_cons hk.1 hk.2 hname hentry, hexec]
      · intro key
        rw [hlookup key]
        by_cases hkey : key = k
        · subst hkey
          simp [hk, assign, ComMap.lookup_assign]
        · simp [hkey, assign, ComMap.lookup_assign]
    · have hskip : k = "Info" ∨ k = "Name" := by
        by_cases hname : k = "Name"
        · exact .inr hname
        · exact .inl (not_not.mp fun hinfo ↦ hk ⟨hname, hinfo⟩)
      obtain ⟨s', hexec, hlookup⟩ := ih state info s
      refine ⟨s', ?_, ?_⟩
      · rw [fromJsonEntries, if_pos hskip, hexec]
      · intro key
        rw [hlookup key]
        have hiff : (key ∈ k :: keys ∧ key ≠ "Name" ∧ key ≠ "Info") ↔
            (key ∈ keys ∧ key ≠ "Name" ∧ key ≠ "Info") := by
          constructor
          · rintro ⟨hmem, hne⟩
            rcases List.mem_cons.mp hmem with rfl | hmem
            · exact absurd hne hk
            · exact ⟨hmem, hne⟩
          · rintro ⟨hmem, hne⟩
            exact ⟨List.mem_cons_of_mem _ hmem, hne⟩
        simp only [hiff]

/-- A section with the keys of another. -/
def KeysIn (s t : WatchDogSection) : Prop :=
  ∀ key, t.entries.lookup key = none → s.entries.lookup key = none

/-- Two sections with the same entries. -/
def SameEntries (s t : WatchDogSection) : Prop :=
  ∀ key, s.entries.lookup key = t.entries.lookup key

/-- Reading the text of a section into a section with no other keys gives its entries. -/
theorem fromJson_toJson {P : Poco}
    (hP : ∀ o, (Var.object .value o).Regular → P.ReadsBackValue o) {s t : WatchDogSection}
    (ht : t.Own) (hs : KeysIn s t) (changeSecs : COMStr → Int) (memory : Bool) :
    ∃ s', (fromJson P memory (t.toJson P changeSecs)).exec s = (.ok true, s') ∧
      SameEntries s' t := by
  have hparse := hP _ (regular_toJsonObject t changeSecs)
  rw [Poco.ReadsBackValue] at hparse
  have hinfo : JGET P.convertStr s.info
      (some (Object.reparse (toJsonObject t changeSecs))) "Info" = .ok t.info := by
    have hget : Object.get (Object.reparse (toJsonObject t changeSecs)) "Info" = .str t.info := by
      rw [Object.get_reparse, Object.get, lookup_toJsonObject_info ht]
      rfl
    exact JGET_of_get _ _ hget (fun h ↦ by cases h) rfl
  have hlookup : ∀ key, key ≠ "Name" → key ≠ "Info" →
      (Object.reparse (toJsonObject t changeSecs)).lookup key = (t.entries.lookup key).map
        fun p ↦ .object .ptr (Object.reparse (paramToJson p (changeSecs key))) := by
    intro key hname hkinfo
    rw [Object.lookup_reparse, lookup_toJsonObject ht changeSecs hname hkinfo, Option.map_map]
    rfl
  have hkeys : ∀ key, key ≠ "Name" → key ≠ "Info" →
      (key ∈ ((Object.reparse (toJsonObject t changeSecs)).map (·.1)).mergeSort (· ≤ ·) ↔
        (t.entries.lookup key).isSome = true) := by
    intro key hname hkinfo
    rw [List.mem_mergeSort, Object.mem_keys_iff, Object.has, hlookup key hname hkinfo,
      Option.isSome_map]
  obtain ⟨s', hexec, hentries⟩ := exec_fromJsonEntries P
    (Object.reparse (toJsonObject t changeSecs))
    (fun key ↦ (t.entries.lookup key).getD .new) changeSecs
    (((Object.reparse (toJsonObject t changeSecs)).map (·.1)).mergeSort (· ≤ ·)) (by
      intro key hmem hname hkinfo
      obtain ⟨p, hp⟩ := Option.isSome_iff_exists.mp ((hkeys key hname hkinfo).mp hmem)
      rw [Object.get, hlookup key hname hkinfo, hp]
      exact ⟨ht.name_eq key p hp, rfl⟩)
    memory "" { s with info := t.info }
  refine ⟨s', ?_, ?_⟩
  · rw [fromJson]
    simp only [toJson, hparse, Var.extractObject, Eff.exec_ofExcept_bind]
    rw [Eff.exec_bind_of_ok (Eff.exec_get s)]
    simp only [hinfo, Eff.exec_ofExcept_bind]
    rw [Eff.exec_bind_of_ok (Eff.exec_modify _ _), Eff.exec_bind_of_ok hexec, Eff.exec_pure]
  · intro key
    rw [hentries key]
    cases hkey : t.entries.lookup key with
    | some p =>
      have hname : key ≠ "Name" := by
        rintro rfl
        rw [ht.name_none] at hkey
        cases hkey
      have hkinfo : key ≠ "Info" := by
        rintro rfl
        rw [ht.info_none] at hkey
        cases hkey
      rw [if_pos ⟨(hkeys key hname hkinfo).mpr (by rw [hkey]; rfl), hname, hkinfo⟩]
      rfl
    | none =>
      rw [if_neg, hs key hkey]
      rintro ⟨hmem, hname, hkinfo⟩
      have hsome := (hkeys key hname hkinfo).mp hmem
      rw [hkey] at hsome
      cases hsome

/-- A change of the client's section. -/
theorem Own.wdclientChange {s : WatchDogSection} (h : s.Own) {key : COMStr} (hname : key ≠ "Name")
    (hinfo : key ≠ "Info") (state : Bool) (info : COMStr) (due : Bool) :
    (s.wdclientChange key state info due).Own ∧ KeysIn s (s.wdclientChange key state info due) := by
  -- only the entries count, and one of them is assigned, with its key for name
  have hentries : (s.wdclientChange key state info due).entries =
      s.entries.assign key ⟨key, state, info⟩ := by
    have hwd : ((s.entries.lookup key).getD { WatchDogParam_T.new with name := key }).change
        state info = ⟨key, state, info⟩ := by
      cases hp : s.entries.lookup key with
      | some p => rw [Option.getD_some, WatchDogParam_T.change, h.name_eq key p hp]
      | none => rfl
    rw [WatchDogSection.wdclientChange]
    simp only [hwd]
    split <;> rfl
  have hlookup : ∀ k, (s.wdclientChange key state info due).entries.lookup k =
      if k = key then some ⟨key, state, info⟩ else s.entries.lookup k := by
    intro k
    rw [hentries, ComMap.lookup_assign]
  refine ⟨⟨?_, ?_, ?_, ?_⟩, ?_⟩
  · rw [hentries]
    exact h.sorted.assign key _
  · intro k p hp
    rw [hlookup] at hp
    split at hp
    · next hk =>
      cases hp
      exact hk.symm
    · exact h.name_eq k p hp
  · rw [hlookup, if_neg (Ne.symm hname)]
    exact h.name_none
  · rw [hlookup, if_neg (Ne.symm hinfo)]
    exact h.info_none
  · intro k hk
    rw [hlookup] at hk
    split at hk
    · cases hk
    · exact hk

/-- Keys in keys. -/
theorem KeysIn.trans {s t u : WatchDogSection} (h : KeysIn s t) (h' : KeysIn t u) : KeysIn s u :=
  fun key hkey ↦ h key (h' key hkey)

end WatchDogSection

/-! ### Runs -/

/-- A client, the texts under way, each with the section it was printed from, and the Manager's
copy. -/
structure WatchDogLink where
  client : WatchDogSection
  sent : List (COMStr × WatchDogSection)
  manager : WatchDogSection

namespace WatchDogLink

/-- What can happen. -/
inductive Event where
  /-- `WDCLIENT_CHANGE` in the client. -/
  | change (key : COMStr) (state : Bool) (info : COMStr) (due : Bool)
  /-- The section is printed and sent. -/
  | send (changeSecs : COMStr → Int)
  /-- The Manager applies the oldest text under way. -/
  | deliver (memory : Bool)

/-- The Manager's section after a text. -/
def received (P : Poco) (memory : Bool) (text : COMStr) (s : WatchDogSection) : WatchDogSection :=
  ((WatchDogSection.fromJson P memory text).exec s).2

/-- One event. -/
def step (P : Poco) (l : WatchDogLink) : Event → WatchDogLink
  | .change key state info due => { l with client := l.client.wdclientChange key state info due }
  | .send changeSecs =>
    { l with sent := l.sent ++ [(l.client.toJson P changeSecs, l.client)] }
  | .deliver memory =>
    match l.sent with
    | [] => l
    | (text, _) :: rest => { l with sent := rest, manager := received P memory text l.manager }

/-- An event that concerns no key of the section itself. -/
def Event.Proper : Event → Prop
  | .change key _ _ _ => key ≠ "Name" ∧ key ≠ "Info"
  | _ => True

/-- Every text under way is one of its section, and no section has a key the later ones lack. -/
structure Inv (P : Poco) (l : WatchDogLink) : Prop where
  client : l.client.Own
  sent : ∀ x ∈ l.sent, x.2.Own ∧ ∃ changeSecs, x.1 = x.2.toJson P changeSecs
  manager_sent : ∀ x ∈ l.sent, l.manager.KeysIn x.2
  manager_client : l.manager.KeysIn l.client
  sent_client : ∀ x ∈ l.sent, x.2.KeysIn l.client
  ordered : l.sent.Pairwise fun x y ↦ x.2.KeysIn y.2

/-- A delivery gives the Manager the entries of the section that was sent. -/
theorem inv_deliver {P : Poco} (hP : ∀ o, (Var.object .value o).Regular → P.ReadsBackValue o)
    {l : WatchDogLink} (h : Inv P l) {text : COMStr} {t : WatchDogSection}
    {rest : List (COMStr × WatchDogSection)} (hsent : l.sent = (text, t) :: rest) (memory : Bool) :
    ∃ s', (WatchDogSection.fromJson P memory text).exec l.manager = (.ok true, s') ∧
      s'.SameEntries t := by
  have hmem : (text, t) ∈ l.sent := by
    rw [hsent]
    exact List.mem_cons_self ..
  obtain ⟨hown, changeSecs, htext⟩ := h.sent _ hmem
  simp only at htext
  rw [htext]
  exact WatchDogSection.fromJson_toJson hP hown (h.manager_sent _ hmem) changeSecs memory

/-- A change of the client keeps the keys it had. -/
private theorem inv_change {P : Poco} {l : WatchDogLink} (h : Inv P l) {key : COMStr}
    (hname : key ≠ "Name") (hinfo : key ≠ "Info") (state : Bool) (info : COMStr) (due : Bool) :
    Inv P { l with client := l.client.wdclientChange key state info due } := by
  obtain ⟨hown, hkeys⟩ := h.client.wdclientChange hname hinfo state info due
  exact {
    client := hown
    sent := h.sent
    manager_sent := h.manager_sent
    manager_client := h.manager_client.trans hkeys
    sent_client := fun x hx ↦ (h.sent_client x hx).trans hkeys
    ordered := h.ordered }

/-- What is sent is under way as the last text. -/
private theorem inv_send {P : Poco} {l : WatchDogLink} (h : Inv P l) (changeSecs : COMStr → Int) :
    Inv P { l with sent := l.sent ++ [(l.client.toJson P changeSecs, l.client)] } := by
  have hlast : ∀ x ∈ l.sent ++ [(l.client.toJson P changeSecs, l.client)],
      x ∈ l.sent ∨ x = (l.client.toJson P changeSecs, l.client) := by
    intro x hx
    rcases List.mem_append.mp hx with hx | hx
    · exact .inl hx
    · exact .inr (List.mem_singleton.mp hx)
  refine ⟨h.client, ?_, ?_, h.manager_client, ?_, ?_⟩
  · intro x hx
    rcases hlast x hx with hx | rfl
    · exact h.sent x hx
    · exact ⟨h.client, changeSecs, rfl⟩
  · intro x hx
    rcases hlast x hx with hx | rfl
    · exact h.manager_sent x hx
    · exact h.manager_client
  · intro x hx
    rcases hlast x hx with hx | rfl
    · exact h.sent_client x hx
    · exact fun _ hk ↦ hk
  · apply List.pairwise_append.mpr
    refine ⟨h.ordered, List.pairwise_singleton _ _, ?_⟩
    intro x hx y hy
    rw [List.mem_singleton.mp hy]
    exact h.sent_client x hx

/-- A Manager with the entries of the oldest section under way is behind the later ones. -/
private theorem inv_delivered {P : Poco} {l : WatchDogLink} (h : Inv P l) {text : COMStr}
    {t s' : WatchDogSection} {rest : List (COMStr × WatchDogSection)}
    (hsent : l.sent = (text, t) :: rest) (hentries : s'.SameEntries t) :
    Inv P { l with sent := rest, manager := s' } := by
  have hmem : (text, t) ∈ l.sent := by
    rw [hsent]
    exact List.mem_cons_self ..
  have hrest : ∀ y ∈ rest, y ∈ l.sent := by
    intro y hy
    rw [hsent]
    exact List.mem_cons_of_mem _ hy
  have hordered := h.ordered
  rw [hsent, List.pairwise_cons] at hordered
  have hkeys : s'.KeysIn t := by
    intro key hkey
    rw [hentries key, hkey]
  exact {
    client := h.client
    sent := fun y hy ↦ h.sent y (hrest y hy)
    manager_sent := fun y hy ↦ hkeys.trans (hordered.1 y hy)
    manager_client := hkeys.trans (h.sent_client _ hmem)
    sent_client := fun y hy ↦ h.sent_client y (hrest y hy)
    ordered := hordered.2 }

/-- Every event keeps the invariant. -/
theorem inv_step {P : Poco} (hP : ∀ o, (Var.object .value o).Regular → P.ReadsBackValue o)
    {l : WatchDogLink} (h : Inv P l) (e : Event) (he : e.Proper) : Inv P (step P l e) := by
  cases e with
  | change key state info due => exact inv_change h he.1 he.2 state info due
  | send changeSecs => exact inv_send h changeSecs
  | deliver memory =>
    cases hsent : l.sent with
    | nil =>
      have hsame : WatchDogLink.step P l (.deliver memory) = l := by
        simp only [WatchDogLink.step, hsent]
      rw [hsame]
      exact h
    | cons x rest =>
      obtain ⟨text, t⟩ := x
      obtain ⟨s', hexec, hentries⟩ := inv_deliver hP h hsent memory
      have hstep : WatchDogLink.step P l (.deliver memory) =
          { l with sent := rest, manager := s' } := by
        simp only [WatchDogLink.step, hsent, received, hexec]
      rw [hstep]
      exact inv_delivered h hsent hentries

/-- A link before anything happens. -/
def start (client manager : WatchDogSection) : WatchDogLink := ⟨client, [], manager⟩

/-- In every run, the text delivered next is read without an exception and gives the Manager the
entries the client had when it sent the text. -/
theorem run_deliver_sameEntries (P : Poco)
    (hP : ∀ o, (Var.object .value o).Regular → P.ReadsBackValue o)
    (clientName clientInfo managerName managerInfo : COMStr) (es : List Event)
    (hes : ∀ e ∈ es, e.Proper) (memory : Bool) (text : COMStr) (t : WatchDogSection)
    (rest : List (COMStr × WatchDogSection))
    (hsent : (run (step P) (start ⟨clientName, clientInfo, []⟩ ⟨managerName, managerInfo, []⟩)
      es).sent = (text, t) :: rest) :
    ∃ s', (WatchDogSection.fromJson P memory text).exec (run (step P)
        (start ⟨clientName, clientInfo, []⟩ ⟨managerName, managerInfo, []⟩) es).manager =
          (.ok true, s') ∧
      s'.SameEntries t ∧
      (run (step P) (start ⟨clientName, clientInfo, []⟩ ⟨managerName, managerInfo, []⟩)
        (es ++ [.deliver memory])).manager = s' := by
  have hstart : Inv P (start ⟨clientName, clientInfo, []⟩ ⟨managerName, managerInfo, []⟩) := {
    client := ⟨List.Pairwise.nil, fun _ _ h ↦ (by cases h), rfl, rfl⟩
    sent := fun x hx ↦ absurd hx List.not_mem_nil
    manager_sent := fun x hx ↦ absurd hx List.not_mem_nil
    manager_client := fun _ _ ↦ rfl
    sent_client := fun x hx ↦ absurd hx List.not_mem_nil
    ordered := List.Pairwise.nil }
  have hguard : Guarded (step P) (fun _ e ↦ e.Proper)
      (start ⟨clientName, clientInfo, []⟩ ⟨managerName, managerInfo, []⟩) es :=
    guarded_of_forall hes
  have hstep : ∀ l (e : Event), e.Proper → Inv P l → Inv P (step P l e) :=
    fun l e he hl ↦ inv_step hP hl e he
  have hinv := run_invariant_of_guarded hstep es hguard hstart
  obtain ⟨s', hexec, hentries⟩ := inv_deliver hP hinv hsent memory
  refine ⟨s', hexec, hentries, ?_⟩
  rw [run_append]
  simp only [run, step, hsent, received, hexec]

/-- A failed connection is reported, sent and delivered. -/
theorem run_deliver_sameEntries_failed :
    (run (step Poco.json) (start ⟨"MQTT", "", []⟩ ⟨"MQTT", "", []⟩)
      [.change "MQTT_PUB" false "failed" false, .send fun _ ↦ 0, .deliver true]
      ).manager.entries.lookup "MQTT_PUB" = some ⟨"MQTT_PUB", false, "failed"⟩ := by
  obtain ⟨s', -, hentries, hmanager⟩ := run_deliver_sameEntries Poco.json
    (fun o ho ↦ Poco.json_readsBackValue ho) "MQTT" "" "MQTT" ""
    [.change "MQTT_PUB" false "failed" false, .send fun _ ↦ 0]
    (by
      intro e he
      rcases List.mem_cons.mp he with rfl | he
      · exact ⟨by decide, by decide⟩
      · rw [List.mem_singleton.mp he]
        trivial)
    true _ ⟨"MQTT", "failed", [("MQTT_PUB", ⟨"MQTT_PUB", false, "failed"⟩)]⟩ [] rfl
  rw [List.cons_append, List.singleton_append] at hmanager
  rw [hmanager, hentries]
  rfl

end WatchDogLink
end IcsGateway
