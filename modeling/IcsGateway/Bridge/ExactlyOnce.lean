import IcsGateway.Bridge.Threads

/-!
# Exactly one report

A tick that runs stands before one of a few operations, and an event moves the Bridge from one
of these points to the next. While the listener stays away from a key that was read and not
yet cleared, every move keeps the books: each message was overwritten, waits under its key, or
was read by a tick once, and what a tick has read is in the report it builds.
-/

namespace IcsGateway.Bridge

open Lib

/-! ### Where a tick stands -/

/-- The point a tick has reached, with the report built so far. -/
inductive TickAt where
  /-- Before it reads the next device. -/
  | reading (body : Object) (todo : List DeviceConfig)
  /-- Before it clears the key it has just read. -/
  | clearing (dev : DeviceConfig) (body : Object) (todo : List DeviceConfig)
  /-- Before it publishes the live data. -/
  | publishing (msg : COMStr)

namespace TickAt

/-- What the tick has still to do. -/
def prog (P : Poco) (cfg : BridgeConfig) : TickAt → RedisProg Unit
  | .reading body todo => dataPoints P body todo >>= pushReport P cfg
  | .clearing dev body todo =>
    .set (collectorKey dev.deviceType) "" (dataPoints P body todo >>= pushReport P cfg)
  | .publishing msg => .set liveDataKey msg (pure ())

/-- The devices whose keys it has still to read. -/
def todo : TickAt → List DeviceConfig
  | .reading _ todo => todo
  | .clearing _ _ todo => todo
  | .publishing _ => []

/-- The report it has still to push. -/
def body : TickAt → Option Object
  | .reading body _ => some body
  | .clearing _ body _ => some body
  | .publishing _ => none

/-- The key it is about to clear. -/
def key : TickAt → Option COMStr
  | .clearing dev _ _ => some (collectorKey dev.deviceType)
  | _ => none

end TickAt

/-- The Bridge at work, the running tick given by the point it has reached. -/
structure View where
  redis : Redis
  tick : Option TickAt
  history : History

/-- The threads a view stands for. -/
def View.threads (P : Poco) (cfg : BridgeConfig) (v : View) : Threads :=
  ⟨v.redis, v.tick.map (TickAt.prog P cfg), v.history⟩

/-- What an event can do. -/
inductive Move (P : Poco) (cfg : BridgeConfig) (v : View) : View → Prop where
  | idle : Move P cfg v v
  | store (d : DeviceConfig) (jmsg : Object) (hd : d ∈ cfg.collector.devices)
      (hback : P.ReadsBackValue (collectDataPoint jmsg))
      (hkey : v.tick.bind TickAt.key ≠ some (collectorKey d.deviceType)) :
      Move P cfg v ⟨v.redis.set (collectorKey d.deviceType) (storedText P jmsg), v.tick,
        v.history.store d.deviceType jmsg⟩
  | begin (timeStamp : COMStr) (htick : v.tick = none) :
      Move P cfg v ⟨v.redis, some (.reading (header cfg timeStamp) cfg.collector.devices),
        v.history.tick⟩
  | readEmpty (body : Object) (dev : DeviceConfig) (rest : List DeviceConfig)
      (htick : v.tick = some (.reading body (dev :: rest)))
      (hval : v.redis.vals (collectorKey dev.deviceType) = "") :
      Move P cfg v ⟨v.redis,
        some (.reading (Object.set body dev.deviceType (.object .ptr emptyDataObject)) rest),
        v.history.get (collectorKey dev.deviceType)⟩
  | readData (body : Object) (dev : DeviceConfig) (rest : List DeviceConfig) (o : Object)
      (htick : v.tick = some (.reading body (dev :: rest)))
      (hval : P.parse (v.redis.vals (collectorKey dev.deviceType)) = .ok (.object .ptr o)) :
      Move P cfg v ⟨v.redis,
        some (.clearing dev (Object.set body dev.deviceType (.object .ptr o)) rest),
        v.history.get (collectorKey dev.deviceType)⟩
  | clear (dev : DeviceConfig) (body : Object) (todo : List DeviceConfig)
      (htick : v.tick = some (.clearing dev body todo)) :
      Move P cfg v ⟨v.redis.set (collectorKey dev.deviceType) "", some (.reading body todo),
        v.history.set (collectorKey dev.deviceType) ""⟩
  | push (body : Object) (htick : v.tick = some (.reading body [])) :
      Move P cfg v ⟨v.redis.push m2cDataQueue (P.stringify (.object .value body)),
        some (.publishing (P.stringify (.object .value body))),
        v.history.push (P.stringify (.object .value body))⟩
  | publish (msg : COMStr) (htick : v.tick = some (.publishing msg)) :
      Move P cfg v ⟨v.redis.set liveDataKey msg, none,
        (v.history.set liveDataKey msg).complete⟩

/-! ### The books -/

/-- Every message is accounted for: overwritten, seen by a tick, or under its key; and a message
under a key was seen exactly when the tick is about to clear the key. -/
structure Ledger (h : History) (clearing : Option COMStr) : Prop where
  unique : h.seen.Nodup
  known : ∀ n ∈ h.seen, n < h.messages.length
  covered : ∀ n, n < h.messages.length →
    n ∈ h.overwritten ∨ n ∈ h.seen ∨ ∃ k, h.source k = some n
  sourced : ∀ k n, h.source k = some n →
    ∃ m, h.messages[n]? = some m ∧ k = collectorKey m.deviceType
  fresh : ∀ k n, h.source k = some n → n ∈ h.seen → clearing = some k
  taken : ∀ k n, clearing = some k → h.source k = some n → n ∈ h.seen

/-- Nothing has happened yet. -/
theorem Ledger.empty : Ledger .empty none :=
  ⟨List.nodup_nil, nofun, nofun, nofun, nofun, nofun⟩

/-- Storing a message whose key is not about to be cleared. -/
theorem Ledger.store {h : History} {clearing : Option COMStr} (hl : Ledger h clearing)
    {t : COMStr} (hkey : clearing ≠ some (collectorKey t)) (object : Object) :
    Ledger (h.store t object) clearing := by
  refine ⟨hl.unique, ?_, ?_, ?_, ?_, ?_⟩
  · intro n hn
    have hlt := hl.known n hn
    simp only [History.store, List.length_append, List.length_singleton]
    omega
  · intro n hn
    simp only [History.store, List.length_append, List.length_singleton] at hn
    by_cases he : n = h.messages.length
    · refine .inr (.inr ⟨collectorKey t, ?_⟩)
      simp only [History.store, ↓reduceIte, he]
    · rcases hl.covered n (by omega) with ho | hs | ⟨k, hk⟩
      · exact .inl (List.mem_append_left _ ho)
      · exact .inr (.inl hs)
      · by_cases hkt : k = collectorKey t
        · subst hkt
          by_cases hseen : n ∈ h.seen
          · exact absurd (hl.fresh _ n hk hseen) hkey
          · left
            simp [History.store, hk, hseen]
        · refine .inr (.inr ⟨k, ?_⟩)
          simp only [History.store, if_neg hkt, hk]
  · intro k n hk
    simp only [History.store] at hk ⊢
    split at hk
    · next he =>
      cases hk
      exact ⟨_, List.getElem?_concat_length, he⟩
    · obtain ⟨m, hm, he⟩ := hl.sourced k n hk
      refine ⟨m, ?_, he⟩
      rw [List.getElem?_append_left (List.getElem?_eq_some_iff.mp hm).1]
      exact hm
  · intro k n hk hseen
    simp only [History.store] at hk
    split at hk
    · cases hk
      exact absurd (hl.known _ hseen) (Nat.lt_irrefl _)
    · exact hl.fresh k n hk hseen
  · intro k n hc hk
    have hne : k ≠ collectorKey t := fun he ↦ hkey (he ▸ hc)
    simp only [History.store, if_neg hne] at hk
    exact hl.taken k n hc hk

/-- A tick that begins has read nothing. -/
theorem Ledger.tick {h : History} (hl : Ledger h none) (hread : h.read = []) :
    Ledger h.tick none := by
  have hseen : h.tick.seen = h.seen := by
    rw [History.seen, History.seen, hread]
    rfl
  refine ⟨hseen ▸ hl.unique, hseen ▸ hl.known, ?_, hl.sourced, hseen ▸ hl.fresh, nofun⟩
  rw [hseen]
  exact hl.covered

/-- Reading a key when none is about to be cleared; the key read then is. -/
theorem Ledger.get {h : History} (hl : Ledger h none) (k : COMStr) :
    Ledger (h.get k) (some k) := by
  have hseen : (h.get k).seen = h.seen ++ (h.source k).toList := by
    rw [History.seen, History.seen, List.append_assoc]
    rfl
  have hnot : ∀ k' n, h.source k' = some n → n ∉ h.seen :=
    fun k' n hk' hn ↦ nomatch hl.fresh k' n hk' hn
  refine ⟨?_, ?_, ?_, hl.sourced, ?_, ?_⟩
  · rw [hseen]
    cases hk : h.source k with
    | none => simpa using hl.unique
    | some n =>
      rw [Option.toList_some, ← List.concat_eq_append]
      exact hl.unique.concat (hnot k n hk)
  · intro n hn
    rw [hseen, List.mem_append, Option.mem_toList] at hn
    rcases hn with hn | hn
    · exact hl.known n hn
    · obtain ⟨m, hm, -⟩ := hl.sourced k n hn
      exact (List.getElem?_eq_some_iff.mp hm).1
  · intro n hn
    rw [hseen, List.mem_append]
    rcases hl.covered n hn with ho | hs | hk
    · exact .inl ho
    · exact .inr (.inl (.inl hs))
    · exact .inr (.inr hk)
  · intro k' n hk' hn
    rw [hseen, List.mem_append, Option.mem_toList] at hn
    rcases hn with hn | hn
    · exact absurd hn (hnot k' n hk')
    · -- one message stands under one key
      obtain ⟨m, hm, he⟩ := hl.sourced k' n hk'
      obtain ⟨m', hm', he'⟩ := hl.sourced k n hn
      rw [hm] at hm'
      cases hm'
      rw [he, he']
  · intro k' n hc hk'
    cases hc
    have hs : h.source k = some n := hk'
    rw [hseen, hs]
    exact List.mem_append_right _ (List.mem_singleton_self n)

/-- Reading a key without a message. -/
theorem History.get_of_none {h : History} {k : COMStr} (hk : h.source k = none) :
    h.get k = h := by
  rw [History.get, hk, Option.toList_none, List.append_nil]

/-- A key that is cleared has no message. -/
theorem History.source_clear (h : History) (k k' : COMStr) :
    (h.set k "").source k' = if k' = k then none else h.source k' := by
  simp only [History.set, and_true]

/-- Setting a key without a message. -/
theorem History.set_of_none {h : History} {k : COMStr} (hk : h.source k = none) (text : COMStr) :
    h.set k text = h := by
  have hsource : (h.set k text).source = h.source := by
    funext k'
    simp only [History.set]
    split
    · next he => rw [he.1, hk]
    · rfl
  exact congrArg (fun source ↦ { h with source := source }) hsource

/-- Clearing the key that was about to be cleared. -/
theorem Ledger.clear {h : History} {k : COMStr} (hl : Ledger h (some k)) :
    Ledger (h.set k "") none := by
  refine ⟨hl.unique, hl.known, ?_, ?_, ?_, nofun⟩
  · intro n hn
    rcases hl.covered n hn with ho | hs | ⟨k', hk'⟩
    · exact .inl ho
    · exact .inr (.inl hs)
    · by_cases he : k' = k
      · exact .inr (.inl (hl.taken k n rfl (he ▸ hk')))
      · refine .inr (.inr ⟨k', ?_⟩)
        rw [History.source_clear, if_neg he, hk']
  · intro k' n hk'
    rw [History.source_clear] at hk'
    split at hk'
    · cases hk'
    · exact hl.sourced k' n hk'
  · intro k' n hk' hn
    rw [History.source_clear] at hk'
    split at hk'
    · cases hk'
    · next hne => exact absurd (Option.some.inj (hl.fresh k' n hk' hn)).symm hne

/-- No message stands under the key of the live data. -/
theorem Ledger.liveData {h : History} {clearing : Option COMStr} (hl : Ledger h clearing) :
    h.source liveDataKey = none := by
  cases hs : h.source liveDataKey with
  | none => rfl
  | some n =>
    obtain ⟨m, -, hkey⟩ := hl.sourced _ n hs
    exact absurd hkey.symm (collectorKey_ne_liveDataKey _)

/-- Pushing a report moves what was read into it. -/
theorem Ledger.push {h : History} {clearing : Option COMStr} (hl : Ledger h clearing)
    (text : COMStr) : Ledger (h.push text) clearing := by
  have hseen : (h.push text).seen = h.seen := by
    simp [History.seen, History.push]
  refine ⟨hseen ▸ hl.unique, hseen ▸ hl.known, ?_, hl.sourced, hseen ▸ hl.fresh,
    hseen ▸ hl.taken⟩
  rw [hseen]
  exact hl.covered

/-! ### What Redis holds -/

/-- Redis holds the data of the messages under their keys, and a tick can parse what it finds. -/
structure Held (P : Poco) (cfg : BridgeConfig) (redis : Redis) (h : History) : Prop where
  readable : ∀ d ∈ cfg.collector.devices,
    ∃ o, P.parse (dataOf redis d.deviceType) = .ok (.object .ptr o)
  stands : ∀ k n m, h.source k = some n → h.messages[n]? = some m →
    redis.vals k = storedText P m.object
  printed : ∀ m ∈ h.messages, P.ReadsBackValue (collectDataPoint m.object)

section Held

variable {P : Poco} {cfg : BridgeConfig} {redis : Redis} {h : History}

/-- A stored text is not empty. -/
theorem storedText_ne_empty (hnoText : ∀ v, P.parse "" ≠ .ok v) {jmsg : Object}
    (hback : P.ReadsBackValue (collectDataPoint jmsg)) : storedText P jmsg ≠ "" := by
  intro he
  rw [Poco.ReadsBackValue, ← storedText, he] at hback
  exact hnoText _ hback

/-- What a tick parses for a type just set. -/
theorem dataOf_set_self (redis : Redis) (t text : COMStr) :
    dataOf (redis.set (collectorKey t) text) t = if text = "" then emptyData else text := by
  rw [dataOf, Store.vals_set_self]

/-- What a tick parses for another type. -/
theorem dataOf_set_of_ne (redis : Redis) {t k : COMStr} (text : COMStr) (hk : collectorKey t ≠ k) :
    dataOf (redis.set k text) t = dataOf redis t := by
  rw [dataOf, dataOf, Store.vals_set_of_ne redis text hk]

/-- Storing a message. -/
theorem Held.store (hh : Held P cfg redis h) (hnoText : ∀ v, P.parse "" ≠ .ok v) {jmsg : Object}
    (hback : P.ReadsBackValue (collectDataPoint jmsg)) (t : COMStr)
    (hl : ∀ k n, h.source k = some n → n < h.messages.length) :
    Held P cfg (redis.set (collectorKey t) (storedText P jmsg)) (h.store t jmsg) := by
  refine ⟨?_, ?_, ?_⟩
  · intro d hd
    by_cases he : d.deviceType = t
    · subst he
      rw [dataOf_set_self, if_neg (storedText_ne_empty hnoText hback)]
      exact ⟨_, hback⟩
    · rw [dataOf_set_of_ne redis _ fun hk ↦ he (collectorKey_inj.mp hk)]
      exact hh.readable d hd
  · intro k n m hk hm
    simp only [History.store] at hk hm
    split at hk
    · next he =>
      cases hk
      rw [List.getElem?_concat_length] at hm
      cases hm
      rw [he]
      exact Store.vals_set_self redis _ _
    · next hne =>
      rw [List.getElem?_append_left (hl k n hk)] at hm
      rw [Store.vals_set_of_ne redis _ hne]
      exact hh.stands k n m hk hm
  · intro m hm
    simp only [History.store, List.mem_append, List.mem_singleton] at hm
    rcases hm with hm | rfl
    · exact hh.printed m hm
    · exact hback

/-- Clearing a key. -/
theorem Held.clear (hh : Held P cfg redis h)
    (hempty : P.parse emptyData = .ok (.object .ptr emptyDataObject)) (k : COMStr) :
    Held P cfg (redis.set k "") (h.set k "") := by
  refine ⟨?_, ?_, hh.printed⟩
  · intro d hd
    by_cases he : collectorKey d.deviceType = k
    · subst he
      rw [dataOf_set_self, if_pos rfl]
      exact ⟨_, hempty⟩
    · rw [dataOf_set_of_ne redis "" he]
      exact hh.readable d hd
  · intro k' n m hk' hm
    rw [History.source_clear] at hk'
    split at hk'
    · cases hk'
    · next hne =>
      rw [Store.vals_set_of_ne redis "" hne]
      exact hh.stands k' n m hk' hm

/-- Setting a key that is that of no type. -/
theorem Held.set (hh : Held P cfg redis h) {k : COMStr} (hk : ∀ t, collectorKey t ≠ k)
    (hnone : h.source k = none) (text : COMStr) : Held P cfg (redis.set k text) h := by
  refine ⟨?_, ?_, hh.printed⟩
  · intro d hd
    rw [dataOf_set_of_ne redis text (hk _)]
    exact hh.readable d hd
  · intro k' n m hk' hm
    have hne : k' ≠ k := by
      rintro rfl
      rw [hnone] at hk'
      cases hk'
    rw [Store.vals_set_of_ne redis text hne]
    exact hh.stands k' n m hk' hm

/-- A key that holds no text has no message. -/
theorem Held.source_eq_none (hh : Held P cfg redis h) (hnoText : ∀ v, P.parse "" ≠ .ok v)
    {clearing : Option COMStr} (hl : Ledger h clearing) {k : COMStr} (hk : redis.vals k = "") :
    h.source k = none := by
  cases hs : h.source k with
  | none => rfl
  | some n =>
    obtain ⟨m, hm, -⟩ := hl.sourced k n hs
    have htext := hh.stands k n m hs hm
    rw [hk] at htext
    exact absurd htext.symm
      (storedText_ne_empty hnoText (hh.printed m (List.mem_of_getElem? hm)))

end Held

/-! ### Progress -/

/-- A message that no tick has read came after the last tick that ended, and if it came before
the tick that runs, that tick will read its key. -/
structure Timely (cfg : BridgeConfig) (tick : Option TickAt) (h : History) : Prop where
  begun : h.begun = h.completed + tick.toList.length
  waiting : ∀ k n m, h.source k = some n → n ∉ h.seen → h.messages[n]? = some m →
    h.completed ≤ m.begun ∧ ∀ at', tick = some at' → m.begun = h.completed →
      ∃ d ∈ at'.todo, d.deviceType = m.deviceType
  read : ∀ n ∈ h.read, ∀ m, h.messages[n]? = some m → h.completed ≤ m.begun
  configured : ∀ m ∈ h.messages, ∃ d ∈ cfg.collector.devices, d.deviceType = m.deviceType

section Timely

variable {cfg : BridgeConfig} {running : Option TickAt} {h : History}

/-- A stored message comes after every tick that has begun. -/
theorem Timely.store (ht : Timely cfg running h) {clearing : Option COMStr} (hl : Ledger h clearing)
    {d : DeviceConfig} (hd : d ∈ cfg.collector.devices) (jmsg : Object) :
    Timely cfg running (h.store d.deviceType jmsg) := by
  have hbegun := ht.begun
  refine ⟨hbegun, ?_, ?_, ?_⟩
  · intro k n m hk hn hm
    simp only [History.store] at hk hm ⊢
    split at hk
    · cases hk
      rw [List.getElem?_concat_length] at hm
      cases hm
      refine ⟨by dsimp only; omega, ?_⟩
      intro at' hat he
      rw [hat] at hbegun
      simp only [Option.toList_some, List.length_singleton] at hbegun he
      omega
    · obtain ⟨m', hm', -⟩ := hl.sourced k n hk
      rw [List.getElem?_append_left (List.getElem?_eq_some_iff.mp hm').1] at hm
      exact ht.waiting k n m hk hn hm
  · intro n hn m hm
    have hlt := hl.known n (List.mem_append_right _ hn)
    simp only [History.store] at hm ⊢
    rw [List.getElem?_append_left hlt] at hm
    exact ht.read n hn m hm
  · intro m hm
    simp only [History.store, List.mem_append, List.mem_singleton] at hm
    rcases hm with hm | rfl
    · exact ht.configured m hm
    · exact ⟨d, hd, rfl⟩

/-- A tick that begins will read every key. -/
theorem Timely.tick (ht : Timely cfg none h) (hread : h.read = []) (body : Object) :
    Timely cfg (some (.reading body cfg.collector.devices)) h.tick := by
  have hseen : h.tick.seen = h.seen := by
    rw [History.seen, History.seen, hread]
    rfl
  have hbegun := ht.begun
  simp only [Option.toList_none, List.length_nil] at hbegun
  refine ⟨?_, ?_, nofun, ht.configured⟩
  · simp only [History.tick, Option.toList_some, List.length_singleton]
    omega
  · intro k n m hk hn hm
    rw [hseen] at hn
    refine ⟨(ht.waiting k n m hk hn hm).1, ?_⟩
    intro at' hat _
    cases hat
    exact ht.configured m (List.mem_of_getElem? hm)

/-- Reading the next key. -/
theorem Timely.get {body body' : Object} {dev : DeviceConfig} {rest : List DeviceConfig}
    (ht : Timely cfg (some (.reading body (dev :: rest))) h) (hl : Ledger h none) {at' : TickAt}
    (hat : at' = .reading body' rest ∨ at' = .clearing dev body' rest) :
    Timely cfg (some at') (h.get (collectorKey dev.deviceType)) := by
  have htodo : at'.todo = rest := by
    rcases hat with rfl | rfl <;> rfl
  refine ⟨ht.begun, ?_, ?_, ht.configured⟩
  · intro k n m hk hn hm
    have hseen : n ∉ h.seen := by
      intro hs
      apply hn
      rw [History.seen, List.mem_append] at hs ⊢
      exact hs.imp_right (List.mem_append_left _)
    obtain ⟨hle, htodo'⟩ := ht.waiting k n m hk hseen hm
    refine ⟨hle, ?_⟩
    intro at'' hat'' he
    cases hat''
    obtain ⟨d, hd, hdt⟩ := htodo' _ rfl he
    rcases List.mem_cons.mp hd with rfl | hd
    · -- the message stands under the key that was read
      exfalso
      apply hn
      obtain ⟨m', hm', hkey⟩ := hl.sourced k n hk
      rw [show h.messages[n]? = some m from hm] at hm'
      cases hm'
      have hsource : h.source (collectorKey d.deviceType) = some n := by
        rw [hdt, ← hkey]
        exact hk
      rw [History.seen, List.mem_append, History.get, hsource]
      exact .inr (List.mem_append_right _ (List.mem_singleton_self n))
    · rw [htodo]
      exact ⟨d, hd, hdt⟩
  · intro n hn m hm
    simp only [History.get, List.mem_append, Option.mem_toList] at hn
    rcases hn with hn | hn
    · exact ht.read n hn m hm
    · exact (ht.waiting _ n m hn (fun hs ↦ nomatch hl.fresh _ n hn hs) hm).1

/-- Clearing the key that was read. -/
theorem Timely.clear {dev : DeviceConfig} {body : Object} {todo : List DeviceConfig}
    (ht : Timely cfg (some (.clearing dev body todo)) h) (k : COMStr) :
    Timely cfg (some (.reading body todo)) (h.set k "") := by
  refine ⟨ht.begun, ?_, ht.read, ht.configured⟩
  intro k' n m hk' hn hm
  rw [History.source_clear] at hk'
  split at hk'
  · cases hk'
  · obtain ⟨hle, hw⟩ := ht.waiting k' n m hk' hn hm
    refine ⟨hle, ?_⟩
    intro at' hat he
    cases hat
    exact hw (.clearing dev body todo) rfl he

/-- Pushing the report. -/
theorem Timely.push {body : Object} (ht : Timely cfg (some (.reading body [])) h)
    (text : COMStr) : Timely cfg (some (.publishing text)) (h.push text) := by
  have hseen : (h.push text).seen = h.seen := by
    simp [History.seen, History.push]
  refine ⟨ht.begun, ?_, nofun, ht.configured⟩
  intro k n m hk hn hm
  rw [hseen] at hn
  obtain ⟨hle, hw⟩ := ht.waiting k n m hk hn hm
  refine ⟨hle, ?_⟩
  intro at' hat he
  cases hat
  exact hw (.reading body []) rfl he

/-- The tick has ended: what waits came after it had begun. -/
theorem Timely.complete {text : COMStr} (ht : Timely cfg (some (.publishing text)) h)
    (hread : h.read = []) : Timely cfg none h.complete := by
  refine ⟨ht.begun, ?_, ?_, ht.configured⟩
  · intro k n m hk hn hm
    obtain ⟨hle, hw⟩ := ht.waiting k n m hk hn hm
    refine ⟨?_, nofun⟩
    have hne : m.begun ≠ h.completed := by
      intro he
      obtain ⟨d, hd, -⟩ := hw _ rfl he
      cases hd
    simp only [History.complete]
    omega
  · intro n hn
    simp only [History.complete, hread] at hn
    cases hn

end Timely

/-! ### The report under construction -/

/-- The report of the running tick has the data of every message read for it, under types the
tick will not come to again. -/
structure Content (cfg : BridgeConfig) (running : Option TickAt) (h : History) : Prop where
  idle : running.bind TickAt.body = none → h.read = []
  distinct : ∀ at', running = some at' → (at'.todo.map (·.deviceType)).Nodup
  todo : ∀ at', running = some at' → ∀ d ∈ at'.todo, d ∈ cfg.collector.devices
  built : ∀ at' body, running = some at' → at'.body = some body → ∀ n ∈ h.read,
    ∃ m, h.messages[n]? = some m ∧ (∀ d ∈ at'.todo, d.deviceType ≠ m.deviceType) ∧
      Object.get body m.deviceType = .object .ptr (Object.reparse (collectDataPoint m.object))

section Content

variable {cfg : BridgeConfig} {running : Option TickAt} {h : History}

/-- A message keeps its number. -/
theorem History.getElem?_store {n : Nat} {m : Message} (hm : h.messages[n]? = some m) (t : COMStr)
    (jmsg : Object) : (h.store t jmsg).messages[n]? = some m := by
  simp only [History.store]
  rw [List.getElem?_append_left (List.getElem?_eq_some_iff.mp hm).1]
  exact hm

/-- Storing a message. -/
theorem Content.store (hc : Content cfg running h) (t : COMStr) (jmsg : Object) :
    Content cfg running (h.store t jmsg) := by
  refine ⟨hc.idle, hc.distinct, hc.todo, ?_⟩
  intro at' body hat hbody n hn
  obtain ⟨m, hm, hrest⟩ := hc.built at' body hat hbody n hn
  exact ⟨m, History.getElem?_store hm t jmsg, hrest⟩

/-- A tick begins. -/
theorem Content.tick (h : History) (hdistinct : (cfg.collector.devices.map (·.deviceType)).Nodup)
    (body : Object) : Content cfg (some (.reading body cfg.collector.devices)) h.tick := by
  refine ⟨fun _ ↦ rfl, ?_, ?_, nofun⟩
  · intro at' hat
    cases hat
    exact hdistinct
  · intro at' hat
    cases hat
    exact fun d hd ↦ hd

/-- The tick has read the next key, and found the data of its message, if it has one. -/
theorem Content.get {body o : Object} {dev : DeviceConfig} {rest : List DeviceConfig}
    (hc : Content cfg (some (.reading body (dev :: rest))) h) {at' : TickAt}
    (hat : at' = .reading (Object.set body dev.deviceType (.object .ptr o)) rest ∨
      at' = .clearing dev (Object.set body dev.deviceType (.object .ptr o)) rest)
    (ho : ∀ n, h.source (collectorKey dev.deviceType) = some n →
      ∃ m, h.messages[n]? = some m ∧ m.deviceType = dev.deviceType ∧
        o = Object.reparse (collectDataPoint m.object)) :
    Content cfg (some at') (h.get (collectorKey dev.deviceType)) := by
  have htodo : at'.todo = rest := by
    rcases hat with rfl | rfl <;> rfl
  have hbody : at'.body = some (Object.set body dev.deviceType (.object .ptr o)) := by
    rcases hat with rfl | rfl <;> rfl
  have hdistinct := hc.distinct _ rfl
  rw [TickAt.todo, List.map_cons, List.nodup_cons] at hdistinct
  refine ⟨?_, ?_, ?_, ?_⟩
  · intro hnone
    rw [Option.bind_some, hbody] at hnone
    cases hnone
  · intro at'' hat''
    cases hat''
    rw [htodo]
    exact hdistinct.2
  · intro at'' hat'' d hd
    cases hat''
    rw [htodo] at hd
    exact hc.todo _ rfl d (List.mem_cons_of_mem _ hd)
  · intro at'' body'' hat'' hbody'' n hn
    cases hat''
    rw [hbody] at hbody''
    cases hbody''
    rw [htodo]
    simp only [History.get, List.mem_append, Option.mem_toList] at hn
    rcases hn with hn | hn
    · obtain ⟨m, hm, hne, hget⟩ := hc.built _ body rfl rfl n hn
      have hdev : m.deviceType ≠ dev.deviceType :=
        fun he ↦ hne dev (List.mem_cons_self ..) he.symm
      refine ⟨m, hm, fun d hd ↦ hne d (List.mem_cons_of_mem _ hd), ?_⟩
      rw [Object.get_set_of_ne body _ hdev]
      exact hget
    · obtain ⟨m, hm, htype, rfl⟩ := ho n hn
      refine ⟨m, hm, ?_, ?_⟩
      · intro d hd he
        apply hdistinct.1
        rw [← htype, ← he]
        exact List.mem_map_of_mem hd
      · rw [htype]
        exact Object.get_set_self body _ _

/-- Clearing a key keeps the report. -/
theorem Content.clear {dev : DeviceConfig} {body : Object} {todo : List DeviceConfig}
    (hc : Content cfg (some (.clearing dev body todo)) h) (k : COMStr) :
    Content cfg (some (.reading body todo)) (h.set k "") := by
  refine ⟨nofun, ?_, ?_, ?_⟩
  · intro at' hat
    cases hat
    exact hc.distinct (.clearing dev body todo) rfl
  · intro at' hat
    cases hat
    exact hc.todo (.clearing dev body todo) rfl
  · intro at' body' hat hbody
    cases hat
    exact hc.built (.clearing dev body todo) body' rfl hbody

/-- Pushing the report. -/
theorem Content.push (cfg : BridgeConfig) (h : History) (text : COMStr) :
    Content cfg (some (.publishing text)) (h.push text) := by
  refine ⟨fun _ ↦ rfl, ?_, ?_, nofun⟩
  · intro at' hat
    cases hat
    exact List.nodup_nil
  · intro at' hat
    cases hat
    exact nofun

end Content

/-! ### What is told -/

/-- Where no message stands under the key of a type, it is clear, or as it was before the first
report; the report of the running tick has the data of no message for the types of which it has
read none; and every report pushed is in the queue and tells what it shows. -/
structure Told (P : Poco) (cfg : BridgeConfig) (before redis : Redis) (running : Option TickAt)
    (h : History) : Prop where
  queue : redis.lists m2cDataQueue =
    (h.reports.map (·.text)).reverse ++ before.lists m2cDataQueue
  rest : ∀ d ∈ cfg.collector.devices, h.source (collectorKey d.deviceType) = none →
    redis.vals (collectorKey d.deviceType) = "" ∨ h.reports.length = 0 ∧
      redis.vals (collectorKey d.deviceType) = before.vals (collectorKey d.deviceType) ∧
      ∀ at', running = some at' → d.deviceType ∈ at'.todo.map (·.deviceType) ∨
        at'.key = some (collectorKey d.deviceType)
  bare : ∀ at' body, running = some at' → at'.body = some body →
    ∀ d ∈ cfg.collector.devices, d.deviceType ∉ at'.todo.map (·.deviceType) →
      h.Lacks h.read d.deviceType → Bare P before h.reports.length body d.deviceType
  told : ∀ i r, h.reports[i]? = some r → Tells P cfg before h i r

section Told

variable {P : Poco} {cfg : BridgeConfig} {before redis : Redis} {running : Option TickAt}
  {h : History}

/-- With another message, none of the messages shown is of a type only if none was before. -/
theorem History.Lacks.of_store {shows : List Nat} {t t' : COMStr} {jmsg : Object}
    (hl : (h.store t' jmsg).Lacks shows t) : h.Lacks shows t :=
  fun n hn m hm ↦ hl n hn m (History.getElem?_store hm t' jmsg)

/-- A report tells the same when another message is stored. -/
theorem Tells.store {i : Nat} {r : Report} (ht : Tells P cfg before h i r) (t : COMStr)
    (jmsg : Object) : Tells P cfg before (h.store t jmsg) i r := by
  obtain ⟨report, htext, hshows, hbare⟩ := ht
  refine ⟨report, htext, ?_, fun d hd hl ↦ hbare d hd hl.of_store⟩
  intro n hn
  obtain ⟨m, hm, htags⟩ := hshows n hn
  exact ⟨m, History.getElem?_store hm t jmsg, htags⟩

/-- The data for another type stay. -/
theorem Bare.set_of_ne {i : Nat} {body : Object} {t t' : COMStr} (hb : Bare P before i body t)
    (hne : t ≠ t') (v : Var) : Bare P before i (Object.set body t' v) t := by
  have hsame : ∀ key, reportedTags (Object.set body t' v) t key = reportedTags body t key := by
    intro key
    rw [reportedTags, reportedTags, Object.get_set_of_ne body v hne]
  simp only [Bare, hsame]
  exact hb

/-- The data just set. -/
theorem reportedTags_set_self (body o : Object) (t key : COMStr) :
    reportedTags (Object.set body t (.object .ptr o)) t key = tags o key := by
  rw [reportedTags, Object.get_set_self]

/-- Storing a message. -/
theorem Told.store (ht : Told P cfg before redis running h) (t text : COMStr) (jmsg : Object) :
    Told P cfg before (redis.set (collectorKey t) text) running (h.store t jmsg) := by
  refine ⟨ht.queue, ?_, ?_, fun i r hr ↦ (ht.told i r hr).store t jmsg⟩
  · intro d hd hnone
    simp only [History.store] at hnone
    split at hnone
    · cases hnone
    · next hne =>
      rw [Store.vals_set_of_ne redis text hne]
      exact ht.rest d hd hnone
  · intro at' body hat hbody d hd hnot hl
    exact ht.bare at' body hat hbody d hd hnot hl.of_store

/-- A tick begins. -/
theorem Told.tick (ht : Told P cfg before redis none h) (body : Object) :
    Told P cfg before redis (some (.reading body cfg.collector.devices)) h.tick := by
  refine ⟨ht.queue, ?_, ?_, ht.told⟩
  · intro d hd hnone
    rcases ht.rest d hd hnone with hclear | ⟨hfirst, hsame, -⟩
    · exact .inl hclear
    · refine .inr ⟨hfirst, hsame, ?_⟩
      intro at' hat
      cases hat
      exact .inl (List.mem_map_of_mem hd)
  · intro at' body' hat _ d hd hnot
    cases hat
    exact absurd (List.mem_map_of_mem hd) hnot

/-- What can be parsed under the key of a type that has no message stood there at the start. -/
theorem Told.parse_before (ht : Told P cfg before redis running h)
    (hnoText : ∀ v, P.parse "" ≠ .ok v) {dev : DeviceConfig} (hdev : dev ∈ cfg.collector.devices)
    {o : Object}
    (hval : P.parse (redis.vals (collectorKey dev.deviceType)) = .ok (.object .ptr o))
    (hnone : h.source (collectorKey dev.deviceType) = none) :
    h.reports.length = 0 ∧
      P.parse (before.vals (collectorKey dev.deviceType)) = .ok (.object .ptr o) := by
  rcases ht.rest dev hdev hnone with hclear | ⟨hfirst, hsame, -⟩
  · rw [hclear] at hval
    exact absurd hval (hnoText _)
  · rw [← hsame]
    exact ⟨hfirst, hval⟩

/-- Reading the next key, which is then about to be cleared or is clear. The data read are those of
its message, if it has one. -/
theorem Told.get {body o : Object} {dev : DeviceConfig} {rest : List DeviceConfig}
    (ht : Told P cfg before redis (some (.reading body (dev :: rest))) h) {clearing : Option COMStr}
    (hl : Ledger h clearing) {at' : TickAt} (htodo : at'.todo = rest)
    (hbody : at'.body = some (Object.set body dev.deviceType (.object .ptr o)))
    (hkey : redis.vals (collectorKey dev.deviceType) = "" ∨
      at'.key = some (collectorKey dev.deviceType))
    (ho : h.source (collectorKey dev.deviceType) = none →
      (∀ key ∈ tagKeys, tags o key = []) ∨ h.reports.length = 0 ∧
        P.parse (before.vals (collectorKey dev.deviceType)) = .ok (.object .ptr o)) :
    Told P cfg before redis (some at') (h.get (collectorKey dev.deviceType)) := by
  refine ⟨ht.queue, ?_, ?_, ht.told⟩
  · intro d hd hnone
    rcases ht.rest d hd hnone with hclear | ⟨hfirst, hsame, hat⟩
    · exact .inl hclear
    · by_cases he : d.deviceType = dev.deviceType
      · rw [he]
        rw [he] at hsame
        refine hkey.imp_right fun hk ↦ ⟨hfirst, hsame, ?_⟩
        intro at'' hat''
        cases hat''
        exact .inr hk
      · refine .inr ⟨hfirst, hsame, ?_⟩
        intro at'' hat''
        cases hat''
        left
        rcases hat _ rfl with hmem | hno
        · rw [TickAt.todo, List.map_cons, List.mem_cons] at hmem
          rw [htodo]
          exact hmem.resolve_left he
        · cases hno
  · intro at'' body'' hat'' hbody'' d hd hnot hlacks
    cases hat''
    rw [hbody] at hbody''
    cases hbody''
    rw [htodo] at hnot
    by_cases he : d.deviceType = dev.deviceType
    · -- no message stood under the key
      have hnone : h.source (collectorKey dev.deviceType) = none := by
        cases hs : h.source (collectorKey dev.deviceType) with
        | none => rfl
        | some n =>
          obtain ⟨m, hm, hk⟩ := hl.sourced _ n hs
          have hread : n ∈ (h.get (collectorKey dev.deviceType)).read := by
            rw [History.get, hs]
            exact List.mem_append_right _ (List.mem_singleton_self n)
          exact absurd (he.trans (collectorKey_inj.mp hk)).symm (hlacks n hread m hm)
      rw [he]
      simp only [Bare, reportedTags_set_self]
      exact (ho hnone).imp_right fun ⟨hfirst, hparse⟩ ↦ ⟨hfirst, o, hparse, fun _ _ ↦ rfl⟩
    · have hnot' : d.deviceType ∉ (dev :: rest).map (·.deviceType) := by
        rw [List.map_cons, List.mem_cons, not_or]
        exact ⟨he, hnot⟩
      have hlacks' : h.Lacks h.read d.deviceType :=
        fun n hn m hm ↦ hlacks n (List.mem_append_left _ hn) m hm
      exact (ht.bare _ body rfl rfl d hd hnot' hlacks').set_of_ne he _

/-- Clearing the key that was read. -/
theorem Told.clear {body : Object} {dev : DeviceConfig} {todo : List DeviceConfig}
    (ht : Told P cfg before redis (some (.clearing dev body todo)) h) :
    Told P cfg before (redis.set (collectorKey dev.deviceType) "") (some (.reading body todo))
      (h.set (collectorKey dev.deviceType) "") := by
  refine ⟨ht.queue, ?_, ?_, ht.told⟩
  · intro d hd hnone
    by_cases he : collectorKey d.deviceType = collectorKey dev.deviceType
    · rw [he, Store.vals_set_self]
      exact .inl rfl
    · rw [History.source_clear, if_neg he] at hnone
      rw [Store.vals_set_of_ne redis "" he]
      rcases ht.rest d hd hnone with hclear | ⟨hfirst, hsame, hat⟩
      · exact .inl hclear
      · refine .inr ⟨hfirst, hsame, ?_⟩
        intro at' hat'
        cases hat'
        rcases hat _ rfl with hmem | hkey
        · exact .inl hmem
        · exact absurd (Option.some.inj hkey).symm he
  · intro at' body' hat hbody
    cases hat
    exact ht.bare (.clearing dev body todo) body' rfl hbody

/-- Pushing the report. -/
theorem Told.push {body : Object} (ht : Told P cfg before redis (some (.reading body [])) h)
    (hc : Content cfg (some (.reading body [])) h) :
    Told P cfg before (redis.push m2cDataQueue (P.stringify (.object .value body)))
      (some (.publishing (P.stringify (.object .value body))))
      (h.push (P.stringify (.object .value body))) := by
  refine ⟨?_, ?_, nofun, ?_⟩
  · rw [Store.lists_push_self, ht.queue, History.push, List.map_append, List.reverse_append]
    rfl
  · intro d hd hnone
    rcases ht.rest d hd hnone with hclear | ⟨-, -, hat⟩
    · exact .inl hclear
    · rcases hat _ rfl with hmem | hkey
      · cases hmem
      · cases hkey
  · intro i r hr
    rw [History.push, List.getElem?_append] at hr
    split at hr
    · exact ht.told i r hr
    · next hlast =>
      have hi : i = h.reports.length := by
        have hlt := (List.getElem?_eq_some_iff.mp hr).1
        rw [List.length_singleton] at hlt
        omega
      subst hi
      rw [Nat.sub_self, List.getElem?_cons_zero, Option.some.injEq] at hr
      subst hr
      refine ⟨body, rfl, ?_, fun d hd ↦ ht.bare _ body rfl rfl d hd List.not_mem_nil⟩
      intro n hn
      obtain ⟨m, hm, -, hget⟩ := hc.built _ body rfl rfl n hn
      refine ⟨m, hm, ?_⟩
      intro key hkey
      rw [reportedTags, hget]
      exact tags_reparse_collectDataPoint m.object hkey

/-- Publishing the live data. -/
theorem Told.publish {msg : COMStr} (ht : Told P cfg before redis (some (.publishing msg)) h) :
    Told P cfg before (redis.set liveDataKey msg) none h.complete := by
  refine ⟨ht.queue, ?_, nofun, ht.told⟩
  intro d hd hnone
  rw [Store.vals_set_of_ne redis msg (collectorKey_ne_liveDataKey _)]
  rcases ht.rest d hd hnone with hclear | ⟨hfirst, hsame, -⟩
  · exact .inl hclear
  · exact .inr ⟨hfirst, hsame, nofun⟩

end Told

/-! ### Every move keeps the books -/

/-- The five invariants of the Bridge at work. -/
structure Books (P : Poco) (cfg : BridgeConfig) (before : Redis) (v : View) : Prop where
  ledger : Ledger v.history (v.tick.bind TickAt.key)
  held : Held P cfg v.redis v.history
  timely : Timely cfg v.tick v.history
  content : Content cfg v.tick v.history
  told : Told P cfg before v.redis v.tick v.history

/-- What the results below rely on: types are distinct and the device has its identifier, the
empty data are the text of an object, and the empty text is none. -/
structure Setting (P : Poco) (cfg : BridgeConfig) : Prop where
  distinct : (cfg.collector.devices.map (·.deviceType)).Nodup
  devID : cfg.devID ≠ ""
  empty : P.parse emptyData = .ok (.object .ptr emptyDataObject)
  noText : ∀ v, P.parse "" ≠ .ok v

section Books

variable {P : Poco} {cfg : BridgeConfig} {before : Redis}

/-- A key that holds a message is a key of its type. -/
private theorem Books.lt_length {v : View} (hb : Books P cfg before v) (k : COMStr) (n : Nat)
    (hk : v.history.source k = some n) : n < v.history.messages.length := by
  obtain ⟨m, hm, -⟩ := hb.ledger.sourced k n hk
  exact (List.getElem?_eq_some_iff.mp hm).1

/-- What the tick has parsed for a key is the data of the message under it. -/
private theorem Books.parsed {v : View} (hb : Books P cfg before v) {t : COMStr} {o : Object}
    (hval : P.parse (v.redis.vals (collectorKey t)) = .ok (.object .ptr o)) (n : Nat)
    (hk : v.history.source (collectorKey t) = some n) :
    ∃ m, v.history.messages[n]? = some m ∧ m.deviceType = t ∧
      o = Object.reparse (collectDataPoint m.object) := by
  obtain ⟨m, hm, hkey⟩ := hb.ledger.sourced _ n hk
  refine ⟨m, hm, (collectorKey_inj.mp hkey).symm, ?_⟩
  have hback := hb.held.printed m (List.mem_of_getElem? hm)
  rw [Poco.ReadsBackValue, ← storedText, ← hb.held.stands _ n m hk hm, hval] at hback
  cases hback
  rfl

/-- Every move keeps the books. -/
theorem Move.books (hs : Setting P cfg) {v v' : View} (hmove : Move P cfg v v')
    (hb : Books P cfg before v) : Books P cfg before v' := by
  obtain ⟨redis, tick, h⟩ := v
  cases hmove with
  | idle => exact hb
  | store d jmsg hd hback hkey =>
    exact ⟨hb.ledger.store hkey jmsg, hb.held.store hs.noText hback _ hb.lt_length,
      hb.timely.store hb.ledger hd jmsg, hb.content.store _ jmsg, hb.told.store _ _ jmsg⟩
  | begin timeStamp htick =>
    cases htick
    have hread := hb.content.idle rfl
    exact ⟨hb.ledger.tick hread, ⟨hb.held.readable, hb.held.stands, hb.held.printed⟩,
      hb.timely.tick hread _, .tick h hs.distinct _, hb.told.tick _⟩
  | readEmpty body dev rest htick hval =>
    cases htick
    have hnone := hb.held.source_eq_none hs.noText hb.ledger hval
    have ho : ∀ n, h.source (collectorKey dev.deviceType) = some n →
        ∃ m, h.messages[n]? = some m ∧ m.deviceType = dev.deviceType ∧
          emptyDataObject = Object.reparse (collectDataPoint m.object) := by
      intro n hn
      rw [hnone] at hn
      cases hn
    refine ⟨?_, ⟨hb.held.readable, hb.held.stands, hb.held.printed⟩,
      hb.timely.get hb.ledger (.inl rfl), hb.content.get (.inl rfl) ho,
      hb.told.get hb.ledger rfl rfl (.inl hval) fun _ ↦ .inl fun _ ↦ tags_emptyDataObject⟩
    rw [History.get_of_none hnone]
    exact hb.ledger
  | readData body dev rest o htick hval =>
    cases htick
    have hdev : dev ∈ cfg.collector.devices := hb.content.todo _ rfl dev (List.mem_cons_self ..)
    exact ⟨hb.ledger.get _, ⟨hb.held.readable, hb.held.stands, hb.held.printed⟩,
      hb.timely.get hb.ledger (.inr rfl), hb.content.get (.inr rfl) (hb.parsed hval),
      hb.told.get hb.ledger rfl rfl (.inr rfl)
        fun hnone ↦ .inr (hb.told.parse_before hs.noText hdev hval hnone)⟩
  | clear dev body todo htick =>
    cases htick
    exact ⟨hb.ledger.clear, hb.held.clear hs.empty _, hb.timely.clear _, hb.content.clear _,
      hb.told.clear⟩
  | push body htick =>
    cases htick
    exact ⟨hb.ledger.push _, ⟨hb.held.readable, hb.held.stands, hb.held.printed⟩,
      hb.timely.push _, .push cfg h _, hb.told.push hb.content⟩
  | publish msg htick =>
    cases htick
    have hledger : Ledger h none := hb.ledger
    have hheld := hb.held.set collectorKey_ne_liveDataKey hledger.liveData msg
    have hread := hb.content.idle rfl
    rw [History.set_of_none hledger.liveData]
    exact ⟨⟨hledger.unique, hledger.known, hledger.covered, hledger.sourced, hledger.fresh,
      hledger.taken⟩, ⟨hheld.readable, hheld.stands, hheld.printed⟩, hb.timely.complete hread,
      ⟨fun _ ↦ hread, nofun, nofun, nofun⟩, hb.told.publish⟩

end Books

/-! ### Every event is a move -/

section Moves

variable {P : Poco} {cfg : BridgeConfig} {before : Redis}

/-- A tick that runs has an operation to do. -/
private theorem prog_ne_done (hs : Setting P cfg) (at' : TickAt) (r : Except Exn Unit) :
    at'.prog P cfg ≠ .done r := by
  cases at' with
  | reading body todo =>
    cases todo with
    | nil =>
      change pushReport P cfg body ≠ _
      rw [pushReport]
      simp [hs.devID]
    | cons dev rest =>
      intro h
      cases h
  | clearing dev body todo =>
    intro h
    cases h
  | publishing msg =>
    intro h
    cases h

/-- An operation that is not the last of the tick. -/
private theorem step_timer {redis redis' : Redis} {p p' : RedisProg Unit} {h : History}
    (hstep : p.step redis = (p', redis')) (hne : ∀ r, p' ≠ .done r) :
    step P cfg ⟨redis, some p, h⟩ .timer = ⟨redis', some p', h.observe p⟩ := by
  simp only [step, hstep]
  cases p' with
  | done r => exact absurd rfl (hne r)
  | _ => rfl

/-- The operation that reads the next key. -/
private theorem step_reading_cons {redis : Redis} {dev : DeviceConfig} {o : Object}
    (ho : P.parse (dataOf redis dev.deviceType) = .ok (.object .ptr o)) (body : Object)
    (rest : List DeviceConfig) :
    ((TickAt.reading body (dev :: rest)).prog P cfg).step redis =
      ((if redis.vals (collectorKey dev.deviceType) = "" then
          TickAt.reading (Object.set body dev.deviceType (.object .ptr o)) rest
        else .clearing dev (Object.set body dev.deviceType (.object .ptr o)) rest).prog P cfg,
        redis) := by
  rw [dataOf] at ho
  rw [TickAt.prog, dataPoints]
  change (Prog.bind (if redis.vals (collectorKey dev.deviceType) = "" then _ else _) _, redis) = _
  by_cases he : redis.vals (collectorKey dev.deviceType) = ""
  · rw [if_pos he] at ho ⊢
    simp only [if_pos he, ho]
    rfl
  · rw [if_neg he] at ho ⊢
    simp only [if_neg he, ho]
    rfl

/-- A message whose key is not about to be cleared is a move, -/
private theorem exists_move_message {v : View} {msg : COMStr}
    (hu : Uncontended P cfg (v.threads P cfg) (.message msg))
    (hback : ∀ d jmsg, accepted P cfg.collector msg = some (d, jmsg) →
      P.ReadsBackValue (collectDataPoint jmsg)) :
    ∃ v', step P cfg (v.threads P cfg) (.message msg) = v'.threads P cfg ∧ Move P cfg v v' := by
  cases ha : accepted P cfg.collector msg with
  | none =>
    refine ⟨v, ?_, .idle⟩
    simp only [step, ha, View.threads, listen_of_not_accepted ha]
  | some dm =>
    obtain ⟨d, jmsg⟩ := dm
    refine ⟨_, ?_, .store d jmsg (mem_of_accepted ha) (hback d jmsg ha) ?_⟩
    · simp only [step, ha, View.threads, listen_of_accepted ha]
    · intro hkey
      obtain ⟨at', hat, hk⟩ := Option.bind_eq_some_iff.mp hkey
      apply hu msg rfl d jmsg ha
      cases at' with
      | clearing dev body todo =>
        rw [TickAt.key, Option.some.injEq] at hk
        exact ⟨_, _, by rw [View.threads, hat, ← hk]; rfl⟩
      | reading body todo => cases hk
      | publishing text => cases hk

/-- and so is a tick that is due, which begins unless the last one still runs. -/
private theorem exists_move_tick (v : View) (timeStamp : COMStr) :
    ∃ v', step P cfg (v.threads P cfg) (.tick timeStamp) = v'.threads P cfg ∧ Move P cfg v v' := by
  cases htick : v.tick with
  | none =>
    refine ⟨_, ?_, .begin timeStamp htick⟩
    simp only [step, View.threads, htick]
    rfl
  | some at' =>
    refine ⟨v, ?_, .idle⟩
    simp only [step, View.threads, htick, Option.map_some]

/-- The push of the report, behind the last key. -/
private theorem step_reading_nil (hs : Setting P cfg) (redis : Redis) (body : Object)
    (h : History) :
    step P cfg ⟨redis, some ((TickAt.reading body []).prog P cfg), h⟩ .timer =
      ⟨redis.push m2cDataQueue (P.stringify (.object .value body)),
        some ((TickAt.publishing (P.stringify (.object .value body))).prog P cfg),
        h.observe (.push m2cDataQueue (P.stringify (.object .value body))
          ((TickAt.publishing (P.stringify (.object .value body))).prog P cfg))⟩ := by
  have hprog : (TickAt.reading body []).prog P cfg =
      .push m2cDataQueue (P.stringify (.object .value body))
        ((TickAt.publishing (P.stringify (.object .value body))).prog P cfg) := by
    change pushReport P cfg body = _
    rw [pushReport, if_neg hs.devID]
    rfl
  have hstep : ((TickAt.reading body []).prog P cfg).step redis =
      ((TickAt.publishing (P.stringify (.object .value body))).prog P cfg,
        redis.push m2cDataQueue (P.stringify (.object .value body))) := by
    rw [hprog]
    rfl
  rw [step_timer hstep (prog_ne_done hs _), hprog]

/-- Every operation of the timer's thread is a move. -/
private theorem exists_move_timer (hs : Setting P cfg) {v : View} (hb : Books P cfg before v) :
    ∃ v', step P cfg (v.threads P cfg) .timer = v'.threads P cfg ∧ Move P cfg v v' := by
  cases htick : v.tick with
  | none =>
    refine ⟨v, ?_, .idle⟩
    simp only [step, View.threads, htick, Option.map_none]
  | some at' =>
    rw [View.threads, htick, Option.map_some]
    cases at' with
    | reading body todo =>
      cases todo with
      | nil =>
        refine ⟨_, ?_, .push body htick⟩
        rw [step_reading_nil hs]
        rfl
      | cons dev rest =>
        have hdev := hb.content.todo _ htick dev (List.mem_cons_self ..)
        obtain ⟨o, ho⟩ := hb.held.readable dev hdev
        have hstep := @step_reading_cons P cfg _ _ _ ho body rest
        by_cases he : v.redis.vals (collectorKey dev.deviceType) = ""
        · rw [if_pos he] at hstep
          rw [dataOf, if_pos he, hs.empty] at ho
          cases ho
          exact ⟨_, step_timer hstep (prog_ne_done hs _), .readEmpty body dev rest htick he⟩
        · rw [if_neg he] at hstep
          rw [dataOf, if_neg he] at ho
          exact ⟨_, step_timer hstep (prog_ne_done hs _), .readData body dev rest o htick ho⟩
    | clearing dev body todo =>
      have hstep : ((TickAt.clearing dev body todo).prog P cfg).step v.redis =
          ((TickAt.reading body todo).prog P cfg,
            v.redis.set (collectorKey dev.deviceType) "") := rfl
      exact ⟨_, step_timer hstep (prog_ne_done hs _), .clear dev body todo htick⟩
    | publishing msg => exact ⟨_, rfl, .publish msg htick⟩

/-- Every uncontended event is a move. -/
theorem exists_move (hs : Setting P cfg) {v : View} (hb : Books P cfg before v) {e : Event}
    (hu : Uncontended P cfg (v.threads P cfg) e)
    (hback : ∀ msg, e = .message msg → ∀ d jmsg, accepted P cfg.collector msg = some (d, jmsg) →
      P.ReadsBackValue (collectDataPoint jmsg)) :
    ∃ v', step P cfg (v.threads P cfg) e = v'.threads P cfg ∧ Move P cfg v v' := by
  cases e with
  | message msg => exact exists_move_message hu (hback msg rfl)
  | tick timeStamp => exact exists_move_tick v timeStamp
  | timer => exact exists_move_timer hs hb

/-- With the books kept, every message whose tick has come is in one report. -/
theorem Books.reportedOnce {v : View} (hb : Books P cfg before v) {n : Nat} {m : Message}
    (hm : v.history.messages[n]? = some m) (hover : n ∉ v.history.overwritten)
    (hbegun : m.begun < v.history.completed) : ReportedOnce P v.history n m := by
  have hread : n ∉ v.history.read := by
    intro hn
    have hle := hb.timely.read n hn m hm
    omega
  have hseen : n ∈ v.history.seen := by
    rcases hb.ledger.covered n (List.getElem?_eq_some_iff.mp hm).1 with ho | hs | ⟨k, hk⟩
    · exact absurd ho hover
    · exact hs
    · by_contra hn
      have hle := (hb.timely.waiting k n m hk hn hm).1
      omega
  have hshown : n ∈ v.history.reports.flatMap (·.shows) := by
    rw [History.seen, List.mem_append] at hseen
    exact hseen.resolve_right hread
  have hunique := hb.ledger.unique
  rw [History.seen, List.nodup_append] at hunique
  refine ⟨List.count_eq_one_of_mem hunique.1 hshown, ?_⟩
  obtain ⟨r, hr, hn⟩ := List.mem_flatMap.mp hshown
  obtain ⟨i, hi⟩ := List.mem_iff_getElem?.mp hr
  obtain ⟨report, htext, hshows, -⟩ := hb.told.told i r hi
  obtain ⟨m', hm', htags⟩ := hshows n hn
  rw [hm] at hm'
  cases hm'
  exact ⟨r, hr, hn, report, htext, htags⟩

/-- The books of a Bridge that starts on keys it can parse. -/
theorem Books.start {redis : Redis} (hreadable : ∀ d ∈ cfg.collector.devices,
      ∃ o, P.parse (dataOf redis d.deviceType) = .ok (.object .ptr o)) :
    Books P cfg redis ⟨redis, none, .empty⟩ where
  ledger := .empty
  held := ⟨hreadable, nofun, nofun⟩
  timely := ⟨rfl, nofun, nofun, nofun⟩
  content := ⟨fun _ ↦ rfl, nofun, nofun, nofun⟩
  told := ⟨rfl, fun _ _ _ ↦ .inr ⟨rfl, rfl, nofun⟩, nofun, nofun⟩

end Moves

/-- The threads are in a state whose books are kept. -/
private def Booked (P : Poco) (cfg : BridgeConfig) (before : Redis) (s : Threads) : Prop :=
  ∃ v, s = View.threads P cfg v ∧ Books P cfg before v

/-- In every run in which the listener never stores to a key between the tick's reading and its
clearing of it, the queue has got the reports, each with the tags of the messages it shows and of no
other, and every message that is not overwritten before a tick has read it is in exactly one of them
once a later tick has ended. -/
theorem run_exactlyOnce (P : Poco) (cfg : BridgeConfig) (redis : Redis) (es : List Event)
    (hdistinct : (cfg.collector.devices.map (·.deviceType)).Nodup) (hdev : cfg.devID ≠ "")
    (hP : ReadsData P cfg.collector (messagesOf es))
    (hreadable : ∀ d ∈ cfg.collector.devices,
      ∃ o, P.parse (dataOf redis d.deviceType) = .ok (.object .ptr o))
    (hu : Guarded (step P cfg) (Uncontended P cfg) (start redis) es) :
    ExactlyOnce P cfg redis (run (step P cfg) (start redis) es) := by
  have hs : Setting P cfg := ⟨hdistinct, hdev, hP.empty, hP.noText⟩
  have hback : ∀ e ∈ es, ∀ msg, e = .message msg → ∀ d jmsg,
      accepted P cfg.collector msg = some (d, jmsg) →
      P.ReadsBackValue (collectDataPoint jmsg) := by
    rintro e he msg rfl
    apply hP.stored msg
    exact List.mem_filterMap.mpr ⟨_, he, rfl⟩
  have hrun : Booked P cfg redis (run (step P cfg) (start redis) es) := by
    apply run_invariant_of_guarded ?_ es (hu.and hback) ⟨_, rfl, Books.start hreadable⟩
    rintro s e ⟨hu', hback'⟩ ⟨v, rfl, hb⟩
    obtain ⟨v', hstep, hmove⟩ := exists_move hs hb hu' hback'
    exact ⟨v', hstep, hmove.books hs hb⟩
  obtain ⟨v, hv, hb⟩ := hrun
  rw [hv]
  exact ⟨hb.told.queue, hb.told.told, fun n m hm hover hbegun ↦ hb.reportedOnce hm hover hbegun⟩

/-! ### At a device -/

/-- The tick is about to set a key. -/
private def setting (s : Threads) : Bool :=
  match s.timer with
  | some (.set _ _ _) => true
  | _ => false

private theorem setting_of_clearing {s : Threads} {t : COMStr} (h : Clearing s t) :
    setting s = true := by
  obtain ⟨v, p, hp⟩ := h
  rw [setting, hp]

/-- A message, a tick that takes it, a second message after its key was cleared, and a second
tick. -/
def apart : List Event :=
  [.message (tagMsg 1), .tick "", .timer, .timer, .message (tagMsg 2), .timer, .timer, .tick "",
    .timer, .timer, .timer, .timer]

/-- What can be read off a history. -/
private def figures (h : History) : List (List Nat) × List Nat × List Nat × Nat :=
  (h.reports.map (·.shows), h.messages.map (·.begun), h.overwritten, h.completed)

/-- Both messages are reported once, each in a report of its own. -/
theorem run_exactlyOnce_apart :
    ExactlyOnce Poco.json oneDevice emptyRedis
        (run (step Poco.json oneDevice) (start emptyRedis) apart) ∧
      (run (step Poco.json oneDevice) (start emptyRedis) apart).history.reports.map (·.shows) =
        [[0], [1]] := by
  have hfigures : figures (run (step Poco.json oneDevice) (start emptyRedis) apart).history =
      ([[0], [1]], [0, 1], [], 2) := by decide +kernel
  refine ⟨?_, congrArg Prod.fst hfigures⟩
  have hfind : oneDevice.collector.findBySubId "s1" =
      some ⟨"power_meter", "s1", "MODBUS", 10, []⟩ := rfl
  have hP := readsData_tagMsg hfind [1, 2]
  apply run_exactlyOnce Poco.json oneDevice emptyRedis apart (by decide) (by decide) hP
  · intro d hd
    exact ⟨_, hP.empty⟩
  · have hsecond : setting (run (step Poco.json oneDevice) (start emptyRedis)
        [.message (tagMsg 1), .tick "", .timer, .timer]) = false := by decide +kernel
    refine ⟨?_, nofun, nofun, nofun, ?_, nofun, nofun, nofun, nofun, nofun, nofun, nofun, trivial⟩
    · rintro msg - d jmsg - ⟨v, p, hp⟩
      cases hp
    · intro msg _ d jmsg _ hc
      have hset := setting_of_clearing hc
      exact absurd (hsecond.symm.trans hset) Bool.false_ne_true

/-- The second message comes between the reading and the clearing of its key. -/
def between : List Event :=
  [.message (tagMsg 1), .tick "", .timer, .message (tagMsg 2), .timer, .timer, .timer, .tick "",
    .timer, .timer, .timer]

/-- It is in no report: two messages were stored, none was overwritten, both ticks have ended,
and the reports show the first message only. -/
theorem not_exactlyOnce_between :
    (run (step Poco.json oneDevice) (start emptyRedis) between).history.reports.map (·.shows) =
        [[0], []] ∧
      ¬ ExactlyOnce Poco.json oneDevice emptyRedis
        (run (step Poco.json oneDevice) (start emptyRedis) between) := by
  have hfigures : figures (run (step Poco.json oneDevice) (start emptyRedis) between).history =
      ([[0], []], [0, 1], [], 2) := by decide +kernel
  generalize run (step Poco.json oneDevice) (start emptyRedis) between = s at hfigures ⊢
  simp only [figures, Prod.mk.injEq] at hfigures
  obtain ⟨hshows, hbegun, hover, hended⟩ := hfigures
  refine ⟨hshows, ?_⟩
  intro honce
  have hsecond := congrArg (·[1]?) hbegun
  simp only [List.getElem?_map, List.getElem?_cons_succ, List.getElem?_cons_zero,
    Option.map_eq_some_iff] at hsecond
  obtain ⟨m, hm, hb⟩ := hsecond
  have hnot : 1 ∉ s.history.overwritten := by
    rw [hover]
    exact List.not_mem_nil
  obtain ⟨hcount, -⟩ := honce.once 1 m hm hnot (by rw [hb, hended]; decide)
  rw [List.flatMap_def, hshows] at hcount
  exact absurd hcount (by decide)

end IcsGateway.Bridge
