import IcsGateway.Lib.KeyedList
import IcsGateway.Lib.Transition
import IcsGateway.Util.It5Cfg

/-!
# The configurations over a run of `it5-cfg`

The subcommands `add` and `remove` of the script (`src/ics_gateway/01.CD/apps/Util/it5-cfg:52–100`),
and what a sequence of commands makes of Redis: `Default_Config` is a list of configurations, each
with its own name, and every other key holds a configuration in use. `Configs` is this without
texts and commands.
-/

namespace IcsGateway.It5Cfg

open Lib Lib.Eff Lib.Quoting

/-- What Perl does with decoded values beside reading them: `defined $v->{config}`, the reference
to a list of values, and what becomes of a value when a member of it is looked up, which makes an
empty hash of a missing one. -/
structure JsonPerl (J : Type) extends JsonTiny J where
  named : J → Bool
  list : List J → J
  looked : J → J

section Script

variable {J : Type} (js : JsonPerl J) (run : Shell)

/-- `my $JCFG = decode_json($CFG)`; `it5-cfg:7–9`. -/
def jcfgRef : Script J := do
  let _ ← backticks run (getCommand "SystemState".toList)
  let cfg ← backticks run (getCommand defaultConfig)
  match js.decodeJson cfg with
  | none => throw .notJson
  | some v => pure v

/-- `@{$JCFG}`. -/
def deref (v : J) : Script (List J) :=
  match js.elements v with
  | none => throw .notArray
  | some cs => pure cs

/-- `foreach my $item (@{$JCFG})`, up to the first item with the name; `it5-cfg:66–71, 84–95`. The
items before it, and those after it if there is one. -/
def lookFor (name : Text) (before : List J) : List J → Script (List J × Option (List J))
  | [] => pure (before, none)
  | item :: items => do
    let key ← ckey js.toJsonTiny item
    if name = key then pure (before, some items)
    else lookFor name (before ++ [js.looked item]) items

/-- `encode_json($JCFG)`, quoted, to `redis-cli set`; `it5-cfg:74–76, 88–90`. -/
def setDefaultConfig (cs : List J) : Script Unit :=
  system run (setCommand defaultConfig (escapeQuotes (js.encodeJson (js.list cs))))

/-- `add`, with its exit code; `it5-cfg:52–78`. -/
def add (val : Option Text) : Script Nat := do
  let v ← jcfgRef js run
  match val with
  | none => pure 1
  | some val =>
    match js.decodeJson val with
    | none => throw .notJson
    | some newCfg =>
      let name ← ckey js.toJsonTiny newCfg
      if js.named newCfg then
        let cs ← deref js v
        match ← lookFor js name [] cs with
        | (_, some _) => pure 3
        | (cs, none) =>
          setDefaultConfig js run (cs ++ [newCfg])
          pure 0
      else pure 2

/-- `remove`, with its exit code; `it5-cfg:79–100`. -/
def remove (val : Option Text) : Script Nat := do
  let v ← jcfgRef js run
  match val with
  | none => pure 1
  | some val =>
    let cs ← deref js v
    match ← lookFor js val [] cs with
    | (before, some after) =>
      setDefaultConfig js run (before ++ after)
      pure 0
    | (_, none) => pure 1

end Script

/-! ### Commands -/

/-- A command, or a program that sets a key. -/
inductive Command where
  | add (val : Option Text)
  | remove (val : Option Text)
  | backup
  | restore
  | write (key text : Text)

/-- Redis after a command. -/
def Command.act {J : Type} (js : JsonPerl J) (run : Shell) (s : Redis) : Command → Redis
  | .add val => (exec (It5Cfg.add js run val) s).2
  | .remove val => (exec (It5Cfg.remove js run val) s).2
  | .backup => afterBackup js.toJsonTiny run s
  | .restore => (exec (It5Cfg.restore js.toJsonTiny run) s).2
  | .write key text => Function.update s key (some text)

/-! ### The configurations -/

/-- The list of configurations, and the configuration in use under a name. -/
structure Configs (J : Type) where
  defaults : List J
  live : Text → Option J

section Claim

variable {J : Type} (js : JsonPerl J)

/-- The name of a configuration. -/
def nameOf (v : J) : Text := (js.config v).getD []

/-- The configurations after a command. -/
def Configs.act (a : Configs J) : Command → Configs J
  | .add (some val) =>
    match js.decodeJson val with
    | none => a
    | some v => if js.named v then { a with defaults := KeyedList.record (nameOf js) a.defaults v }
      else a
  | .remove (some name) => { a with defaults := KeyedList.erase (nameOf js) name a.defaults }
  | .backup => { a with defaults := a.defaults.map fun v ↦ (a.live (nameOf js v)).getD v }
  | .restore =>
    { a with live := fun n ↦ (KeyedList.find (nameOf js) n a.defaults).or (a.live n) }
  | .write key text => { a with live := Function.update a.live key (js.decodeJson text) }
  | _ => a

/-- `JSON::Tiny` joins the texts of the elements, and Perl finds a name that is not empty in a
hash only, where looking it up changes nothing. -/
structure JsonPerl.Lawful : Prop where
  reads : js.toJsonTiny.Reads
  encode_list : ∀ cs, js.encodeJson (js.list cs) =
    '[' :: ([','].intercalate (cs.map js.encodeJson) ++ [']'])
  named : ∀ v n, js.config v = some n → n ≠ [] → js.named v = true ∧ js.looked v = v

/-- A configuration that the list can hold: its name is a word other than that of the list, and
the shell changes nothing in its text, which is ASCII and is decoded to it. -/
structure Storable (n : Text) (v : J) : Prop where
  config : js.config v = some n
  word : IsWord n
  other : n ≠ defaultConfig
  encoded : Survives (js.encodeJson v)
  ascii : Ascii (js.encodeJson v)
  again : js.decodeJson (js.encodeJson v) = some v

/-- What a command is to meet: an added configuration can be held, a backup finds under every
name a text that passes through the commands, and no other program sets the list. -/
def Command.Meets (s : Redis) : Command → Prop
  | .add (some val) => ∀ v, js.decodeJson val = some v → js.named v = true →
      ∃ n, Storable js n v
  | .backup => ∀ names, Lists js.toJsonTiny s names → ∀ n ∈ names, Backable js.toJsonTiny s n
  | .write key _ => key ≠ defaultConfig
  | _ => True

/-- Redis holds the configurations: the list under its key, with a name of its own for each that
can be held, and under any other key what is in use there. -/
structure Represents (s : Redis) (a : Configs J) : Prop where
  stored : ∃ t w, s defaultConfig = some t ∧ js.decodeJson t = some w ∧
    js.elements w = some a.defaults
  storable : ∀ v ∈ a.defaults, Storable js (nameOf js v) v
  distinct : (a.defaults.map (nameOf js)).Nodup
  live : ∀ k, k ≠ defaultConfig → (s k).bind js.decodeJson = a.live k

end Claim

section Run

variable {J : Type} {js : JsonPerl J} {run : Shell} {s : Redis} {a : Configs J}

/-! ### The list -/

/-- A configuration that can be held is named. -/
theorem nameOf_of_config {v : J} {n : Text} (h : js.config v = some n) : nameOf js v = n := by
  rw [nameOf, h, Option.getD_some]

/-- The text of the list. -/
def textOf (js : JsonPerl J) (cs : List J) : Text :=
  '[' :: ([','].intercalate (cs.map js.encodeJson) ++ [']'])

/-- Configurations that can be held make a list that can be set, -/
private theorem survives_textOf {cs : List J} (h : ∀ v ∈ cs, Storable js (nameOf js v) v) :
    Survives (textOf js cs) := by
  have hopen : Survives ['['] := by decide
  have hclose : Survives [']'] := by decide
  have htexts : ∀ t ∈ cs.map js.encodeJson, Survives t := by
    intro t ht
    obtain ⟨v, hv, rfl⟩ := List.mem_map.mp ht
    exact (h v hv).encoded
  exact survives_append hopen (survives_append (survives_intercalate (by decide) htexts) hclose)

/-- and that is read back. -/
private theorem decode_textOf (hjs : js.Lawful) {cs : List J}
    (h : ∀ v ∈ cs, Storable js (nameOf js v) v) :
    ∃ w, js.decodeJson (textOf js cs) = some w ∧ js.elements w = some cs := by
  apply hjs.reads.list
  rw [List.forall₂_map_left_iff]
  exact List.forall₂_same.mpr fun v hv ↦ (h v hv).again

/-- Setting the list. -/
theorem exec_setDefaultConfig (hjs : js.Lawful) (hrun : Posix run) {cs : List J}
    (h : ∀ v ∈ cs, Storable js (nameOf js v) v) (s : Redis) :
    exec (setDefaultConfig js run cs) s =
      (.ok (), Function.update s defaultConfig (some (textOf js cs))) := by
  have hset := hrun.set defaultConfig (escapeQuotes (textOf js cs)) (textOf js cs) s
    isWord_defaultConfig ((unquote_escapeQuotes_iff _).mpr (survives_textOf h))
  rw [setDefaultConfig, system, exec_modify, hjs.encode_list]
  exact congrArg (Prod.mk (Except.ok ())) hset

/-- Redis with another list. -/
theorem Represents.setList (hjs : js.Lawful) (h : Represents js s a) {cs : List J}
    (hcs : ∀ v ∈ cs, Storable js (nameOf js v) v) (hd : (cs.map (nameOf js)).Nodup) :
    Represents js (Function.update s defaultConfig (some (textOf js cs)))
      { a with defaults := cs } := by
  obtain ⟨w, hw, helems⟩ := decode_textOf hjs hcs
  refine ⟨⟨_, w, Function.update_self .., hw, helems⟩, hcs, hd, ?_⟩
  intro k hk
  rw [Function.update_of_ne hk]
  exact h.live k hk

/-- The list is read. -/
theorem exec_jcfgRef (hjs : js.Lawful) (hrun : Posix run) {t : Text} {w : J}
    (ht : s defaultConfig = some t) (hw : js.decodeJson t = some w) :
    exec (jcfgRef js run) s = (.ok w, s) := by
  have hline : js.decodeJson ((s defaultConfig).getD [] ++ ['\n']) = some w := by
    rw [ht]
    exact hjs.reads.line t w hw
  rw [jcfgRef, exec_bind_of_ok (exec_backticks_get hrun isWord_systemState s),
    exec_bind_of_ok (exec_backticks_get hrun isWord_defaultConfig s), hline]
  rfl

/-- A reference to a list is followed. -/
private theorem exec_deref {w : J} {cs : List J} (hw : js.elements w = some cs) (s : Redis) :
    exec (deref js w) s = (.ok cs, s) := by
  rw [deref, hw]
  rfl

/-- The loop goes through configurations that can be held and leaves them as they are. -/
theorem exec_lookFor (hjs : js.Lawful) (name : Text) (s : Redis) : ∀ (cs before : List J),
    (∀ v ∈ cs, Storable js (nameOf js v) v) →
    (name ∉ cs.map (nameOf js) ∧
      exec (lookFor js name before cs) s = (.ok (before ++ cs, none), s)) ∨
    (name ∈ cs.map (nameOf js) ∧ ∃ l r,
      exec (lookFor js name before cs) s = (.ok (before ++ l, some r), s) ∧
        l ++ r = KeyedList.erase (nameOf js) name cs)
  | [], before, _ => .inl ⟨List.not_mem_nil, by rw [List.append_nil]; rfl⟩
  | c :: cs, before, h => by
    rw [List.forall_mem_cons] at h
    obtain ⟨hc, hcs⟩ := h
    rw [lookFor, exec_bind_of_ok (exec_ckey hc.config s), List.map_cons, List.mem_cons,
      KeyedList.erase]
    by_cases hn : name = nameOf js c
    · right
      refine ⟨.inl hn, [], cs, ?_, ?_⟩
      · rw [if_pos hn, List.append_nil]
        rfl
      · rw [if_pos hn, List.nil_append]
    · have hlooked := (hjs.named c _ hc.config hc.word.1).2
      have hassoc : ∀ l, before ++ [js.looked c] ++ l = before ++ c :: l := by
        intro l
        rw [hlooked, List.append_assoc, List.singleton_append]
      rw [if_neg hn, if_neg hn]
      rcases exec_lookFor hjs name s cs (before ++ [js.looked c]) hcs with
        ⟨hno, hexec⟩ | ⟨hmem, l, r, hexec, hlr⟩
      · left
        refine ⟨not_or.mpr ⟨hn, hno⟩, ?_⟩
        rw [hexec, hassoc]
      · right
        refine ⟨.inr hmem, c :: l, r, ?_, ?_⟩
        · rw [hexec, hassoc]
        · rw [← hlr, List.cons_append]

/-! ### One command -/

/-- `add` on a configuration that can be held: exit code 3 and nothing done if its name is
taken, else 0 and it stands at the end of the list. -/
theorem exec_add (hjs : js.Lawful) (hrun : Posix run) (h : Represents js s a) {val n : Text}
    {v : J} (hval : js.decodeJson val = some v) (hv : Storable js n v) :
    exec (add js run (some val)) s =
      if n ∈ a.defaults.map (nameOf js) then (.ok 3, s)
      else (.ok 0, Function.update s defaultConfig (some (textOf js (a.defaults ++ [v])))) := by
  obtain ⟨t, w, ht, hw, helems⟩ := h.stored
  have hnamed := (hjs.named v n hv.config hv.word.1).1
  rw [add, exec_bind_of_ok (exec_jcfgRef hjs hrun ht hw)]
  simp only [hval]
  rw [exec_bind_of_ok (exec_ckey hv.config s), if_pos hnamed,
    exec_bind_of_ok (exec_deref helems s)]
  rcases exec_lookFor hjs n s a.defaults [] h.storable with ⟨hno, hexec⟩ | ⟨hmem, l, r, hexec, -⟩
  · have hall : ∀ c ∈ a.defaults ++ [v], Storable js (nameOf js c) c := by
      intro c hc
      rcases List.mem_append.mp hc with hc | hc
      · exact h.storable c hc
      · rw [List.mem_singleton.mp hc, nameOf_of_config hv.config]
        exact hv
    rw [if_neg hno, exec_bind_of_ok hexec, List.nil_append]
    simp only
    rw [exec_bind_of_ok (exec_setDefaultConfig hjs hrun hall s)]
    rfl
  · rw [if_pos hmem, exec_bind_of_ok hexec]
    rfl

/-- `remove`: exit code 1 and nothing done if no configuration has the name, else 0 and it is
gone from the list. -/
theorem exec_remove (hjs : js.Lawful) (hrun : Posix run) (h : Represents js s a) (name : Text) :
    exec (remove js run (some name)) s =
      if name ∈ a.defaults.map (nameOf js) then
        (.ok 0, Function.update s defaultConfig
          (some (textOf js (KeyedList.erase (nameOf js) name a.defaults))))
      else (.ok 1, s) := by
  obtain ⟨t, w, ht, hw, helems⟩ := h.stored
  rw [remove, exec_bind_of_ok (exec_jcfgRef hjs hrun ht hw)]
  simp only
  rw [exec_bind_of_ok (exec_deref helems s)]
  rcases exec_lookFor hjs name s a.defaults [] h.storable with
    ⟨hno, hexec⟩ | ⟨hmem, l, r, hexec, hlr⟩
  · rw [if_neg hno, exec_bind_of_ok hexec]
    rfl
  · have hall : ∀ c ∈ KeyedList.erase (nameOf js) name a.defaults,
        Storable js (nameOf js c) c := fun c hc ↦
      h.storable c ((KeyedList.erase_sublist name a.defaults).subset hc)
    rw [if_pos hmem, exec_bind_of_ok hexec, List.nil_append]
    simp only [hlr]
    rw [exec_bind_of_ok (exec_setDefaultConfig hjs hrun hall s)]
    rfl

/-- `add` adds. -/
private theorem act_add (hjs : js.Lawful) (hrun : Posix run) (h : Represents js s a)
    (val : Option Text) (hm : (Command.add val).Meets js s) :
    Represents js ((Command.add val).act js run s) (a.act js (.add val)) := by
  obtain ⟨t, w, ht, hw, helems⟩ := h.stored
  have hread := exec_jcfgRef hjs hrun ht hw
  change Represents js (exec (add js run val) s).2 _
  cases val with
  | none =>
    rw [add, exec_bind_of_ok hread]
    exact h
  | some val =>
    cases hval : js.decodeJson val with
    | none =>
      have hact : a.act js (.add (some val)) = a := by
        rw [Configs.act, hval]
      rw [hact, add, exec_bind_of_ok hread]
      simp only [hval]
      exact h
    | some v =>
      cases hnamed : js.named v with
      | true =>
        have hact : a.act js (.add (some val)) =
            { a with defaults := KeyedList.record (nameOf js) a.defaults v } := by
          rw [Configs.act, hval]
          exact if_pos hnamed
        obtain ⟨n, hv⟩ := hm v hval hnamed
        have hname := nameOf_of_config hv.config
        have hv' : Storable js (nameOf js v) v := hname ▸ hv
        rw [hact, exec_add hjs hrun h hval hv]
        by_cases hmem : n ∈ a.defaults.map (nameOf js)
        · rw [if_pos hmem, KeyedList.record, hname, if_pos hmem]
          exact h
        · rw [if_neg hmem]
          have hall := @KeyedList.forall_mem_record J Text _ (nameOf js)
            (fun c ↦ Storable js (nameOf js c) c) a.defaults v h.storable hv'
          have hd := KeyedList.nodup_record (x := v) h.distinct
          rw [KeyedList.record, hname, if_neg hmem] at hall hd ⊢
          exact h.setList hjs hall hd
      | false =>
        have hno : ¬ js.named v = true := by
          rw [hnamed]
          exact Bool.false_ne_true
        have hact : a.act js (.add (some val)) = a := by
          rw [Configs.act, hval]
          exact if_neg hno
        rw [hact, add, exec_bind_of_ok hread]
        simp only [hval]
        cases hc : js.config v with
        | none =>
          have hkey : exec (ckey js.toJsonTiny v) s = (.error .notHash, s) := by
            rw [ckey, hc]
            rfl
          rw [exec_bind_of_error hkey]
          exact h
        | some n =>
          rw [exec_bind_of_ok (exec_ckey hc s), if_neg hno]
          exact h

/-- `remove` removes. -/
private theorem act_remove (hjs : js.Lawful) (hrun : Posix run) (h : Represents js s a)
    (val : Option Text) :
    Represents js ((Command.remove val).act js run s) (a.act js (.remove val)) := by
  change Represents js (exec (remove js run val) s).2 _
  cases val with
  | none =>
    obtain ⟨t, w, ht, hw, -⟩ := h.stored
    rw [remove, exec_bind_of_ok (exec_jcfgRef hjs hrun ht hw)]
    exact h
  | some name =>
    rw [exec_remove hjs hrun h, Configs.act]
    by_cases hmem : name ∈ a.defaults.map (nameOf js)
    · rw [if_pos hmem]
      have hsub : (KeyedList.erase (nameOf js) name a.defaults).Sublist a.defaults :=
        KeyedList.erase_sublist name a.defaults
      exact h.setList hjs (fun v hv ↦ h.storable v (hsub.subset hv))
        (h.distinct.sublist (hsub.map (nameOf js)))
    · rw [if_neg hmem, KeyedList.erase_of_not_mem hmem]
      exact h

/-- The names of the list, as `backup` and `restore` find them. -/
private theorem Represents.lists (h : Represents js s a) :
    Lists js.toJsonTiny s (a.defaults.map (nameOf js)) := by
  obtain ⟨t, w, ht, hw, helems⟩ := h.stored
  refine ⟨t, w, a.defaults, ht, hw, helems, ?_⟩
  rw [List.map_map]
  exact List.map_congr_left fun v hv ↦ (h.storable v hv).config

/-- `backup` collects what is in use. -/
private theorem act_backup (hjs : js.Lawful) (hrun : Posix run) (h : Represents js s a)
    (hm : Command.backup.Meets js s) :
    Represents js (Command.backup.act js run s) (a.act js .backup) := by
  have hback := hm _ h.lists
  have hwords : ∀ n ∈ a.defaults.map (nameOf js), IsWord n := fun n hn ↦ (hback n hn).1
  have hafter : Command.backup.act js run s = Function.update s defaultConfig
      (some (listText s (a.defaults.map (nameOf js)))) := by
    rw [Command.act, exec_backup hjs.reads hrun h.lists hwords]
    exact hrun.set _ _ _ s isWord_defaultConfig
      ((unquote_escapeQuotes_iff _).mpr (survives_listText hback))
  have hused : ∀ v ∈ a.defaults, Collected js.toJsonTiny s (nameOf js v)
      ((a.live (nameOf js v)).getD v) := by
    intro v hv
    obtain ⟨-, t, u, ht, hpasses⟩ := hback _ (List.mem_map_of_mem hv)
    have hlive := h.live _ (h.storable v hv).other
    rw [ht, Option.bind_some, hpasses.decodes] at hlive
    rw [← hlive, Option.getD_some]
    exact ⟨t, ht, hpasses⟩
  have hcollected : List.Forall₂ (Collected js.toJsonTiny s) (a.defaults.map (nameOf js))
      (a.defaults.map fun v ↦ (a.live (nameOf js v)).getD v) := by
    rw [List.forall₂_map_left_iff, List.forall₂_map_right_iff]
    exact List.forall₂_same.mpr hused
  obtain ⟨w, hw, helems, -⟩ := lists_of_collected hjs.reads hcollected
  have hname : ∀ v ∈ a.defaults, nameOf js ((a.live (nameOf js v)).getD v) = nameOf js v := by
    intro v hv
    obtain ⟨t, -, hpasses⟩ := hused v hv
    exact nameOf_of_config hpasses.config
  rw [hafter]
  refine ⟨⟨_, w, Function.update_self .., hw, helems⟩, ?_, ?_, ?_⟩
  · intro u hu
    obtain ⟨v, hv, rfl⟩ := List.mem_map.mp hu
    obtain ⟨t, -, hpasses⟩ := hused v hv
    have hold := h.storable v hv
    simp only [hname v hv]
    exact ⟨hpasses.config, hold.word, hold.other, hpasses.encoded, hpasses.ascii, hpasses.again⟩
  · have hnames : (a.defaults.map fun v ↦ (a.live (nameOf js v)).getD v).map (nameOf js) =
        a.defaults.map (nameOf js) := by
      rw [List.map_map]
      exact List.map_congr_left hname
    rw [Configs.act, hnames]
    exact h.distinct
  · intro k hk
    rw [Function.update_of_ne hk]
    exact h.live k hk

/-- `restore` puts the list in use. -/
private theorem act_restore (hjs : js.Lawful) (hrun : Posix run) (h : Represents js s a) :
    Represents js (Command.restore.act js run s) (a.act js .restore) := by
  obtain ⟨t, w, ht, hw, helems⟩ := h.stored
  -- The loop is stated for a Redis that the values were collected from: this one.
  have hcollected : List.Forall₂ (Collected js.toJsonTiny
      fun n ↦ (KeyedList.find (nameOf js) n a.defaults).map js.encodeJson)
      (a.defaults.map (nameOf js)) a.defaults := by
    rw [List.forall₂_map_left_iff, List.forall₂_same]
    intro v hv
    have hst := h.storable v hv
    refine ⟨js.encodeJson v, ?_, hst.again, hst.config, hst.encoded, hst.encoded, hst.ascii,
      hst.again⟩
    simp only [KeyedList.find_of_mem h.distinct hv, Option.map_some]
  have hwords : ∀ n ∈ a.defaults.map (nameOf js), IsWord n := by
    intro n hn
    obtain ⟨v, hv, rfl⟩ := List.mem_map.mp hn
    exact (h.storable v hv).word
  obtain ⟨s₂, hloop, hset, hother⟩ := exec_restore_loop hrun hcollected hwords s
  have hlist : defaultConfig ∉ a.defaults.map (nameOf js) := by
    intro hmem
    obtain ⟨v, hv, hn⟩ := List.mem_map.mp hmem
    exact (h.storable v hv).other hn
  have hafter : Command.restore.act js run s = s₂ := by
    rw [Command.act, restore, exec_bind_of_ok (exec_jcfg hjs.reads hrun ht hw helems), hloop]
  rw [hafter]
  refine ⟨⟨t, w, ?_, hw, helems⟩, h.storable, h.distinct, ?_⟩
  · rw [hother _ hlist]
    exact ht
  · intro k hk
    change (s₂ k).bind js.decodeJson = (KeyedList.find (nameOf js) k a.defaults).or (a.live k)
    by_cases hmem : k ∈ a.defaults.map (nameOf js)
    · obtain ⟨v, ⟨u, hu, hpasses⟩, hstored⟩ := hset k hmem
      obtain ⟨v', hv', rfl⟩ := List.mem_map.mp hmem
      simp only [KeyedList.find_of_mem h.distinct hv', Option.map_some, Option.some.injEq] at hu
      have hsame : v' = v := by
        have hdec := hpasses.decodes
        rw [← hu, (h.storable v' hv').again] at hdec
        exact Option.some.inj hdec
      rw [hstored, Option.bind_some, hpasses.again, KeyedList.find_of_mem h.distinct hv', hsame]
      rfl
    · rw [hother k hmem, KeyedList.find_of_not_mem hmem]
      exact h.live k hk

/-- One command keeps the configurations represented. -/
theorem Represents.act (hjs : js.Lawful) (hrun : Posix run) (h : Represents js s a) (c : Command)
    (hm : c.Meets js s) : Represents js (c.act js run s) (a.act js c) := by
  cases c with
  | add val => exact act_add hjs hrun h val hm
  | remove val => exact act_remove hjs hrun h val
  | backup => exact act_backup hjs hrun h hm
  | restore => exact act_restore hjs hrun h
  | write key text =>
    have hne : defaultConfig ≠ key := fun he ↦ hm he.symm
    obtain ⟨t, w, ht, hw, helems⟩ := h.stored
    refine ⟨⟨t, w, ?_, hw, helems⟩, h.storable, h.distinct, ?_⟩
    · rw [Command.act, Function.update_of_ne hne]
      exact ht
    · intro k hk
      change (Function.update s key (some text) k).bind js.decodeJson =
        Function.update a.live key (js.decodeJson text) k
      by_cases hkey : k = key
      · rw [hkey, Function.update_self, Function.update_self, Option.bind_some]
      · rw [Function.update_of_ne hkey, Function.update_of_ne hkey]
        exact h.live k hk

/-- In every run of `add`, `remove`, `backup`, `restore` and other programs that set keys, Redis
holds the configurations that the same commands make without texts, shell and quoting: the list
has a name of its own for each configuration and keeps the order in which they were added. -/
theorem run_represents (hjs : js.Lawful) (hrun : Posix run) (h : Represents js s a)
    (cs : List Command)
    (hm : Guarded (Command.act js run) (Command.Meets js) s cs) :
    Represents js (Lib.run (Command.act js run) s cs) (Lib.run (Configs.act js) a cs) := by
  have hstep : ∀ s a c, Command.Meets js s c → Represents js s a →
      Represents js (Command.act js run s c) (Configs.act js a c) := by
    intro s a c hc h
    exact h.act hjs hrun c hc
  exact run_related_of_guarded hstep cs hm h

end Run

/-! ### Values that Perl decodes -/

/-- ASCII texts in Perl, which keeps the last member of a name. -/
def asciiPerl : JsonPerl Json where
  toJsonTiny := asciiJson
  named
    | .object ms =>
      match ms.reverse.find? fun m ↦ m.1 = "config" with
      | some (_, .null) | none => false
      | some _ => true
    | _ => false
  list := .array
  looked
    | .null => .object []
    | v => v

/-- The texts of further elements, each after a comma. -/
private theorem encodeElements_eq (vs : List Json) :
    JsonText.encodeElements vs = (vs.map JsonText.encode).flatMap (',' :: ·) ++ [']'] := by
  induction vs with
  | nil => rfl
  | cons v vs ih =>
    rw [JsonText.encodeElements, ih, List.map_cons, List.flatMap_cons, List.append_assoc]
    rfl

/-- It prints lists element by element, and names are members of objects. -/
theorem lawful_asciiPerl : asciiPerl.Lawful where
  reads := reads_asciiJson
  encode_list cs := by
    change JsonText.encode (.array cs) =
      '[' :: ([','].intercalate (cs.map JsonText.encode) ++ [']'])
    cases cs with
    | nil => rfl
    | cons v vs =>
      rw [JsonText.encode, encodeElements_eq, List.map_cons, intercalate_cons, List.append_assoc]
  named v n hc hn := by
    cases v with
    | object ms =>
      have hlast : lastString "config" ms = n := Option.some.inj hc
      refine ⟨?_, rfl⟩
      unfold lastString at hlast
      simp only [asciiPerl]
      cases hf : ms.reverse.find? fun m ↦ m.1 = "config" with
      | none =>
        rw [hf] at hlast
        exact absurd hlast.symm hn
      | some m =>
        obtain ⟨k, u⟩ := m
        rw [hf] at hlast
        cases u with
        | null => exact absurd hlast.symm hn
        | _ => rfl
    | _ => cases hc

/-- A configuration with nothing but its name can be held. -/
private theorem storable_named {name : String} (hword : IsWord name.toList)
    (hother : name.toList ≠ defaultConfig) (hencoded : Survives (JsonText.encode (named name)))
    (hascii : Ascii (JsonText.encode (named name))) :
    Storable asciiPerl name.toList (named name) where
  config := config_named name
  word := hword
  other := hother
  encoded := hencoded
  ascii := hascii
  again := JsonText.decode_encode (named name)

/-- The configurations of a list with one. -/
def oneConfig : Configs Json where
  defaults := [named "A"]
  live k := (oneKey k).bind JsonText.decode

/-- A configuration is added, the list is put in use, and the first one removed. -/
def addRestoreRemove : List Command :=
  [.add (some (JsonText.encode (named "B"))), .restore, .remove (some ['A'])]

/-- The one added is left in the list, and in use. -/
theorem run_represents_addRestoreRemove :
    Represents asciiPerl (Lib.run (Command.act asciiPerl plainShell) oneKey addRestoreRemove)
        (Lib.run (Configs.act asciiPerl) oneConfig addRestoreRemove) ∧
      (Lib.run (Configs.act asciiPerl) oneConfig addRestoreRemove).defaults.map
        (nameOf asciiPerl) = [['B']] := by
  have hA : Storable asciiPerl "A".toList (named "A") :=
    storable_named (by decide +kernel) (by decide +kernel) (by decide +kernel) (by decide +kernel)
  have hB : Storable asciiPerl "B".toList (named "B") :=
    storable_named (by decide +kernel) (by decide +kernel) (by decide +kernel) (by decide +kernel)
  have hname : nameOf asciiPerl (named "A") = "A".toList := nameOf_of_config hA.config
  have hstart : Represents asciiPerl oneKey oneConfig := by
    refine ⟨⟨_, .array [named "A"], if_pos rfl,
      JsonText.decode_encode (.array [named "A"]), rfl⟩, ?_, ?_, fun k _ ↦ rfl⟩
    · intro v hv
      rw [List.mem_singleton.mp hv, hname]
      exact hA
    · exact List.nodup_singleton _
  have hmeets : Guarded (Command.act asciiPerl plainShell) (Command.Meets asciiPerl) oneKey
      addRestoreRemove := by
    refine ⟨?_, trivial, trivial, trivial⟩
    intro v hv _
    have hdec : JsonText.decode (JsonText.encode (named "B")) = some v := hv
    rw [JsonText.decode_encode] at hdec
    exact ⟨_, Option.some.inj hdec ▸ hB⟩
  refine ⟨run_represents lawful_asciiPerl posix_plainShell hstart addRestoreRemove hmeets, ?_⟩
  decide +kernel

end IcsGateway.It5Cfg
