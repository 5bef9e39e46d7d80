import Mathlib.Logic.Function.Basic
import Mathlib.Data.List.Forall2
import IcsGateway.Lib.Effect
import IcsGateway.Lib.JsonFrame
import IcsGateway.Lib.Quoting

/-!
# Saving and restoring the configuration with `it5-cfg`

The subcommands `backup` and `restore` of the script `src/ics_gateway/01.CD/apps/Util/it5-cfg`:
the first collects the configurations that Redis holds under their names into the list
`Default_Config`, the second writes the elements of that list back under their names. Both go
through a shell with nothing escaped but quotation marks.
-/

namespace IcsGateway.It5Cfg

open Lib Lib.Eff Lib.Quoting

/-- A string of the script: characters, or the bytes that a command printed. -/
abbrev Text := List Char

/-- The text of every key that is set. -/
abbrev Redis := Text → Option Text

/-- A shell: what a command line prints, and what it makes of the keys. -/
abbrev Shell := Text → Redis → Text × Redis

/-- `JSON::Tiny`, and what Perl finds in the values that it decodes: the elements of a list,
and the interpolated member `config` of an object. -/
structure JsonTiny (J : Type) where
  decodeJson : Text → Option J
  encodeJson : J → Text
  elements : J → Option (List J)
  config : J → Option Text

/-- Why the script dies. -/
inductive Death where
  | notJson
  | notArray
  | notHash

/-- A part of the script. -/
abbrev Script := Eff Death Redis

/-- The bytes of a string of characters, as a command receives it. -/
def octets (t : Text) : Text :=
  t.flatMap fun c ↦ (String.utf8EncodeChar c).map fun b ↦ Char.ofNat b.toNat

/-- `redis-cli get`, for a key. -/
def getCommand (key : Text) : Text := "redis-cli get ".toList ++ key

/-- `redis-cli set`, for a key and a text between double quotes. -/
def setCommand (key text : Text) : Text :=
  "redis-cli set ".toList ++ (key ++ (' ' :: '"' :: (text ++ ['"'])))

/-- The key of the list of configurations. -/
def defaultConfig : Text := "Default_Config".toList

section Script

variable {J : Type} (js : JsonTiny J) (run : Shell)

/-- Backticks: run a command and take what it prints. -/
def backticks (command : Text) : Script Text := do
  let s ← get
  set (run command s).2
  pure (run command s).1

/-- Run a command. -/
def system (command : Text) : Script Unit := modify fun s ↦ (run command s).2

/-- `@{$JCFG}`, `it5-cfg:7–9, 26`: the elements of the list of configurations. -/
def jcfg : Script (List J) := do
  let _ ← backticks run (getCommand "SystemState".toList)
  let cfg ← backticks run (getCommand defaultConfig)
  match js.decodeJson cfg with
  | none => throw .notJson
  | some v =>
    match js.elements v with
    | none => throw .notArray
    | some cs => pure cs

/-- `$c->{config}`, for an element. -/
def ckey (c : J) : Script Text :=
  match js.config c with
  | none => throw .notHash
  | some key => pure key

/-- One round of the loop of `restore`, `it5-cfg:26–31`. The command is a string of characters,
since the name is one; the text that `encode_json` gives is already one of bytes. -/
def restoreOne (c : J) : Script Unit := do
  let key ← ckey js c
  let cfgstr := escapeQuotes (js.encodeJson c)
  system run (octets (setCommand key cfgstr))

/-- `restore`, `it5-cfg:25–31`. -/
def restore : Script Unit := do
  let cs ← jcfg js run
  cs.forM (restoreOne js run)

/-- One round of the loop of `backup`, `it5-cfg:35–45`: the list so far, and whether this is the
first round. -/
def backupOne (acc : Text × Bool) (c : J) : Script (Text × Bool) := do
  let newCfg := if acc.2 then acc.1 else acc.1 ++ [',']
  let key ← ckey js c
  let cfgstr ← backticks run (octets (getCommand key))
  pure (newCfg ++ cfgstr, false)

/-- `backup`, `it5-cfg:32–51`. -/
def backup : Script Unit := do
  let cs ← jcfg js run
  let acc ← cs.foldlM (backupOne js run) (['['], true)
  system run (setCommand defaultConfig (escapeQuotes (acc.1 ++ [']'])))

/-- Redis after `backup`. -/
def afterBackup (s : Redis) : Redis := (exec (backup js run) s).2

/-- Redis after `backup` and `restore`. -/
def afterRestore (s : Redis) : Redis := (exec (restore js run) (afterBackup js run s)).2

end Script

/-! ### What the script relies on -/

/-- A character without meaning to the shell. -/
def Literal (c : Char) : Prop := c.toNat < 0x80 ∧ c ∉ "|&;<>()$\x60\\\"' \t\n*?[\x00".toList

instance (c : Char) : Decidable (Literal c) := inferInstanceAs (Decidable (_ ∧ _))

/-- A word that the shell takes as it is, in bytes and in characters. -/
def IsWord (key : Text) : Prop :=
  key ≠ [] ∧ (∀ c ∈ key, Literal c) ∧ key.head? ≠ some '~' ∧ key.head? ≠ some '#'

instance decidableIsWord (key : Text) : Decidable (IsWord key) :=
  have : Decidable (∀ c ∈ key, Literal c) := List.decidableBAll Literal key
  inferInstanceAs (Decidable (_ ∧ _ ∧ _ ∧ _))

/-- A POSIX shell with a `redis-cli` that prints a line with the text of a key, an empty one for
a key that is not set, and stores its argument unchanged. -/
structure Posix (run : Shell) : Prop where
  get : ∀ key s, IsWord key → run (getCommand key) s = ((s key).getD [] ++ ['\n'], s)
  set : ∀ key text t s, IsWord key → unquote text = some t →
    (run (setCommand key text) s).2 = Function.update s key (some t)

/-- A decoder of JSON texts: a line feed may follow a text, and texts between brackets, with
commas between them, are the text of the list of their values. -/
structure JsonTiny.Reads {J : Type} (js : JsonTiny J) : Prop where
  line : ∀ t v, js.decodeJson t = some v → js.decodeJson (t ++ ['\n']) = some v
  list : ∀ ts vs, List.Forall₂ (fun t v ↦ js.decodeJson t = some v) ts vs →
    ∃ w, js.decodeJson ('[' :: ([','].intercalate ts ++ [']'])) = some w ∧
      js.elements w = some vs

/-! ### What is claimed -/

section Claim

variable {J : Type} (js : JsonTiny J)

/-- `Default_Config` is the text of a list whose elements have the names. -/
def Lists (s : Redis) (names : List Text) : Prop :=
  ∃ t w cs, s defaultConfig = some t ∧ js.decodeJson t = some w ∧ js.elements w = some cs ∧
    cs.map js.config = names.map some

/-- Every key of the names is unset or holds an object with this name. -/
def Holds (s : Redis) (names : List Text) : Prop :=
  ∀ n ∈ names, ∀ t, s n = some t → ∃ v, js.decodeJson t = some v ∧ js.config v = some n

/-- `backup` leaves a list with the same names, and `restore` after it leaves every key unset
that was, and with a text of the same value every other one. -/
structure Preserves (run : Shell) (s : Redis) (names : List Text) : Prop where
  list : Lists js (afterBackup js run s) names
  values : ∀ n ∈ names,
    (afterRestore js run s n).map js.decodeJson = (s n).map js.decodeJson

/-- A text of ASCII characters. -/
def Ascii (t : Text) : Prop := ∀ c ∈ t, c.toNat < 0x80

instance (t : Text) : Decidable (Ascii t) :=
  List.decidableBAll (fun c : Char ↦ c.toNat < 0x80) t

/-- A text of a value with this name, which passes through both commands: the shell changes
neither it nor the text that `encode_json` gives for the value, and this one is ASCII and is
decoded to the value. -/
structure Passes (n t : Text) (v : J) : Prop where
  decodes : js.decodeJson t = some v
  config : js.config v = some n
  text : Survives t
  encoded : Survives (js.encodeJson v)
  ascii : Ascii (js.encodeJson v)
  again : js.decodeJson (js.encodeJson v) = some v

/-- The name is a word for the shell, and its key is set to such a text. -/
def Backable (s : Redis) (n : Text) : Prop :=
  IsWord n ∧ ∃ t v, s n = some t ∧ Passes js n t v

end Claim

/-! ### Commands -/

/-- An ASCII character is its own byte. -/
private theorem bytes_of_ascii {c : Char} (h : c.toNat < 0x80) :
    (String.utf8EncodeChar c).map (fun b ↦ Char.ofNat b.toNat) = [c] := by
  have hv : c.val.toNat ≤ 0x7f := Nat.le_of_lt_succ h
  have hb : (UInt8.ofNat c.val.toNat).toNat = c.toNat := by
    rw [UInt8.toNat_ofNat', Nat.mod_eq_of_lt]
    · rfl
    · omega
  unfold String.utf8EncodeChar
  rw [if_pos hv, List.map_singleton, hb, Char.ofNat_toNat]

/-- ASCII characters are their own bytes. -/
theorem octets_of_ascii {t : Text} (h : Ascii t) : octets t = t := by
  induction t with
  | nil => rfl
  | cons c t ih =>
    rw [Ascii, List.forall_mem_cons] at h
    have ht : octets t = t := ih h.2
    rw [octets] at ht ⊢
    rw [List.flatMap_cons, bytes_of_ascii h.1, ht, List.singleton_append]

theorem ascii_append {t u : Text} (ht : Ascii t) (hu : Ascii u) : Ascii (t ++ u) := by
  intro c hc
  exact (List.mem_append.mp hc).elim (ht c) (hu c)

/-- Escaping keeps ASCII. -/
theorem ascii_escapeQuotes {t : Text} (h : Ascii t) : Ascii (escapeQuotes t) := by
  intro c hc
  obtain ⟨d, hd, hmem⟩ := List.mem_flatMap.mp hc
  split at hmem
  · rcases List.mem_cons.mp hmem with rfl | hmem
    · decide
    · rw [List.mem_singleton.mp hmem]
      decide
  · rw [List.mem_singleton.mp hmem]
    exact h d hd

/-- Words are ASCII. -/
theorem IsWord.ascii {n : Text} (h : IsWord n) : Ascii n := fun c hc ↦ (h.2.1 c hc).1

theorem ascii_getCommand {n : Text} (h : IsWord n) : Ascii (getCommand n) := by
  apply ascii_append _ h.ascii
  unfold Ascii
  simp

theorem ascii_setCommand {n t : Text} (h : IsWord n) (ht : Ascii t) :
    Ascii (setCommand n t) := by
  have hopen : Ascii "redis-cli set ".toList := by
    unfold Ascii
    simp
  have hquoted : Ascii (' ' :: '"' :: (t ++ ['"'])) := by
    simp only [Ascii, List.mem_cons, List.mem_append, List.not_mem_nil, or_false]
    rintro c (rfl | rfl | hc | rfl)
    · decide
    · decide
    · exact ht c hc
    · decide
  exact ascii_append hopen (ascii_append h.ascii hquoted)

/-- The key of the list is a word. -/
theorem isWord_defaultConfig : IsWord defaultConfig := by
  decide +kernel

theorem isWord_systemState : IsWord "SystemState".toList := by
  decide +kernel

/-! ### One run of the script -/

section Run

variable {J : Type} {js : JsonTiny J} {run : Shell}

/-- Reading a key prints its text and changes nothing. -/
theorem exec_backticks_get (hrun : Posix run) {key : Text} (h : IsWord key) (s : Redis) :
    exec (backticks run (getCommand key)) s = (.ok ((s key).getD [] ++ ['\n']), s) := by
  have hget := hrun.get key s h
  change (Except.ok (run (getCommand key) s).1, (run (getCommand key) s).2) = _
  rw [hget]

/-- The elements of the list are read. -/
theorem exec_jcfg (hjs : js.Reads) (hrun : Posix run) {s : Redis} {t : Text} {w : J}
    {cs : List J} (ht : s defaultConfig = some t) (hw : js.decodeJson t = some w)
    (hcs : js.elements w = some cs) : exec (jcfg js run) s = (.ok cs, s) := by
  have hline : js.decodeJson ((s defaultConfig).getD [] ++ ['\n']) = some w := by
    rw [ht]
    exact hjs.line t w hw
  rw [jcfg, exec_bind_of_ok (exec_backticks_get hrun isWord_systemState s),
    exec_bind_of_ok (exec_backticks_get hrun isWord_defaultConfig s), hline]
  simp only [hcs, exec_pure]

/-- The name of an element is read. -/
theorem exec_ckey {c : J} {n : Text} (hc : js.config c = some n) (s : Redis) :
    exec (ckey js c) s = (.ok n, s) := by
  rw [ckey, hc]
  rfl

/-- What `backup` adds for a name. -/
def piece (s : Redis) (n : Text) : Text := (s n).getD [] ++ ['\n']

/-- One round of `backup` adds the text of the key, after a comma unless it is the first. -/
theorem exec_backupOne (hrun : Posix run) {c : J} {n : Text} (hc : js.config c = some n)
    (hn : IsWord n) (acc : Text × Bool) (s : Redis) :
    exec (backupOne js run acc c) s =
      (.ok ((if acc.2 then acc.1 else acc.1 ++ [',']) ++ piece s n, false), s) := by
  have hread := exec_backticks_get hrun hn s
  rw [backupOne, exec_bind_of_ok (exec_ckey hc s), octets_of_ascii (ascii_getCommand hn),
    exec_bind_of_ok hread]
  rfl

/-- The rounds after the first. -/
theorem exec_backup_more (hrun : Posix run) (s : Redis) : ∀ (cs : List J) (names : List Text)
    (text : Text), cs.map js.config = names.map some → (∀ n ∈ names, IsWord n) →
    exec (cs.foldlM (backupOne js run) (text, false)) s =
      (.ok (text ++ names.flatMap fun n ↦ ',' :: piece s n, false), s)
  | [], [], text, _, _ => by
    simp
  | c :: cs, n :: names, text, hcs, hwords => by
    rw [List.map_cons, List.map_cons, List.cons.injEq] at hcs
    rw [List.forall_mem_cons] at hwords
    have hone := exec_backupOne hrun hcs.1 hwords.1 (text, false) s
    have hmore := exec_backup_more hrun s cs names (text ++ [','] ++ piece s n) hcs.2 hwords.2
    rw [List.foldlM_cons, exec_bind_of_ok hone]
    simp only [Bool.false_eq_true, ↓reduceIte]
    rw [hmore, List.flatMap_cons]
    simp only [List.append_assoc, List.cons_append, List.nil_append]

/-- The text that `backup` stores. -/
def listText (s : Redis) (names : List Text) : Text :=
  '[' :: ([','].intercalate (names.map (piece s)) ++ [']'])

/-- Texts with commas between them, from the first one on. -/
theorem intercalate_cons (t : Text) (ts : List Text) :
    [','].intercalate (t :: ts) = t ++ ts.flatMap (',' :: ·) := by
  induction ts generalizing t with
  | nil => simp
  | cons u ts ih =>
    rw [List.intercalate_cons_cons, ih, List.flatMap_cons]
    simp

/-- `backup` stores the texts of the keys, whatever they are. -/
theorem exec_backup (hjs : js.Reads) (hrun : Posix run) {s : Redis} {names : List Text}
    (hlist : Lists js s names) (hwords : ∀ n ∈ names, IsWord n) :
    afterBackup js run s =
      (run (setCommand defaultConfig (escapeQuotes (listText s names))) s).2 := by
  obtain ⟨t, w, cs, ht, hw, hcs, hnames⟩ := hlist
  have hloop : exec (cs.foldlM (backupOne js run) (['['], true)) s =
      (.ok ('[' :: [','].intercalate (names.map (piece s)), names.isEmpty), s) := by
    cases cs with
    | nil =>
      cases names with
      | nil => rfl
      | cons n names => cases hnames
    | cons c cs =>
      cases names with
      | nil => cases hnames
      | cons n names =>
        rw [List.map_cons, List.map_cons, List.cons.injEq] at hnames
        rw [List.forall_mem_cons] at hwords
        have hone := exec_backupOne hrun hnames.1 hwords.1 (['['], true) s
        have hmore := exec_backup_more hrun s cs names ('[' :: piece s n) hnames.2 hwords.2
        rw [List.foldlM_cons, exec_bind_of_ok hone, List.map_cons, intercalate_cons]
        simp only [↓reduceIte, List.cons_append, List.nil_append, hmore, List.flatMap_map,
          List.isEmpty_cons]
  rw [afterBackup, backup, exec_bind_of_ok (exec_jcfg hjs hrun ht hw hcs),
    exec_bind_of_ok hloop]
  rfl

/-- One round of `restore` sets the key to the text of the value. -/
theorem exec_restoreOne (hrun : Posix run) {n t : Text} {v : J} (hn : IsWord n)
    (h : Passes js n t v) (s : Redis) :
    exec (restoreOne js run v) s =
      (.ok (), Function.update s n (some (js.encodeJson v))) := by
  have hset := hrun.set n (escapeQuotes (js.encodeJson v)) (js.encodeJson v) s hn
    ((unquote_escapeQuotes_iff _).mpr h.encoded)
  rw [restoreOne, exec_bind_of_ok (exec_ckey h.config s)]
  simp only
  rw [octets_of_ascii (ascii_setCommand hn (ascii_escapeQuotes h.ascii)), system, exec_modify, hset]

/-- A value that `backup` collects under a name. -/
def Collected (js : JsonTiny J) (s : Redis) (n : Text) (v : J) : Prop :=
  ∃ t, s n = some t ∧ Passes js n t v

/-- `restore` sets every key to the text of a value collected under its name. -/
theorem exec_restore_loop (hrun : Posix run) {s : Redis} {names : List Text} {vs : List J}
    (h : List.Forall₂ (Collected js s) names vs) (hwords : ∀ n ∈ names, IsWord n) (s₁ : Redis) :
    ∃ s₂, exec (vs.forM (restoreOne js run)) s₁ = (.ok (), s₂) ∧
      (∀ n ∈ names, ∃ v, Collected js s n v ∧ s₂ n = some (js.encodeJson v)) ∧
      ∀ n, n ∉ names → s₂ n = s₁ n := by
  induction h generalizing s₁ with
  | nil => exact ⟨s₁, rfl, fun n hn ↦ absurd hn List.not_mem_nil, fun n _ ↦ rfl⟩
  | @cons n v names vs hv hvs ih =>
    rw [List.forall_mem_cons] at hwords
    obtain ⟨t, ht, hpasses⟩ := hv
    obtain ⟨s₂, hloop, hset, hother⟩ :=
      ih hwords.2 (Function.update s₁ n (some (js.encodeJson v)))
    refine ⟨s₂, ?_, ?_, ?_⟩
    · change exec (restoreOne js run v >>= fun _ ↦ vs.forM (restoreOne js run)) s₁ = _
      rw [exec_bind_of_ok (exec_restoreOne hrun hwords.1 hpasses s₁)]
      exact hloop
    · intro k hk
      by_cases hmem : k ∈ names
      · exact hset k hmem
      · have hkn : k = n := (List.mem_cons.mp hk).resolve_right hmem
        subst hkn
        refine ⟨v, ⟨t, ht, hpasses⟩, ?_⟩
        rw [hother k hmem, Function.update_self]
    · intro k hk
      rw [List.mem_cons, not_or] at hk
      rw [hother k hk.2, Function.update_of_ne hk.1]

/-- The list that `backup` stores is that of the values. -/
theorem lists_of_collected (hjs : js.Reads) {s : Redis} {names : List Text}
    {vs : List J} (h : List.Forall₂ (Collected js s) names vs) :
    ∃ w, js.decodeJson (listText s names) = some w ∧ js.elements w = some vs ∧
      vs.map js.config = names.map some := by
  have htexts : List.Forall₂ (fun t v ↦ js.decodeJson t = some v) (names.map (piece s)) vs := by
    rw [List.forall₂_map_left_iff]
    refine h.imp ?_
    rintro n v ⟨t, ht, hpasses⟩
    rw [piece, ht]
    exact hjs.line t v hpasses.decodes
  obtain ⟨w, hw, hvs⟩ := hjs.list _ _ htexts
  refine ⟨w, hw, hvs, ?_⟩
  clear htexts hw hvs
  induction h with
  | nil => rfl
  | cons hv _ ih =>
    obtain ⟨t, ht, hpasses⟩ := hv
    rw [List.map_cons, List.map_cons, hpasses.config, ih]

/-- The shell changes nothing in a list of texts that it changes nothing in. -/
theorem survives_listText {s : Redis} {names : List Text}
    (h : ∀ n ∈ names, Backable js s n) : Survives (listText s names) := by
  have hpieces : ∀ t ∈ names.map (piece s), Survives t := by
    intro t ht
    obtain ⟨n, hn, rfl⟩ := List.mem_map.mp ht
    obtain ⟨-, t, v, hst, hpasses⟩ := h n hn
    rw [piece, hst]
    exact survives_append hpasses.text (by decide)
  have hopen : Survives ['['] := by decide
  have hclose : Survives [']'] := by decide
  have hjoined : Survives ([','].intercalate (names.map (piece s))) :=
    survives_intercalate (by decide) hpieces
  exact survives_append hopen (survives_append hjoined hclose)

/-- If every name is a word whose key is set to a text that passes through both commands,
`backup` leaves a list of the same names, and `restore` after it every value as it was. -/
theorem backup_restore (hjs : js.Reads) (hrun : Posix run) {s : Redis} {names : List Text}
    (hlist : Lists js s names) (h : ∀ n ∈ names, Backable js s n) :
    Preserves js run s names := by
  have hwords : ∀ n ∈ names, IsWord n := fun n hn ↦ (h n hn).1
  have hvalues : ∃ vs, List.Forall₂ (Collected js s) names vs := by
    clear hlist hwords
    induction names with
    | nil => exact ⟨[], .nil⟩
    | cons n names ih =>
      rw [List.forall_mem_cons] at h
      obtain ⟨⟨-, t, v, ht, hv⟩, hrest⟩ := h
      obtain ⟨vs, hvs⟩ := ih hrest
      exact ⟨v :: vs, .cons ⟨t, ht, hv⟩ hvs⟩
  obtain ⟨vs, hvs⟩ := hvalues
  have hsurvives := survives_listText h
  have hafter : afterBackup js run s =
      Function.update s defaultConfig (some (listText s names)) := by
    rw [exec_backup hjs hrun hlist hwords]
    exact hrun.set _ _ _ s isWord_defaultConfig ((unquote_escapeQuotes_iff _).mpr hsurvives)
  have hstored : afterBackup js run s defaultConfig = some (listText s names) := by
    rw [hafter, Function.update_self]
  obtain ⟨w, hw, helems, hnames⟩ := lists_of_collected hjs hvs
  obtain ⟨s₂, hloop, hset, -⟩ := exec_restore_loop hrun hvs hwords (afterBackup js run s)
  have hrestore : afterRestore js run s = s₂ := by
    rw [afterRestore, restore, exec_bind_of_ok (exec_jcfg hjs hrun hstored hw helems), hloop]
  refine ⟨⟨_, w, vs, hstored, hw, helems, hnames⟩, ?_⟩
  intro n hn
  obtain ⟨v, ⟨t, ht, hpasses⟩, hv⟩ := hset n hn
  rw [hrestore, hv, ht, Option.map_some, Option.map_some, hpasses.again, hpasses.decodes]

/-- If what the shell makes of the list is no JSON text, the list is lost. -/
theorem not_preserves_of_list (hjs : js.Reads) (hrun : Posix run) {s : Redis}
    {names : List Text} (hlist : Lists js s names) (hwords : ∀ n ∈ names, IsWord n)
    (hshell : (unquote (escapeQuotes (listText s names))).isSome = true)
    (hjson : ((unquote (escapeQuotes (listText s names))).bind js.decodeJson).isNone = true) :
    ¬ Preserves js run s names := by
  rintro ⟨⟨t, w, cs, ht, hw, -, -⟩, -⟩
  obtain ⟨u, hu⟩ := Option.isSome_iff_exists.mp hshell
  rw [exec_backup hjs hrun hlist hwords, hrun.set _ _ u s isWord_defaultConfig hu,
    Function.update_self, Option.some.injEq] at ht
  rw [hu, Option.bind_some, ht, hw] at hjson
  cases hjson

end Run

/-! ### A decoder and a shell -/

/-- The member of a name that Perl keeps, as a string; numbers and others are not names. -/
def lastString (name : String) (ms : List (String × Json)) : Text :=
  match ms.reverse.find? fun m ↦ m.1 = name with
  | some (_, .string s) => s.toList
  | _ => []

/-- JSON texts of ASCII characters. -/
def asciiJson : JsonTiny Json where
  decodeJson := JsonText.decode
  encodeJson := JsonText.encode
  elements
    | .array vs => some vs
    | _ => none
  config
    | .object ms => some (lastString "config" ms)
    | _ => none

/-- It reads what is put together. -/
theorem reads_asciiJson : asciiJson.Reads where
  line _ _ h := JsonText.decode_append_line h
  list _ vs h := ⟨.array vs, JsonText.decode_array h, rfl⟩

/-- A shell that runs the two commands, where no expansion takes place. -/
def plainShell : Shell := fun command s ↦
  if "redis-cli get ".toList <+: command then
    ((s (command.drop 14)).getD [] ++ ['\n'], s)
  else if "redis-cli set ".toList <+: command then
    let key := (command.drop 14).takeWhile fun c ↦ c ≠ ' '
    match unquote (command.drop (16 + key.length)).dropLast with
    | some t => ("OK\n".toList, Function.update s key (some t))
    | none => ([], s)
  else ([], s)

/-- No command to set a key is one to read it. -/
private theorem get_not_prefix_setCommand (key text : Text) :
    ¬ "redis-cli get ".toList <+: setCommand key text := by
  intro h
  have hset : "redis-cli set ".toList <+: setCommand key text := by
    unfold setCommand
    exact List.prefix_append _ _
  have hlen : "redis-cli get ".toList.length = "redis-cli set ".toList.length := by simp
  have hboth := List.prefix_of_prefix_length_le h hset (Nat.le_of_eq hlen)
  exact absurd (String.toList_inj.mp (hboth.eq_of_length hlen)) (by decide)

/-- It is a POSIX shell. -/
theorem posix_plainShell : Posix plainShell where
  get key s _ := by
    have hget : "redis-cli get ".toList <+: getCommand key := by
      unfold getCommand
      exact List.prefix_append _ _
    have hdrop : (getCommand key).drop 14 = key := by
      unfold getCommand
      exact List.drop_left' (by simp)
    rw [plainShell, if_pos hget, hdrop]
  set key text t s hkey ht := by
    have hget := get_not_prefix_setCommand key text
    have hset : "redis-cli set ".toList <+: setCommand key text := by
      unfold setCommand
      exact List.prefix_append _ _
    have hdrop : (setCommand key text).drop 14 = key ++ (' ' :: '"' :: (text ++ ['"'])) := by
      unfold setCommand
      exact List.drop_left' (by simp)
    have hspace : ∀ c ∈ key, decide (c ≠ ' ') = true := by
      intro c hc
      rw [decide_eq_true_eq]
      rintro rfl
      exact absurd (hkey.2.1 _ hc) (by decide +kernel)
    have htake : ((setCommand key text).drop 14).takeWhile (fun c ↦ decide (c ≠ ' ')) = key := by
      rw [hdrop, List.takeWhile_append_of_pos hspace, List.takeWhile_cons_of_neg (by decide),
        List.append_nil]
    have hquoted : (setCommand key text).drop (16 + key.length) = text ++ ['"'] := by
      have hsum : 16 + key.length = 14 + (key.length + 2) := by omega
      rw [hsum, ← List.drop_drop, hdrop, ← List.drop_drop, List.drop_left]
      rfl
    rw [plainShell, if_neg hget, if_pos hset]
    simp only [htake, hquoted, List.dropLast_concat, ht]

/-! ### Values that pass and values that do not -/

/-- A configuration with nothing but its name. -/
def named (name : String) : Json := .object [("config", .string name)]

/-- Such a configuration, alone in the list. -/
def oneKey : Redis := fun key ↦
  if key = defaultConfig then some (JsonText.encode (.array [named "A"]))
  else if key = ['A'] then some (JsonText.encode (named "A"))
  else none

/-- Two of them in the list, the second without a key of its name. -/
def unsetKey : Redis := fun key ↦
  if key = defaultConfig then some (JsonText.encode (.array [named "A", named "B"]))
  else if key = ['A'] then some (JsonText.encode (named "A"))
  else none

/-- One in the list, and under its name a configuration with a string of one backslash. -/
def slashKey : Redis := fun key ↦
  if key = defaultConfig then some (JsonText.encode (.array [named "A"]))
  else if key = ['A'] then
    some (JsonText.encode (.object [("config", .string "A"), ("path", .string "\\")]))
  else none

theorem config_named (name : String) :
    asciiJson.config (named name) = some name.toList := by
  simp [asciiJson, named, lastString]

/-- The key of the list is none of the names. -/
private theorem ne_defaultConfig : ['A'] ≠ defaultConfig := by
  decide +kernel

private theorem lists_of_encode {s : Redis} (names : List String)
    (h : s defaultConfig = some (JsonText.encode (.array (names.map named)))) :
    Lists asciiJson s (names.map String.toList) := by
  refine ⟨_, .array (names.map named), names.map named, h, JsonText.decode_encode _, rfl, ?_⟩
  rw [List.map_map, List.map_map]
  exact List.map_congr_left fun name _ ↦ config_named name

/-- The list with one name. -/
private theorem lists_oneKey {s : Redis}
    (h : s defaultConfig = some (JsonText.encode (.array [named "A"]))) :
    Lists asciiJson s [['A']] := by
  have hlist := lists_of_encode (s := s) ["A"] h
  simpa using hlist

/-- A configuration with nothing but its name is kept. -/
theorem backup_restore_oneKey : Preserves asciiJson plainShell oneKey [['A']] := by
  apply backup_restore reads_asciiJson posix_plainShell
  · exact lists_oneKey (if_pos rfl)
  · intro n hn
    rw [List.mem_singleton] at hn
    subst hn
    have hstored : oneKey ['A'] = some (JsonText.encode (named "A")) := by
      rw [oneKey, if_neg ne_defaultConfig, if_pos rfl]
    refine ⟨by decide +kernel, _, named "A", hstored, ?_⟩
    exact
      { decodes := JsonText.decode_encode (named "A")
        config := by simpa using config_named "A"
        text := by decide +kernel
        encoded := by decide +kernel
        ascii := by decide +kernel
        again := JsonText.decode_encode (named "A") }

/-- A key that is not set and a backslash in a string lose the list. -/
theorem not_preserves_unsetKey_slashKey :
    (Lists asciiJson unsetKey [['A'], ['B']] ∧ Holds asciiJson unsetKey [['A'], ['B']] ∧
      ¬ Preserves asciiJson plainShell unsetKey [['A'], ['B']]) ∧
    Lists asciiJson slashKey [['A']] ∧ Holds asciiJson slashKey [['A']] ∧
      ¬ Preserves asciiJson plainShell slashKey [['A']] := by
  have hunset : Lists asciiJson unsetKey [['A'], ['B']] := by
    have hlist := lists_of_encode (s := unsetKey) ["A", "B"] (if_pos rfl)
    simpa using hlist
  have hslash : Lists asciiJson slashKey [['A']] := lists_oneKey (if_pos rfl)
  have hwords : IsWord ['A'] ∧ IsWord ['B'] := by
    decide +kernel
  refine ⟨⟨hunset, ?_, ?_⟩, hslash, ?_, ?_⟩
  · intro n hn t ht
    rcases List.mem_pair.mp hn with rfl | rfl
    · rw [unsetKey, if_neg ne_defaultConfig, if_pos rfl, Option.some.injEq] at ht
      subst ht
      refine ⟨named "A", JsonText.decode_encode (named "A"), ?_⟩
      simpa using config_named "A"
    · have hnone : unsetKey ['B'] = none := by
        decide +kernel
      rw [hnone] at ht
      cases ht
  · exact not_preserves_of_list reads_asciiJson posix_plainShell hunset
      (by simpa using hwords) (by decide +kernel) (by decide +kernel)
  · intro n hn t ht
    rw [List.mem_singleton.mp hn, slashKey, if_neg ne_defaultConfig, if_pos rfl,
      Option.some.injEq] at ht
    subst ht
    have hread := JsonText.decode_encode
      (.object [("config", .string "A"), ("path", .string "\\")])
    refine ⟨_, hread, ?_⟩
    rw [List.mem_singleton.mp hn]
    simp [asciiJson, lastString]
  · exact not_preserves_of_list reads_asciiJson posix_plainShell hslash
      (by simpa using hwords.1) (by decide +kernel) (by decide +kernel)

end IcsGateway.It5Cfg
