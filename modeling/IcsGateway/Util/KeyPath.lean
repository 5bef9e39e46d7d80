import Mathlib.Data.List.DropRight
import IcsGateway.Lib.JsonPrint
import IcsGateway.Util.It5Cfg

/-!
# Key paths of `it5-cfg`

The lookup of a dotted path (`src/ics_gateway/01.CD/apps/Util/it5-cfg:102–160`). Its loops walk
down the list of configurations and keep going over the keys of an object when they have left it;
the variable with which they walk stands for the element of the list.
-/

namespace IcsGateway.It5Cfg

open Lib Lib.Quoting

/-- `encode_json`, the text that Perl makes of a value, and the order in which it lists the keys
of a hash. A missing value is `null`. -/
structure Perl where
  encodeJson : Json → Text
  interpolate : Json → String
  keys : List (String × Json) → List String

/-- `split /\./, $key`, which leaves out empty fields at the end; `it5-cfg:102`. -/
def kpath (key : String) : List String :=
  ((key.toList.splitOn '.').rdropWhile (·.isEmpty)).map String.ofList

/-- What the lookup prints, and the document that it gives to `redis-cli set`. -/
structure Outcome where
  out : Text
  document : Option Json

/-- The script dies, with what was printed so far. -/
def die (out : Text) : Outcome := ⟨out, none⟩

/-- The members of a hash; a missing value becomes an empty one, and other values are none. -/
def members? : Json → Option (List (String × Json))
  | .object ms => some ms
  | .null => some []
  | _ => none

/-- `$hash->{$name}`, and `%{$hash}{$name}` as a scalar. -/
def fetch (ms : List (String × Json)) (name : String) : Json := (ms.lookup name).getD .null

/-- `$hash->{$name} = $val`. -/
def store (ms : List (String × Json)) (name : String) (val : Json) : List (String × Json) :=
  if (ms.lookup name).isSome then ms.map fun m ↦ if m.1 = name then (name, val) else m
  else ms ++ [(name, val)]

section Lookup

variable (pl : Perl)

/-- The text printed for a value; `it5-cfg:113–120, 133–140`. -/
def display (v : Json) : Text :=
  match v with
  | .object _ =>
    '=' :: pl.encodeJson v ++ ['\n', '\n'] ++ escapeQuotes (pl.encodeJson v) ++ ['\n']
  | _ => '=' :: (pl.interpolate v).toList ++ ['\n']

/-- What is printed for a name of the path. -/
def dotted (name : String) : Text := '.' :: name.toList

variable (val : Option String) (before after : List Json)

/-- The last name of the path is found; `it5-cfg:130–150`. The item is the element of the list. -/
def found (item : Json) (name : String) (out : Text) : Outcome :=
  match members? item with
  | none => die out
  | some ms =>
    match val with
    | none => ⟨out ++ display pl (fetch ms name), none⟩
    | some val =>
      ⟨out ++ ['\n'], some (.array (before ++ .object (store ms name (.string val)) :: after))⟩

/-- What the loop over the keys leaves to the loop around it. -/
inductive Scan where
  | stop (o : Outcome)
  | next (item : Json) (rest : List String) (out : Text)

/-- `for $name (keys %{$item})`, from some key on; `it5-cfg:125–155`. -/
def scanKeys : List String → Json → List String → Text → Scan
  | name :: names, item, k :: rest, out =>
    if name = k then
      match rest with
      | [] => .stop (found pl val before after item name (out ++ dotted name))
      | _ :: _ =>
        match members? item with
        | none => .stop (die (out ++ dotted name))
        | some ms => scanKeys names (fetch ms name) rest (out ++ dotted name)
    else scanKeys names item (k :: rest) out
  | _, item, rest, out => .next item rest out

/-- `while ($kidx < scalar(@kpath))`, with at most `fuel` rounds; `it5-cfg:124–156`. -/
def whileLoop : Nat → Json → List String → Text → Option Outcome
  | 0, _, _, _ => none
  | fuel + 1, item, rest, out =>
    if rest = [] then some ⟨out, none⟩
    else
      match members? item with
      | none => some (die out)
      | some ms =>
        match scanKeys pl val before after (pl.keys ms) (.object ms) rest out with
        | .stop o => some o
        | .next item rest out => whileLoop fuel item rest out

/-- The configuration is found; `it5-cfg:107–158`. -/
def configFound (fuel : Nat) (path : List String) (item : Json) : Option Outcome :=
  match path with
  | [] => some ⟨['.'], none⟩
  | [name] => some ⟨dotted name ++ display pl item, none⟩
  | name :: rest => whileLoop pl val before after fuel item rest (dotted name)

/-- `foreach my $item (@{$JCFG})`, which makes a hash of every missing element it comes to;
`it5-cfg:106–160`. -/
def foreachItem (fuel : Nat) (path : List String) (before : List Json) :
    List Json → Option Outcome
  | [] => some ⟨[], none⟩
  | item :: items =>
    match members? item with
    | none => some (die [])
    | some ms =>
      if path.headD "" = pl.interpolate (fetch ms "config") then
        configFound pl val before items fuel path (.object ms)
      else foreachItem fuel path (before ++ [.object ms]) items

/-- The elements of `@{$JCFG}`. -/
def elements : Json → List Json
  | .array vs => vs
  | _ => []

/-- The lookup of a path; `it5-cfg:102–160`. -/
def lookupPath (fuel : Nat) (jcfg : Json) (key : String) : Option Outcome :=
  foreachItem pl val fuel (kpath key) [] (elements jcfg)

end Lookup

/-! ### What is to hold -/

/-- The value under a key. -/
def member? (v : Json) (name : String) : Option Json := (members? v).bind (·.lookup name)

/-- The value at a path. -/
def valueAt : Json → List String → Option Json
  | v, [] => some v
  | v, k :: rest => (member? v k).bind (valueAt · rest)

/-- The value with another one at a path. -/
def setAt (val : Json) : Json → List String → Json
  | _, [] => val
  | v, k :: rest =>
    match members? v with
    | none => v
    | some ms => .object (store ms k (setAt val (fetch ms k) rest))

section Claim

variable (pl : Perl)

/-- The text by which a configuration is found; other values than hashes have none. -/
def configName (item : Json) : Option String :=
  (members? item).map fun ms ↦ pl.interpolate (fetch ms "config")

/-- A configuration in the list: those before it, its hash, and those behind it. -/
structure Found where
  before : List Json
  item : Json
  after : List Json

/-- The first configuration with a name. -/
def findConfig (name : String) : List Json → Option Found
  | [] => none
  | item :: items =>
    if configName pl item = some name then some ⟨[], .object ((members? item).getD []), items⟩
    else (findConfig name items).map fun f ↦ { f with before := item :: f.before }

/-- The configuration that a path begins with. -/
def configOf (jcfg : Json) (path : List String) : Option Found :=
  match path with
  | [] => none
  | name :: _ => findConfig pl name (elements jcfg)

/-- A value printed: the text of a hash or a list, and what Perl makes of other values. -/
def shown (v : Json) : Text :=
  match v with
  | .object _ | .array _ =>
    '=' :: pl.encodeJson v ++ ['\n', '\n'] ++ escapeQuotes (pl.encodeJson v) ++ ['\n']
  | _ => '=' :: (pl.interpolate v).toList ++ ['\n']

/-- The document is set, and the shell passes its text on. -/
def Stores (o : Outcome) (doc : Json) : Prop :=
  o.document = some doc ∧ unquote (escapeQuotes (pl.encodeJson doc)) = some (pl.encodeJson doc)

/-- What is to come of a lookup in a configuration: without a value, the value at the path is
printed and nothing is set; with one, exactly it changes in the document; and nothing is set if
there is no such path. -/
def AnswersIn (val : Option String) (f : Found) (path : List String) (o : Outcome) : Prop :=
  match valueAt f.item path.tail, val with
  | none, _ => o.document = none
  | some v, none => o.out = path.flatMap dotted ++ shown pl v ∧ o.document = none
  | some _, some val =>
    Stores pl o (.array (f.before ++ setAt (.string val) f.item path.tail :: f.after))

/-- And in the document: nothing is set without a configuration of the name. -/
def Answers (jcfg : Json) (path : List String) (val : Option String) (o : Outcome) : Prop :=
  match configOf pl jcfg path with
  | none => o.document = none
  | some f => AnswersIn pl val f path o

/-- The lookup ends, and does what it is for. -/
def LooksUp (jcfg : Json) (key : String) (val : Option String) : Prop :=
  ∃ o, (∃ fuel, lookupPath pl val fuel jcfg key = some o) ∧ Answers pl jcfg (kpath key) val o

/-! ### The condition -/

/-- A hash, or a missing value that becomes one. -/
def IsHash (v : Json) : Prop := (members? v).isSome = true

instance (v : Json) : Decidable (IsHash v) := inferInstanceAs (Decidable (_ = _))

/-- A hash from the beginning. -/
def IsObject : Json → Prop
  | .object _ => True
  | _ => False

instance : ∀ v : Json, Decidable (IsObject v)
  | .object _ => .isTrue trivial
  | .null | .bool _ | .number _ _ | .string _ | .array _ => .isFalse id

/-- A list. -/
def IsArray : Json → Prop
  | .array _ => True
  | _ => False

instance : ∀ v : Json, Decidable (IsArray v)
  | .array _ => .isTrue trivial
  | .null | .bool _ | .number _ _ | .string _ | .object _ => .isFalse id

/-- The keys behind the first one with a name. -/
def keysBehind (name : String) : List String → List String
  | [] => []
  | k :: ks => if k = name then ks else keysBehind name ks

/-- Where a path leaves the document: the keys that the loop over an object still has, the value
without the next name, and the names that are left. -/
def leavesAt : List String → Json → List String → Option (List String × Json × List String)
  | _, _, [] => none
  | ks, v, k :: rest =>
    match member? v k with
    | none => some (ks, v, k :: rest)
    | some w =>
      leavesAt (keysBehind k (if k ∈ ks then ks else pl.keys ((members? v).getD []))) w rest

/-- Behind a configuration, a path that is not there comes to a value that is no hash; or there is
no value to be set, and the names left are among the keys left, in this order. -/
def EndsOutside (item : Json) (rest : List String) (val : Option String) : Prop :=
  ∀ p ∈ leavesAt pl [] item rest, IsHash p.2.1 → val = none ∧ p.2.2.Sublist p.1

/-- A path into a configuration. If it is there, all before are hashes, and without a value the
one there is no list; with one, the key is in the configuration itself, none before it was missing,
and the text of the new document passes through the shell. -/
def HandledIn (val : Option String) (f : Found) (path : List String) : Prop :=
  match valueAt f.item path.tail, val with
  | none, _ => (∃ e ∈ f.before, ¬ IsHash e) ∨ EndsOutside pl f.item path.tail val
  | some v, none => (∀ e ∈ f.before, IsHash e) ∧ ¬ IsArray v
  | some _, some val => (∀ e ∈ f.before, IsObject e) ∧ path.length = 2 ∧
    Survives (pl.encodeJson
      (.array (f.before ++ setAt (.string val) f.item path.tail :: f.after)))

/-- No configuration has the name, or the path into the one that has it is such. -/
def Handled (jcfg : Json) (path : List String) (val : Option String) : Prop :=
  ∀ f ∈ configOf pl jcfg path, HandledIn pl val f path

end Claim

/-- What `keys` lists and how a reference to a list is printed. -/
structure Perl.Lawful (pl : Perl) : Prop where
  mem_keys : ∀ ms k, k ∈ pl.keys ms ↔ (ms.lookup k).isSome = true
  array : ∀ vs, '\n' ∉ (pl.interpolate (.array vs)).toList

/-! ### Keys -/

/-- The keys behind a name hold what may follow it. -/
private theorem cons_sublist_iff {name : String} {rest ks : List String} (h : name ∈ ks) :
    (name :: rest).Sublist ks ↔ rest.Sublist (keysBehind name ks) := by
  induction ks with
  | nil => exact absurd h List.not_mem_nil
  | cons k ks ih =>
    rw [keysBehind]
    by_cases hk : k = name
    · rw [if_pos hk, hk, List.cons_sublist_cons]
    · have hne : name ≠ k := fun he ↦ hk he.symm
      have hmem : name ∈ ks := (List.mem_cons.mp h).resolve_left hne
      rw [if_neg hk, ← ih hmem, List.sublist_cons_iff]
      constructor
      · rintro (hsub | ⟨r, hr, -⟩)
        · exact hsub
        · exact absurd (List.cons.inj hr).1 hne
      · exact .inl

section Walk

variable {pl : Perl} {val : Option String} {before after : List Json}

private theorem scanKeys_cons (name : String) (names : List String) (item : Json) (k : String)
    (rest : List String) (out : Text) :
    scanKeys pl val before after (name :: names) item (k :: rest) out =
      if name = k then
        match rest with
        | [] => .stop (found pl val before after item name (out ++ dotted name))
        | _ :: _ =>
          match members? item with
          | none => .stop (die (out ++ dotted name))
          | some ms =>
            scanKeys pl val before after names (fetch ms name) rest (out ++ dotted name)
      else scanKeys pl val before after names item (k :: rest) out := rfl

/-- Keys other than the next name are passed over. -/
private theorem scanKeys_of_notMem {k : String} {names : List String} (h : k ∉ names) (item : Json)
    (rest : List String) (out : Text) :
    scanKeys pl val before after names item (k :: rest) out = .next item (k :: rest) out := by
  induction names with
  | nil => rfl
  | cons name names ih =>
    rw [List.mem_cons, not_or] at h
    rw [scanKeys_cons, if_neg fun he ↦ h.1 he.symm]
    exact ih h.2

/-- The last name ends the lookup. -/
private theorem scanKeys_last {k : String} {names : List String} (h : k ∈ names) (item : Json)
    (out : Text) :
    scanKeys pl val before after names item [k] out =
      .stop (found pl val before after item k (out ++ dotted k)) := by
  induction names with
  | nil => exact absurd h List.not_mem_nil
  | cons name names ih =>
    rw [scanKeys_cons]
    by_cases hk : name = k
    · rw [if_pos hk, hk]
    · rw [if_neg hk]
      exact ih ((List.mem_cons.mp h).resolve_left fun he ↦ hk he.symm)

/-- Another name is passed, and the loop goes on with the keys behind it. -/
private theorem scanKeys_more {k : String} {names : List String} (h : k ∈ names) (item : Json)
    (k' : String) (rest : List String) (out : Text) :
    scanKeys pl val before after names item (k :: k' :: rest) out =
      match members? item with
      | none => .stop (die (out ++ dotted k))
      | some ms => scanKeys pl val before after (keysBehind k names) (fetch ms k) (k' :: rest)
          (out ++ dotted k) := by
  induction names with
  | nil => exact absurd h List.not_mem_nil
  | cons name names ih =>
    rw [scanKeys_cons, keysBehind]
    by_cases hk : name = k
    · rw [if_pos hk, if_pos hk, hk]
    · rw [if_neg hk, if_neg hk]
      exact ih ((List.mem_cons.mp h).resolve_left fun he ↦ hk he.symm)

variable (pl val before after) in
/-- The loops, from within the loop over the keys, end with an outcome. -/
def Ends (o : Outcome) (names : List String) (item : Json) (rest : List String) (out : Text) :
    Prop :=
  ∃ fuel,
    (match scanKeys pl val before after names item rest out with
      | .stop o => some o
      | .next item rest out => whileLoop pl val before after fuel item rest out) = some o

variable {o : Outcome} {names rest : List String} {item : Json} {k : String} {out : Text}

private theorem ends_last (h : k ∈ names) :
    Ends pl val before after o names item [k] out ↔
      o = found pl val before after item k (out ++ dotted k) := by
  rw [Ends, scanKeys_last h]
  constructor
  · rintro ⟨_, ho⟩
    exact (Option.some.inj ho).symm
  · rintro rfl
    exact ⟨0, rfl⟩

private theorem ends_more_none (h : k ∈ names) (hitem : members? item = none) {k' : String} :
    Ends pl val before after o names item (k :: k' :: rest) out ↔ o = die (out ++ dotted k) := by
  rw [Ends, scanKeys_more h, hitem]
  constructor
  · rintro ⟨_, ho⟩
    exact (Option.some.inj ho).symm
  · rintro rfl
    exact ⟨0, rfl⟩

private theorem ends_more {ms : List (String × Json)} (h : k ∈ names)
    (hitem : members? item = some ms) {k' : String} :
    Ends pl val before after o names item (k :: k' :: rest) out ↔
      Ends pl val before after o (keysBehind k names) (fetch ms k) (k' :: rest)
        (out ++ dotted k) := by
  rw [Ends, Ends, scanKeys_more h, hitem]

/-- Without the next name the loop over the keys begins anew, and cannot for other values. -/
private theorem ends_round_none (h : k ∉ names) (hitem : members? item = none) :
    Ends pl val before after o names item (k :: rest) out ↔ o = die out := by
  rw [Ends, scanKeys_of_notMem h]
  constructor
  · rintro ⟨fuel, ho⟩
    cases fuel with
    | zero => cases ho
    | succ fuel =>
      simp only [whileLoop, if_neg (List.cons_ne_nil k rest), hitem] at ho
      exact (Option.some.inj ho).symm
  · rintro rfl
    refine ⟨1, ?_⟩
    simp only [whileLoop, if_neg (List.cons_ne_nil k rest), hitem]

private theorem ends_round {ms : List (String × Json)} (h : k ∉ names)
    (hitem : members? item = some ms) :
    Ends pl val before after o names item (k :: rest) out ↔
      Ends pl val before after o (pl.keys ms) (.object ms) (k :: rest) out := by
  rw [Ends, Ends, scanKeys_of_notMem h]
  constructor
  · rintro ⟨fuel, ho⟩
    cases fuel with
    | zero => cases ho
    | succ fuel =>
      simp only [whileLoop, if_neg (List.cons_ne_nil k rest), hitem] at ho
      exact ⟨fuel, ho⟩
  · rintro ⟨fuel, ho⟩
    refine ⟨fuel + 1, ?_⟩
    simp only [whileLoop, if_neg (List.cons_ne_nil k rest), hitem]
    exact ho

/-- In a hash without the next name the loops go on for ever. -/
private theorem not_ends {ms : List (String × Json)} (h : k ∉ names)
    (hitem : members? item = some ms) (hkeys : k ∉ pl.keys ms) :
    ¬ Ends pl val before after o names item (k :: rest) out := by
  rw [Ends, scanKeys_of_notMem h]
  rintro ⟨fuel, ho⟩
  induction fuel generalizing item with
  | zero => cases ho
  | succ fuel ih =>
    simp only [whileLoop, if_neg (List.cons_ne_nil k rest), hitem, scanKeys_of_notMem hkeys] at ho
    exact ih rfl ho

/-! ### Down the document -/

/-- The keys that the loop has behind a name, after beginning anew if need be. -/
private theorem ends_member {ms : List (String × Json)} {w : Json} {k' : String}
    (hitem : item = .object ms) (hw : ms.lookup k = some w) (hkeys : k ∈ pl.keys ms) :
    Ends pl val before after o names item (k :: k' :: rest) out ↔
      Ends pl val before after o (keysBehind k (if k ∈ names then names else pl.keys ms)) w
        (k' :: rest) (out ++ dotted k) := by
  have hmembers : members? item = some ms := by rw [hitem]; rfl
  have hfetch : fetch ms k = w := by rw [fetch, hw, Option.getD_some]
  by_cases hk : k ∈ names
  · rw [ends_more hk hmembers, hfetch, if_pos hk]
  · have hobject : members? (.object ms) = some ms := rfl
    rw [ends_round hk hmembers, ends_more hkeys hobject, hfetch, if_neg hk]

private theorem ends_member_last {ms : List (String × Json)} (hitem : item = .object ms)
    (hkeys : k ∈ pl.keys ms) :
    Ends pl val before after o names item [k] out ↔
      o = found pl val before after item k (out ++ dotted k) := by
  by_cases hk : k ∈ names
  · exact ends_last hk
  · have hmembers : members? item = some ms := by rw [hitem]; rfl
    rw [ends_round hk hmembers, ends_last hkeys, hitem]

/-- A value under a key is one of a hash. -/
private theorem eq_object_of_member? {v w : Json} (h : member? v k = some w) :
    ∃ ms, v = .object ms ∧ ms.lookup k = some w := by
  cases v with
  | object ms => exact ⟨ms, rfl, h⟩
  | null => cases h
  | bool b => cases h
  | number m e => cases h
  | string s => cases h
  | array vs => cases h

/-- The hash with the value at the end of a path, and its key there. -/
structure Reaches (item : Json) (path : List String) (v c : Json) (key : String) : Prop where
  member : member? c key = some v
  short : ∀ k, path = [k] → c = item ∧ key = k
  long : 2 ≤ path.length → ∀ val ms, members? c = some ms →
    sizeOf (Json.object (store ms key val)) < sizeOf (setAt val item path)

private theorem mem_store (ms : List (String × Json)) (name : String) (val : Json) :
    (name, val) ∈ store ms name val := by
  rw [store]
  split
  · next h =>
    obtain ⟨w, hw⟩ := Option.isSome_iff_exists.mp h
    obtain ⟨l₁, l₂, hms, -⟩ := List.lookup_eq_some_iff.mp hw
    refine List.mem_map.mpr ⟨(name, w), ?_, if_pos rfl⟩
    rw [hms]
    exact List.mem_append_right l₁ List.mem_cons_self
  · exact List.mem_append_right ms (List.mem_singleton_self _)

/-- What is put into a hash is smaller than it. -/
private theorem sizeOf_lt_store (ms : List (String × Json)) (name : String) (val : Json) :
    sizeOf val < sizeOf (Json.object (store ms name val)) := by
  have hlt := List.sizeOf_lt_of_mem (mem_store ms name val)
  rw [Prod.mk.sizeOf_spec] at hlt
  rw [Json.object.sizeOf_spec]
  omega

/-- Along a path that is there the loops come to its end. -/
private theorem exists_reaches (hpl : pl.Lawful) {path : List String} {v : Json}
    (hpath : path ≠ []) (hv : valueAt item path = some v) (names : List String) (out : Text) :
    ∃ c key, Reaches item path v c key ∧ ∀ val before after o,
      Ends pl val before after o names item path out ↔
        o = found pl val before after c key (out ++ path.flatMap dotted) := by
  induction path generalizing item names out with
  | nil => exact absurd rfl hpath
  | cons k rest ih =>
    obtain ⟨w, hmember, hw⟩ := Option.bind_eq_some_iff.mp hv
    obtain ⟨ms, rfl, hlookup⟩ := eq_object_of_member? hmember
    have hkeys : k ∈ pl.keys ms := by
      rw [hpl.mem_keys, hlookup]
      rfl
    cases rest with
    | nil =>
      cases hw
      refine ⟨.object ms, k, ⟨hmember, ?_, ?_⟩, ?_⟩
      · intro k' hk'
        exact ⟨rfl, (List.cons.inj hk').1⟩
      · intro hle
        exact absurd hle (Nat.not_succ_le_self 1)
      · intro val before after o
        rw [ends_member_last rfl hkeys, List.flatMap_cons, List.flatMap_nil, List.append_nil]
    | cons k' rest =>
      obtain ⟨c, key, hreach, hends⟩ := ih (List.cons_ne_nil k' rest) hw
        (keysBehind k (if k ∈ names then names else pl.keys ms)) (out ++ dotted k)
      refine ⟨c, key, ⟨hreach.member, ?_, ?_⟩, ?_⟩
      · intro k'' hk''
        cases (List.cons.inj hk'').2
      · intro _ val ms' hms'
        have hfetch : fetch ms k = w := by rw [fetch, hlookup, Option.getD_some]
        have hset : setAt val (.object ms) (k :: k' :: rest) =
            .object (store ms k (setAt val w (k' :: rest))) := by
          rw [← hfetch]
          rfl
        have hle : sizeOf (Json.object (store ms' key val)) ≤
            sizeOf (setAt val w (k' :: rest)) := by
          cases rest with
          | nil =>
            obtain ⟨rfl, rfl⟩ := hreach.short k' rfl
            have hone : setAt val c [key] = .object (store ms' key val) := by
              simp only [setAt, hms']
            rw [hone]
          | cons k'' rest => exact Nat.le_of_lt (hreach.long (Nat.le_add_left 2 _) val ms' hms')
        rw [hset]
        exact Nat.lt_of_le_of_lt hle (sizeOf_lt_store _ _ _)
      · intro val before after o
        have htext : out ++ (k :: k' :: rest).flatMap dotted =
            out ++ dotted k ++ (k' :: rest).flatMap dotted := by
          rw [List.append_assoc]
          rfl
        rw [ends_member rfl hlookup hkeys, hends, htext]

/-- A path that is not there comes to a value without the next name. -/
private theorem exists_leavesAt (hpl : pl.Lawful) {path : List String}
    (hv : valueAt item path = none) (names : List String) (out : Text) :
    ∃ ks v k rest out', leavesAt pl names item path = some (ks, v, k :: rest) ∧
      member? v k = none ∧
      ∀ val before after o, Ends pl val before after o names item path out ↔
        Ends pl val before after o ks v (k :: rest) out' := by
  induction path generalizing item names out with
  | nil => cases hv
  | cons k rest ih =>
    rw [leavesAt]
    cases hmember : member? item k with
    | none => exact ⟨names, item, k, rest, out, rfl, hmember, fun _ _ _ _ ↦ Iff.rfl⟩
    | some w =>
      obtain ⟨ms, rfl, hlookup⟩ := eq_object_of_member? hmember
      have hkeys : k ∈ pl.keys ms := by
        rw [hpl.mem_keys, hlookup]
        rfl
      have hw : valueAt w rest = none := by
        rw [valueAt, hmember] at hv
        exact hv
      cases rest with
      | nil => cases hw
      | cons k' rest =>
        obtain ⟨ks, v, k'', rest', out', hleaves, hnone, hends⟩ := ih hw
          (keysBehind k (if k ∈ names then names else pl.keys ms)) (out ++ dotted k)
        refine ⟨ks, v, k'', rest', out', hleaves, hnone, ?_⟩
        intro val before after o
        rw [ends_member rfl hlookup hkeys]
        exact hends val before after o

private theorem notMem_keys (hpl : pl.Lawful) {ms : List (String × Json)}
    (h : ms.lookup k = none) : k ∉ pl.keys ms := by
  rw [hpl.mem_keys, h]
  exact Bool.false_ne_true

/-- There the loops end and set nothing exactly when the value is no hash, or the names left are
among the keys left and there is nothing to be set. -/
private theorem exists_ends_iff (hpl : pl.Lawful) {v : Json} (hv : member? v k = none)
    (names rest : List String) (out : Text) :
    (∃ o, Ends pl val before after o names v (k :: rest) out ∧ o.document = none) ↔
      (IsHash v → val = none ∧ (k :: rest).Sublist names) := by
  cases hmembers : members? v with
  | none =>
    have hhash : ¬ IsHash v := by
      rw [IsHash, hmembers]
      exact Bool.false_ne_true
    refine iff_of_true ?_ fun h ↦ absurd h hhash
    by_cases hk : k ∈ names
    · cases rest with
      | nil =>
        refine ⟨_, (ends_last hk).mpr rfl, ?_⟩
        rw [found, hmembers]
        rfl
      | cons k' rest => exact ⟨_, (ends_more_none hk hmembers).mpr rfl, rfl⟩
    · exact ⟨_, (ends_round_none hk hmembers).mpr rfl, rfl⟩
  | some ms =>
    have hhash : IsHash v := by
      rw [IsHash, hmembers]
      rfl
    have hlookup : ms.lookup k = none := by
      rw [member?, hmembers] at hv
      exact hv
    simp only [hhash, forall_const]
    clear hv hhash
    -- Behind a missing key there is a missing value, which has no key either.
    induction rest generalizing k v names out ms with
    | nil =>
      by_cases hk : k ∈ names
      · simp only [ends_last hk, exists_eq_left, List.singleton_sublist, hk, and_true]
        rw [found, hmembers]
        cases val with
        | none => exact iff_of_true rfl rfl
        | some val => exact iff_of_false (Option.some_ne_none _) (Option.some_ne_none _)
      · refine iff_of_false ?_ ?_
        · rintro ⟨o, ho, -⟩
          exact not_ends hk hmembers (notMem_keys hpl hlookup) ho
        · rintro ⟨-, hsub⟩
          exact hk (List.singleton_sublist.mp hsub)
    | cons k' rest ih =>
      by_cases hk : k ∈ names
      · have hnull : fetch ms k = .null := by rw [fetch, hlookup, Option.getD_none]
        simp only [ends_more hk hmembers, hnull, cons_sublist_iff hk]
        exact ih _ _ [] rfl rfl
      · refine iff_of_false ?_ ?_
        · rintro ⟨o, ho, -⟩
          exact not_ends hk hmembers (notMem_keys hpl hlookup) ho
        · rintro ⟨-, hsub⟩
          exact hk (hsub.subset List.mem_cons_self)


/-! ### The configurations -/

/-- A missing element as the loop leaves it. -/
def made (v : Json) : Json := .object ((members? v).getD [])

private theorem made_eq_self_iff {v : Json} : made v = v ↔ IsObject v := by
  cases v with
  | object ms => exact iff_of_true rfl trivial
  | null => exact iff_of_false Json.noConfusion id
  | bool b => exact iff_of_false Json.noConfusion id
  | number m e => exact iff_of_false Json.noConfusion id
  | string s => exact iff_of_false Json.noConfusion id
  | array vs => exact iff_of_false Json.noConfusion id

private theorem isHash_of_isObject {v : Json} (h : IsObject v) : IsHash v := by
  cases v with
  | object ms => rfl
  | null => exact h.elim
  | bool b => exact h.elim
  | number m e => exact h.elim
  | string s => exact h.elim
  | array vs => exact h.elim

variable {fuel : Nat} {path : List String} {pre items : List Json}

/-- Without a name nothing is set. -/
private theorem foreachItem_nil (fuel : Nat) (pre items : List Json) :
    ∃ o, foreachItem pl val fuel [] pre items = some o ∧ o.document = none := by
  induction items generalizing pre with
  | nil => exact ⟨_, rfl, rfl⟩
  | cons item items ih =>
    rw [foreachItem]
    cases members? item with
    | none => exact ⟨_, rfl, rfl⟩
    | some ms =>
      simp only
      split
      · exact ⟨_, rfl, rfl⟩
      · exact ih _

/-- Without a configuration of the name nothing is set. -/
private theorem foreachItem_of_none (h : findConfig pl (path.headD "") items = none) (fuel : Nat)
    (pre : List Json) : foreachItem pl val fuel path pre items = some ⟨[], none⟩ := by
  induction items generalizing pre with
  | nil => rfl
  | cons item items ih =>
    rw [findConfig] at h
    split at h
    · cases h
    · next hname =>
      rw [foreachItem]
      cases hmembers : members? item with
      | none => rfl
      | some ms =>
        have hne : path.headD "" ≠ pl.interpolate (fetch ms "config") := by
          intro he
          apply hname
          rw [configName, hmembers, he]
          rfl
        simp only [if_neg hne]
        exact ih (Option.map_eq_none_iff.mp h) _

/-- The loop comes to the configuration, unless it dies before it. -/
private theorem foreachItem_of_some {f : Found}
    (h : findConfig pl (path.headD "") items = some f) (fuel : Nat) (pre : List Json) :
    foreachItem pl val fuel path pre items =
      if ∀ e ∈ f.before, IsHash e then
        configFound pl val (pre ++ f.before.map made) f.after fuel path f.item
      else some (die []) := by
  induction items generalizing pre f with
  | nil => cases h
  | cons e items ih =>
    rw [findConfig] at h
    rw [foreachItem]
    cases hmembers : members? e with
    | none =>
      have hname : configName pl e ≠ some (path.headD "") := by
        rw [configName, hmembers]
        exact (Option.some_ne_none _).symm
      rw [if_neg hname] at h
      obtain ⟨f', -, rfl⟩ := Option.map_eq_some_iff.mp h
      have hdies : ¬ ∀ e' ∈ e :: f'.before, IsHash e' := by
        intro hall
        have hhash := hall e List.mem_cons_self
        rw [IsHash, hmembers] at hhash
        cases hhash
      rw [if_neg hdies]
    | some ms =>
      have hhash : IsHash e := by rw [IsHash, hmembers]; rfl
      have hmade : made e = .object ms := by rw [made, hmembers]; rfl
      have hname : configName pl e = some (pl.interpolate (fetch ms "config")) := by
        rw [configName, hmembers]
        rfl
      simp only [hname, Option.some.injEq] at h ⊢
      by_cases hfound : pl.interpolate (fetch ms "config") = path.headD ""
      · rw [if_pos hfound, hmembers] at h
        cases h
        rw [if_pos hfound.symm, if_pos fun e' he' ↦ absurd he' List.not_mem_nil, List.map_nil,
          List.append_nil]
        rfl
      · rw [if_neg hfound] at h
        obtain ⟨f', hrest, rfl⟩ := Option.map_eq_some_iff.mp h
        have hall : (∀ e' ∈ e :: f'.before, IsHash e') ↔ ∀ e' ∈ f'.before, IsHash e' := by
          rw [List.forall_mem_cons]
          exact and_iff_right hhash
        have hpre : pre ++ (e :: f'.before).map made =
            pre ++ [.object ms] ++ f'.before.map made := by
          rw [List.map_cons, hmade, List.append_assoc]
          rfl
        rw [if_neg fun he ↦ hfound he.symm, ih hrest, hpre]
        simp only [hall]

/-- What is found is a hash. -/
private theorem isObject_of_findConfig {name : String} {f : Found}
    (h : findConfig pl name items = some f) : IsObject f.item := by
  induction items generalizing f with
  | nil => cases h
  | cons e items ih =>
    rw [findConfig] at h
    split at h
    · cases h
      trivial
    · obtain ⟨f', hrest, rfl⟩ := Option.map_eq_some_iff.mp h
      have hobject := ih hrest
      exact hobject

end Walk

/-! ### The lookup -/

section Lookup

variable {pl : Perl} {val : Option String} {jcfg item : Json} {before after : List Json}
  {name k : String} {rest : List String}

/-- A path into a configuration is walked by the loops from its first name on. -/
private theorem exists_configFound_iff {o : Outcome} :
    (∃ fuel, configFound pl val before after fuel (name :: k :: rest) item = some o) ↔
      Ends pl val before after o [] item (k :: rest) (dotted name) := Iff.rfl

/-- Elements are as they were exactly when all of them are hashes from the beginning. -/
private theorem map_made_eq_iff : before.map made = before ↔ ∀ e ∈ before, IsObject e := by
  induction before with
  | nil => exact iff_of_true rfl fun e he ↦ absurd he List.not_mem_nil
  | cons e before ih =>
    rw [List.map_cons, List.cons.injEq, List.forall_mem_cons, made_eq_self_iff, ih]

/-- A value is printed as it should be unless it is a list. -/
private theorem display_eq_shown_iff (hpl : pl.Lawful) (v : Json) :
    display pl v = shown pl v ↔ ¬ IsArray v := by
  cases v with
  | array vs =>
    refine iff_of_false ?_ fun h ↦ h trivial
    intro he
    have htext : (pl.interpolate (.array vs)).toList =
        pl.encodeJson (.array vs) ++ ['\n', '\n'] ++ escapeQuotes (pl.encodeJson (.array vs)) :=
      List.append_cancel_right (List.cons.inj he).2
    apply hpl.array vs
    rw [htext]
    exact List.mem_append_left _ (List.mem_append_right _ List.mem_cons_self)
  | object ms => exact iff_of_true rfl id
  | null => exact iff_of_true rfl id
  | bool b => exact iff_of_true rfl id
  | number m e => exact iff_of_true rfl id
  | string s => exact iff_of_true rfl id

/-- Where the loop dies before the configuration, only a path that is not there is answered. -/
private theorem answersIn_die_iff {f : Found} {path : List String} (hpath : path ≠ [])
    (hdies : ¬ ∀ e ∈ f.before, IsHash e) :
    AnswersIn pl val f path (die []) ↔ HandledIn pl val f path := by
  cases hv : valueAt f.item path.tail with
  | none =>
    simp only [AnswersIn, HandledIn, hv]
    refine iff_of_true rfl (.inl ?_)
    by_contra hno
    apply hdies
    intro e he
    by_contra hne
    exact hno ⟨e, he, hne⟩
  | some v =>
    cases val with
    | none =>
      simp only [AnswersIn, HandledIn, hv]
      refine iff_of_false ?_ fun h ↦ hdies h.1
      rintro ⟨hout, -⟩
      obtain ⟨name, rest, rfl⟩ := List.exists_cons_of_ne_nil hpath
      cases hout
    | some val =>
      simp only [AnswersIn, HandledIn, hv]
      refine iff_of_false ?_ fun h ↦ hdies fun e he ↦ isHash_of_isObject (h.1 e he)
      rintro ⟨hdocument, -⟩
      cases hdocument

/-- A configuration itself is printed, and a value for it is not looked at. -/
private theorem answersIn_config_iff {f : Found} (hitem : IsObject f.item)
    (hall : ∀ e ∈ f.before, IsHash e) :
    AnswersIn pl val f [name] ⟨dotted name ++ display pl f.item, none⟩ ↔
      HandledIn pl val f [name] := by
  have hvalue : valueAt f.item [name].tail = some f.item := rfl
  obtain ⟨ms, hms⟩ : ∃ ms, f.item = .object ms := by
    cases h : f.item with
    | object ms => exact ⟨ms, rfl⟩
    | _ => rw [h] at hitem; exact hitem.elim
  cases val with
  | none =>
    simp only [AnswersIn, HandledIn, hvalue]
    refine iff_of_true ⟨?_, trivial⟩ ⟨hall, ?_⟩
    · rw [hms, List.flatMap_singleton]
      rfl
    · rw [hms]
      exact id
  | some val =>
    simp only [AnswersIn, HandledIn, hvalue]
    refine iff_of_false ?_ ?_
    · rintro ⟨hdocument, -⟩
      cases hdocument
    · rintro ⟨-, hlength, -⟩
      cases hlength

/-- A value that is set stands where it should exactly when the loops have not left the
configuration, and nothing was missing before it. -/
private theorem document_eq_iff {f : Found} {v c : Json} {key : String} {w : Json}
    {ms : List (String × Json)} (hreach : Reaches f.item (k :: rest) v c key)
    (hms : members? c = some ms) :
    Json.array (f.before.map made ++ .object (store ms key w) :: f.after) =
        .array (f.before ++ setAt w f.item (k :: rest) :: f.after) ↔
      (∀ e ∈ f.before, IsObject e) ∧ rest = [] := by
  have hlength : (f.before.map made).length = f.before.length := List.length_map _
  rw [Json.array.injEq, ← map_made_eq_iff]
  cases rest with
  | nil =>
    obtain ⟨rfl, rfl⟩ := hreach.short k rfl
    have hset : setAt w f.item [key] = .object (store ms key w) := by
      simp only [setAt, hms]
    rw [hset]
    constructor
    · intro he
      exact ⟨(List.append_inj he hlength).1, rfl⟩
    · rintro ⟨he, -⟩
      rw [he]
  | cons k' rest =>
    refine iff_of_false ?_ fun h ↦ List.cons_ne_nil k' rest h.2
    intro he
    have hsame := (List.cons.inj (List.append_inj he hlength).2).1
    have hlt := hreach.long (Nat.le_add_left 2 _) w ms hms
    rw [hsame] at hlt
    exact Nat.lt_irrefl _ hlt

/-- Where the loop comes to it, the loops within it decide. -/
private theorem exists_configFound_answersIn_iff (hpl : pl.Lawful) {f : Found}
    (hitem : IsObject f.item) (hall : ∀ e ∈ f.before, IsHash e) :
    (∃ o, (∃ fuel, configFound pl val (f.before.map made) f.after fuel (name :: rest) f.item =
      some o) ∧ AnswersIn pl val f (name :: rest) o) ↔ HandledIn pl val f (name :: rest) := by
  cases rest with
  | nil =>
    simp only [configFound, Option.some.injEq, exists_const, exists_eq_left']
    exact answersIn_config_iff hitem hall
  | cons k rest =>
    simp only [exists_configFound_iff]
    have htail : (name :: k :: rest).tail = k :: rest := rfl
    cases hv : valueAt f.item (k :: rest) with
    | none =>
      simp only [AnswersIn, HandledIn, htail, hv]
      obtain ⟨ks, v, k', rest', out', hleaves, hnone, hends⟩ :=
        exists_leavesAt hpl hv [] (dotted name)
      simp only [hends, exists_ends_iff hpl hnone, EndsOutside, hleaves, Option.mem_def,
        Option.some.injEq, forall_eq']
      refine (or_iff_right ?_).symm
      rintro ⟨e, he, hno⟩
      exact hno (hall e he)
    | some v =>
      obtain ⟨c, key, hreach, hends⟩ :=
        exists_reaches hpl (List.cons_ne_nil k rest) hv [] (dotted name)
      obtain ⟨ms, rfl, hlookup⟩ := eq_object_of_member? hreach.member
      simp only [hends, exists_eq_left, AnswersIn, HandledIn, htail, hv]
      have hmembers : members? (.object ms) = some ms := rfl
      have hfetch : fetch ms key = v := by rw [fetch, hlookup, Option.getD_some]
      have htext : dotted name ++ (k :: rest).flatMap dotted =
          (name :: k :: rest).flatMap dotted := rfl
      cases val with
      | none =>
        simp only [found, hmembers, hfetch, htext, List.append_cancel_left_eq, and_true,
          display_eq_shown_iff hpl]
        exact (and_iff_right hall).symm
      | some val =>
        have hlength : (name :: k :: rest).length = 2 ↔ rest = [] := by
          rw [List.length_cons, List.length_cons, ← List.length_eq_zero_iff]
          omega
        simp only [found, hmembers, Stores, Option.some.injEq, document_eq_iff hreach hmembers,
          unquote_escapeQuotes_iff, hlength, and_assoc]

end Lookup

/-- The lookup does what it is for exactly when the path, the value and the document are such. -/
theorem looksUp_iff_handled {pl : Perl} (hpl : pl.Lawful) (jcfg : Json) (key : String)
    (val : Option String) : LooksUp pl jcfg key val ↔ Handled pl jcfg (kpath key) val := by
  unfold LooksUp lookupPath Answers Handled
  cases hpath : kpath key with
  | nil =>
    obtain ⟨o, ho, hnone⟩ := @foreachItem_nil pl val 0 [] (elements jcfg)
    refine iff_of_true ⟨o, ⟨0, ho⟩, hnone⟩ ?_
    intro f hf
    cases hf
  | cons name rest =>
    have hconfig : configOf pl jcfg (name :: rest) = findConfig pl name (elements jcfg) := rfl
    cases hfind : findConfig pl name (elements jcfg) with
    | none =>
      rw [hconfig, hfind]
      refine iff_of_true ⟨_, ⟨0, foreachItem_of_none hfind 0 []⟩, rfl⟩ ?_
      intro f hf
      cases hf
    | some f =>
      have hloop : ∀ fuel, foreachItem pl val fuel (name :: rest) [] (elements jcfg) =
          if ∀ e ∈ f.before, IsHash e then
            configFound pl val (f.before.map made) f.after fuel (name :: rest) f.item
          else some (die []) := by
        intro fuel
        exact foreachItem_of_some hfind fuel []
      rw [hconfig, hfind]
      simp only [Option.mem_def, Option.some.injEq, forall_eq', hloop]
      by_cases hall : ∀ e ∈ f.before, IsHash e
      · simp only [if_pos hall]
        exact exists_configFound_answersIn_iff hpl (isObject_of_findConfig hfind) hall
      · rw [← answersIn_die_iff (List.cons_ne_nil name rest) hall]
        simp only [if_neg hall, Option.some.injEq, exists_const, exists_eq_left']

/-! ### Two lookups -/

/-- A Perl that lists the keys as the members stand in the text. -/
def inOrder : Perl where
  encodeJson := JsonText.encode
  interpolate
    | .null => ""
    | .bool b => if b then "1" else "0"
    | .number m e => String.ofList (JsonText.encode (.number m e))
    | .string s => s
    | .array _ => "ARRAY(0x55d0c8e3a2b8)"
    | .object _ => "HASH(0x55d0c8e3a2b8)"
  keys ms := ms.map Prod.fst

/-- The configuration of the log, alone in the list. -/
def logConfig : Json :=
  .array [.object [("config", .string "Log"), ("logDir", .string "log"), ("logLevel", .number 1 0)]]

private theorem lawful_inOrder : inOrder.Lawful := by
  refine ⟨?_, ?_⟩
  · intro ms k
    rw [List.lookup_isSome_iff]
    simp [inOrder]
  · intro vs
    have hbare : '\n' ∉ "ARRAY(0x55d0c8e3a2b8)".toList := by decide
    exact hbare

private theorem found_logConfig (path : List String) :
    configOf inOrder logConfig ("Log" :: path) = some ⟨[], .object [("config", .string "Log"),
      ("logDir", .string "log"), ("logLevel", .number 1 0)], []⟩ := rfl

/-- The level of the log is set. -/
theorem looksUp_logLevel :
    inOrder.Lawful ∧ LooksUp inOrder logConfig "Log.logLevel" (some "5") := by
  refine ⟨lawful_inOrder, (looksUp_iff_handled lawful_inOrder _ _ _).mpr ?_⟩
  have hpath : kpath "Log.logLevel" = ["Log", "logLevel"] := by decide
  rw [hpath]
  intro f hf
  cases (found_logConfig _).symm.trans hf
  refine ⟨fun e he ↦ absurd he List.not_mem_nil, rfl, ?_⟩
  decide

/-- A key that is missing is searched for without end. -/
theorem not_looksUp_missing :
    ¬ ∀ pl : Perl, pl.Lawful → ∀ jcfg key val, LooksUp pl jcfg key val := by
  intro hall
  obtain ⟨o, ⟨fuel, ho⟩, -⟩ := hall inOrder lawful_inOrder logConfig "Log.level" none
  have hpath : kpath "Log.level" = ["Log", "level"] := by decide
  rw [lookupPath, hpath] at ho
  apply not_ends (List.not_mem_nil) rfl _ ⟨fuel, ho⟩
  decide

end IcsGateway.It5Cfg
