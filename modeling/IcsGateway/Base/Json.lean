import Mathlib.Data.List.Nodup
import IcsGateway.Lib.JsonPrint
import IcsGateway.Base.Convert

/-!
# A JSON library

What the development assumes of the parser and the stringifier can be met: `Poco.json` parses
and prints with the decoder and the printer of `Lib`, and every value without repeated keys is
read back from its text. Runs on given texts use it.
-/

namespace IcsGateway

open Lib

/-! ### Values -/

mutual

/-- The value the parser builds; a number with a fraction or an exponent is a double. -/
def varOfJson : Json → Var
  | .null => .empty
  | .bool b => .bool b
  | .number m (.ofNat 0) => .int m
  | .number m (.ofNat (e + 1)) => .double (m * 10 ^ (e + 1))
  | .number m (.negSucc e) => .double (mkRat m (10 ^ (e + 1)))
  | .string s => .str s
  | .array vs => .array .ptr (varsOfJson vs)
  | .object ms => .object .ptr (setMembers ms [])

/-- The elements of an array. -/
def varsOfJson : List Json → List Var
  | [] => []
  | v :: vs => varOfJson v :: varsOfJson vs

/-- The members of an object are set one after another. -/
def setMembers : List (String × Json) → Object → Object
  | [], o => o
  | (k, v) :: ms, o => setMembers ms (Object.set o k (varOfJson v))

end

/-- The text of a double: a binary fraction is a decimal one. -/
def jsonOfDouble (x : Rat) : Json := .number (x.num * 5 ^ x.den.log2) (-(x.den.log2 : Int))

mutual

/-- The value the stringifier prints. -/
def Var.toJson : Var → Json
  | .empty => .null
  | .bool b => .bool b
  | .int i => .number i 0
  | .double x => jsonOfDouble x
  | .str s => .string s
  | .array _ vs => .array (valsToJson vs)
  | .object _ fs => .object (fieldsToJson fs)

/-- `Var.toJson` on the elements of an array. -/
def valsToJson : List Var → List Json
  | [] => []
  | v :: vs => v.toJson :: valsToJson vs

/-- `Var.toJson` on the properties of an object. -/
def fieldsToJson : List (COMStr × Var) → List (String × Json)
  | [] => []
  | (k, v) :: fs => (k, v.toJson) :: fieldsToJson fs

end

mutual

/-- A value whose doubles are binary fractions and whose objects repeat no key. -/
def Var.Regular : Var → Prop
  | .double x => x.den = 2 ^ x.den.log2
  | .array _ vs => RegularVals vs
  | .object _ fs => (fs.map (·.1)).Nodup ∧ RegularFields fs
  | _ => True

/-- `Var.Regular` on the elements of an array. -/
def RegularVals : List Var → Prop
  | [] => True
  | v :: vs => v.Regular ∧ RegularVals vs

/-- `Var.Regular` on the properties of an object. -/
def RegularFields : List (COMStr × Var) → Prop
  | [] => True
  | (_, v) :: fs => v.Regular ∧ RegularFields fs

end

/-- `Poco`, over the decoder and the printer. It is irreducible, so that a given text is decoded
by the kernel or by `json_parse` only. -/
@[irreducible] def Poco.json : Poco where
  parse text :=
    match JsonText.decode text.toList with
    | some j => .ok (varOfJson j)
    | none => .error .json
  stringify v := String.ofList (JsonText.encode v.toJson)
  prettyPrint v := String.ofList (JsonText.encode v.toJson)
  formatDouble x := String.ofList (JsonText.encode (jsonOfDouble x))
  parseInt text :=
    match JsonText.number text.toList with
    | some (.number i 0, []) =>
      if -2 ^ 31 ≤ i ∧ i < 2 ^ 31 then some (Int32.ofInt i) else none
    | _ => none
  parseUnsigned text :=
    match JsonText.number text.toList with
    | some (.number i 0, []) =>
      if 0 ≤ i ∧ i < 2 ^ 32 then some (UInt32.ofNat i.toNat) else none
    | _ => none

/-! ### Reading back -/

/-- Setting an absent property appends it. -/
private theorem set_of_not_mem {o : Object} {k : COMStr} (h : k ∉ o.map (·.1)) (v : Var) :
    Object.set o k v = o ++ [(k, v)] := by
  induction o with
  | nil => rfl
  | cons p o ih =>
    rw [List.map_cons, List.mem_cons, not_or] at h
    rw [Object.set, if_neg h.1, ih h.2, List.cons_append]

/-- A double is read back from its text. -/
private theorem varOfJson_jsonOfDouble {x : Rat} (h : x.den = 2 ^ x.den.log2) :
    varOfJson (jsonOfDouble x) = (Var.double x).reparse := by
  rw [jsonOfDouble, Var.reparse]
  cases hk : x.den.log2 with
  | zero =>
    have hden : x.den = 1 := by rw [h, hk, Nat.pow_zero]
    rw [if_pos hden, Int.pow_zero, Int.mul_one]
    rfl
  | succ k =>
    rw [hk] at h
    have hden : x.den ≠ 1 := by
      have htwo := Nat.lt_two_pow_self (n := k + 1)
      omega
    have hpow : 10 ^ (k + 1) = 5 ^ (k + 1) * x.den := by
      rw [h, ← Nat.mul_pow]
    have hx : mkRat (x.num * 5 ^ (k + 1)) (10 ^ (k + 1)) = x := by
      rw [hpow, Int.mul_comm]
      have hmul := Rat.mkRat_mul_left (n := x.num) (d := x.den) (a := 5 ^ (k + 1))
        (Nat.pos_iff_ne_zero.mp (Nat.pow_pos (by decide)))
      push_cast at hmul
      rw [hmul, Rat.mkRat_self]
    rw [if_neg hden]
    exact congrArg Var.double hx

mutual

/-- A value is read back from its text. -/
private theorem varOfJson_toJson : ∀ v : Var, v.Regular → varOfJson v.toJson = v.reparse
  | .empty, _ => rfl
  | .bool _, _ => rfl
  | .int _, _ => rfl
  | .double _, h => varOfJson_jsonOfDouble h
  | .str _, _ => rfl
  | .array _ vs, h => by
    rw [Var.toJson, varOfJson, varsOfJson_toJson vs h, Var.reparse]
  | .object _ fs, h => by
    rw [Var.toJson, varOfJson, setMembers_toJson fs h.2 [] h.1, Var.reparse, List.nil_append]

private theorem varsOfJson_toJson : ∀ vs : List Var, RegularVals vs →
    varsOfJson (valsToJson vs) = reparseVals vs
  | [], _ => rfl
  | v :: vs, h => by
    rw [valsToJson, varsOfJson, varOfJson_toJson v h.1, varsOfJson_toJson vs h.2, reparseVals]

private theorem setMembers_toJson : ∀ fs : List (COMStr × Var), RegularFields fs →
    ∀ o : Object, (o.map (·.1) ++ fs.map (·.1)).Nodup →
      setMembers (fieldsToJson fs) o = o ++ reparseFields fs
  | [], _, o, _ => by
    rw [fieldsToJson, setMembers, reparseFields, List.append_nil]
  | (k, v) :: fs, h, o, hkeys => by
    have hk : k ∉ o.map (·.1) := by
      intro hm
      exact List.disjoint_of_nodup_append hkeys hm (List.mem_cons_self ..)
    rw [fieldsToJson, setMembers, varOfJson_toJson v h.1, set_of_not_mem hk,
      setMembers_toJson fs h.2, reparseFields, List.append_assoc, List.singleton_append]
    rw [List.map_append, List.append_assoc]
    exact hkeys

end

/-- A value is read back from its text. -/
theorem Poco.json_parse_stringify {v : Var} (h : v.Regular) :
    Poco.json.parse (Poco.json.stringify v) = .ok v.reparse := by
  simp only [Poco.json, String.toList_ofList, JsonText.decode_encode, varOfJson_toJson v h]

/-- The text of a value is parsed to it. -/
theorem Poco.json_parse {text : COMStr} {v : Var} (h : v.Regular)
    (ht : text.toList = JsonText.encode v.toJson) : Poco.json.parse text = .ok v.reparse := by
  have hv : text = Poco.json.stringify v := by
    rw [← String.ofList_toList (s := text), ht, Poco.json]
  rw [hv, Poco.json_parse_stringify h]

/-- The empty text has no value. -/
theorem Poco.json_parse_empty : Poco.json.parse "" = .error .json := by
  have hnone : JsonText.decode "".toList = none := rfl
  simp only [Poco.json, hnone]

/-- Objects are read back. -/
theorem Poco.json_readsBack {o : Object} (h : (Var.object .ptr o).Regular) :
    Poco.json.ReadsBack o :=
  Poco.json_parse_stringify h

/-- So are objects held by value. -/
theorem Poco.json_readsBackValue {o : Object} (h : (Var.object .value o).Regular) :
    Poco.json.ReadsBackValue o :=
  Poco.json_parse_stringify h

/-- The keys after a property is set. -/
private theorem mem_keys_set {o : Object} {k k' : COMStr} {v : Var} :
    k' ∈ (Object.set o k v).map (·.1) ↔ k' = k ∨ k' ∈ o.map (·.1) := by
  induction o with
  | nil => simp [Object.set]
  | cons p o ih =>
    obtain ⟨a, b⟩ := p
    rw [Object.set]
    split
    · next ha => simp [ha]
    · simp only [List.map_cons, List.mem_cons, ih]
      exact or_left_comm

/-- A regular object stays so when a regular property is set. -/
theorem Object.regular_set {o : Object} {k : COMStr} {v : Var} {held : Held}
    (ho : (Var.object held o).Regular) (hv : v.Regular) :
    (Var.object held (Object.set o k v)).Regular := by
  rw [Var.Regular] at ho ⊢
  induction o with
  | nil => exact ⟨by simp [Object.set], hv, trivial⟩
  | cons p o ih =>
    obtain ⟨a, b⟩ := p
    obtain ⟨hkeys, hb, ho⟩ := ho
    rw [List.map_cons, List.nodup_cons] at hkeys
    rw [Object.set]
    split
    · next ha =>
      subst ha
      exact ⟨List.nodup_cons.mpr hkeys, hv, ho⟩
    · next ha =>
      obtain ⟨hkeys', hfields⟩ := ih ⟨hkeys.2, ho⟩
      refine ⟨List.nodup_cons.mpr ⟨?_, hkeys'⟩, hb, hfields⟩
      intro hmem
      rcases mem_keys_set.mp hmem with he | hmem
      · exact ha he.symm
      · exact hkeys.1 hmem

/-- Reading an object back keeps its keys. -/
private theorem keys_reparseFields (fs : List (COMStr × Var)) :
    (reparseFields fs).map (·.1) = fs.map (·.1) := by
  induction fs with
  | nil => rfl
  | cons p fs ih =>
    obtain ⟨k, v⟩ := p
    rw [reparseFields, List.map_cons, List.map_cons, ih]

mutual
/-- What is read back from a regular value is regular. -/
theorem Var.Regular.reparse : ∀ {v : Var}, v.Regular → v.reparse.Regular
  | .empty, _ => trivial
  | .bool _, _ => trivial
  | .int _, _ => trivial
  | .double x, h => by
    rw [Var.reparse]
    split
    · trivial
    · exact h
  | .str _, _ => trivial
  | .array _ vs, h => by
    rw [Var.reparse, Var.Regular]
    exact regularVals_reparse vs h
  | .object _ fs, h => by
    rw [Var.reparse, Var.Regular, keys_reparseFields]
    exact ⟨h.1, regularFields_reparse fs h.2⟩

private theorem regularVals_reparse : ∀ vs : List Var, RegularVals vs → RegularVals (reparseVals vs)
  | [], _ => trivial
  | _ :: vs, h => ⟨Var.Regular.reparse h.1, regularVals_reparse vs h.2⟩

private theorem regularFields_reparse : ∀ fs : List (COMStr × Var), RegularFields fs →
    RegularFields (reparseFields fs)
  | [], _ => trivial
  | (_, _) :: fs, h => ⟨Var.Regular.reparse h.1, regularFields_reparse fs h.2⟩
end

/-! ### Printed strings -/

/-- An object without repeated keys is printed as a JSON object that has its strings. -/
def Poco.PrintsStrings (P : Poco) : Prop :=
  ∀ o : Object, (o.map (·.1)).Nodup → ∃ ms,
    JsonText.decode (P.stringify (.object .value o)).toList = some (.object ms) ∧
      ∀ k s, Object.get o k = .str s → JsonText.Holds ms k s

/-- The names of the members are the keys of the object. -/
private theorem mem_map_of_mem_fieldsToJson {k : COMStr} {j : Json} (o : Object)
    (h : (k, j) ∈ fieldsToJson o) : k ∈ o.map (·.1) := by
  induction o with
  | nil =>
    rw [fieldsToJson] at h
    cases h
  | cons p o ih =>
    rw [fieldsToJson, List.mem_cons, Prod.mk.injEq] at h
    rw [List.map_cons, List.mem_cons]
    rcases h with ⟨hk, -⟩ | h
    · exact .inl hk
    · exact .inr (ih h)

/-- A string property is the one member of its name. -/
private theorem holds_fieldsToJson {k s : COMStr} (o : Object) (hkeys : (o.map (·.1)).Nodup)
    (h : Object.get o k = .str s) : JsonText.Holds (fieldsToJson o) k s := by
  induction o with
  | nil => cases h
  | cons p o ih =>
    obtain ⟨k', v⟩ := p
    rw [List.map_cons, List.nodup_cons] at hkeys
    rw [fieldsToJson]
    by_cases hk : k = k'
    · subst hk
      have hv : v = .str s := by
        simpa [Object.get] using h
      rw [hv, Var.toJson]
      apply JsonText.holds_cons_self
      intro j hj
      exact hkeys.1 (mem_map_of_mem_fieldsToJson o hj)
    · have hget : Object.get o k = .str s := by
        have hb : (k == k') = false := by simpa using hk
        simpa [Object.get, List.lookup_cons, hb] using h
      exact (JsonText.holds_cons_of_ne hk).mpr (ih hkeys.2 hget)

/-- The reference library prints strings. -/
theorem Poco.json_printsStrings : Poco.json.PrintsStrings := by
  intro o hkeys
  refine ⟨fieldsToJson o, ?_, fun k s h ↦ holds_fieldsToJson o hkeys h⟩
  simp only [Poco.json, String.toList_ofList, JsonText.decode_encode, Var.toJson]

/-- What is printed from an object of distinct keys and read back as an object keeps its strings
and truth values. -/
def Poco.KeepsScalars (P : Poco) : Prop :=
  ∀ o o' : Object, (o.map (·.1)).Nodup →
    P.parse (P.stringify (.object .value o)) = .ok (.object .ptr o') → ∀ k,
      (∀ s, Object.get o k = .str s → Object.get o' k = .str s) ∧
        ∀ b, Object.get o k = .bool b → Object.get o' k = .bool b

/-- Members with new names are set after the others. -/
private theorem setMembers_fieldsToJson : ∀ (fs : List (COMStr × Var)) (o : Object),
    (o.map (·.1) ++ fs.map (·.1)).Nodup →
      setMembers (fieldsToJson fs) o = o ++ fs.map fun p ↦ (p.1, varOfJson p.2.toJson)
  | [], o, _ => by
    rw [fieldsToJson, setMembers, List.map_nil, List.append_nil]
  | (k, v) :: fs, o, hkeys => by
    have hk : k ∉ o.map (·.1) := by
      intro hm
      exact List.disjoint_of_nodup_append hkeys hm (List.mem_cons_self ..)
    rw [fieldsToJson, setMembers, set_of_not_mem hk, setMembers_fieldsToJson fs, List.append_assoc]
    · rfl
    · rw [List.map_append, List.append_assoc]
      exact hkeys

/-- A property of an object whose values are all replaced. -/
private theorem get_map (f : Var → Var) (hf : f .empty = .empty) (o : Object) (k : COMStr) :
    Object.get (o.map fun p ↦ (p.1, f p.2)) k = f (Object.get o k) := by
  rw [Object.get, Object.get]
  induction o with
  | nil => exact hf.symm
  | cons p o ih =>
    obtain ⟨a, v⟩ := p
    rw [List.map_cons, List.lookup_cons, List.lookup_cons]
    cases k == a with
    | true => rfl
    | false => exact ih

/-- Strings and truth values are kept. -/
theorem Poco.json_keepsScalars : Poco.json.KeepsScalars := by
  intro o o' hkeys hparse k
  simp only [Poco.json, String.toList_ofList, JsonText.decode_encode, Var.toJson, varOfJson,
    Except.ok.injEq, Var.object.injEq, true_and] at hparse
  rw [setMembers_fieldsToJson o [] (by simpa using hkeys), List.nil_append] at hparse
  rw [← hparse, get_map (fun v ↦ varOfJson v.toJson) rfl]
  constructor
  · intro s hs
    rw [hs]
    rfl
  · intro b hb
    rw [hb]
    rfl

end IcsGateway
