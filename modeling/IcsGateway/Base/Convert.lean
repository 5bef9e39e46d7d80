import IcsGateway.Base.Var

/-!
# Conversions and the JSON access macros

`Var::convert<T>` for the four types the configuration uses, as the `VarHolderImpl`
specialisations of `Poco/Dynamic/VarHolder.h` define them, and the macros `JGET` and
`JGET_ARR` of `Common/ComUtil.h:47–73` through which every decoder reads its document.
-/

namespace IcsGateway

/-- The Poco functions whose definitions are not in the repository. -/
structure Poco where
  /-- `JSON::Parser::parse`. -/
  parse : COMStr → Except Exn Var
  /-- `JSON::Object::stringify(os, 0)`. -/
  stringify : Var → COMStr
  /-- `stringify(oss, 2)`, to which `convert<std::string>` sends a container. -/
  prettyPrint : Var → COMStr
  /-- `NumberFormatter::format(double)`. -/
  formatDouble : Rat → COMStr
  /-- `NumberParser::parse`, none where it throws. -/
  parseInt : COMStr → Option Int32
  /-- `NumberParser::parseUnsigned`, none where it throws. -/
  parseUnsigned : COMStr → Option UInt32

/-- A C++ cast of a double to an integer type drops the fraction. -/
def truncate (x : Rat) : Int := x.num.tdiv x.den

/-- `std::numeric_limits<double>::min()`. -/
def doubleMin : Rat := 1 / 2 ^ 1022

/-- `Poco::icompare(s, t) == 0`, letter case ignored. -/
def icompareEq (s t : COMStr) : Bool := s.toList.map Char.toLower = t.toList.map Char.toLower

namespace Poco

variable (P : Poco)

/-- `convert<std::string>`; `Poco/Dynamic/VarHolder.h:1182,1885,2183,2470` and, for the
containers, `Poco/JSON/Array.h`, `Poco/JSON/Object.h`. -/
def convertStr : Var → Except Exn COMStr
  | .empty => .error .invalidAccess
  | .bool b => .ok (if b then "true" else "false")
  | .int i => .ok (toString i)
  | .double x => .ok (P.formatDouble x)
  | .str s => .ok s
  | .array h vs => .ok (P.prettyPrint (.array h vs))
  | .object h fs => .ok (P.prettyPrint (.object h fs))

/-- `convert<Int32>`; `Poco/Dynamic/VarHolder.h:1117,1840,2118,2405`. -/
def convertInt : Var → Except Exn Int32
  | .empty => .error .invalidAccess
  | .bool b => .ok (if b then 1 else 0)
  | .int i => if -2 ^ 31 ≤ i ∧ i < 2 ^ 31 then .ok (Int32.ofInt i) else .error .range
  | .double x =>
    if x > 2147483647 ∨ x < -2147483647 then .error .range
    else .ok (Int32.ofInt (truncate x))
  | .str s => match P.parseInt s with
    | some i => .ok i
    | none => .error .syntaxError
  | .array _ _ => .error .badCast
  | .object _ _ => .error .badCast

/-- `convert<UInt32>`; `Poco/Dynamic/VarHolder.h:1137,1860,2138,2427`. -/
def convertUInt : Var → Except Exn UInt32
  | .empty => .error .invalidAccess
  | .bool b => .ok (if b then 1 else 0)
  | .int i => if 0 ≤ i ∧ i < 2 ^ 32 then .ok (UInt32.ofNat i.toNat) else .error .range
  | .double x =>
    if x < 0 ∨ x > 4294967295 then .error .range
    else .ok (UInt32.ofNat (truncate x).toNat)
  | .str s => match P.parseUnsigned s with
    | some i => .ok i
    | none => .error .syntaxError
  | .array _ _ => .error .badCast
  | .object _ _ => .error .badCast

/-- `convert<bool>`; `Poco/Dynamic/VarHolder.h:1147,1870,2148,2437`. -/
def convertBool : Var → Except Exn Bool
  | .empty => .error .invalidAccess
  | .bool b => .ok b
  | .int i => .ok (i ≠ 0)
  | .double x => .ok (!(x ≤ doubleMin && -doubleMin ≤ x))
  | .str s => .ok (!s.isEmpty && s ≠ "0" && !icompareEq s "false")
  | .array _ vs => .ok (!vs.isEmpty)
  | .object _ fs => .ok (!fs.isEmpty)

/-- An object printed and parsed is read back. -/
def ReadsBack (o : Object) : Prop :=
  P.parse (P.stringify (.object .ptr o)) = .ok (.object .ptr (Object.reparse o))

/-- An object held by value, printed and parsed, is read back. -/
def ReadsBackValue (o : Object) : Prop :=
  P.parse (P.stringify (.object .value o)) = .ok (.object .ptr (Object.reparse o))

/-- Only the empty value has no text. -/
theorem convertStr_ok_iff (v : Var) : (∃ s, P.convertStr v = .ok s) ↔ v ≠ .empty := by
  cases v <;> simp [convertStr]

/-- Only the empty value has no truth value. -/
theorem convertBool_ok_iff (v : Var) : (∃ b, convertBool v = .ok b) ↔ v ≠ .empty := by
  cases v <;> simp only [convertBool, Except.ok.injEq, exists_eq', ne_eq, reduceCtorEq,
    exists_false, not_true_eq_false, not_false_eq_true]

/-- A stored string is its own text. -/
@[simp] theorem convertStr_str (s : COMStr) : P.convertStr (.str s) = .ok s := rfl

/-- An `int` printed and read back converts to itself. -/
@[simp] theorem convertInt_toInt (i : Int32) : P.convertInt (.int i.toInt) = .ok i := by
  have hl := i.le_toInt
  have hu := i.toInt_lt
  rw [convertInt, if_pos ⟨hl, hu⟩, Int32.ofInt_toInt]

/-- A `uint` printed and read back converts to itself. -/
@[simp] theorem convertUInt_toNat (u : UInt32) : P.convertUInt (.int u.toNat) = .ok u := by
  have hu := u.toNat_lt
  have hc : (0 : Int) ≤ (u.toNat : Int) ∧ (u.toNat : Int) < 2 ^ 32 := by omega
  rw [convertUInt, if_pos hc, Int.toNat_natCast, UInt32.ofNat_toNat]

/-- A stored boolean converts to itself. -/
@[simp] theorem convertBool_bool (b : Bool) : convertBool (.bool b) = .ok b := rfl

end Poco

/-! ### `JGET` -/

section Jget

variable {τ : Type} (conv : Var → Except Exn τ)

/-- `JGET(v, j, k, t)`: the new value of `v`, which stays where the key is absent or null;
`Common/ComUtil.h:47`. -/
def JGET (v : τ) (j : Option Object) (k : COMStr) : Except Exn τ := do
  let o ← deref j
  if Object.has o k then
    let nav ← Object.getNullableValue conv o k
    pure (nav.getD v)
  else pure v

/-- The macro throws on a null object. -/
@[simp] theorem JGET_none (v : τ) (k : COMStr) : JGET conv v none k = .error .nullPointer := rfl

/-- An absent property is null. -/
theorem Object.isNull_of_has_eq_false {o : Object} {k : COMStr} (h : Object.has o k = false) :
    Object.isNull o k = true := by
  unfold Object.has at h
  unfold Object.isNull Object.get
  rw [Option.isSome_eq_false_iff, Option.isNone_iff_eq_none] at h
  rw [h]
  rfl

/-- On an object the macro overlays the property, if given, on the old value. -/
theorem JGET_some (v : τ) (o : Object) (k : COMStr) :
    JGET conv v (some o) k = (Object.getNullableValue conv o k).map (·.getD v) := by
  unfold JGET
  simp only [deref, bind, Except.bind]
  split
  · rfl
  · next h =>
    have hn := Object.isNull_of_has_eq_false (Bool.not_eq_true _ ▸ h)
    simp [Object.getNullableValue, hn, Except.map, pure, Except.pure]

/-- A property that converts replaces the old value. -/
theorem JGET_of_get (v : τ) {o : Object} {k : COMStr} {x : Var} {t : τ}
    (hg : Object.get o k = x) (hx : x ≠ .empty) (hc : conv x = .ok t) :
    JGET conv v (some o) k = .ok t := by
  have hn : Object.isNull o k = false := by
    unfold Object.isNull
    rw [hg]
    cases x <;> simp_all [Var.isEmpty]
  rw [JGET_some, Object.getNullableValue, hn, hg, hc]
  rfl

/-- A conversion that fails on the empty value only makes the macro overlay what it gives. -/
theorem JGET_eq_getD {conv : Var → Except Exn τ} (hconv : ∀ x, (∃ t, conv x = .ok t) ↔ x ≠ .empty)
    (v : τ) (o : Object) (k : COMStr) :
    JGET conv v (some o) k = .ok ((conv (Object.get o k)).toOption.getD v) := by
  rw [JGET_some, Object.getNullableValue, Object.isNull]
  by_cases hx : Object.get o k = .empty
  · have hno : (conv (Object.get o k)).toOption = none := by
      cases hc : conv (Object.get o k) with
      | ok t => exact absurd hx ((hconv _).mp ⟨t, hc⟩)
      | error e => rfl
    rw [hno, hx]
    rfl
  · obtain ⟨t, ht⟩ := (hconv _).mpr hx
    have hn : (Object.get o k).isEmpty = false := by
      cases hv : Object.get o k with
      | empty => exact absurd hv hx
      | _ => rfl
    rw [hn, ht]
    rfl

/-- The text of a property, empty where it is absent or null. -/
def Object.text (P : Poco) (o : Object) (k : COMStr) : COMStr :=
  match P.convertStr (Object.get o k) with
  | .ok t => t
  | .error _ => ""

/-- Reading a text from an object does not throw. -/
theorem JGET_convertStr (P : Poco) (o : Object) (k : COMStr) :
    JGET P.convertStr "" (some o) k = .ok (Object.text P o k) := by
  rw [JGET_some, Object.getNullableValue, Object.isNull, Object.text]
  cases Object.get o k <;> rfl

end Jget

/-! ### `JGET_ARR` -/

/-- The `Array::Ptr` a `JGET_ARR` leaves in its variable: null, the array the document
holds under the key, or a new array of which the document got a copy. -/
inductive ArrayPtr where
  | null
  | held (vals : List Var)
  | fresh (vals : List Var)

namespace ArrayPtr

/-- The elements behind the pointer, none for null. -/
def vals : ArrayPtr → Option (List Var)
  | .null => none
  | .held vs => some vs
  | .fresh vs => some vs

/-- The document after the array behind the pointer has become `vs`: only an array the
document itself holds shows the change. -/
def store (p : ArrayPtr) (j : Object) (k : COMStr) (vs : List Var) : Object :=
  match p with
  | .held _ => Object.set j k (.array .ptr vs)
  | _ => j

end ArrayPtr

/-- `JGET_ARR(v, j, k)` for a null `v` and a non-null `j`: the pointer and the document
afterwards. `j->set(k, *v)` stores a copy of the new array; `Common/ComUtil.h:64`. -/
def JGET_ARR (j : Object) (k : COMStr) : ArrayPtr × Object :=
  if Object.has j k then
    match Object.getArray j k with
    | some vs => (.held vs, j)
    | none => (.null, j)
  else (.fresh [], Object.set j k (.array .value []))

/-- An array the document holds is used in place. -/
theorem JGET_ARR_of_getArray {j : Object} {k : COMStr} {vs : List Var}
    (h : Object.getArray j k = some vs) : JGET_ARR j k = (.held vs, j) := by
  rw [JGET_ARR, if_pos (Object.has_of_getArray h), h]

/-- A key that holds no `Array::Ptr` gives null. -/
theorem JGET_ARR_of_has {j : Object} {k : COMStr} (hh : Object.has j k = true)
    (h : Object.getArray j k = none) : JGET_ARR j k = (.null, j) := by
  rw [JGET_ARR, if_pos hh, h]

/-- An absent key gives a new array and a copy in the document. -/
theorem JGET_ARR_of_absent {j : Object} {k : COMStr} (hh : Object.has j k = false) :
    JGET_ARR j k = (.fresh [], Object.set j k (.array .value [])) := by
  rw [JGET_ARR, hh]
  rfl

/-- The macro touches no key but its own. -/
theorem lookup_JGET_ARR {j : Object} {k k' : COMStr} (h : k' ≠ k) :
    (JGET_ARR j k).2.lookup k' = j.lookup k' := by
  rw [JGET_ARR]
  split
  · split <;> rfl
  · rw [Object.lookup_set, if_neg h]

/-- What the macro finds depends on its own key. -/
theorem JGET_ARR_congr {j j' : Object} {k : COMStr} (h : j.lookup k = j'.lookup k) :
    (JGET_ARR j k).1 = (JGET_ARR j' k).1 := by
  rw [JGET_ARR, JGET_ARR, Object.has, Object.has, h, Object.getArray_congr h]
  split
  · split <;> rfl
  · rfl

/-- The elements found are those the document holds under the key. -/
theorem getD_vals_JGET_ARR (j : Object) (k : COMStr) :
    (JGET_ARR j k).1.vals.getD [] = (Object.getArray j k).getD [] := by
  rw [JGET_ARR]
  split
  · cases Object.getArray j k <;> rfl
  · next h =>
    rw [Object.getArray_of_lookup_none (Object.lookup_eq_none_of_has (Bool.not_eq_true _ ▸ h))]
    rfl

end IcsGateway
