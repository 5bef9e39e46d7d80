import Mathlib.Algebra.Order.Ring.Rat

/-!
# Poco dynamic values and JSON objects

The part of `Poco::Dynamic::Var`, `Poco::JSON::Object` and `Poco::JSON::Array` that the
gateway uses (`3rd.party.raspi/include/Poco/Dynamic/VarHolder.h`, `Poco/JSON/Object.h`,
`Poco/JSON/Array.h`). An array or object in a `Var` is held either by shared pointer, as
the parser builds it, or by value, as `set` and `add` store a plain `Array` or `Object`;
`getArray` and `getObject` see only the first kind. What the headers do not define (the
parser, the stringifier, number texts) is a parameter, the structure `Poco`.
-/

namespace IcsGateway

/-- `typedef std::string COMStr`; `Common/ComUtil.h:78`. -/
abbrev COMStr := String

/-- The exceptions the code can meet. All but `other` derive from `std::exception`. -/
inductive Exn where
  | nullPointer
  | invalidAccess
  | badCast
  | range
  | syntaxError
  | json
  | other
  deriving DecidableEq, Repr

/-- Caught by `catch (std::exception)`. -/
def Exn.isStd : Exn → Bool
  | .other => false
  | _ => true

/-- Why a computation stops: an exception, or an operation the language leaves undefined
(an element of an empty vector), after which nothing the source says is executed. -/
inductive Halt where
  | threw (e : Exn)
  | undefined
  deriving DecidableEq, Repr

/-- Dereferencing a `Poco::SharedPtr` throws on null; `Poco/SharedPtr.h:382`. -/
def deref {α : Type} : Option α → Except Exn α
  | some a => .ok a
  | none => .error .nullPointer

/-- How a `Var` holds a container: `Array::Ptr`/`Object::Ptr`, or `Array`/`Object`. -/
inductive Held where
  | ptr
  | value
  deriving DecidableEq, Repr

/-- `Poco::Dynamic::Var`. Integer holders of every width are `int`; a double is its exact
finite value; an object lists its properties by key, the first entry of a key counting. -/
inductive Var where
  | empty
  | bool (b : Bool)
  | int (i : Int)
  | double (x : Rat)
  | str (s : COMStr)
  | array (held : Held) (vals : List Var)
  | object (held : Held) (fields : List (COMStr × Var))
  deriving Repr

/-- `Var::isEmpty`: a JSON null, or the value of an absent property. -/
def Var.isEmpty : Var → Bool
  | .empty => true
  | _ => false

/-- `Var::extract<Object::Ptr>`; `Poco/Dynamic/Var.h:192`. -/
def Var.extractObject : Var → Except Exn (List (COMStr × Var))
  | .object .ptr o => .ok o
  | .empty => .error .invalidAccess
  | _ => .error .badCast

/-- Only an object held by pointer is extracted. -/
theorem Var.eq_of_extractObject {v : Var} {o : List (COMStr × Var)}
    (h : v.extractObject = .ok o) : v = .object .ptr o := by
  cases v with
  | object held o' =>
    cases held with
    | ptr =>
      cases h
      rfl
    | value => cases h
  | _ => cases h

/-- The object pointer in a value, null when the value is not one: `Array::getObject` on
an element. -/
def Var.getObject : Var → Option (List (COMStr × Var))
  | .object .ptr o => some o
  | _ => none

mutual
/-- The value read back from the text it is printed as: every container is held by pointer, as
the parser builds it, and a whole double, which is printed without a fraction, is an integer. -/
def Var.reparse : Var → Var
  | .empty => .empty
  | .bool b => .bool b
  | .int i => .int i
  | .double x => if x.den = 1 then .int x.num else .double x
  | .str s => .str s
  | .array _ vs => .array .ptr (reparseVals vs)
  | .object _ fs => .object .ptr (reparseFields fs)

/-- `Var.reparse` on the elements of an array. -/
def reparseVals : List Var → List Var
  | [] => []
  | v :: vs => v.reparse :: reparseVals vs

/-- `Var.reparse` on the properties of an object. -/
def reparseFields : List (COMStr × Var) → List (COMStr × Var)
  | [] => []
  | (k, v) :: fs => (k, v.reparse) :: reparseFields fs
end

/-- Reading elements back is elementwise. -/
theorem reparseVals_eq_map (vs : List Var) : reparseVals vs = vs.map Var.reparse := by
  induction vs with
  | nil => rfl
  | cons v vs ih => rw [reparseVals, ih, List.map_cons]

mutual
/-- Reading back twice is reading back once. -/
theorem Var.reparse_reparse : ∀ v : Var, v.reparse.reparse = v.reparse
  | .empty => rfl
  | .bool _ => rfl
  | .int _ => rfl
  | .double x => by
    by_cases h : x.den = 1 <;> simp [Var.reparse, h]
  | .str _ => rfl
  | .array _ vs => by
    simp only [Var.reparse]
    rw [reparseVals_idem vs]
  | .object _ fs => by
    simp only [Var.reparse]
    rw [reparseFields_idem fs]

private theorem reparseVals_idem : ∀ vs : List Var, reparseVals (reparseVals vs) = reparseVals vs
  | [] => rfl
  | v :: vs => by rw [reparseVals, reparseVals, Var.reparse_reparse v, reparseVals_idem vs]

private theorem reparseFields_idem :
    ∀ fs : List (COMStr × Var), reparseFields (reparseFields fs) = reparseFields fs
  | [] => rfl
  | (k, v) :: fs => by
    rw [reparseFields, reparseFields, Var.reparse_reparse v, reparseFields_idem fs]
end

/-! ### Objects -/

/-- `Poco::JSON::Object`. -/
abbrev Object := List (COMStr × Var)

namespace Object

/-- `Object::has`; `Poco/JSON/Object.h`. -/
def has (o : Object) (k : COMStr) : Bool := (o.lookup k).isSome

/-- `Object::get`: an absent property gives the empty value. -/
def get (o : Object) (k : COMStr) : Var := (o.lookup k).getD .empty

/-- `Object::isNull`: absent, or null. -/
def isNull (o : Object) (k : COMStr) : Bool := (get o k).isEmpty

/-- `Object::getArray`: null unless the property holds an `Array::Ptr`. -/
def getArray (o : Object) (k : COMStr) : Option (List Var) :=
  match o.lookup k with
  | some (.array .ptr vs) => some vs
  | _ => none

/-- `Object::set`: replaces the property, or appends it. -/
def set (o : Object) (k : COMStr) (v : Var) : Object :=
  match o with
  | [] => [(k, v)]
  | (k', v') :: rest => if k = k' then (k, v) :: rest else (k', v') :: set rest k v

/-- `Object::getValue<T>`: the conversion of the property, absent ones included. -/
def getValue {τ : Type} (conv : Var → Except Exn τ) (o : Object) (k : COMStr) : Except Exn τ :=
  conv (get o k)

/-- `Object::getNullableValue<T>`: nothing for an absent or null property. -/
def getNullableValue {τ : Type} (conv : Var → Except Exn τ) (o : Object) (k : COMStr) :
    Except Exn (Option τ) :=
  if isNull o k then .ok none else (conv (get o k)).map some

/-- The object read back from the text it is printed as. -/
def reparse (o : Object) : Object := reparseFields o

/-- A set property is looked up as set; the others are unchanged. -/
theorem lookup_set (o : Object) (k k' : COMStr) (v : Var) :
    (set o k v).lookup k' = if k' = k then some v else o.lookup k' := by
  induction o with
  | nil =>
    by_cases h : k' = k
    · simp [set, h]
    · have hb : (k' == k) = false := by simpa using h
      simp [set, h, List.lookup_cons, hb]
  | cons p rest ih =>
    obtain ⟨a, b⟩ := p
    by_cases ha : k = a
    · subst a
      by_cases h : k' = k
      · simp [set, h]
      · have hb : (k' == k) = false := by simpa using h
        simp [set, h, List.lookup_cons, hb]
    · by_cases h' : k' = a
      · subst k'
        have hn : a ≠ k := fun he ↦ ha he.symm
        simp [set, ha, hn]
      · have hb : (k' == a) = false := by simpa using h'
        simp only [set, ha, ↓reduceIte, List.lookup_cons, hb]
        exact ih

/-- The property just set. -/
@[simp] theorem get_set_self (o : Object) (k : COMStr) (v : Var) : get (set o k v) k = v := by
  simp [get, lookup_set]

/-- Setting a property leaves the others. -/
theorem get_set_of_ne (o : Object) {k k' : COMStr} (v : Var) (h : k' ≠ k) :
    get (set o k v) k' = get o k' := by
  simp [get, lookup_set, h]

/-- Properties are read back one by one. -/
theorem lookup_reparse (o : Object) (k : COMStr) :
    (reparse o).lookup k = (o.lookup k).map Var.reparse := by
  unfold reparse
  induction o with
  | nil => rfl
  | cons p rest ih =>
    obtain ⟨a, b⟩ := p
    by_cases h : k == a
    · simp [reparseFields, List.lookup_cons, h]
    · have hb : (k == a) = false := by simpa using h
      simp only [reparseFields, List.lookup_cons, hb]
      exact ih

/-- Reading an object back twice is reading it back once. -/
theorem reparse_reparse (o : Object) : reparse (reparse o) = reparse o := by
  have h := Var.reparse_reparse (.object .ptr o)
  simp only [Var.reparse, Var.object.injEq, true_and] at h
  exact h

/-- The value of a property read back. -/
theorem get_reparse (o : Object) (k : COMStr) : get (reparse o) k = (get o k).reparse := by
  rw [get, lookup_reparse, get]
  cases o.lookup k <;> rfl

/-- A property that holds an `Array::Ptr` is present. -/
theorem has_of_getArray {o : Object} {k : COMStr} {vs : List Var}
    (h : getArray o k = some vs) : has o k = true := by
  unfold getArray at h
  unfold has
  split at h
  · next he => rw [he]; rfl
  · cases h

/-- `getArray` looks at one property. -/
theorem getArray_congr {o o' : Object} {k : COMStr} (h : o.lookup k = o'.lookup k) :
    getArray o k = getArray o' k := by
  rw [getArray, getArray, h]

/-- An absent property is no array. -/
theorem getArray_of_lookup_none {o : Object} {k : COMStr} (h : o.lookup k = none) :
    getArray o k = none := by
  rw [getArray, h]

/-- The array stored by pointer. -/
theorem getArray_set_ptr (o : Object) (k : COMStr) (vs : List Var) :
    getArray (set o k (.array .ptr vs)) k = some vs := by
  rw [getArray, lookup_set, if_pos rfl]

/-- An array stored by value is not seen. -/
theorem getArray_set_value (o : Object) (k : COMStr) (vs : List Var) :
    getArray (set o k (.array .value vs)) k = none := by
  rw [getArray, lookup_set, if_pos rfl]

/-- A held array, read back. -/
theorem getArray_reparse {o : Object} {k : COMStr} {vs : List Var}
    (h : getArray o k = some vs) : getArray (reparse o) k = some (vs.map Var.reparse) := by
  unfold getArray at h
  split at h
  · next us he =>
    cases h
    unfold getArray
    rw [lookup_reparse, he]
    simp only [Option.map_some, Var.reparse, reparseVals_eq_map]
  · cases h

/-- A property is present or not looked up. -/
theorem lookup_eq_none_of_has {o : Object} {k : COMStr} (h : has o k = false) :
    o.lookup k = none := by
  unfold has at h
  rwa [Option.isSome_eq_false_iff, Option.isNone_iff_eq_none] at h

/-- The keys of an object are the properties it has. -/
theorem mem_keys_iff {o : Object} {k : COMStr} : k ∈ o.map (·.1) ↔ has o k = true := by
  rw [has, List.lookup_isSome_iff, List.mem_map]
  constructor
  · rintro ⟨p, hp, rfl⟩
    exact ⟨p, hp, beq_self_eq_true _⟩
  · rintro ⟨p, hp, hk⟩
    exact ⟨p, hp, (eq_of_beq hk).symm⟩

end Object

end IcsGateway
