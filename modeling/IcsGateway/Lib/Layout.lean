import Mathlib.Logic.Function.Basic

/-!
# Records by field

A record type whose fields have names: `Layout ρ ty` says that a record is the same thing
as a value for every name. Code that fills a record field by field from an outside source
is then a partial assignment `Given ty` laid over the record it starts from.
-/

namespace IcsGateway.Lib

variable {φ : Type} {ty : φ → Type} {ρ : Type}

/-- A record type `ρ` with a field of type `ty f` for every name `f`. -/
structure Layout (ρ : Type) {φ : Type} (ty : φ → Type) where
  /-- The value of a field. -/
  get : ρ → (f : φ) → ty f
  /-- The record with given field values. -/
  build : ((f : φ) → ty f) → ρ
  get_build : ∀ vs, get (build vs) = vs
  build_get : ∀ r, build (get r) = r

/-- Values for some of the fields. -/
abbrev Given (ty : φ → Type) := (f : φ) → Option (ty f)

namespace Given

/-- No field is given. -/
def nothing : Given ty := fun _ ↦ none

/-- The field `f` given as `x`, unless a later assignment `g` gives it again. -/
def before [DecidableEq φ] (f : φ) (x : Option (ty f)) (g : Given ty) : Given ty :=
  Function.update g f ((g f).or x)

/-- The fields of `d` where `g` gives none. -/
def orElse (g d : Given ty) : Given ty := fun f ↦ (g f).or (d f)

@[simp] theorem nothing_apply (f : φ) : (nothing : Given ty) f = none := rfl

@[simp] theorem orElse_apply (g d : Given ty) (f : φ) : g.orElse d f = (g f).or (d f) := rfl

/-- The assigned field. -/
@[simp] theorem before_self [DecidableEq φ] (f : φ) (x : Option (ty f)) (g : Given ty) :
    before f x g f = (g f).or x := by
  simp [before]

/-- The other fields. -/
theorem before_of_ne [DecidableEq φ] {f f' : φ} (x : Option (ty f)) (g : Given ty)
    (h : f' ≠ f) : before f x g f' = g f' := by
  simp [before, h]

end Given

namespace Layout

variable (L : Layout ρ ty)

/-- Records with equal fields are equal. -/
theorem ext {r r' : ρ} (h : ∀ f, L.get r f = L.get r' f) : r = r' := by
  have hg : L.get r = L.get r' := funext h
  rw [← L.build_get r, hg, L.build_get]

/-- Assigning one field. -/
def put [DecidableEq φ] (f : φ) (x : ty f) (r : ρ) : ρ :=
  L.build (Function.update (L.get r) f x)

/-- The record with the given fields replaced. -/
def overlay (g : Given ty) (r : ρ) : ρ := L.build fun f ↦ (g f).getD (L.get r f)

/-- The field just assigned. -/
@[simp] theorem get_put_self [DecidableEq φ] (f : φ) (x : ty f) (r : ρ) :
    L.get (L.put f x r) f = x := by
  simp [put, L.get_build]

/-- Assigning a field leaves the others. -/
theorem get_put_of_ne [DecidableEq φ] {f f' : φ} (x : ty f) (r : ρ) (h : f' ≠ f) :
    L.get (L.put f x r) f' = L.get r f' := by
  simp [put, L.get_build, h]

/-- A field after an overlay: the given value, else the old one. -/
@[simp] theorem get_overlay (g : Given ty) (r : ρ) (f : φ) :
    L.get (L.overlay g r) f = (g f).getD (L.get r f) := by
  rw [overlay, L.get_build]

/-- Nothing given, nothing replaced. -/
@[simp] theorem overlay_nothing (r : ρ) : L.overlay Given.nothing r = r := by
  apply L.ext
  intro f
  rw [get_overlay]
  rfl

/-- A given field assigned before the rest of the assignment is laid over. -/
theorem overlay_before_some [DecidableEq φ] (f : φ) (x : ty f) (g : Given ty) (r : ρ) :
    L.overlay (g.before f (some x)) r = L.overlay g (L.put f x r) := by
  apply L.ext
  intro f'
  rw [get_overlay, get_overlay]
  by_cases h : f' = f
  · subst h
    rw [Given.before_self, get_put_self]
    cases g f' <;> rfl
  · rw [Given.before_of_ne _ _ h, L.get_put_of_ne _ _ h]

/-- A field that is not given changes nothing. -/
theorem overlay_before_none [DecidableEq φ] (f : φ) (g : Given ty) (r : ρ) :
    L.overlay (g.before f none) r = L.overlay g r := by
  apply L.ext
  intro f'
  rw [get_overlay, get_overlay]
  by_cases h : f' = f
  · subst h
    rw [Given.before_self, Option.or_none]
  · rw [Given.before_of_ne _ _ h]

/-- An overlay that gives every field forgets the record it is laid over. -/
theorem overlay_of_total {g : Given ty} {v : ρ} (h : ∀ f, g f = some (L.get v f)) (r : ρ) :
    L.overlay g r = v := by
  apply L.ext
  intro f
  rw [get_overlay, h, Option.getD_some]

/-- Each field changed by a function of its own. -/
def map (u : (f : φ) → ty f → ty f) (r : ρ) : ρ := L.build fun f ↦ u f (L.get r f)

/-- A field after such a change. -/
@[simp] theorem get_map (u : (f : φ) → ty f → ty f) (r : ρ) (f : φ) :
    L.get (L.map u r) f = u f (L.get r f) := by
  rw [map, L.get_build]

/-- One change after the other, field by field. -/
theorem map_map (u u' : (f : φ) → ty f → ty f) (r : ρ) :
    L.map u' (L.map u r) = L.map (fun f x ↦ u' f (u f x)) r := by
  apply L.ext
  intro f
  simp only [get_map]

/-- An overlay changes each field by itself. -/
theorem overlay_eq_map (g : Given ty) (r : ρ) :
    L.overlay g r = L.map (fun f x ↦ (g f).getD x) r := rfl

/-! ### Two records -/

/-- Two records agree on some fields. -/
def Agree (A : List φ) (r r' : ρ) : Prop := ∀ f ∈ A, L.get r f = L.get r' f

/-- What agrees still does after each field has been changed by itself. -/
theorem Agree.map {A : List φ} {r r' : ρ} (h : L.Agree A r r') (u : (f : φ) → ty f → ty f) :
    L.Agree A (L.map u r) (L.map u r') := by
  intro f hf
  rw [get_map, get_map, h f hf]

/-- The fields of all records agree after a change exactly when each is changed by a constant
function. -/
theorem agree_map_iff [DecidableEq φ] [Nonempty ρ] (A : List φ) (u : (f : φ) → ty f → ty f) :
    (∀ r r', L.Agree A (L.map u r) (L.map u r')) ↔ ∀ f ∈ A, ∀ x y, u f x = u f y := by
  constructor
  · intro h f hf x y
    obtain ⟨r⟩ := ‹Nonempty ρ›
    have hxy := h (L.put f x r) (L.put f y r) f hf
    rw [get_map, get_map, get_put_self, get_put_self] at hxy
    exact hxy
  · intro h r r' f hf
    rw [get_map, get_map]
    exact h f hf _ _

end Layout
end IcsGateway.Lib
