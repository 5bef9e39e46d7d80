import Mathlib.Data.List.Forall2
import IcsGateway.Lib.Effect
import IcsGateway.Lib.Layout

/-!
# Decoding a list through one record variable

A decoder that declares its record before the loop and overwrites, at every element, only
the fields the element gives hands each element what the earlier ones left. The loop is
`decodeList`; `elementwise_iff` says when its records are those of the elements alone.
-/

namespace IcsGateway.Lib

variable {φ : Type} {ty : φ → Type} {ρ ξ α : Type}

/-! ### The loop -/

/-- What a decoding loop has done: the records pushed, the elements as it left them, and
the exception that stopped it. -/
structure Decoded (ρ ξ α : Type) where
  out : List ρ
  elems : List α
  stop : Option ξ

/-- `for i, e: body`: the body overwrites the record and says whether to push it, and what
becomes of the element. The record outlives the iteration. -/
def decodeList (body : Nat → α → Eff ξ ρ (Bool × α)) (i : Nat) (r : ρ) :
    List α → Decoded ρ ξ α
  | [] => ⟨[], [], none⟩
  | e :: es =>
    match (body i e).exec r with
    | (.error x, _) => ⟨[], e :: es, some x⟩
    | (.ok (kept, e'), r') =>
      let d := decodeList body (i + 1) r' es
      ⟨if kept then r' :: d.out else d.out, e' :: d.elems, d.stop⟩

/-- What one element contributes: whether its record is pushed, and the fields it gives. -/
structure Reading (ty : φ → Type) where
  kept : Bool
  given : Given ty

/-- A body that lays the element's fields over the record, whatever the record holds. -/
structure Realises (L : Layout ρ ty) (body : Nat → α → Eff ξ ρ (Bool × α))
    (reading : Nat → α → Except ξ (Reading ty)) (after : α → α) : Prop where
  ok : ∀ i e a r, reading i e = .ok a →
    (body i e).exec r = (.ok (a.kept, after e), L.overlay a.given r)
  error : ∀ i e x r, reading i e = .error x → ((body i e).exec r).1 = .error x

/-- The elements read before the loop stops, with what they contribute. -/
def readings (reading : Nat → α → Except ξ (Reading ty)) (i : Nat) :
    List α → List (α × Reading ty)
  | [] => []
  | e :: es =>
    match reading i e with
    | .error _ => []
    | .ok a => (e, a) :: readings reading (i + 1) es

/-- The exception at which the loop stops. -/
def stopsWith (reading : Nat → α → Except ξ (Reading ty)) (i : Nat) : List α → Option ξ
  | [] => none
  | e :: es =>
    match reading i e with
    | .error x => some x
    | .ok _ => stopsWith reading (i + 1) es

/-- The records pushed for a list of readings, starting from a record. -/
def records (L : Layout ρ ty) (r : ρ) : List (α × Reading ty) → List ρ
  | [] => []
  | (_, a) :: as =>
    let r' := L.overlay a.given r
    if a.kept then r' :: records L r' as else records L r' as

section ReadUpTo

variable {β : Type}

/-- The values read from the elements before the first that cannot be read. -/
def readUpTo (read : Nat → α → Except ξ β) (i : Nat) : List α → List β
  | [] => []
  | e :: es =>
    match read i e with
    | .error _ => []
    | .ok x => x :: readUpTo read (i + 1) es

/-- The exception at which such a reading stops. -/
def failsAt (read : Nat → α → Except ξ β) (i : Nat) : List α → Option ξ
  | [] => none
  | e :: es =>
    match read i e with
    | .error x => some x
    | .ok _ => failsAt read (i + 1) es

/-- Nothing stops a reading exactly when every element can be read. -/
theorem failsAt_eq_none_iff {read : Nat → α → Except ξ β} {D : α → Prop}
    (hD : ∀ i e, (∃ x, read i e = .ok x) ↔ D e) (es : List α) :
    ∀ i, failsAt read i es = none ↔ ∀ e ∈ es, D e := by
  induction es with
  | nil =>
    intro i
    simp [failsAt]
  | cons e es ih =>
    intro i
    rw [List.forall_mem_cons, ← ih (i + 1), ← hD i e, failsAt]
    cases read i e with
    | error x => simp
    | ok x => simp

/-- The loop stops as the reading of its elements does. -/
theorem stopsWith_eq_failsAt (reading : Nat → α → Except ξ (Reading ty)) (es : List α) :
    ∀ i, stopsWith reading i es = failsAt reading i es := by
  induction es with
  | nil => intro i; rfl
  | cons e es ih =>
    intro i
    rw [stopsWith, failsAt, ih (i + 1)]
    cases reading i e <;> rfl

/-- A body that overwrites the whole record with the value of its element: the values are
pushed. -/
theorem decodeList_of_total {body : Nat → α → Eff ξ ρ (Bool × α)} {read : Nat → α → Except ξ ρ}
    {after : α → α}
    (hok : ∀ i e r x, read i e = .ok x → (body i e).exec r = (.ok (true, after e), x))
    (herror : ∀ i e r x, read i e = .error x → ((body i e).exec r).1 = .error x) (es : List α) :
    ∀ i r, (decodeList body i r es).out = readUpTo read i es ∧
      (decodeList body i r es).stop = failsAt read i es := by
  induction es with
  | nil => intro i r; exact ⟨rfl, rfl⟩
  | cons e es ih =>
    intro i r
    unfold decodeList readUpTo failsAt
    cases hr : read i e with
    | error x =>
      have hx := herror i e r x hr
      rcases hb : (body i e).exec r with ⟨res, r'⟩
      rw [hb] at hx
      simp only at hx
      subst hx
      exact ⟨rfl, rfl⟩
    | ok x =>
      rw [hok i e r x hr]
      simp only [ih, ↓reduceIte, and_self]

end ReadUpTo

section Loop

variable {L : Layout ρ ty} {body : Nat → α → Eff ξ ρ (Bool × α)}
  {reading : Nat → α → Except ξ (Reading ty)} {after : α → α}

/-- The loop pushes the records of the elements it reads. -/
theorem decodeList_out (h : Realises L body reading after) (es : List α) :
    ∀ i r, (decodeList body i r es).out = records L r (readings reading i es) := by
  induction es with
  | nil => intro i r; rfl
  | cons e es ih =>
    intro i r
    unfold decodeList readings
    cases hr : reading i e with
    | error x =>
      have hx := h.error i e x r hr
      rcases hb : (body i e).exec r with ⟨res, r'⟩
      rw [hb] at hx
      simp only at hx
      subst hx
      rfl
    | ok a =>
      rw [h.ok i e a r hr]
      simp only [records, ih]

/-- The loop stops at the first element that cannot be read. -/
theorem decodeList_stop (h : Realises L body reading after) (es : List α) :
    ∀ i r, (decodeList body i r es).stop = stopsWith reading i es := by
  induction es with
  | nil => intro i r; rfl
  | cons e es ih =>
    intro i r
    unfold decodeList stopsWith
    cases hr : reading i e with
    | error x =>
      have hx := h.error i e x r hr
      rcases hb : (body i e).exec r with ⟨res, r'⟩
      rw [hb] at hx
      simp only at hx
      subst hx
      rfl
    | ok a =>
      rw [h.ok i e a r hr]
      simp only [ih]

end Loop

/-- A body that reads back, whatever the record holds, the record an element stands for
makes the loop read back a list of them. -/
theorem decodeList_out_of_exact {body : Nat → α → Eff ξ ρ (Bool × α)} {enc : ρ → α}
    (h : ∀ i r x, ∃ e', (body i (enc x)).exec r = (.ok (true, e'), x)) (rs : List ρ) :
    ∀ i r, (decodeList body i r (rs.map enc)).out = rs := by
  induction rs with
  | nil => intro i r; rfl
  | cons x rs ih =>
    intro i r
    obtain ⟨e', he⟩ := h i r x
    rw [List.map_cons, decodeList, he]
    simp only [↓reduceIte, ih]

/-- Readings that give every field make the same records from any starting record. -/
theorem records_congr (L : Layout ρ ty) {as : List (α × Reading ty)}
    (h : ∀ a ∈ as, ∀ f, a.2.given f ≠ none) : ∀ r r', records L r as = records L r' as := by
  induction as with
  | nil => intro r r'; rfl
  | cons a as ih =>
    intro r r'
    have hoverlay : L.overlay a.2.given r = L.overlay a.2.given r' := by
      apply L.ext
      intro f
      obtain ⟨x, hx⟩ := Option.ne_none_iff_exists'.mp (h a (List.mem_cons_self ..) f)
      rw [L.get_overlay, L.get_overlay, hx]
      rfl
    unfold records
    rw [hoverlay]

/-! ### What the earlier elements leave -/

/-- The fields a sequence of elements gives, the later ones counting. -/
def carried : List (Given ty) → Given ty
  | [] => Given.nothing
  | g :: gs => (carried gs).orElse g

/-- The elements whose records are pushed. -/
def keptOf (as : List (α × Reading ty)) : List (α × Reading ty) := as.filter (·.2.kept)

/-- The fields of a record in terms of its own element and the ones before it. -/
theorem forall₂_records_iff (L : Layout ρ ty) (value : α × Reading ty → Given ty)
    (as : List (α × Reading ty)) (r : ρ) :
    List.Forall₂ (fun a v ↦ ∀ f, value a f = some (L.get v f)) (keptOf as) (records L r as) ↔
      ∀ pre a post, as = pre ++ a :: post → a.2.kept = true → ∀ f,
        value a f =
          some ((a.2.given f).getD ((carried (pre.map (·.2.given)) f).getD (L.get r f))) := by
  induction as generalizing r with
  | nil => simp [keptOf, records]
  | cons a₀ as ih =>
    obtain ⟨e, a⟩ := a₀
    have hsplit : (∀ pre b post, (e, a) :: as = pre ++ b :: post → b.2.kept = true → ∀ f,
          value b f =
            some ((b.2.given f).getD ((carried (pre.map (·.2.given)) f).getD (L.get r f)))) ↔
        ((a.kept = true → ∀ f, value (e, a) f = some (L.get (L.overlay a.given r) f)) ∧
          ∀ pre b post, as = pre ++ b :: post → b.2.kept = true → ∀ f,
            value b f = some ((b.2.given f).getD
              ((carried (pre.map (·.2.given)) f).getD (L.get (L.overlay a.given r) f)))) := by
      constructor
      · intro h
        refine ⟨fun hk f ↦ ?_, fun pre b post hp hk f ↦ ?_⟩
        · have h₀ := h [] (e, a) as rfl hk f
          rw [L.get_overlay]
          exact h₀
        · have h₁ := h ((e, a) :: pre) b post (by rw [hp]; rfl) hk f
          rw [L.get_overlay]
          simpa [carried, Option.getD_or] using h₁
      · rintro ⟨h₀, h₁⟩ pre b post hp hk f
        cases pre with
        | nil =>
          obtain ⟨rfl, rfl⟩ := List.cons.inj hp
          have hv := h₀ hk f
          rw [L.get_overlay] at hv
          exact hv
        | cons c pre =>
          obtain ⟨rfl, hp'⟩ := List.cons.inj hp
          have hv := h₁ pre b post hp' hk f
          rw [L.get_overlay] at hv
          simpa [carried, Option.getD_or] using hv
    rw [hsplit, ← ih]
    cases hk : a.kept with
    | true => simp [keptOf, records, hk]
    | false => simp [keptOf, records, hk]

/-- The loop decodes its elements one by one (`value` being what an element says on its
own) exactly when each gives its fields, or lacks one that the elements before it left at
the value it has on its own. -/
theorem elementwise_iff (L : Layout ρ ty) (value : α × Reading ty → Given ty)
    (as : List (α × Reading ty)) (r : ρ)
    (hinit : ∀ a f x, a ∈ as → a.2.given f = none → value a f = some x → L.get r f = x) :
    List.Forall₂ (fun a v ↦ ∀ f, value a f = some (L.get v f)) (keptOf as) (records L r as) ↔
      ∀ pre a post, as = pre ++ a :: post → a.2.kept = true → ∀ f, ∃ x,
        value a f = some x ∧ (∀ y, a.2.given f = some y → y = x) ∧
          (a.2.given f = none → ∀ y, carried (pre.map (·.2.given)) f = some y → y = x) := by
  rw [forall₂_records_iff]
  have key : ∀ pre a post, as = pre ++ a :: post → ∀ f,
      (value a f =
        some ((a.2.given f).getD ((carried (pre.map (·.2.given)) f).getD (L.get r f))) ↔
      ∃ x, value a f = some x ∧ (∀ y, a.2.given f = some y → y = x) ∧
        (a.2.given f = none → ∀ y, carried (pre.map (·.2.given)) f = some y → y = x)) := by
    intro pre a post hp f
    have hmem : a ∈ as := by rw [hp]; simp
    cases hg : a.2.given f with
    | some y =>
      simp only [Option.getD_some, Option.some.injEq, reduceCtorEq, false_implies, and_true]
      constructor
      · intro h
        exact ⟨y, h, fun z hz ↦ hz.symm⟩
      · rintro ⟨x, hx, hy⟩
        rw [hx, hy y rfl]
    | none =>
      simp only [Option.getD_none, reduceCtorEq, false_implies, implies_true, true_and,
        forall_const]
      cases hc : carried (pre.map (·.2.given)) f with
      | some y =>
        simp only [Option.getD_some, Option.some.injEq]
        constructor
        · intro h
          exact ⟨y, h, fun z hz ↦ hz.symm⟩
        · rintro ⟨x, hx, hy⟩
          rw [hx, hy y rfl]
      | none =>
        simp only [Option.getD_none, reduceCtorEq, false_implies, implies_true, and_true]
        constructor
        · intro h
          exact ⟨_, h⟩
        · rintro ⟨x, hx⟩
          rw [hx, hinit a f x hmem hg hx]
  constructor
  · intro h pre a post hp hk f
    exact (key pre a post hp f).mp (h pre a post hp hk f)
  · intro h pre a post hp hk f
    exact (key pre a post hp f).mpr (h pre a post hp hk f)

end IcsGateway.Lib
