import IcsGateway.Lib.Layout
import IcsGateway.Lib.Effect
import IcsGateway.Base.Convert

/-!
# Records read with `JGET` and written with `set`

Every configuration class lists its keys twice by hand: a run of `JGET` statements in
`Load`, and a run of `set` statements in `JSave` (`Common/ComConfig.cpp`). Both are tables
here, one entry a statement, and the two tables are compared by `Inverse`.
-/

namespace IcsGateway

open Lib

variable {φ : Type} [DecidableEq φ] {ty : φ → Type} {ρ : Type}

/-- The statement `JGET(r.field, j, key, T)`, with the conversion to `T`. -/
structure Jget (ty : φ → Type) where
  key : COMStr
  field : φ
  conv : Var → Except Exn (ty field)

/-- The statement `j.set(key, r.field)`, with the `Var` the field's type becomes. -/
structure Jset (ty : φ → Type) where
  key : COMStr
  field : φ
  toVar : ty field → Var

/-- A run of `JGET` statements on one object; a failing conversion keeps what the earlier
statements assigned. -/
def readFields (L : Layout ρ ty) (j : Option Object) : List (Jget ty) → Eff Exn ρ Unit
  | [] => pure ()
  | s :: ss => do
    let r ← get
    let v ← Eff.ofExcept (JGET s.conv (L.get r s.field) j s.key)
    set (L.put s.field v r)
    readFields L j ss

/-- A run of `set` statements on one object. -/
def writeFields (L : Layout ρ ty) (r : ρ) : List (Jset ty) → Object → Object
  | [], o => o
  | s :: ss, o => writeFields L r ss (Object.set o s.key (s.toVar (L.get r s.field)))

/-- The fields an object gives through a run of `JGET` statements, or the conversion that
fails first. -/
def given (o : Object) : List (Jget ty) → Except Exn (Given ty)
  | [] => .ok Given.nothing
  | s :: ss => do
    let x ← Object.getNullableValue s.conv o s.key
    let g ← given o ss
    .ok (g.before s.field x)

/-- The fields that a run of `JGET` statements assigns before a conversion fails. -/
def assigned (o : Object) : List (Jget ty) → Given ty
  | [] => Given.nothing
  | s :: ss =>
    match Object.getNullableValue s.conv o s.key with
    | .error _ => Given.nothing
    | .ok x => (assigned o ss).before s.field x

/-- Without a failing conversion, these are the fields given. -/
theorem assigned_of_given {o : Object} {ss : List (Jget ty)} {g : Given ty}
    (h : given o ss = .ok g) : assigned o ss = g := by
  induction ss generalizing g with
  | nil =>
    cases h
    rfl
  | cons s ss ih =>
    unfold given at h
    rw [assigned]
    cases hx : Object.getNullableValue s.conv o s.key with
    | error x => rw [hx] at h; cases h
    | ok x =>
      cases hg : given o ss with
      | error y => rw [hx, hg] at h; cases h
      | ok g' =>
        rw [hx, hg] at h
        cases h
        simp only [ih hg]

/-- A field that is not read is not assigned. -/
theorem assigned_eq_none {o : Object} {ss : List (Jget ty)} {f : φ} (h : ∀ s ∈ ss, s.field ≠ f) :
    assigned o ss f = none := by
  induction ss with
  | nil => rfl
  | cons s ss ih =>
    rw [assigned]
    cases Object.getNullableValue s.conv o s.key with
    | error x => rfl
    | ok x =>
      have hne : f ≠ s.field := fun he ↦ h s (List.mem_cons_self ..) he.symm
      simp only [Given.before_of_ne _ _ hne]
      exact ih fun t ht ↦ h t (List.mem_cons_of_mem _ ht)

/-! ### Reading -/

section Read

variable (L : Layout ρ ty)

/-- One `JGET` on an object assigns the field if the key is given, and else nothing. -/
private theorem exec_readFields_cons (s : Jget ty) (ss : List (Jget ty)) (o : Object) (r : ρ) :
    (readFields L (some o) (s :: ss)).exec r =
      match Object.getNullableValue s.conv o s.key with
      | .error x => (.error x, r)
      | .ok none => (readFields L (some o) ss).exec r
      | .ok (some v) => (readFields L (some o) ss).exec (L.put s.field v r) := by
  rw [readFields, Eff.exec_bind, Eff.exec_get]
  simp only [Eff.exec_ofExcept_bind, JGET_some]
  cases Object.getNullableValue s.conv o s.key with
  | error x => rfl
  | ok x =>
    simp only [Except.map, Eff.exec_bind, Eff.exec_set]
    cases x with
    | some v => rfl
    | none =>
      have hr : L.put s.field (L.get r s.field) r = r := by
        apply L.ext
        intro f
        by_cases h : f = s.field
        · subst h
          rw [L.get_put_self]
        · rw [L.get_put_of_ne _ _ h]
      simp only [Option.getD_none, hr]

/-- A run of `JGET` statements lays the fields it assigns over the record, and stops at a
conversion that fails. -/
theorem exec_readFields (o : Object) (ss : List (Jget ty)) (r : ρ) :
    (readFields L (some o) ss).exec r =
      ((given o ss).map fun _ ↦ (), L.overlay (assigned o ss) r) := by
  induction ss generalizing r with
  | nil =>
    rw [assigned, L.overlay_nothing]
    rfl
  | cons s ss ih =>
    rw [exec_readFields_cons, given, assigned]
    cases Object.getNullableValue s.conv o s.key with
    | error x =>
      simp only [L.overlay_nothing]
      rfl
    | ok x =>
      have hmap : ((do
          let x' ← (Except.ok x : Except Exn _)
          let g ← given o ss
          .ok (g.before s.field x') : Except Exn (Given ty)).map fun _ ↦ ()) =
          (given o ss).map fun _ ↦ () := by
        cases given o ss with
        | error y => rfl
        | ok g => rfl
      rw [hmap]
      cases x with
      | none => simp only [ih, L.overlay_before_none]
      | some v => simp only [ih, L.overlay_before_some]

/-- A run of `JGET` statements lays the given fields over the record. -/
theorem exec_readFields_of_given {o : Object} {ss : List (Jget ty)} {g : Given ty}
    (h : given o ss = .ok g) (r : ρ) :
    (readFields L (some o) ss).exec r = (.ok (), L.overlay g r) := by
  rw [exec_readFields, h, assigned_of_given h]
  rfl

/-- A conversion that fails stops the run. -/
theorem exec_readFields_of_error {o : Object} {ss : List (Jget ty)} {x : Exn}
    (h : given o ss = .error x) (r : ρ) :
    ((readFields L (some o) ss).exec r).1 = .error x := by
  rw [exec_readFields, h]
  rfl

/-- A null object stops the run at its first statement. -/
theorem exec_readFields_none {ss : List (Jget ty)} (h : ss ≠ []) (r : ρ) :
    (readFields L none ss).exec r = (.error .nullPointer, r) := by
  cases ss with
  | nil => exact absurd rfl h
  | cons s ss => rfl

/-- A run of `JGET` statements, also one that stops, assigns only the fields it reads. -/
theorem exec_readFields_snd (o : Object) (ss : List (Jget ty)) (r : ρ) :
    ∃ g : Given ty, ((readFields L (some o) ss).exec r).2 = L.overlay g r ∧
      ∀ f, (∀ s ∈ ss, s.field ≠ f) → g f = none := by
  refine ⟨assigned o ss, ?_, fun f hf ↦ assigned_eq_none hf⟩
  rw [exec_readFields]

end Read

/-- A field is not given when every key read into it is absent or null. -/
theorem given_eq_none_iff {o : Object} {ss : List (Jget ty)} {g : Given ty}
    (h : given o ss = .ok g) (f : φ) :
    g f = none ↔ ∀ s ∈ ss, s.field = f → Object.isNull o s.key = true := by
  induction ss generalizing g with
  | nil =>
    cases h
    simp
  | cons s ss ih =>
    unfold given at h
    cases hx : Object.getNullableValue s.conv o s.key with
    | error x => rw [hx] at h; cases h
    | ok x =>
      cases hg : given o ss with
      | error y => rw [hx, hg] at h; cases h
      | ok g' =>
        rw [hx, hg] at h
        cases h
        have hnull : x = none ↔ Object.isNull o s.key = true := by
          unfold Object.getNullableValue at hx
          split at hx
          · next hn =>
            cases hx
            simp [hn]
          · next hn =>
            cases hc : s.conv (Object.get o s.key) with
            | error y => rw [hc] at hx; cases hx
            | ok y =>
              rw [hc] at hx
              cases hx
              simp [hn]
        simp only [List.forall_mem_cons]
        by_cases hf : f = s.field
        · subst hf
          rw [Given.before_self, Option.or_eq_none_iff, ih hg, hnull]
          simp only [forall_const]
          exact and_comm
        · rw [Given.before_of_ne _ _ hf, ih hg]
          have hne : ¬ s.field = f := fun he ↦ hf he.symm
          simp [hne]

/-- All conversions succeed exactly when every value that is not null converts. -/
theorem given_ok_iff {o : Object} {ss : List (Jget ty)} :
    (∃ g, given o ss = .ok g) ↔
      ∀ s ∈ ss, Object.isNull o s.key = false → ∃ x, s.conv (Object.get o s.key) = .ok x := by
  induction ss with
  | nil => simp [given]
  | cons s ss ih =>
    rw [List.forall_mem_cons, ← ih, given, Object.getNullableValue]
    cases hn : Object.isNull o s.key with
    | true =>
      cases given o ss with
      | error y => simp [bind, Except.bind]
      | ok g => simp [bind, Except.bind]
    | false =>
      cases s.conv (Object.get o s.key) with
      | error y => simp [bind, Except.bind, Except.map]
      | ok x =>
        cases given o ss with
        | error y => simp [bind, Except.bind, Except.map]
        | ok g => simp [bind, Except.bind, Except.map]

/-- After a conversion that fails nothing is assigned. -/
theorem assigned_append_of_error {o : Object} {ss ts : List (Jget ty)} {x : Exn}
    (h : given o ss = .error x) : assigned o (ss ++ ts) = assigned o ss := by
  induction ss with
  | nil => cases h
  | cons s ss ih =>
    unfold given at h
    rw [List.cons_append, assigned, assigned]
    cases hx : Object.getNullableValue s.conv o s.key with
    | error y => rfl
    | ok y =>
      cases hg : given o ss with
      | ok g => rw [hx, hg] at h; cases h
      | error z =>
        rw [hx, hg] at h
        cases h
        simp only [ih hg]

/-! ### Reading what was written -/

/-- Every statement of the reading table has its counterpart in the writing table, under
the same key, and the conversion undoes it. -/
structure Inverse (reads : List (Jget ty)) (writes : List (Jset ty)) : Prop where
  distinct : (writes.map (·.key)).Nodup
  written : ∀ s ∈ reads, ∃ toVar, (⟨s.key, s.field, toVar⟩ : Jset ty) ∈ writes ∧
    ∀ x, (toVar x).reparse ≠ .empty ∧ s.conv (toVar x).reparse = .ok x

section Write

variable (L : Layout ρ ty)

omit [DecidableEq φ] in
/-- Writing leaves the keys that are not written. -/
theorem lookup_writeFields_of_notMem (r : ρ) {ss : List (Jset ty)} {k : COMStr}
    (h : k ∉ ss.map (·.key)) (o : Object) :
    (writeFields L r ss o).lookup k = o.lookup k := by
  induction ss generalizing o with
  | nil => rfl
  | cons s ss ih =>
    rw [List.map_cons, List.mem_cons, not_or] at h
    rw [writeFields, ih h.2, Object.lookup_set, if_neg h.1]

omit [DecidableEq φ] in
/-- A written key holds its field. -/
theorem lookup_writeFields_of_mem (r : ρ) {ss : List (Jset ty)} {s : Jset ty}
    (hd : (ss.map (·.key)).Nodup) (h : s ∈ ss) (o : Object) :
    (writeFields L r ss o).lookup s.key = some (s.toVar (L.get r s.field)) := by
  induction ss generalizing o with
  | nil => cases h
  | cons s' ss ih =>
    rw [List.map_cons, List.nodup_cons] at hd
    rw [writeFields]
    rcases List.mem_cons.mp h with rfl | h
    · rw [lookup_writeFields_of_notMem L r hd.1, Object.lookup_set, if_pos rfl]
    · exact ih hd.2 h _

/-- An object that holds, under every key read, a value converting to the record's field
gives that record back. -/
theorem given_of_forall {o : Object} {v : ρ} {reads : List (Jget ty)}
    (h : ∀ s ∈ reads, (Object.get o s.key) ≠ .empty ∧
      s.conv (Object.get o s.key) = .ok (L.get v s.field)) :
    ∃ g, given o reads = .ok g ∧ (∀ s ∈ reads, g s.field = some (L.get v s.field)) ∧
      ∀ f, (∀ s ∈ reads, s.field ≠ f) → g f = none := by
  induction reads with
  | nil => exact ⟨_, rfl, by simp, fun _ _ ↦ rfl⟩
  | cons s ss ih =>
    obtain ⟨g, hg, hall, hnone⟩ := ih fun s' hs' ↦ h s' (List.mem_cons_of_mem _ hs')
    obtain ⟨hne, hc⟩ := h s (List.mem_cons_self ..)
    have hx : Object.getNullableValue s.conv o s.key = .ok (some (L.get v s.field)) := by
      have hn : Object.isNull o s.key = false := by
        unfold Object.isNull
        cases hv : Object.get o s.key <;> simp_all [Var.isEmpty]
      rw [Object.getNullableValue, hn, hc]
      rfl
    refine ⟨g.before s.field (some (L.get v s.field)), ?_, ?_, ?_⟩
    · unfold given
      rw [hx, hg]
      rfl
    · intro s' hs'
      by_cases hf : s'.field = s.field
      · rw [hf, Given.before_self]
        by_cases hin : ∃ t ∈ ss, t.field = s.field
        · obtain ⟨t, ht, htf⟩ := hin
          have hgt := hall t ht
          rw [htf] at hgt
          rw [hgt]
          rfl
        · have hno := hnone s.field fun t ht he ↦ hin ⟨t, ht, he⟩
          rw [hno]
          rfl
      · rw [Given.before_of_ne _ _ hf]
        rcases List.mem_cons.mp hs' with rfl | hs'
        · exact absurd rfl hf
        · exact hall s' hs'
    · intro f hf
      have hne' : f ≠ s.field := fun he ↦ hf s (List.mem_cons_self ..) he.symm
      rw [Given.before_of_ne _ _ hne']
      exact hnone f fun t ht ↦ hf t (List.mem_cons_of_mem _ ht)

/-- A record written, printed, parsed and read again is given back. -/
theorem given_reparse_writeFields {reads : List (Jget ty)} {writes : List (Jset ty)}
    (hi : Inverse reads writes) (v : ρ) (o : Object) :
    ∃ g, given (Object.reparse (writeFields L v writes o)) reads = .ok g ∧
      (∀ s ∈ reads, g s.field = some (L.get v s.field)) ∧
      ∀ f, (∀ s ∈ reads, s.field ≠ f) → g f = none := by
  apply given_of_forall L
  intro s hs
  obtain ⟨toVar, hw, hx⟩ := hi.written s hs
  have hl := lookup_writeFields_of_mem L v hi.distinct hw o
  have hget : Object.get (Object.reparse (writeFields L v writes o)) s.key =
      (toVar (L.get v s.field)).reparse := by
    rw [Object.get_reparse]
    unfold Object.get
    rw [hl]
    rfl
  rw [hget]
  exact hx _

end Write

end IcsGateway
