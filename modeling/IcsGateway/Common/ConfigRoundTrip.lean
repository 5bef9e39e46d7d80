import IcsGateway.Base.Json
import IcsGateway.Common.ComConfig

/-!
# Saving a configuration and loading it again

`JSave` reaches the list of records through `JGET_ARR`, so only a document that already
holds the list as an `Array::Ptr` receives the records. The spec lemmas of `loadArray`,
`ListConfig.load` and `ListSaver.jSave` lead to the exact condition of the round trip.
-/

namespace IcsGateway

open Lib

variable {F ρ ψ : Type} {tyF : ψ → Type}

/-! ### The document after `Load` and `JSave` -/

/-- The loop of `Load` on an array the document holds. -/
theorem exec_loadArray_of_getArray {key : COMStr} {body : Nat → Var → Eff Exn ρ (Bool × Var)}
    {r : ρ} {push : List ρ → F → F} {f : F} {j : Object} {vs : List Var}
    (h : Object.getArray j key = some vs) :
    (loadArray key body r push).exec ⟨f, some j⟩ =
      ((match (decodeList body 0 r vs).stop with
        | some x => .error x
        | none => .ok true),
        ⟨push (decodeList body 0 r vs).out f,
          some (Object.set j key (.array .ptr (decodeList body 0 r vs).elems))⟩) := by
  unfold loadArray
  rw [Eff.exec_bind, Eff.exec_get]
  simp only [JGET_ARR_of_getArray h, ArrayPtr.vals, ArrayPtr.store, Eff.exec_bind, Eff.exec_set]
  cases (decodeList body 0 r vs).stop <;> rfl

/-- The loop of `Load` on a key that holds something else. -/
theorem exec_loadArray_of_has {key : COMStr} {body : Nat → Var → Eff Exn ρ (Bool × Var)}
    {r : ρ} {push : List ρ → F → F} {f : F} {j : Object} (hh : Object.has j key = true)
    (h : Object.getArray j key = none) :
    (loadArray key body r push).exec ⟨f, some j⟩ = (.ok false, ⟨f, some j⟩) := by
  unfold loadArray
  rw [Eff.exec_bind, Eff.exec_get]
  simp only [JGET_ARR_of_has hh h, ArrayPtr.vals, Eff.exec_bind, Eff.exec_set, Eff.exec_pure]

/-- The loop of `Load` on an absent key: no element, and an array by value in the document. -/
theorem exec_loadArray_of_absent {key : COMStr} {body : Nat → Var → Eff Exn ρ (Bool × Var)}
    {r : ρ} {push : List ρ → F → F} {f : F} {j : Object} (hh : Object.has j key = false) :
    (loadArray key body r push).exec ⟨f, some j⟩ =
      (.ok true, ⟨push [] f, some (Object.set j key (.array .value []))⟩) := by
  unfold loadArray
  rw [Eff.exec_bind, Eff.exec_get]
  simp only [JGET_ARR_of_absent hh, ArrayPtr.vals, ArrayPtr.store, decodeList, Eff.exec_bind,
    Eff.exec_set, Eff.exec_pure]

/-- The loop of `JSave` on an array the document holds. -/
theorem saveArray_of_getArray {key : COMStr} {encode : ρ → Var} {rs : List ρ} {j : Object}
    {vs : List Var} (h : Object.getArray j key = some vs) :
    saveArray key encode rs j = Object.set j key (.array .ptr (rs.map encode)) := by
  unfold saveArray
  rw [JGET_ARR_of_getArray h]
  rfl

/-- The loop of `JSave` on a key that holds something else. -/
theorem saveArray_of_has {key : COMStr} {encode : ρ → Var} {rs : List ρ} {j : Object}
    (hh : Object.has j key = true) (h : Object.getArray j key = none) :
    saveArray key encode rs j = j := by
  unfold saveArray
  rw [JGET_ARR_of_has hh h]
  rfl

/-- The loop of `JSave` on an absent key fills an array the document does not hold. -/
theorem saveArray_of_absent {key : COMStr} {encode : ρ → Var} {rs : List ρ} {j : Object}
    (hh : Object.has j key = false) :
    saveArray key encode rs j = Object.set j key (.array .value []) := by
  unfold saveArray
  rw [JGET_ARR_of_absent hh]
  rfl

/-- The loop of `JSave` keeps the other keys. -/
theorem lookup_saveArray {key : COMStr} {encode : ρ → Var} {rs : List ρ} {j : Object}
    {k : COMStr} (hk : k ≠ key) : (saveArray key encode rs j).lookup k = j.lookup k := by
  cases hh : Object.has j key with
  | false => rw [saveArray_of_absent hh, Object.lookup_set, if_neg hk]
  | true =>
    cases hg : Object.getArray j key with
    | none => rw [saveArray_of_has hh hg]
    | some vs => rw [saveArray_of_getArray hg, Object.lookup_set, if_neg hk]

/-- The members and the document after statements on the members. -/
theorem exec_onFields {α : Type} (m : Eff Exn F α) (s : ComConfig F) :
    (onFields m).exec s = ((m.exec s.fields).1, { s with fields := (m.exec s.fields).2 }) := by
  unfold onFields
  rw [Eff.exec_bind, Eff.exec_get]
  simp only [Eff.exec_bind, Eff.exec_set, Eff.exec_ofExcept]

namespace ListConfig

variable (C : ListConfig F ρ tyF)

/-- The list `Load` reads from a document. -/
def listIn (o : Object) : List ρ :=
  match Object.getArray o C.key with
  | none => []
  | some vs => (decodeList C.body 0 C.record vs).out

/-- The list that reads back from a document `JSave` could not write it to: empty, unless an
array with elements is stored by value under the key. -/
def unreached (j : Object) : List ρ := C.listIn (Object.reparse j)

/-- The list read depends on one property alone. -/
private theorem listIn_congr {o o' : Object} (h : o.lookup C.key = o'.lookup C.key) :
    C.listIn o = C.listIn o' := by
  unfold listIn
  rw [Object.getArray_congr h]

/-- `JGET_ARR` has left the property under the key, or has put an empty array by value where
there was none. -/
def Untouched (k : COMStr) (j j' : Object) : Prop :=
  j'.lookup k = j.lookup k ∨ (j.lookup k = none ∧ j'.lookup k = some (.array .value []))

private theorem Untouched.trans {k : COMStr} {j j' j'' : Object} (h : Untouched k j j')
    (h' : Untouched k j' j'') : Untouched k j j'' := by
  rcases h with h | ⟨h, hv⟩
  · unfold Untouched at h' ⊢
    rw [h] at h'
    exact h'
  · rcases h' with h' | ⟨h', -⟩
    · exact .inr ⟨h, h'.trans hv⟩
    · rw [hv] at h'
      cases h'

/-- What reads back where the list was never written. -/
private theorem listIn_of_untouched {j j' : Object} (h : Untouched C.key j j') :
    C.listIn (Object.reparse j') = C.unreached j := by
  rcases h with h | ⟨h, h'⟩
  · apply listIn_congr
    rw [Object.lookup_reparse, Object.lookup_reparse, h]
  · have hr : Object.getArray (Object.reparse j) C.key = none := by
      apply Object.getArray_of_lookup_none
      rw [Object.lookup_reparse, h]
      rfl
    have hr' : Object.getArray (Object.reparse j') C.key = some [] := by
      unfold Object.getArray
      rw [Object.lookup_reparse, h']
      rfl
    unfold unreached listIn
    rw [hr, hr']
    rfl

/-- `Load` keeps the document's other keys, and whether it holds the list. -/
structure Kept (j j' : Object) : Prop where
  other : ∀ k, k ≠ C.key → j'.lookup k = j.lookup k
  list : Object.getArray j C.key ≠ none → Object.getArray j' C.key ≠ none
  missing : Object.getArray j C.key = none →
    Object.getArray j' C.key = none ∧ Untouched C.key j j'

private theorem kept_refl (j : Object) : Kept C j j where
  other _ _ := rfl
  list h := h
  missing h := ⟨h, .inl rfl⟩

/-- The loop of `Load` keeps the document's other keys. -/
private theorem loadArray_kept (body : Nat → Var → Eff Exn ρ (Bool × Var)) (r : ρ)
    (push : List ρ → F → F) (f : F) (j : Object) :
    ∃ j', ((loadArray C.key body r push).exec ⟨f, some j⟩).2.jConf = some j' ∧
      Kept C j j' := by
  cases hg : Object.getArray j C.key with
  | some vs =>
    rw [exec_loadArray_of_getArray hg]
    refine ⟨_, rfl, ?_, ?_, ?_⟩
    · intro k hk
      rw [Object.lookup_set, if_neg hk]
    · intro _
      rw [Object.getArray_set_ptr]
      exact Option.some_ne_none _
    · intro hn
      rw [hg] at hn
      cases hn
  | none =>
    cases hh : Object.has j C.key with
    | true =>
      rw [exec_loadArray_of_has hh hg]
      exact ⟨j, rfl, kept_refl C j⟩
    | false =>
      rw [exec_loadArray_of_absent hh]
      have hl := Object.lookup_eq_none_of_has hh
      refine ⟨_, rfl, ?_, ?_, ?_⟩
      · intro k hk
        rw [Object.lookup_set, if_neg hk]
      · intro hn
        exact absurd hg hn
      · intro _
        refine ⟨Object.getArray_set_value _ _ _, .inr ⟨hl, ?_⟩⟩
        rw [Object.lookup_set, if_pos rfl]

variable [DecidableEq ψ]

/-- `Load` keeps the document's other keys, also when it throws. -/
theorem load_kept (f : F) (j : Object) :
    ∃ j', (C.load.exec ⟨f, some j⟩).2.jConf = some j' ∧ Kept C j j' := by
  unfold load
  rw [Eff.exec_bind, Eff.exec_get]
  simp only [Eff.exec_bind, Eff.exec_set, exec_onFields]
  rcases hr : (readFields C.layout (some j) C.reads).exec (C.clear f) with ⟨res, f'⟩
  cases res with
  | error x => exact ⟨j, rfl, kept_refl C j⟩
  | ok u =>
    obtain ⟨j', hj', hk⟩ := loadArray_kept C C.body C.record C.push f' j
    refine ⟨j', ?_, hk⟩
    rcases hl : (loadArray C.key C.body C.record C.push).exec ⟨f', some j⟩ with ⟨res', s'⟩
    rw [hl] at hj'
    simp only [hl]
    cases res' <;> exact hj'

end ListConfig

namespace ListSaver

variable (S : ListSaver F ρ tyF)

/-- The keys the class owns. -/
def owned : List COMStr := S.key :: S.writes.map (·.key)

/-- `JSave` writes the members' keys and the list, where the document holds it. -/
private theorem jSave_spec (hkey : S.key ∉ S.writes.map (·.key))
    (hd : (S.writes.map (·.key)).Nodup) (v : F) (j : Object) :
    ∃ j', S.jSave.exec ⟨v, some j⟩ = (.ok true, ⟨v, some j'⟩) ∧
      (∀ k, k ∉ S.owned → j'.lookup k = j.lookup k) ∧
      (∀ w ∈ S.writes, j'.lookup w.key = some (w.toVar (S.layout.get v w.field))) ∧
      (Object.getArray j S.key ≠ none →
        Object.getArray j' S.key = some ((S.list v).map S.encode)) ∧
      (Object.getArray j S.key = none → ListConfig.Untouched S.key j j') := by
  have hw := lookup_writeFields_of_notMem S.layout v hkey j
  have hexec : S.jSave.exec ⟨v, some j⟩ = (.ok true, ⟨v, some (saveArray S.key S.encode
      (S.list v) (writeFields S.layout v S.writes j))⟩) := by
    unfold jSave
    rw [Eff.exec_bind, Eff.exec_get]
    simp only [Eff.exec_bind, Eff.exec_set, Eff.exec_pure]
  refine ⟨_, hexec, ?_, ?_, ?_, ?_⟩
  · intro k hk
    unfold owned at hk
    rw [List.mem_cons, not_or] at hk
    rw [lookup_saveArray hk.1, lookup_writeFields_of_notMem S.layout v hk.2]
  · intro w hmem
    have hne : w.key ≠ S.key := by
      intro he
      apply hkey
      rw [← he]
      exact List.mem_map.mpr ⟨w, hmem, rfl⟩
    rw [lookup_saveArray hne]
    exact lookup_writeFields_of_mem S.layout v hd hmem j
  · intro hne
    rw [← Object.getArray_congr hw] at hne
    obtain ⟨vs, hvs⟩ := Option.ne_none_iff_exists'.mp hne
    rw [saveArray_of_getArray hvs]
    exact Object.getArray_set_ptr _ _ _
  · intro hg
    rw [← Object.getArray_congr hw] at hg
    cases hh : Object.has (writeFields S.layout v S.writes j) S.key with
    | true =>
      rw [saveArray_of_has hh hg]
      exact .inl hw
    | false =>
      have hl := Object.lookup_eq_none_of_has hh
      rw [saveArray_of_absent hh]
      refine .inr ⟨hw ▸ hl, ?_⟩
      rw [Object.lookup_set, if_pos rfl]

end ListSaver

/-! ### The round trip -/

namespace ListConfig

variable [DecidableEq ψ]

/-- `Load` of the document, the members replaced by `v`, and `JSave`. -/
def saved (C : ListConfig F ρ tyF) (f : F) (j : Object) (v : F) : ComConfig F :=
  (C.jSave.exec { (C.load.exec ⟨f, some j⟩).2 with fields := v }).2

/-- The law of the round trip: the saved document is printed and parsed, `Load` finds in it
members that pass `back`, and the keys of others are as they were. The two runs of `Load`
may find different memory, hence the two tables of the class. -/
def RoundTrips (P : Poco) (C C' : ListConfig F ρ tyF) (back : F → Prop) (f f' v : F)
    (j : Object) : Prop :=
  ∃ doc doc', (C.saved f j v).jConf = some doc ∧
    P.parse (P.stringify (.object .ptr doc)) = .ok (.object .ptr doc') ∧
    back (C'.load.exec ⟨f', some doc'⟩).2.fields ∧
    ∀ k, k ∉ C.owned → doc.lookup k = j.lookup k ∧
      doc'.lookup k = (j.lookup k).map Var.reparse

/-- What a class must satisfy: its key is its own, its tables undo one another, a record
saved is a record read, and the list is a member that no table touches. -/
structure Faithful (C : ListConfig F ρ tyF) : Prop where
  key : C.key ∉ C.writes.map (·.key)
  inverse : Inverse C.reads C.writes
  exact : ∀ i r x, ∃ e', (C.body i (C.encode x).reparse).exec r = (.ok (true, e'), x)
  list_push : ∀ rs r, C.list (C.push rs r) = rs
  push_list : ∀ r, C.push (C.list r) r = r
  get_push : ∀ s ∈ C.reads, ∀ rs r, C.layout.get (C.push rs r) s.field = C.layout.get r s.field
  list_overlay : ∀ g r, (∀ p, (∀ s ∈ C.reads, s.field ≠ p) → g p = none) →
    C.list (C.layout.overlay g r) = C.list r
  list_clear : ∀ r, C.list (C.clear r) = []

variable {C C' : ListConfig F ρ tyF}

/-- `Load` once the members have been read: the loop over the list. -/
theorem load_fields_of_given {o : Object} {g : Given tyF} (h : given o C.reads = .ok g) (f : F) :
    (C.load.exec ⟨f, some o⟩).2.fields =
      ((loadArray C.key C.body C.record C.push).exec
        ⟨C.layout.overlay g (C.clear f), some o⟩).2.fields := by
  unfold load
  rw [Eff.exec_bind, Eff.exec_get]
  simp only [Eff.exec_bind, Eff.exec_set, exec_onFields, exec_readFields_of_given C.layout h]
  rcases (loadArray C.key C.body C.record C.push).exec
    ⟨C.layout.overlay g (C.clear f), some o⟩ with ⟨res, s'⟩
  cases res <;> rfl

/-- `Load` of a document under whose keys the members of `v` stand. -/
private theorem load_fields (hC : C.Faithful) {v f : F} {o : Object}
    (hw : ∀ w ∈ C.writes, o.lookup w.key = some (w.toVar (C.layout.get v w.field)).reparse) :
    (∀ s ∈ C.reads, C.layout.get (C.load.exec ⟨f, some o⟩).2.fields s.field =
        C.layout.get v s.field) ∧
      C.list (C.load.exec ⟨f, some o⟩).2.fields = C.listIn o := by
  have hreads : ∀ s ∈ C.reads, (Object.get o s.key) ≠ .empty ∧
      s.conv (Object.get o s.key) = .ok (C.layout.get v s.field) := by
    intro s hs
    obtain ⟨toVar, hmem, hx⟩ := hC.inverse.written s hs
    have hget : Object.get o s.key = (toVar (C.layout.get v s.field)).reparse := by
      unfold Object.get
      rw [hw _ hmem]
      rfl
    rw [hget]
    exact hx _
  obtain ⟨g, hg, hall, hnone⟩ := given_of_forall C.layout hreads
  have hbase : ∀ s ∈ C.reads, C.layout.get (C.layout.overlay g (C.clear f)) s.field =
      C.layout.get v s.field := by
    intro s hs
    rw [C.layout.get_overlay, hall s hs, Option.getD_some]
  have hlist : C.list (C.layout.overlay g (C.clear f)) = [] := by
    rw [hC.list_overlay g _ hnone, hC.list_clear]
  have hpushed : ∀ rs, (∀ s ∈ C.reads, C.layout.get
      (C.push rs (C.layout.overlay g (C.clear f))) s.field = C.layout.get v s.field) ∧
      C.list (C.push rs (C.layout.overlay g (C.clear f))) = rs := by
    intro rs
    refine ⟨?_, hC.list_push _ _⟩
    intro s hs
    rw [hC.get_push s hs, hbase s hs]
  rw [load_fields_of_given hg]
  unfold listIn
  cases hga : Object.getArray o C.key with
  | some vs =>
    rw [exec_loadArray_of_getArray hga]
    exact hpushed _
  | none =>
    cases hh : Object.has o C.key with
    | true =>
      rw [exec_loadArray_of_has hh hga]
      exact ⟨hbase, hlist⟩
    | false =>
      rw [exec_loadArray_of_absent hh]
      exact hpushed []

/-- The round trip up to the class: what comes back has the members of `v` that `Load`
reads, and the list of `v` where the document held a list; else the records found there. -/
theorem roundTrips_iff {P : Poco} (hC' : C'.Faithful)
    (hsaver : C'.toListSaver = C.toListSaver) {f v : F} (f' : F) {j : Object}
    (hP : ∀ o ∈ (C.saved f j v).jConf, P.ReadsBack o) :
    ∃ r, (∀ s ∈ C'.reads, C'.layout.get r s.field = C'.layout.get v s.field) ∧
      C'.list r = (if Object.getArray j C'.key = none then C'.unreached j else C'.list v) ∧
      ∀ back, RoundTrips P C C' back f f' v j ↔ back r := by
  obtain ⟨j', hj', hk⟩ := load_kept C f j
  have hload : ({ (C.load.exec ⟨f, some j⟩).2 with fields := v } : ComConfig F) =
      ⟨v, some j'⟩ := by
    rw [← hj']
  have hkey : C.key ∉ C.writes.map (·.key) := by
    rw [← hsaver]
    exact hC'.key
  have hd : (C.writes.map (·.key)).Nodup := by
    rw [← hsaver]
    exact hC'.inverse.distinct
  obtain ⟨doc, hdoc, hother, hmem, hheld, hmissing⟩ := C.jSave_spec hkey hd v j'
  have hsaved : (C.saved f j v).jConf = some doc := by
    unfold saved
    rw [hload, hdoc]
  have hback := hP doc hsaved
  have hfields : ∀ w ∈ C'.writes, (Object.reparse doc).lookup w.key =
      some (w.toVar (C'.layout.get v w.field)).reparse := by
    rw [hsaver]
    intro w hw
    rw [Object.lookup_reparse, hmem w hw]
    rfl
  obtain ⟨hreads, hlist⟩ := load_fields hC' (f := f') hfields
  refine ⟨_, hreads, ?_, ?_⟩
  · rw [hlist]
    have hkeys : C'.key = C.key := by rw [hsaver]
    cases hg : Object.getArray j C'.key with
    | none =>
      rw [if_pos rfl]
      rw [hkeys] at hg
      obtain ⟨hg', hu⟩ := hk.missing hg
      apply listIn_of_untouched
      rw [hkeys]
      exact hu.trans (hmissing hg')
    | some vs =>
      rw [if_neg (Option.some_ne_none vs)]
      have hne : Object.getArray j C.key ≠ none := by
        rw [← hkeys, hg]
        exact Option.some_ne_none vs
      have hl := Object.getArray_reparse (hheld (hk.list hne))
      have henc : (C.list v).map C.encode = (C'.list v).map C'.encode := by rw [hsaver]
      unfold listIn
      rw [hkeys, hl, henc, List.map_map]
      exact decodeList_out_of_exact hC'.exact (C'.list v) 0 C'.record
  · intro back
    constructor
    · rintro ⟨d, d', hd₁, hd₂, hb, -⟩
      rw [hsaved] at hd₁
      cases hd₁
      rw [hback] at hd₂
      cases hd₂
      exact hb
    · intro hb
      refine ⟨doc, Object.reparse doc, hsaved, hback, hb, ?_⟩
      intro k hko
      have hne : k ≠ C.key := by
        intro he
        exact hko (he ▸ List.mem_cons_self ..)
      have hdoc' : doc.lookup k = j.lookup k := by
        rw [hother k hko, hk.other k hne]
      refine ⟨hdoc', ?_⟩
      rw [Object.lookup_reparse, hdoc']

/-- The exact condition of the round trip, for a comparison `back` that comes down to the
list once the other members agree. -/
theorem roundTrips_iff_list {P : Poco} (C C' : ListConfig F ρ tyF) (hC' : C'.Faithful)
    (hsaver : C'.toListSaver = C.toListSaver) {f f' v : F} {j : Object}
    (hP : ∀ o ∈ (C.saved f j v).jConf, P.ReadsBack o) {back : F → Prop}
    (hback : ∀ r, (∀ s ∈ C'.reads, C'.layout.get r s.field = C'.layout.get v s.field) →
      (back r ↔ C'.list r = C'.list v)) :
    RoundTrips P C C' back f f' v j ↔
      Object.getArray j C'.key ≠ none ∨ C'.unreached j = C'.list v := by
  obtain ⟨r, hr, hl, hb⟩ := roundTrips_iff hC' hsaver f' hP
  rw [hb, hback r hr, hl]
  by_cases hg : Object.getArray j C'.key = none
  · simp only [hg, ↓reduceIte, ne_eq, not_true_eq_false, false_or]
  · simp only [hg, ↓reduceIte, ne_eq, not_false_eq_true, true_or]

end ListConfig

/-! ### The classes -/

section Classes

variable (P : Poco)

/-- A `COMStr` written is read back. -/
private theorem str_back (x : COMStr) :
    (Var.str x).reparse ≠ .empty ∧ P.convertStr (Var.str x).reparse = .ok x :=
  ⟨fun h ↦ (nomatch h), rfl⟩

/-- An `int` written is read back. -/
private theorem int_back (x : Int32) :
    (Var.int x.toInt).reparse ≠ .empty ∧ P.convertInt (Var.int x.toInt).reparse = .ok x :=
  ⟨fun h ↦ (nomatch h), P.convertInt_toInt x⟩

/-- A `uint` written is read back. -/
private theorem uint_back (x : UInt32) :
    (Var.int x.toNat).reparse ≠ .empty ∧ P.convertUInt (Var.int x.toNat).reparse = .ok x :=
  ⟨fun h ↦ (nomatch h), P.convertUInt_toNat x⟩

/-- A `bool` written is read back. -/
private theorem bool_back (x : Bool) :
    (Var.bool x).reparse ≠ .empty ∧ Poco.convertBool (Var.bool x).reparse = .ok x :=
  ⟨fun h ↦ (nomatch h), rfl⟩

variable {φ : Type} [DecidableEq φ] {ty : φ → Type} {ρ : Type}

/-- A record written and pushed is the record read back, when every member is read. -/
theorem exec_pushRecord_addRecord (L : Layout ρ ty) {reads : List (Jget ty)}
    {writes : List (Jset ty)} (hi : Inverse reads writes) (hall : ∀ f, ∃ s ∈ reads, s.field = f)
    (i : Nat) (r x : ρ) :
    ∃ e', (pushRecord L reads i (addRecord L writes x).reparse).exec r = (.ok (true, e'), x) := by
  obtain ⟨g, hg, hgiven, -⟩ := given_reparse_writeFields L hi x []
  have htotal : ∀ f, g f = some (L.get x f) := by
    intro f
    obtain ⟨s, hs, rfl⟩ := hall f
    exact hgiven s hs
  have hrun := exec_readFields_of_given L hg r
  rw [L.overlay_of_total htotal] at hrun
  refine ⟨(addRecord L writes x).reparse, ?_⟩
  unfold pushRecord
  exact Eff.exec_bind_of_ok hrun

/-- The keys `ManagerConfig_T` reads and writes for a child. -/
theorem ProcessConfig.inverse : Inverse (ProcessConfig.reads P) ProcessConfig.writes where
  distinct := by decide
  written := by
    simp only [ProcessConfig.reads, List.forall_mem_cons]
    refine ⟨⟨.str, ?_, str_back P⟩, ⟨.str, ?_, str_back P⟩, ⟨_, ?_, int_back P⟩,
      ⟨_, ?_, uint_back P⟩, ⟨.bool, ?_, bool_back⟩, ⟨_, ?_, uint_back P⟩, ?_⟩ <;>
      simp [ProcessConfig.writes]

/-- The keys `CollectorConfig_T` reads and writes for an alarm. -/
theorem AlarmConfig.inverse : Inverse (AlarmConfig.reads P) AlarmConfig.writes where
  distinct := by decide
  written := by
    simp only [AlarmConfig.reads, List.forall_mem_cons]
    refine ⟨⟨.str, ?_, str_back P⟩, ⟨.str, ?_, str_back P⟩, ⟨_, ?_, int_back P⟩,
      ⟨_, ?_, int_back P⟩, ⟨_, ?_, int_back P⟩, ⟨.str, ?_, str_back P⟩, ?_⟩ <;>
      simp [AlarmConfig.writes]

/-- The keys `CollectorConfig_T` reads with `JGET` and writes for a device. -/
theorem DeviceConfig.inverse : Inverse (DeviceConfig.reads P) DeviceConfig.writes where
  distinct := by decide
  written := by
    simp only [DeviceConfig.reads, List.forall_mem_cons]
    refine ⟨⟨.str, ?_, str_back P⟩, ⟨.str, ?_, str_back P⟩, ⟨.str, ?_, str_back P⟩,
      ⟨_, ?_, uint_back P⟩, ?_⟩ <;>
      simp [DeviceConfig.writes]

/-- The keys `SensorGroup_T` reads and writes for a sensor. -/
theorem SensorAlarmConfig.inverse :
    Inverse (SensorAlarmConfig.reads P) SensorAlarmConfig.writes where
  distinct := by decide
  written := by
    simp only [SensorAlarmConfig.reads, List.forall_mem_cons]
    refine ⟨⟨.str, ?_, str_back P⟩, ⟨.str, ?_, str_back P⟩, ⟨_, ?_, int_back P⟩,
      ⟨_, ?_, int_back P⟩, ⟨_, ?_, int_back P⟩, ⟨.str, ?_, str_back P⟩,
      ⟨.str, ?_, str_back P⟩, ?_⟩ <;>
      simp [SensorAlarmConfig.writes]

/-- The keys `defaultRelayState_T` reads and writes for a relay. -/
theorem DefaultRelayState.inverse :
    Inverse (DefaultRelayState.reads P) DefaultRelayState.writes where
  distinct := by decide
  written := by
    simp only [DefaultRelayState.reads, List.forall_mem_cons]
    refine ⟨⟨.str, ?_, str_back P⟩, ⟨.str, ?_, str_back P⟩, ⟨_, ?_, int_back P⟩,
      ⟨_, ?_, int_back P⟩, ⟨_, ?_, int_back P⟩, ?_⟩ <;>
      simp [DefaultRelayState.writes]

/-- The alarms of a device are read back as written. -/
private theorem readAlarms_addRecord (memory : Nat → AlarmConfig) (as : List AlarmConfig) :
    ∀ j, DeviceConfig.readAlarms P memory j
      (as.map fun a ↦ (addRecord AlarmConfig.layout AlarmConfig.writes a).reparse) = .ok as := by
  induction as with
  | nil => intro j; rfl
  | cons a as ih =>
    intro j
    obtain ⟨g, hg, hgiven, -⟩ :=
      given_reparse_writeFields AlarmConfig.layout (AlarmConfig.inverse P) a []
    have htotal : ∀ f, g f = some (AlarmConfig.layout.get a f) := by
      intro f
      have hs : ∃ s ∈ AlarmConfig.reads P, s.field = f := by
        cases f <;> simp [AlarmConfig.reads]
      obtain ⟨s, hs, rfl⟩ := hs
      exact hgiven s hs
    have hrun := exec_readFields_of_given AlarmConfig.layout hg
      (declared AlarmConfig.layout AlarmConfig.initialisers (memory j))
    rw [AlarmConfig.layout.overlay_of_total htotal] at hrun
    have hobj : (addRecord AlarmConfig.layout AlarmConfig.writes a).reparse.getObject =
        some (Object.reparse (writeFields AlarmConfig.layout a AlarmConfig.writes [])) := rfl
    rw [List.map_cons, DeviceConfig.readAlarms, hobj]
    simp only [hrun, ih]
    rfl

/-- A device written and pushed is the device read back. -/
private theorem exec_body_addRecord (memory : Nat → Nat → AlarmConfig) (i : Nat)
    (r x : DeviceConfig) :
    ∃ e', (DeviceConfig.body P memory i
      (addRecord DeviceConfig.layout DeviceConfig.writes x).reparse).exec r =
        (.ok (true, e'), x) := by
  obtain ⟨g, hg, hgiven, -⟩ :=
    given_reparse_writeFields DeviceConfig.layout (DeviceConfig.inverse P) x []
  have hrun := exec_readFields_of_given DeviceConfig.layout hg r
  have hl := lookup_writeFields_of_mem DeviceConfig.layout x (DeviceConfig.inverse P).distinct
    (s := ⟨"alarms", .alarms, fun as ↦
      .array .value (as.map (addRecord AlarmConfig.layout AlarmConfig.writes))⟩)
    (by simp [DeviceConfig.writes]) []
  have harr : Object.getArray (Object.reparse
      (writeFields DeviceConfig.layout x DeviceConfig.writes [])) "alarms" =
      some (x.alarms.map fun a ↦ (addRecord AlarmConfig.layout AlarmConfig.writes a).reparse) := by
    unfold Object.getArray
    rw [Object.lookup_reparse, hl]
    simp only [Option.map_some, Var.reparse, reparseVals_eq_map, List.map_map]
    rfl
  have hobj : (addRecord DeviceConfig.layout DeviceConfig.writes x).reparse.getObject =
      some (Object.reparse (writeFields DeviceConfig.layout x DeviceConfig.writes [])) := rfl
  have hx : ({ DeviceConfig.layout.overlay g r with alarms := x.alarms } : DeviceConfig) = x := by
    apply DeviceConfig.layout.ext
    have hs : ∀ s ∈ DeviceConfig.reads P, DeviceConfig.layout.get
        (DeviceConfig.layout.overlay g r) s.field = DeviceConfig.layout.get x s.field := by
      intro s hs
      rw [DeviceConfig.layout.get_overlay, hgiven s hs, Option.getD_some]
    simp only [DeviceConfig.reads, List.forall_mem_cons] at hs
    obtain ⟨htype, hsub, hprot, hint, -⟩ := hs
    intro f
    cases f with
    | deviceType => exact htype
    | subID => exact hsub
    | protocol => exact hprot
    | interval => exact hint
    | alarms => rfl
  refine ⟨.object .ptr (Object.reparse
    (writeFields DeviceConfig.layout x DeviceConfig.writes [])), ?_⟩
  unfold DeviceConfig.body
  rw [hobj, Eff.exec_bind_of_ok hrun]
  simp only [deref, Eff.exec_ofExcept, JGET_ARR_of_getArray harr, ArrayPtr.vals,
    readAlarms_addRecord, Eff.exec_bind, Eff.exec_modify, Eff.exec_pure]
  exact congrArg (Prod.mk _) hx

/-- The shared `Load` and `JSave` fit `ManagerConfig_T`. -/
theorem ManagerConfig_T.faithful (memory : ProcessConfig) :
    (ManagerConfig_T.table P memory).Faithful where
  key := show ManagerConfig_T.saver.key ∉ ManagerConfig_T.saver.writes.map (·.key) by decide
  inverse :=
    { distinct := show (ManagerConfig_T.saver.writes.map (·.key)).Nodup by decide
      written := by
        simp only [ManagerConfig_T.table, ManagerConfig_T.reads, List.forall_mem_cons]
        refine ⟨⟨.str, ?_, str_back P⟩, ⟨.str, ?_, str_back P⟩, ⟨_, ?_, uint_back P⟩,
          ⟨_, ?_, uint_back P⟩, ⟨_, ?_, uint_back P⟩, ?_⟩ <;>
          simp [ManagerConfig_T.saver, ManagerConfig_T.writes] }
  exact := by
    apply exec_pushRecord_addRecord ProcessConfig.layout (ProcessConfig.inverse P)
    intro f
    cases f <;> simp [ProcessConfig.reads]
  list_push _ _ := rfl
  push_list _ := rfl
  get_push := by
    simp only [ManagerConfig_T.table, ManagerConfig_T.reads, List.forall_mem_cons]
    exact ⟨fun _ _ ↦ rfl, fun _ _ ↦ rfl, fun _ _ ↦ rfl, fun _ _ ↦ rfl, fun _ _ ↦ rfl, nofun⟩
  list_overlay := by
    intro g r hg
    have hc : g .children = none := by
      apply hg
      simp [ManagerConfig_T.table, ManagerConfig_T.reads]
    change ManagerConfig_T.layout.get (ManagerConfig_T.layout.overlay g r) .children = r.children
    rw [ManagerConfig_T.layout.get_overlay, hc]
    rfl
  list_clear _ := rfl

/-- The shared `Load` and `JSave` fit `CollectorConfig_T`. -/
theorem CollectorConfig_T.faithful (memory : Nat → Nat → AlarmConfig) (dev : DeviceConfig) :
    (CollectorConfig_T.table P memory dev).Faithful where
  key := show CollectorConfig_T.saver.key ∉ CollectorConfig_T.saver.writes.map (·.key) by decide
  inverse :=
    { distinct := show (CollectorConfig_T.saver.writes.map (·.key)).Nodup by decide
      written := by
        simp only [CollectorConfig_T.table, CollectorConfig_T.reads, List.forall_mem_cons]
        refine ⟨⟨_, ?_, uint_back P⟩, ?_⟩ <;>
          simp [CollectorConfig_T.saver, CollectorConfig_T.writes] }
  exact := exec_body_addRecord P memory
  list_push _ _ := rfl
  push_list _ := rfl
  get_push := by
    simp only [CollectorConfig_T.table, CollectorConfig_T.reads, List.forall_mem_cons]
    exact ⟨fun _ _ ↦ rfl, nofun⟩
  list_overlay := by
    intro g r hg
    have hc : g .devices = none := by
      apply hg
      simp [CollectorConfig_T.table, CollectorConfig_T.reads]
    change CollectorConfig_T.layout.get (CollectorConfig_T.layout.overlay g r) .devices =
      r.devices
    rw [CollectorConfig_T.layout.get_overlay, hc]
    rfl
  list_clear _ := rfl

/-- The shared `Load` and `JSave` fit `SensorGroup_T`. -/
theorem SensorGroup_T.faithful (memory : SensorAlarmConfig) :
    (SensorGroup_T.table P memory).Faithful where
  key := show SensorGroup_T.saver.key ∉ SensorGroup_T.saver.writes.map (·.key) by decide
  inverse := { distinct := List.nodup_nil, written := nofun }
  exact := by
    apply exec_pushRecord_addRecord SensorAlarmConfig.layout (SensorAlarmConfig.inverse P)
    intro f
    cases f <;> simp [SensorAlarmConfig.reads]
  list_push _ _ := rfl
  push_list _ := rfl
  get_push := nofun
  list_overlay := by
    intro g r hg
    have hc : g () = none := hg () nofun
    change SensorGroup_T.layout.get (SensorGroup_T.layout.overlay g r) () = r.sensorAlarm
    rw [SensorGroup_T.layout.get_overlay, hc]
    rfl
  list_clear _ := rfl

/-- The shared `Load` and `JSave` fit `defaultRelayState_T`. -/
theorem DefaultRelayState_T.faithful (memory : DefaultRelayState) :
    (DefaultRelayState_T.table P memory).Faithful where
  key := show DefaultRelayState_T.saver.key ∉ DefaultRelayState_T.saver.writes.map (·.key) by decide
  inverse := { distinct := List.nodup_nil, written := nofun }
  exact := by
    apply exec_pushRecord_addRecord DefaultRelayState.layout (DefaultRelayState.inverse P)
    intro f
    cases f <;> simp [DefaultRelayState.reads]
  list_push _ _ := rfl
  push_list _ := rfl
  get_push := nofun
  list_overlay := by
    intro g r hg
    have hc : g .dFRelay = none := hg .dFRelay nofun
    change DefaultRelayState_T.layout.get (DefaultRelayState_T.layout.overlay g r) .dFRelay =
      r.dFRelay
    rw [DefaultRelayState_T.layout.get_overlay, hc]
    rfl
  list_clear _ := rfl

/-- The round trip of the Manager's configuration. -/
theorem ManagerConfig_T.roundTrips_iff (m m' : ProcessConfig) (f f' v : ManagerConfig_T)
    (j : Object) (hP : ∀ o ∈ ((ManagerConfig_T.table P m).saved f j v).jConf, P.ReadsBack o) :
    ListConfig.RoundTrips P (ManagerConfig_T.table P m) (ManagerConfig_T.table P m') (· = v)
        f f' v j ↔
      Object.getArray j "Children" ≠ none ∨
        (ManagerConfig_T.table P m').unreached j = v.children := by
  apply ListConfig.roundTrips_iff_list (ManagerConfig_T.table P m) (ManagerConfig_T.table P m')
    (ManagerConfig_T.faithful P m') rfl hP
  intro r hr
  constructor
  · intro h
    rw [h]
  · intro hl
    simp only [ManagerConfig_T.table, ManagerConfig_T.reads, List.forall_mem_cons] at hr
    obtain ⟨hhost, hver, hport, hwd, hrep, -⟩ := hr
    apply ManagerConfig_T.layout.ext
    intro p
    cases p with
    | host => exact hhost
    | softVer => exact hver
    | port => exact hport
    | watchdogInterval => exact hwd
    | sysReportInterval => exact hrep
    | children => exact hl

/-- The round trip of the Collector's configuration. -/
theorem CollectorConfig_T.roundTrips_iff (m m' : Nat → Nat → AlarmConfig) (d d' : DeviceConfig)
    (f f' v : CollectorConfig_T) (j : Object)
    (hP : ∀ o ∈ ((CollectorConfig_T.table P m d).saved f j v).jConf, P.ReadsBack o) :
    ListConfig.RoundTrips P (CollectorConfig_T.table P m d) (CollectorConfig_T.table P m' d')
        (· = v) f f' v j ↔
      Object.getArray j "devices" ≠ none ∨
        (CollectorConfig_T.table P m' d').unreached j = v.devices := by
  apply ListConfig.roundTrips_iff_list (CollectorConfig_T.table P m d)
    (CollectorConfig_T.table P m' d') (CollectorConfig_T.faithful P m' d') rfl hP
  intro r hr
  constructor
  · intro h
    rw [h]
  · intro hl
    simp only [CollectorConfig_T.table, CollectorConfig_T.reads, List.forall_mem_cons] at hr
    apply CollectorConfig_T.layout.ext
    intro p
    cases p with
    | dataReportInterval => exact hr.1
    | devices => exact hl

/-- The round trip of the sensors. -/
theorem SensorGroup_T.roundTrips_iff (m m' : SensorAlarmConfig) (f f' v : SensorGroup_T)
    (j : Object) (hP : ∀ o ∈ ((SensorGroup_T.table P m).saved f j v).jConf, P.ReadsBack o) :
    ListConfig.RoundTrips P (SensorGroup_T.table P m) (SensorGroup_T.table P m') (· = v)
        f f' v j ↔
      Object.getArray j "Sensors" ≠ none ∨
        (SensorGroup_T.table P m').unreached j = v.sensorAlarm := by
  apply ListConfig.roundTrips_iff_list (SensorGroup_T.table P m) (SensorGroup_T.table P m')
    (SensorGroup_T.faithful P m') rfl hP
  intro r _
  constructor
  · intro h
    rw [h]
  · intro hl
    apply SensorGroup_T.layout.ext
    intro _
    exact hl

/-- The round trip of the relay list. -/
theorem DefaultRelayState_T.roundTrips_iff (m m' : DefaultRelayState)
    (f f' v : DefaultRelayState_T) (j : Object)
    (hP : ∀ o ∈ ((DefaultRelayState_T.table P m).saved f j v).jConf, P.ReadsBack o) :
    ListConfig.RoundTrips P (DefaultRelayState_T.table P m) (DefaultRelayState_T.table P m')
        (·.dFRelay = v.dFRelay) f f' v j ↔
      Object.getArray j "Relays" ≠ none ∨
        (DefaultRelayState_T.table P m').unreached j = v.dFRelay := by
  apply ListConfig.roundTrips_iff_list (DefaultRelayState_T.table P m)
    (DefaultRelayState_T.table P m') (DefaultRelayState_T.faithful P m') rfl hP
  intro r _
  exact Iff.rfl

/-- Each class gives back what was saved, and leaves the keys it does not own, exactly when
the document holds the list under its key, or the list saved is the one the unwritten key
reads back as. -/
theorem config_roundTrips_iff :
    (∀ m m' f f' v j,
      (∀ o ∈ ((ManagerConfig_T.table P m).saved f j v).jConf, P.ReadsBack o) →
      (ListConfig.RoundTrips P (ManagerConfig_T.table P m) (ManagerConfig_T.table P m')
          (· = v) f f' v j ↔
        Object.getArray j "Children" ≠ none ∨
          (ManagerConfig_T.table P m').unreached j = v.children)) ∧
    (∀ m m' d d' f f' v j,
      (∀ o ∈ ((CollectorConfig_T.table P m d).saved f j v).jConf, P.ReadsBack o) →
      (ListConfig.RoundTrips P (CollectorConfig_T.table P m d)
          (CollectorConfig_T.table P m' d') (· = v) f f' v j ↔
        Object.getArray j "devices" ≠ none ∨
          (CollectorConfig_T.table P m' d').unreached j = v.devices)) ∧
    (∀ m m' f f' v j,
      (∀ o ∈ ((SensorGroup_T.table P m).saved f j v).jConf, P.ReadsBack o) →
      (ListConfig.RoundTrips P (SensorGroup_T.table P m) (SensorGroup_T.table P m')
          (· = v) f f' v j ↔
        Object.getArray j "Sensors" ≠ none ∨
          (SensorGroup_T.table P m').unreached j = v.sensorAlarm)) ∧
    (∀ m m' f f' v j,
      (∀ o ∈ ((DefaultRelayState_T.table P m).saved f j v).jConf, P.ReadsBack o) →
      (ListConfig.RoundTrips P (DefaultRelayState_T.table P m) (DefaultRelayState_T.table P m')
          (·.dFRelay = v.dFRelay) f f' v j ↔
        Object.getArray j "Relays" ≠ none ∨
          (DefaultRelayState_T.table P m').unreached j = v.dFRelay)) := by
  refine ⟨?_, ?_, ?_, ?_⟩
  · exact ManagerConfig_T.roundTrips_iff P
  · exact CollectorConfig_T.roundTrips_iff P
  · exact SensorGroup_T.roundTrips_iff P
  · exact DefaultRelayState_T.roundTrips_iff P

end Classes

/-! ### At a document -/

/-- The child process that connects to the cloud. -/
def mqttChild : ProcessConfig :=
  { proto := "MQTT", command := "it5-mqtt", isRespawn := true, maxSpawnTimes := 3,
    priority := 100, respawnDelay := 30 }

/-- A Manager's configuration with that child. -/
def mqttManager : ManagerConfig_T :=
  { host := "127.0.0.1", softVer := "01.01.01", port := 6789, watchdogInterval := 60,
    sysReportInterval := 60, children := [mqttChild] }

/-- The document that configuration is saved to, with what stands under the list's key. -/
def mqttDocument (children : Var) : Object :=
  [("Children", children), ("Host", .str "127.0.0.1"), ("SoftVer", .str "01.01.01"),
    ("Port", .int 6789), ("WatchdogInterval", .int 60), ("SysReportInterval", .int 60)]

/-- Neither document repeats a key. -/
private theorem regular_mqttDocument {children : Var} (h : children.Regular) :
    (Var.object .ptr (mqttDocument children)).Regular := by
  simp [mqttDocument, Var.Regular, RegularFields, h]

/-- A document with an empty list under the key takes the child. -/
theorem config_roundTrips_iff_mqttManager :
    ListConfig.RoundTrips Poco.json (ManagerConfig_T.table Poco.json mqttChild)
      (ManagerConfig_T.table Poco.json mqttChild) (· = mqttManager) mqttManager mqttManager
      mqttManager [("Children", .array .ptr [])] := by
  apply ((config_roundTrips_iff Poco.json).1 mqttChild mqttChild mqttManager mqttManager
    mqttManager [("Children", .array .ptr [])] ?_).mpr
  · left
    decide
  · intro o ho
    cases ho
    have hchildren : (Var.array .ptr
        [addRecord ProcessConfig.layout ProcessConfig.writes mqttChild]).Regular := by
      simp [Var.Regular, RegularVals, RegularFields, addRecord, writeFields,
        ProcessConfig.writes, Object.set]
    exact Poco.json_readsBack (regular_mqttDocument hchildren)

/-- The empty document does not: its list stays empty. -/
theorem not_roundTrips_mqttManager :
    (∀ o ∈ ((ManagerConfig_T.table Poco.json mqttChild).saved mqttManager [] mqttManager).jConf,
      Poco.json.ReadsBack o) ∧
    ¬ ListConfig.RoundTrips Poco.json (ManagerConfig_T.table Poco.json mqttChild)
      (ManagerConfig_T.table Poco.json mqttChild) (· = mqttManager) mqttManager mqttManager
      mqttManager [] := by
  have hP : ∀ o ∈ ((ManagerConfig_T.table Poco.json mqttChild).saved mqttManager []
      mqttManager).jConf, Poco.json.ReadsBack o := by
    intro o ho
    cases ho
    have hchildren : (Var.array .value []).Regular := trivial
    exact Poco.json_readsBack (regular_mqttDocument hchildren)
  refine ⟨hP, ?_⟩
  rw [ManagerConfig_T.roundTrips_iff Poco.json mqttChild mqttChild mqttManager mqttManager
    mqttManager [] hP]
  have hnone : Object.getArray [] "Children" = none := rfl
  have hempty : (ManagerConfig_T.table Poco.json mqttChild).unreached [] = [] := rfl
  rw [hnone, hempty]
  simp [mqttManager]

end IcsGateway
