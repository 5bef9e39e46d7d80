import IcsGateway.Lib.Transition
import Mathlib.Data.List.Dedup
import Mathlib.Logic.Relation

/-!
# Items that pass through stages

A system makes items one after another, and each passes from stage to stage. A ledger is the
list of the stages the items are in, by their numbers. A system that keeps items in queues, one
for each stage, shows a ledger when every queue has the numbers of the items in its stage, each
once: then no item is in two queues or twice in one, and none is missing.
-/

namespace IcsGateway.Lib.Ledger

variable {S : Type}

/-! ### The life of an item -/

/-- An item is made, or one passes to a next stage. -/
inductive Step (start : S) (next : S → S → Prop) : List S → List S → Prop where
  | make (l : List S) : Step start next l (l ++ [start])
  | pass {l : List S} {n : Nat} {a b : S} (h : l[n]? = some a) (hnext : next a b) :
      Step start next l (l.set n b)

/-- Some steps. -/
abbrev Reaches (start : S) (next : S → S → Prop) : List S → List S → Prop :=
  Relation.ReflTransGen (Step start next)

section Life

variable {start : S} {next : S → S → Prop}

/-- A step takes an item at most one stage further. -/
theorem Step.stage {l l' : List S} (h : Step start next l l') {n : Nat} {a : S}
    (ha : l[n]? = some a) : ∃ b, l'[n]? = some b ∧ (b = a ∨ next a b) := by
  cases h with
  | make =>
    obtain ⟨hn, -⟩ := List.getElem?_eq_some_iff.mp ha
    refine ⟨a, ?_, .inl rfl⟩
    rw [List.getElem?_append_left hn]
    exact ha
  | @pass m a' b hm hnext =>
    by_cases hmn : m = n
    · subst hmn
      cases hm.symm.trans ha
      obtain ⟨hn, -⟩ := List.getElem?_eq_some_iff.mp ha
      exact ⟨b, List.getElem?_set_self hn, .inr hnext⟩
    · exact ⟨a, (List.getElem?_set_ne hmn).trans ha, .inl rfl⟩

/-- Items pass along the stages. -/
theorem Reaches.stage {l l' : List S} (h : Reaches start next l l') {n : Nat} {a : S}
    (ha : l[n]? = some a) : ∃ b, l'[n]? = some b ∧ Relation.ReflTransGen next a b := by
  induction h with
  | refl => exact ⟨a, ha, .refl⟩
  | tail _ hstep ih =>
    obtain ⟨b, hb, hab⟩ := ih
    obtain ⟨c, hc, hbc⟩ := hstep.stage hb
    refine ⟨c, hc, ?_⟩
    rcases hbc with rfl | hbc
    · exact hab
    · exact hab.tail hbc

/-- Items are never unmade. -/
theorem Reaches.length_le {l l' : List S} (h : Reaches start next l l') : l.length ≤ l'.length := by
  induction h with
  | refl => exact Nat.le_refl _
  | tail _ hstep ih =>
    cases hstep with
    | make =>
      rw [List.length_append]
      omega
    | pass =>
      rw [List.length_set]
      exact ih

end Life

/-! ### Queues -/

/-- Queues of numbers, one for each stage, show a ledger. -/
structure Shows (place : S → List Nat) (l : List S) : Prop where
  nodup : ∀ a, (place a).Nodup
  mem_iff : ∀ a n, n ∈ place a ↔ l[n]? = some a

namespace Shows

variable {place place' : S → List Nat} {l : List S}

/-- Nothing has been made and nothing is anywhere. -/
theorem empty (h : ∀ a, place a = []) : Shows place [] := by
  constructor
  · intro a
    rw [h]
    exact List.nodup_nil
  · intro a n
    rw [h]
    simp

/-- An item is in one queue only. -/
theorem stage_eq (h : Shows place l) {n : Nat} {a b : S} (ha : n ∈ place a) (hb : n ∈ place b) :
    a = b := by
  have ha' := (h.mem_iff a n).mp ha
  rw [(h.mem_iff b n).mp hb] at ha'
  exact (Option.some.inj ha').symm

/-- The number of an item has been given. -/
theorem lt_length (h : Shows place l) {n : Nat} {a : S} (ha : n ∈ place a) : n < l.length :=
  (List.getElem?_eq_some_iff.mp ((h.mem_iff a n).mp ha)).1

/-- The queues of all stages hold every number given, once. -/
theorem perm_range (h : Shows place l) {stages : List S} (hnodup : stages.Nodup)
    (hall : ∀ a, a ∈ stages) : (stages.flatMap place).Perm (List.range l.length) := by
  rw [List.perm_ext_iff_of_nodup ?_ List.nodup_range]
  · intro n
    rw [List.mem_flatMap, List.mem_range]
    constructor
    · rintro ⟨a, -, ha⟩
      exact h.lt_length ha
    · intro hn
      exact ⟨l[n], hall _, (h.mem_iff _ n).mpr (List.getElem?_eq_getElem hn)⟩
  · rw [List.nodup_flatMap]
    refine ⟨fun a _ ↦ h.nodup a, hnodup.imp ?_⟩
    intro a b hab n ha hb
    exact hab (h.stage_eq ha hb)

/-- Queues whose numbers only change their order show the same ledger. -/
theorem perm (h : Shows place l) (hperm : ∀ a, (place' a).Perm (place a)) : Shows place' l := by
  constructor
  · intro a
    exact (hperm a).nodup_iff.mpr (h.nodup a)
  · intro a n
    rw [(hperm a).mem_iff, h.mem_iff]

/-- An item is made in the queue of its stage. -/
theorem make (h : Shows place l) {start : S} (hstart : place' start = place start ++ [l.length])
    (hothers : ∀ a, a ≠ start → place' a = place a) : Shows place' (l ++ [start]) := by
  have hnew : l.length ∉ place start := fun hm ↦ Nat.lt_irrefl _ (h.lt_length hm)
  constructor
  · intro a
    by_cases ha : a = start
    · subst ha
      rw [hstart, List.nodup_append]
      refine ⟨h.nodup _, List.nodup_singleton _, ?_⟩
      intro n hn m hm he
      rw [List.mem_singleton.mp hm] at he
      exact hnew (he ▸ hn)
    · rw [hothers a ha]
      exact h.nodup a
  · intro a n
    by_cases hn : n = l.length
    · subst hn
      rw [List.getElem?_append_right (Nat.le_refl _), Nat.sub_self]
      by_cases ha : a = start
      · subst ha
        simp [hstart]
      · rw [hothers a ha]
        simp only [List.getElem?_cons_zero, Option.some.injEq]
        constructor
        · intro hm
          exact absurd (h.lt_length hm) (Nat.lt_irrefl _)
        · intro he
          exact absurd he.symm ha
    · have hlookup : (l ++ [start])[n]? = l[n]? := by
        by_cases hlt : n < l.length
        · exact List.getElem?_append_left hlt
        · have hlen : (l ++ [start]).length ≤ n := by
            rw [List.length_append, List.length_singleton]
            omega
          rw [List.getElem?_eq_none hlen, List.getElem?_eq_none (by omega)]
      rw [hlookup, ← h.mem_iff]
      by_cases ha : a = start
      · subst ha
        simp [hstart, hn]
      · rw [hothers a ha]

/-- An item leaves a queue for another. -/
theorem pass (h : Shows place l) {n : Nat} {a b : S} (hab : a ≠ b)
    (hfrom : (place a).Perm (n :: place' a)) (hto : place' b = place b ++ [n])
    (hothers : ∀ c, c ≠ a → c ≠ b → place' c = place c) : Shows place' (l.set n b) := by
  have hn : n ∈ place a := hfrom.mem_iff.mpr (List.mem_cons_self ..)
  have hlt : n < l.length := h.lt_length hn
  have hnodup : n ∉ place' a ∧ (place' a).Nodup := by
    have := hfrom.nodup_iff.mp (h.nodup a)
    exact List.nodup_cons.mp this
  have hnb : n ∉ place b := fun hb ↦ hab (h.stage_eq hn hb)
  constructor
  · intro c
    by_cases hc : c = a
    · exact hc ▸ hnodup.2
    · by_cases hcb : c = b
      · subst hcb
        rw [hto, List.nodup_append]
        refine ⟨h.nodup _, List.nodup_singleton _, ?_⟩
        intro m hm m' hm' he
        rw [List.mem_singleton.mp hm'] at he
        exact hnb (he ▸ hm)
      · rw [hothers c hc hcb]
        exact h.nodup c
  · intro c m
    by_cases hm : m = n
    · subst hm
      rw [List.getElem?_set_self hlt, Option.some.injEq]
      by_cases hc : c = a
      · subst hc
        simp [hnodup.1, hab.symm]
      · by_cases hcb : c = b
        · subst hcb
          simp [hto]
        · rw [hothers c hc hcb]
          constructor
          · intro hmem
            exact absurd (h.stage_eq hmem hn) hc
          · intro he
            exact absurd he.symm hcb
    · rw [List.getElem?_set_ne (Ne.symm hm), ← h.mem_iff]
      by_cases hc : c = a
      · subst hc
        rw [hfrom.mem_iff, List.mem_cons]
        simp [hm]
      · by_cases hcb : c = b
        · subst hcb
          simp [hto, hm]
        · rw [hothers c hc hcb]

end Shows

/-! ### Systems that keep a ledger -/

/-- A system whose steps pass items along the stages stays in its relation with a ledger, which
its run reaches from the first. -/
theorem exists_run {σ ε : Type} {start : S} {next : S → S → Prop} {step : σ → ε → σ}
    {guard : σ → ε → Prop} {inv : σ → Prop} {rel : σ → List S → Prop}
    (hinv : ∀ s e, guard s e → inv s → inv (step s e))
    (hstep : ∀ s e l, guard s e → inv s → rel s l →
      ∃ l', Reaches start next l l' ∧ rel (step s e) l')
    {s : σ} {l : List S} (es : List ε) (hg : Guarded step guard s es) (hs : inv s)
    (h : rel s l) : ∃ l', Reaches start next l l' ∧ rel (run step s es) l' := by
  induction es generalizing s l with
  | nil => exact ⟨l, .refl, h⟩
  | cons e es ih =>
    obtain ⟨l₁, hl₁, h₁⟩ := hstep s e l hg.1 hs h
    obtain ⟨l₂, hl₂, h₂⟩ := ih hg.2 (hinv s e hg.1 hs) h₁
    exact ⟨l₂, hl₁.trans hl₂, h₂⟩

end IcsGateway.Lib.Ledger
