import Mathlib.Data.List.Infix

/-!
# A stream decoded in chunks

Values are encoded one after the other in a stream. A decoder is given the front of the stream that
has come so far; it takes the values that it finds complete there and says how much of the stream
they make up. What it leaves is kept until the next chunk comes. A value may want to see some of
what follows it before it is taken.
-/

namespace IcsGateway.Lib

variable {ξ β γ : Type}

/-- Chunks come in one after the other, and the decoder takes items from what it has kept and the
new chunk. -/
inductive Feeds (decodes : List β → List γ → Nat → Prop) : List β → List (List β) → List γ → Prop
  | nil (kept : List β) : Feeds decodes kept [] []
  | cons {kept chunk : List β} {chunks : List (List β)} {items items' : List γ} {len : Nat}
      (h : decodes (kept ++ chunk) items len)
      (hs : Feeds decodes ((kept ++ chunk).drop len) chunks items') :
      Feeds decodes kept (chunk :: chunks) (items ++ items')

/-- How values stand in a stream: the text of a value, and how much it wants to see behind it. -/
structure Encoding (ξ β : Type) where
  encode : ξ → List β
  ahead : ξ → Nat
  encode_ne_nil : ∀ x, encode x ≠ []

namespace Encoding

variable (E : Encoding ξ β)

/-- A stream. -/
def stream (xs : List ξ) : List β := xs.flatMap E.encode

/-- The values that can be taken from the first `n` of a stream. -/
def taken : List ξ → Nat → List ξ
  | [], _ => []
  | x :: xs, n =>
    if (E.encode x).length + E.ahead x ≤ n then x :: taken xs (n - (E.encode x).length) else []

/-- A value in front of a stream. -/
theorem stream_cons (x : ξ) (xs : List ξ) : E.stream (x :: xs) = E.encode x ++ E.stream xs := rfl

/-- Two streams one after the other. -/
theorem stream_append (xs ys : List ξ) : E.stream (xs ++ ys) = E.stream xs ++ E.stream ys :=
  List.flatMap_append

/-- Nothing is taken from nothing. -/
theorem taken_zero (xs : List ξ) : E.taken xs 0 = [] := by
  cases xs with
  | nil => rfl
  | cons x xs =>
    have hpos := List.length_pos_of_ne_nil (E.encode_ne_nil x)
    exact if_neg (by omega)

/-- The first value is taken if what it wants to see has come. -/
theorem taken_cons {x : ξ} {rest : List β} (h : E.ahead x ≤ rest.length) (xs : List ξ) :
    E.taken (x :: xs) (E.encode x ++ rest).length = x :: E.taken xs rest.length := by
  rw [taken, List.length_append, if_pos (Nat.add_le_add_left h _), Nat.add_sub_cancel_left]

/-- It is not before that. -/
theorem taken_of_lt {x : ξ} {n : Nat} (h : n < (E.encode x).length + E.ahead x) (xs : List ξ) :
    E.taken (x :: xs) n = [] := if_neg (Nat.not_le.mpr h)

/-- What is taken stands in front, and from the rest nothing can be taken before more has come. -/
theorem taken_split (xs : List ξ) (n : Nat) :
    ∃ rest, xs = E.taken xs n ++ rest ∧ (E.stream (E.taken xs n)).length ≤ n ∧
      ∀ m, n ≤ m → E.taken xs m =
        E.taken xs n ++ E.taken rest (m - (E.stream (E.taken xs n)).length) := by
  induction xs generalizing n with
  | nil => exact ⟨[], rfl, Nat.zero_le _, fun _ _ ↦ rfl⟩
  | cons x xs ih =>
    by_cases h : (E.encode x).length + E.ahead x ≤ n
    · obtain ⟨rest, hsplit, hlen, hmore⟩ := ih (n - (E.encode x).length)
      have htaken : E.taken (x :: xs) n = x :: E.taken xs (n - (E.encode x).length) := by
        rw [taken, if_pos h]
      refine ⟨rest, ?_, ?_, ?_⟩
      · rw [htaken, List.cons_append, ← hsplit]
      · rw [htaken, stream_cons, List.length_append]
        omega
      · intro m hm
        have hrest := hmore (m - (E.encode x).length) (by omega)
        rw [htaken, taken, if_pos (by omega), hrest, stream_cons, List.length_append, Nat.sub_sub,
          List.cons_append]
    · have htaken : E.taken (x :: xs) n = [] := by rw [taken, if_neg h]
      refine ⟨x :: xs, by rw [htaken]; rfl, by rw [htaken]; exact Nat.zero_le _, ?_⟩
      intro m _
      rw [htaken]
      rfl

end Encoding

/-- A decoder that works on the fronts of streams that are `Good`, and fails on all others. -/
structure Decoder (E : Encoding ξ β) (item : ξ → γ) (Good : List ξ → List β → Prop)
    (decodes : List β → List γ → Nat → Prop) : Prop where
  good_iff : ∀ xs front, front <+: E.stream xs → ∀ items len, decodes front items len ↔
    Good xs front ∧ items = (E.taken xs front.length).map item ∧
      len = (E.stream (E.taken xs front.length)).length
  good_append : ∀ xs ys front, Good (xs ++ ys) (E.stream xs ++ front) ↔ Good ys front

/-- The front of a stream is what can be taken from it and what is kept, which begins the rest of
the stream and gives nothing before more has come. -/
private theorem Encoding.exists_kept (E : Encoding ξ β) {xs : List ξ} {front : List β}
    (hfront : front <+: E.stream xs) :
    ∃ rest kept, xs = E.taken xs front.length ++ rest ∧
      front = E.stream (E.taken xs front.length) ++ kept ∧ E.taken rest kept.length = [] ∧
      E.taken xs (E.stream xs).length =
        E.taken xs front.length ++ E.taken rest (E.stream rest).length := by
  obtain ⟨rest, hsplit, hlen, hmore⟩ := E.taken_split xs front.length
  generalize hgot : E.taken xs front.length = got at hsplit hlen hmore ⊢
  have hwhole : E.stream xs = E.stream got ++ E.stream rest := by rw [hsplit, E.stream_append]
  obtain ⟨kept, hkept⟩ : E.stream got <+: front := by
    apply List.prefix_of_prefix_length_le _ hfront hlen
    rw [hwhole]
    exact List.prefix_append _ _
  have hlength : front.length - (E.stream got).length = kept.length := by
    rw [← hkept, List.length_append, Nat.add_sub_cancel_left]
  refine ⟨rest, kept, hsplit, hkept.symm, ?_, ?_⟩
  · have hsame := hmore _ (Nat.le_refl _)
    rw [hgot, hlength] at hsame
    exact List.self_eq_append_right.mp hsame
  · rw [hmore _ hfront.length_le, hwhole, List.length_append, Nat.add_sub_cancel_left]

/-- What holds of the fronts of a list that are not empty holds of its first element alone, and of
that with the fronts of the others. -/
private theorem forall_front_cons {δ : Type} {P : List δ → Prop} {d : δ} {ds : List δ} :
    (∀ pre, pre <+: d :: ds → pre ≠ [] → P pre) ↔
      P [d] ∧ ∀ pre, pre <+: ds → pre ≠ [] → P (d :: pre) := by
  constructor
  · intro h
    constructor
    · exact h [d] (List.cons_prefix_cons.mpr ⟨rfl, List.nil_prefix⟩) (List.cons_ne_nil d [])
    · intro pre hpre _
      exact h (d :: pre) (List.cons_prefix_cons.mpr ⟨rfl, hpre⟩) (List.cons_ne_nil d pre)
  · rintro ⟨hone, hmore⟩ pre hpre hne
    cases pre with
    | nil => exact absurd rfl hne
    | cons d' pre =>
      obtain ⟨rfl, hpre'⟩ := List.cons_prefix_cons.mp hpre
      by_cases hnil : pre = []
      · rw [hnil]
        exact hone
      · exact hmore pre hpre' hnil

namespace Decoder

variable {E : Encoding ξ β} {item : ξ → γ} {Good : List ξ → List β → Prop}
  {decodes : List β → List γ → Nat → Prop}

/-- Chunks from the middle of a stream. -/
private theorem feeds_iff_of_kept (D : Decoder E item Good decodes) (chunks : List (List β))
    {xs : List ξ} {kept : List β} (hkept : E.taken xs kept.length = [])
    (hstream : kept ++ chunks.flatten = E.stream xs) (items : List γ) :
    Feeds decodes kept chunks items ↔
      (∀ pre, pre <+: chunks → pre ≠ [] → Good xs (kept ++ pre.flatten)) ∧
        items = (E.taken xs (E.stream xs).length).map item := by
  induction chunks generalizing xs kept items with
  | nil =>
    have hall : E.taken xs (E.stream xs).length = [] := by
      rw [← hstream, List.flatten_nil, List.append_nil]
      exact hkept
    rw [hall, List.map_nil]
    constructor
    · intro h
      cases h
      exact ⟨fun pre hpre hne ↦ absurd (List.prefix_nil.mp hpre) hne, rfl⟩
    · rintro ⟨-, rfl⟩
      exact .nil kept
  | cons chunk chunks ih =>
    have hfront : kept ++ chunk <+: E.stream xs := by
      rw [← hstream, List.flatten_cons, ← List.append_assoc]
      exact List.prefix_append _ _
    obtain ⟨rest, kept', hsplit, hkept', hnone, hall⟩ := E.exists_kept hfront
    have hgood_iff := D.good_iff xs _ hfront
    generalize E.taken xs (kept ++ chunk).length = got at hsplit hkept' hall hgood_iff
    have hdrop : (kept ++ chunk).drop (E.stream got).length = kept' := by
      rw [hkept', List.drop_left]
    have hrest : kept' ++ chunks.flatten = E.stream rest := by
      rw [hsplit, E.stream_append, List.flatten_cons, ← List.append_assoc, hkept',
        List.append_assoc] at hstream
      exact List.append_cancel_left hstream
    have hgood : ∀ pre : List (List β),
        Good xs (kept ++ (chunk :: pre).flatten) ↔ Good rest (kept' ++ pre.flatten) := by
      intro pre
      rw [hsplit, List.flatten_cons, ← List.append_assoc, hkept', List.append_assoc, D.good_append]
    rw [forall_front_cons, List.flatten_singleton, hall, List.map_append]
    simp only [hgood]
    constructor
    · intro h
      cases h with
      | cons hdecodes hfeeds =>
        obtain ⟨hfirst, rfl, rfl⟩ := (hgood_iff _ _).mp hdecodes
        rw [hdrop] at hfeeds
        obtain ⟨hothers, rfl⟩ := (ih hnone hrest _).mp hfeeds
        exact ⟨⟨hfirst, hothers⟩, rfl⟩
    · rintro ⟨⟨hfirst, hothers⟩, rfl⟩
      apply Feeds.cons ((hgood_iff _ _).mpr ⟨hfirst, rfl, rfl⟩)
      rw [hdrop]
      exact (ih hnone hrest _).mpr ⟨hothers, rfl⟩

/-- Chunks of a stream are decoded exactly if each ends at a good place, and then into the same
items as the whole stream. -/
theorem feeds_iff (D : Decoder E item Good decodes) {chunks : List (List β)} {xs : List ξ}
    (hstream : chunks.flatten = E.stream xs) (items : List γ) :
    Feeds decodes [] chunks items ↔
      (∀ pre, pre <+: chunks → pre ≠ [] → Good xs pre.flatten) ∧
        items = (E.taken xs (E.stream xs).length).map item :=
  D.feeds_iff_of_kept chunks (E.taken_zero xs) hstream items

end Decoder
end IcsGateway.Lib
