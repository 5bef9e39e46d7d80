import Mathlib.Algebra.Order.Group.Basic
import Mathlib.Data.List.Chain
import Mathlib.Tactic.Abel

/-!
# Spaced reports

A process is called now and then, and in a call it makes a report if enough time has passed since
the last. The time may be any ordered group. Reports are spaced by the given interval, so there
are not too many; and calls that come often enough leave no report overdue, so there are not too
few.
-/

namespace IcsGateway.Lib

/-- The time of the last report, or of the start, and the times of all reports, the last first. -/
structure Throttle (τ : Type) where
  last : τ
  times : List τ

namespace Throttle

variable {τ : Type} [AddCommGroup τ] [LinearOrder τ]

/-- Nothing has been reported. -/
def start (t₀ : τ) : Throttle τ := ⟨t₀, []⟩

/-- A call makes a report, if one is due. -/
def tick (d : τ) (s : Throttle τ) (now : τ) : Throttle τ :=
  if d ≤ now - s.last then ⟨now, now :: s.times⟩ else s

/-- The reports since `t₀` are at least `d` apart. -/
structure Spaced (d t₀ : τ) (s : Throttle τ) : Prop where
  last : (s.times ++ [t₀]).head? = some s.last
  chain : (s.times ++ [t₀]).IsChain fun later earlier ↦ d ≤ later - earlier

/-- No report is later than `d` and the time between two calls after the one before it. -/
def Frequent (d w t₀ : τ) (s : Throttle τ) : Prop :=
  s.last - t₀ ≤ s.times.length • (d + w)

variable {d w t₀ now : τ} {s : Throttle τ}

/-- A start. -/
theorem spaced_start (d t₀ : τ) : Spaced d t₀ (start t₀) :=
  ⟨rfl, List.isChain_singleton _⟩

/-- A call. -/
theorem Spaced.tick (h : Spaced d t₀ s) (now : τ) : Spaced d t₀ (s.tick d now) := by
  rw [Throttle.tick]
  split
  · next hdue =>
    refine ⟨rfl, ?_⟩
    rw [List.cons_append, List.isChain_cons]
    refine ⟨?_, h.chain⟩
    intro earlier hhead
    rw [h.last, Option.mem_some_iff] at hhead
    rw [← hhead]
    exact hdue
  · exact h

/-- The start is frequent. -/
theorem frequent_start (d w t₀ : τ) : Frequent d w t₀ (start t₀) := by
  rw [Frequent, start, sub_self, List.length_nil, zero_nsmul]

/-- The last report is not later than the call. -/
theorem last_tick_le (d : τ) (h : s.last ≤ now) : (s.tick d now).last ≤ now := by
  rw [tick]
  split
  · exact le_refl now
  · exact h

/-- After a call the last report is recent. -/
theorem sub_last_lt_of_tick (hd : 0 < d) (s : Throttle τ) (now : τ) :
    now - (s.tick d now).last < d := by
  rw [tick]
  split
  · rw [sub_self]
    exact hd
  · next hdue => exact not_le.mp hdue

section Ordered

variable [IsOrderedAddMonoid τ]

/-- Spaced reports take time. -/
theorem Spaced.nsmul_le (h : Spaced d t₀ s) : s.times.length • d ≤ s.last - t₀ := by
  obtain ⟨last, times⟩ := s
  obtain ⟨hlast, hchain⟩ := h
  simp only at hlast hchain ⊢
  induction times generalizing last with
  | nil =>
    rw [List.nil_append, List.head?_cons, Option.some.injEq] at hlast
    rw [← hlast, sub_self, List.length_nil, zero_nsmul]
  | cons t times ih =>
    rw [List.cons_append, List.head?_cons, Option.some.injEq] at hlast
    subst hlast
    rw [List.cons_append, List.isChain_cons] at hchain
    obtain ⟨earlier, hearlier⟩ : ∃ earlier, (times ++ [t₀]).head? = some earlier := by
      cases times with
      | nil => exact ⟨_, rfl⟩
      | cons a times => exact ⟨_, rfl⟩
    have hrest := ih earlier hearlier hchain.2
    have hstep := hchain.1 earlier hearlier
    calc (times.length + 1) • d = times.length • d + d := succ_nsmul d _
      _ ≤ (earlier - t₀) + (t - earlier) := add_le_add hrest hstep
      _ = t - t₀ := by abel

/-- A call at most `w` after one that left the last report recent. -/
theorem Frequent.tick (h : Frequent d w t₀ s) {before : τ} (hrecent : before - s.last < d)
    (hnow : now ≤ before + w) : Frequent d w t₀ (s.tick d now) := by
  rw [Throttle.tick]
  split
  · rw [Frequent, List.length_cons, succ_nsmul]
    calc now - t₀ = (now - before) + (before - s.last) + (s.last - t₀) := by abel
      _ ≤ w + d + s.times.length • (d + w) :=
        add_le_add (add_le_add (sub_le_iff_le_add'.mpr hnow) hrecent.le) h
      _ = s.times.length • (d + w) + (d + w) := by abel
  · exact h

/-- Frequent reports, of which the last is recent, keep up with the time. -/
theorem Frequent.sub_lt (h : Frequent d w t₀ s) (hrecent : now - s.last < d) :
    now - t₀ < s.times.length • (d + w) + d := by
  calc now - t₀ = (s.last - t₀) + (now - s.last) := by abel
    _ < s.times.length • (d + w) + d := add_lt_add_of_le_of_lt h hrecent

end Ordered

end Throttle
end IcsGateway.Lib
