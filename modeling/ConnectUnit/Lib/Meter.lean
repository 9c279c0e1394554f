import Mathlib.Data.Rat.Defs
import Mathlib.Tactic.Linarith
import ConnectUnit.Lib.Machine

/-!
# Metered runs

A machine whose actions carry their times is metered when it has a credit that grows no faster than a rate, never
exceeds a capacity and is spent by what the machine emits.
-/

namespace Meter

variable {t : Nat}

section
variable {σ α ω : Type} (step : σ → α → σ × List ω) (time : α → Nat) (p : ω → Bool)
variable {as : List α} {s : σ}

/-- How many of the emitted values that satisfy `p` fall into the window from `lo` to `hi`. -/
def emittedWithin (lo hi : Nat) (s : σ) : List α → Nat
  | [] => 0
  | a :: as =>
    (if lo ≤ time a ∧ time a ≤ hi then (step s a).2.countP p else 0) + emittedWithin lo hi (step s a).1 as

/-- The credit of a state at a time, with the states it is meant for. -/
structure Metered (capacity rate : ℚ) where
  Valid : σ → Nat → Prop
  credit : σ → Nat → ℚ
  rate_nonneg : 0 ≤ rate
  nonneg : ∀ {s t}, Valid s t → 0 ≤ credit s t
  le_capacity : ∀ {s t}, Valid s t → credit s t ≤ capacity
  valid_later : ∀ {s t t'}, Valid s t → t ≤ t' → Valid s t'
  valid_step : ∀ {s a}, Valid s (time a) → Valid (step s a).1 (time a)
  grows : ∀ {s t t'}, Valid s t → t ≤ t' → credit s t' ≤ credit s t + rate * (t' - t : Nat)
  spends : ∀ {s a}, Valid s (time a) →
    credit (step s a).1 (time a) + (step s a).2.countP p ≤ credit s (time a)

/-- The actions are in the order of their times, from `t` on. -/
def InOrder (t : Nat) (as : List α) : Prop := (t :: as.map time).Pairwise (· ≤ ·)

variable {step time p}

theorem inOrder_cons {a : α} : InOrder time t (a :: as) ↔ t ≤ time a ∧ InOrder time (time a) as := by
  unfold InOrder
  rw [List.map_cons, List.pairwise_cons]
  constructor
  · intro h
    exact ⟨h.1 _ (List.mem_cons_self ..), h.2⟩
  intro h
  refine ⟨?_, h.2⟩
  intro t' ht'
  rcases List.mem_cons.mp ht' with he | he
  · exact he ▸ h.1
  exact Nat.le_trans h.1 ((List.pairwise_cons.mp h.2).1 t' he)

theorem emittedWithin_of_late {lo hi : Nat} (h : InOrder time t as) (ht : hi < t) :
    emittedWithin step time p lo hi s as = 0 := by
  induction as generalizing s t with
  | nil => rfl
  | cons a as ih =>
    obtain ⟨ha, has⟩ := inOrder_cons.mp h
    have hout : ¬ (lo ≤ time a ∧ time a ≤ hi) := by omega
    rw [emittedWithin, if_neg hout, Nat.zero_add]
    exact ih has (by omega)

variable {capacity rate : ℚ} (M : Metered step time p capacity rate)
include M

theorem Metered.emittedWithin_le_credit (lo hi : Nat) (hv : M.Valid s t) (h : InOrder time t as) :
    (emittedWithin step time p lo hi s as : ℚ) ≤ M.credit s t + rate * (hi - t : Nat) := by
  induction as generalizing s t with
  | nil =>
    have := M.nonneg hv
    have := mul_nonneg M.rate_nonneg (Nat.cast_nonneg (α := ℚ) (hi - t))
    rw [emittedWithin, Nat.cast_zero]
    linarith
  | cons a as ih =>
    obtain ⟨ha, has⟩ := inOrder_cons.mp h
    by_cases hlate : hi < time a
    · rw [emittedWithin_of_late (inOrder_cons.mpr ⟨Nat.le_refl _, has⟩) hlate, Nat.cast_zero]
      have := M.nonneg hv
      have := mul_nonneg M.rate_nonneg (Nat.cast_nonneg (α := ℚ) (hi - t))
      linarith
    have hva := M.valid_later hv ha
    have hgrow := M.grows hv ha
    have hspend := M.spends hva
    have hrest := ih (M.valid_step hva) has
    have hsplit : ((hi - t : Nat) : ℚ) = (time a - t : Nat) + (hi - time a : Nat) := by
      rw [← Nat.cast_add]
      congr 1
      omega
    have hcount : ((if lo ≤ time a ∧ time a ≤ hi then (step s a).2.countP p else 0 : Nat) : ℚ) ≤
        (step s a).2.countP p := by
      split
      · exact le_refl _
      exact_mod_cast Nat.zero_le _
    rw [emittedWithin, Nat.cast_add, hsplit, mul_add]
    linarith

theorem Metered.emittedWithin_le (lo hi : Nat) (hv : M.Valid s t) (h : InOrder time t as) :
    (emittedWithin step time p lo hi s as : ℚ) ≤ capacity + rate * (hi - lo : Nat) := by
  have hbase : 0 ≤ capacity + rate * (hi - lo : Nat) := by
    have := M.nonneg hv
    have := M.le_capacity hv
    have := mul_nonneg M.rate_nonneg (Nat.cast_nonneg (α := ℚ) (hi - lo))
    linarith
  induction as generalizing s t with
  | nil => simpa [emittedWithin] using hbase
  | cons a as ih =>
    obtain ⟨ha, has⟩ := inOrder_cons.mp h
    have hva := M.valid_later hv ha
    by_cases hearly : time a < lo
    · have hout : ¬ (lo ≤ time a ∧ time a ≤ hi) := by omega
      rw [emittedWithin, if_neg hout, Nat.zero_add]
      exact ih (M.valid_step hva) has
    have hfrom := M.emittedWithin_le_credit lo hi hva (inOrder_cons.mpr ⟨Nat.le_refl _, has⟩)
    have hcap := M.le_capacity hva
    have hlen : rate * (hi - time a : Nat) ≤ rate * (hi - lo : Nat) :=
      mul_le_mul_of_nonneg_left (by exact_mod_cast by omega) M.rate_nonneg
    linarith

end

end Meter
