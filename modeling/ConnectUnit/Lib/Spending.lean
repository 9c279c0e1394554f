/-!
# Chains of steps that cost

`R a n b` is a step from `a` to `b` that costs `n`; `Spends R a n b` is a
chain of such steps with their total. A budget is kept by a chain if every
step keeps it.
-/

namespace Spending

variable {α : Type} {R : α → Nat → α → Prop}

inductive Spends (R : α → Nat → α → Prop) (a : α) : Nat → α → Prop
  | refl : Spends R a 0 a
  | tail {n m : Nat} {b c : α} : Spends R a n b → R b m c → Spends R a (n + m) c

namespace Spends

variable {a b c : α} {n m : Nat}

theorem single (h : R a n b) : Spends R a n b := by
  have hs := Spends.refl.tail h
  rwa [Nat.zero_add] at hs

theorem trans (h : Spends R a n b) (h' : Spends R b m c) : Spends R a (n + m) c := by
  induction h' with
  | refl => exact h
  | tail _ hstep ih => rw [← Nat.add_assoc]; exact ih.tail hstep

theorem invariant {I : α → Nat → Prop} (hstep : ∀ a s n b, I a s → R a n b → I b (s + n)) {s : Nat}
    (h : Spends R a n b) (h0 : I a s) : I b (s + n) := by
  induction h with
  | refl => exact h0
  | tail _ hr ih => rw [← Nat.add_assoc]; exact hstep _ _ _ _ ih hr

end Spends

end Spending
