import Mathlib.Logic.Basic

/-!
# Indexes that cover an attribute

Items carry an optional key, several items may carry the same one, and an index holds a set of keys. The index covers
the items if it holds the key of every item.
-/

namespace Cover

variable {V K : Type}

def Covers (idx : K → Prop) (attr : V → Option K) : Prop := ∀ v k, attr v = some k → idx k

theorem covers_iff {idx idx' : K → Prop} {attr attr' : V → Option K} {x : V} {new : Option K} {drops : K → Prop}
    (h : Covers idx attr) (hx : attr' x = new)
    (hother : ∀ v k, v ≠ x → new ≠ some k → (attr' v = some k ↔ attr v = some k))
    (hidx : ∀ k, idx' k ↔ new = some k ∨ idx k ∧ ¬ (attr x = some k ∧ drops k)) : Covers idx' attr' ↔ ∀ k, attr x =
    some k → new = some k ∨ ¬ drops k ∨ ∀ v, v ≠ x → attr v ≠ some k := by
  constructor
  · intro hc k hk
    by_cases hn : new = some k
    · exact .inl hn
    by_cases hd : drops k
    · refine .inr (.inr fun v hv hvk => ?_)
      rcases (hidx k).mp (hc v k ((hother v k hv hn).mpr hvk)) with hn' | ⟨_, hno⟩
      · exact hn hn'
      exact hno ⟨hk, hd⟩
    · exact .inr (.inl hd)
  intro hcond v k hvk
  rw [hidx]
  by_cases hn : new = some k
  · exact .inl hn
  have hv : v ≠ x := by rintro rfl; exact hn (hx ▸ hvk)
  have hold := (hother v k hv hn).mp hvk
  refine .inr ⟨h v k hold, fun ⟨hk, hd⟩ => ?_⟩
  rcases hcond k hk with hn' | hnd | hall
  · exact hn hn'
  · exact hnd hd
  exact hall v hv hold

end Cover
