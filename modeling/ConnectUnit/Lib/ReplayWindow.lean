import Mathlib.Data.Nat.Basic

/-!
# Sliding replay windows

A window remembers the largest counter it has seen and one bit for each of the `w` counters up to it.
-/

structure ReplayWindow (w : Nat) where
  top : Option Nat
  bits : BitVec w
  deriving DecidableEq, Repr

namespace ReplayWindow

variable {w : Nat}
variable {c c' : Nat} {win : ReplayWindow w}

def new : ReplayWindow w := ⟨none, 0#w⟩

def allows (win : ReplayWindow w) (counter : Nat) : Bool :=
  match win.top with
  | none => true
  | some top =>
    if counter > top then true
    else
      let delta := top - counter
      if delta ≥ w then false else win.bits &&& BitVec.twoPow w delta == 0#w

def commit (win : ReplayWindow w) (counter : Nat) : ReplayWindow w :=
  match win.top with
  | none => ⟨some counter, 1#w⟩
  | some top =>
    if counter > top then
      let shift := min (counter - top) w
      let bits := if shift ≥ w then 0#w else win.bits <<< shift
      ⟨some counter, bits ||| 1#w⟩
    else
      let delta := top - counter
      if delta < w then ⟨some top, win.bits ||| BitVec.twoPow w delta⟩ else win

/-- The counter is not above the top, and it is out of the window or marked in it. -/
def Blocks (win : ReplayWindow w) (counter : Nat) : Prop :=
  ∃ top, win.top = some top ∧ counter ≤ top ∧ (w ≤ top - counter ∨ win.bits.getLsbD (top - counter) = true)

theorem not_blocks_new : ¬ (new : ReplayWindow w).Blocks c := by
  intro h
  obtain ⟨top, h, _⟩ := h
  cases h

theorem allows_eq_false_iff : win.allows c = false ↔ win.Blocks c := by
  unfold allows Blocks
  cases win.top with
  | none => simp
  | some top =>
    simp only [Option.some.injEq, exists_eq_left']
    by_cases hc : c > top
    · rw [if_pos hc]
      exact iff_of_false (by simp) fun h => by omega
    rw [if_neg hc]
    by_cases hd : top - c ≥ w
    · rw [if_pos hd]
      exact iff_of_true rfl ⟨by omega, .inl hd⟩
    rw [if_neg hd, BitVec.and_twoPow]
    have hpow : BitVec.twoPow w (top - c) ≠ 0#w := by
      intro h
      have := congrArg (·.getLsbD (top - c)) h
      simp at this
      omega
    cases hb : win.bits.getLsbD (top - c)
    · simp; omega
    simp [hpow]; omega

section
variable (win : ReplayWindow w) {top : Nat} (ht : win.top = some top)
include ht

theorem blocks_iff_of_top : win.Blocks c ↔ c ≤ top ∧ (w ≤ top - c ∨ win.bits.getLsbD (top - c) = true) := by
  unfold Blocks
  rw [ht]
  simp only [Option.some.injEq, exists_eq_left']

theorem blocks_commit_above (hw : 0 < w) (hc : top < c') :
    (win.commit c').Blocks c ↔ c = c' ∨ c + w ≤ c' ∨ win.Blocks c := by
  rw [blocks_iff_of_top win ht]
  unfold commit Blocks
  simp only [ht, if_pos hc, Option.some.injEq, exists_eq_left', BitVec.getLsbD_or, BitVec.getLsbD_one,
    Bool.or_eq_true, Bool.and_eq_true, decide_eq_true_eq]
  by_cases hs : min (c' - top) w ≥ w
  · rw [if_pos hs, BitVec.getLsbD_zero]
    constructor
    · intro h
      obtain ⟨_, h | h | h⟩ := h
      · exact .inr (.inl (by omega))
      · cases h
      exact .inl (by omega)
    intro h
    rcases h with h | h | h <;> omega
  rw [if_neg hs, BitVec.getLsbD_shiftLeft]
  simp only [Bool.and_eq_true, decide_eq_true_eq, Bool.not_eq_true', decide_eq_false_iff_not]
  by_cases hct : c ≤ top
  · have hidx : c' - c - min (c' - top) w = top - c := by omega
    rw [hidx]
    constructor
    · intro h
      obtain ⟨_, h | ⟨_, h⟩ | h⟩ := h
      · exact .inr (.inl (by omega))
      · exact .inr (.inr ⟨hct, .inr h⟩)
      exact .inl (by omega)
    intro h
    rcases h with h | h | ⟨_, h | h⟩
    · omega
    · omega
    · omega
    · refine ⟨by omega, ?_⟩
      by_cases hw' : w ≤ c' - c
      · exact .inl hw'
      exact .inr (.inl ⟨by omega, h⟩)
  · constructor
    · intro h
      obtain ⟨_, h | ⟨h, _⟩ | h⟩ := h
      · exact .inr (.inl (by omega))
      · omega
      exact .inl (by omega)
    · intro h
      rcases h with h | h | h <;> omega

theorem blocks_commit_within (hc : c' ≤ top) : (win.commit c').Blocks c ↔ c = c' ∨ c + w ≤ c' ∨ win.Blocks c := by
  have hc' : ¬ c' > top := by omega
  unfold commit
  simp only [ht, if_neg hc']
  rw [blocks_iff_of_top win ht]
  by_cases hd : top - c' < w
  · rw [if_pos hd]
    unfold Blocks
    simp only [Option.some.injEq, exists_eq_left', BitVec.getLsbD_or, BitVec.getLsbD_twoPow, Bool.or_eq_true,
      Bool.and_eq_true, decide_eq_true_eq]
    constructor
    · intro h
      obtain ⟨h1, h | h | h⟩ := h
      · exact .inr (.inr ⟨h1, .inl h⟩)
      · exact .inr (.inr ⟨h1, .inr h⟩)
      exact .inl (by omega)
    intro h
    rcases h with h | h | ⟨h1, h | h⟩
    · omega
    · omega
    · omega
    · exact ⟨h1, .inr (.inl h)⟩
  · rw [if_neg hd, blocks_iff_of_top win ht]
    constructor
    · exact fun h => .inr (.inr h)
    intro h
    rcases h with h | h | h
    · omega
    · omega
    exact h

end

theorem blocks_commit (hw : 0 < w) : (win.commit c').Blocks c ↔ c = c' ∨ c + w ≤ c' ∨ win.Blocks c := by
  cases ht : win.top with
  | none =>
    unfold commit Blocks
    simp only [ht, Option.some.injEq, exists_eq_left', reduceCtorEq, false_and, exists_false, or_false,
      BitVec.getLsbD_one, Bool.and_eq_true, decide_eq_true_eq]
    omega
  | some top =>
    rcases Nat.lt_or_ge top c' with hc | hc
    · exact blocks_commit_above win ht hw hc
    exact blocks_commit_within win ht hc

theorem blocks_foldl_commit (hw : 0 < w) (win : ReplayWindow w) (cs : List Nat) (c : Nat) :
    (cs.foldl commit win).Blocks c ↔ (∃ c' ∈ cs, c = c' ∨ c + w ≤ c') ∨ win.Blocks c := by
  induction cs generalizing win with
  | nil => simp
  | cons c' cs ih =>
    rw [List.foldl_cons, ih, blocks_commit hw]
    simp only [List.mem_cons, exists_eq_or_imp]
    grind

end ReplayWindow
