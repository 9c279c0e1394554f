import Mathlib.Data.List.MinMax

/-!
# A base that follows window minima

Samples are collected in windows; a window is closed by the first sample that comes a given time after it was opened.
-/

namespace WindowMin

variable {β : Type} [LinearOrder β]

/-- The least of a sample and the samples of a window. -/
def least (x : β) (window : List β) : β := window.min?.elim x (min x)

theorem least_le {x y : β} {window : List β} (h : y ∈ x :: window) : least x window ≤ y := by
  unfold least
  cases hm : window.min? with
  | none =>
    rw [List.min?_eq_none_iff.mp hm, List.mem_singleton] at h
    exact h.ge
  | some m =>
    rcases List.mem_cons.mp h with rfl | h
    · exact min_le_left _ _
    exact (min_le_right _ _).trans ((List.min?_eq_some_iff.mp hm).2 y h)

theorem least_mem (x : β) (window : List β) : least x window ∈ x :: window := by
  unfold least
  cases hm : window.min? with
  | none => exact .head _
  | some m =>
    rcases min_choice x m with h | h
    · exact (congrArg (· ∈ x :: window) h).mpr (.head _)
    exact (congrArg (· ∈ x :: window) h).mpr (.tail _ (List.min?_mem hm))

/-! ## Histories -/

/-- When the open window was opened, its samples, the minima of the closed windows and all samples, the newest
first. -/
structure History (β : Type) where
  opened : Nat
  window : List β
  minima : List β
  seen : List β

namespace History

def start (now : Nat) (x : β) : History β := ⟨now, [x], [], [x]⟩

variable (h : History β) (length now : Nat) (x : β)

def Closes : Prop := length ≤ now - h.opened

omit [LinearOrder β] in
theorem closes_iff : h.Closes length now ↔ now - h.opened ≥ length := Iff.rfl

instance : Decidable (h.Closes length now) := inferInstanceAs (Decidable (_ ≤ _))

def add : History β :=
  if h.Closes length now then ⟨now, [], least x h.window :: h.minima, x :: h.seen⟩
  else { h with window := x :: h.window, seen := x :: h.seen }

end History

/-! ## The numbers that are kept -/

/-- The base and the number of higher windows after a window with this minimum; the number stops at `cap`. -/
def settle (staleWindows cap : Nat) (base : β) (stale : Nat) (low : β) : β × Nat :=
  if low < base then (low, 0)
  else if base < low then
    if staleWindows ≤ min (stale + 1) cap then (low, 0) else (base, min (stale + 1) cap)
  else (base, 0)

theorem settle_stale {staleWindows cap stale : Nat} {base low : β}
    (h : (settle staleWindows cap base stale low).1 < base) : (settle staleWindows cap base stale low).2 = 0 := by
  unfold settle at *
  split at h
  · rename_i hlt
    rw [if_pos hlt]
  split at h
  · rename_i hgt
    split at h
    · exact absurd h (not_lt.mpr hgt.le)
    exact absurd h (lt_irrefl _)
  · exact absurd h (lt_irrefl _)

structure Tracks (h : History β) (base : β) (low : Option β) (opened stale : Nat) : Prop where
  low_eq : low = h.window.min?
  opened_eq : opened = h.opened
  base_mem : base ∈ h.seen
  window_seen : ∀ y ∈ h.window, y ∈ h.seen
  stale_le : stale ≤ (h.minima.takeWhile (base < ·)).length

/-- What one more sample may make of the base. -/
structure Sampled (length staleWindows : Nat) (h : History β) (now : Nat) (x base base' : β) : Prop where
  least : h.Closes length now → ∀ y ∈ x :: h.window, base' ≤ y
  rises : base < base' →
    h.Closes length now ∧ staleWindows ≤ ((h.add length now x).minima.takeWhile (base < ·)).length
  seen : base' ∈ x :: h.seen

theorem tracks_start {now : Nat} {x : β} : Tracks (.start now x) x (some x) now 0 :=
  ⟨rfl, rfl, .head _, fun _ h => h, Nat.zero_le _⟩

section
variable {h : History β} {base : β} {low : Option β} {opened stale length now : Nat}
  (ht : Tracks h base low opened stale)
  (x : β)
include ht

theorem Tracks.stays (hopen : ¬ h.Closes length now) (staleWindows : Nat) : Tracks (h.add length now x) base
    (some (least x h.window)) opened stale ∧ Sampled length staleWindows h now x base base := by
  refine ⟨?_, fun hcloses => absurd hcloses hopen, fun hlt => absurd hlt (lt_irrefl _), .tail _ ht.base_mem⟩
  unfold History.add
  rw [if_neg hopen]
  refine ⟨List.min?_cons.symm, ht.opened_eq, .tail _ ht.base_mem, ?_, ht.stale_le⟩
  exact List.forall_mem_cons.mpr ⟨.head _, fun y hy => .tail _ (ht.window_seen y hy)⟩

theorem Tracks.closes (hcloses : h.Closes length now) (staleWindows cap : Nat) :
    let r := settle staleWindows cap base stale (least x h.window)
    Tracks (h.add length now x) r.1 none now r.2 ∧ Sampled length staleWindows h now x base r.1 := by
  have hseen : least x h.window ∈ x :: h.seen := by
    rcases List.mem_cons.mp (least_mem x h.window) with hx | hw
    · rw [hx]
      exact .head _
    exact .tail _ (ht.window_seen _ hw)
  have hadd : h.add length now x = ⟨now, [], least x h.window :: h.minima, x :: h.seen⟩ := if_pos hcloses
  have hcount (hlt : base < least x h.window) :
      stale + 1 ≤ ((h.add length now x).minima.takeWhile (base < ·)).length := by
    rw [hadd, List.takeWhile_cons_of_pos (p := fun y => decide (base < y)) (decide_eq_true hlt)]
    exact Nat.succ_le_succ ht.stale_le
  -- every outcome keeps the numbers of an empty window; they differ in the base and the count
  have htracks {b : β} {n : Nat} (hb : b ∈ x :: h.seen)
      (hn : n ≤ ((h.add length now x).minima.takeWhile (b < ·)).length) :
      Tracks (h.add length now x) b none now n := by
    rw [hadd] at hn ⊢
    exact ⟨rfl, rfl, hb, nofun, hn⟩
  have hlow : ∀ y ∈ x :: h.window, least x h.window ≤ y := fun y hy => least_le hy
  have hkept : base ∈ x :: h.seen := .tail _ ht.base_mem
  unfold settle
  split
  · rename_i hlt
    exact ⟨htracks hseen (Nat.zero_le _), fun _ => hlow, fun hrise => absurd hrise (not_lt.mpr hlt.le), hseen⟩
  split
  · rename_i hgt
    split
    · rename_i hstale
      refine ⟨htracks hseen (Nat.zero_le _), fun _ => hlow, fun _ => ⟨hcloses, ?_⟩, hseen⟩
      exact hstale.trans ((Nat.min_le_left _ _).trans (hcount hgt))
    refine ⟨htracks hkept ((Nat.min_le_left _ _).trans (hcount hgt)), fun _ y hy => ?_, fun hrise => ?_, hkept⟩
    · exact hgt.le.trans (hlow y hy)
    exact absurd hrise (lt_irrefl _)
  rename_i hge hle
  refine ⟨htracks hkept (Nat.zero_le _), fun _ y hy => ?_, fun hrise => absurd hrise (lt_irrefl _), hkept⟩
  exact (not_lt.mp hge).trans (hlow y hy)

end

end WindowMin
