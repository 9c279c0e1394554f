import Mathlib.Data.List.MinMax
import ConnectUnit.Replay

/-!
# The table of control sources

The window of a peer allows exactly the new counters of its last 128. A commit blocks its counter for its source.
-/

namespace ConnectUnit

variable {t : CtrlReplayTable} {key srcKey : UInt64}
variable {m : HashMap UInt64 (DataReplayWindow × Instant)}

/-! ## The window of one peer -/

namespace DataReplayWindow

def afterCommits (cs : List Nat) : DataReplayWindow := cs.foldl ReplayWindow.commit ReplayWindow.new

theorem allows_afterCommits_iff {cs : List Nat} {c : Nat} :
    (afterCommits cs).allows c = true ↔ ∀ c' ∈ cs, c ≠ c' ∧ c' < c + 128 := by
  have hblocks := ReplayWindow.blocks_foldl_commit (w := dataReplayWindowBits) (by decide) ReplayWindow.new cs c
  rw [← Bool.not_eq_false, ReplayWindow.allows_eq_false_iff, afterCommits, hblocks]
  simp [ReplayWindow.not_blocks_new, dataReplayWindowBits]

/-- The window is exact: among the counters up to the largest committed one it allows those of the last
128 that were never committed. -/
theorem allows_exact (cs : List Nat) (c : Nat) : (afterCommits cs).allows c = true ↔ cs = [] ∨ ∃ m, cs.max? = some m ∧
    (m < c ∨ m - c < 128 ∧ c ∉ cs) := by
  rw [allows_afterCommits_iff]
  cases hm : cs.max? with
  | none => simp [List.max?_eq_none_iff.mp hm]
  | some m =>
    obtain ⟨hmem, hle⟩ := List.max?_eq_some_iff.mp hm
    have hne : cs ≠ [] := List.ne_nil_of_mem hmem
    simp only [hne, false_or, Option.some.injEq, exists_eq_left']
    constructor
    · intro h
      have := h m hmem
      by_cases hc : m < c
      · exact .inl hc
      exact .inr ⟨by omega, fun hcs => (h c hcs).1 rfl⟩
    intro h c' hc'
    have := hle c' hc'
    rcases h with h | ⟨h, hcs⟩
    · omega
    refine ⟨fun he => hcs (he ▸ hc'), by omega⟩

example : (afterCommits [5, 200, 3]).allows 100 = true ∧ (afterCommits [5, 200, 3]).allows 72 = false := by decide

end DataReplayWindow

namespace CtrlReplayTable

/-! ## The oldest source -/

theorem oldest_mem {tie : Nat} (h : t.oldest tie = some key) : key ∈ t.sources ∧ t.isOldest key = true := by
  have hmem := List.mem_of_getElem? h
  rw [List.mem_filter] at hmem
  exact ⟨AList.mem_keys.mpr hmem.1, hmem.2⟩

theorem exists_isOldest (h : 0 < t.sources.size) : ∃ key ∈ t.sources.keys, t.isOldest key = true := by
  have hne : t.sources.entries ≠ [] := List.ne_nil_of_length_pos h
  cases hm : t.sources.entries.argmin (·.2.2) with
  | none => exact absurd (List.argmin_eq_none.mp hm) hne
  | some entry =>
    have hmem : entry ∈ t.sources.entries := List.argmin_mem hm
    have hfound : t.sources.lookup entry.1 = some entry.2 := (HashMap.lookup_eq_some_iff _).mpr hmem
    refine ⟨entry.1, List.mem_map_of_mem hmem, ?_⟩
    simp only [isOldest, hfound, List.all_eq_true, decide_eq_true_eq]
    intro other ho
    exact List.le_of_mem_argmin (f := fun e : Sigma fun _ : UInt64 => DataReplayWindow × Instant => e.2.2) ho hm

theorem exists_oldest (h : 0 < t.sources.size) (tie : Nat) : ∃ key, t.oldest tie = some key := by
  obtain ⟨key, hkey, hold⟩ := exists_isOldest h
  have hpos : 0 < (t.sources.keys.filter t.isOldest).length :=
    List.length_pos_of_mem (List.mem_filter.mpr ⟨hkey, hold⟩)
  exact ⟨_, List.getElem?_eq_getElem (Nat.mod_lt tie hpos)⟩

/-! ## Room for a source -/

structure WithinBound (t : CtrlReplayTable) : Prop where
  bound : t.maxSources = ctrlReplayMaxSources
  size_le : t.sources.size ≤ t.maxSources

theorem withinBound_new : new.WithinBound := ⟨rfl, Nat.zero_le _⟩

theorem WithinBound.clear (h : t.WithinBound) : t.clear.WithinBound := ⟨h.bound, Nat.zero_le _⟩

theorem WithinBound.evict (h : t.WithinBound) (hfull : t.maxSources ≤ t.sources.size) (tie : Nat) :
    ∃ key, t.oldest tie = some key ∧ t.evictOldestUntilRoom tie = { t with sources := t.sources.erase key } ∧
      HashMap.size (t.sources.erase key) < t.maxSources := by
  have hmax : 0 < t.maxSources := by rw [h.bound]; decide
  obtain ⟨key, hkey⟩ := exists_oldest (Nat.lt_of_lt_of_le hmax hfull) tie
  have hsize := HashMap.size_erase_of_mem t.sources (oldest_mem hkey).1
  have hroom : HashMap.size (t.sources.erase key) < t.maxSources := by have := h.size_le; omega
  refine ⟨key, hkey, ?_, hroom⟩
  unfold evictOldestUntilRoom
  rw [← hsize, evictLoop, if_pos hfull, hkey]
  dsimp only
  rw [evictLoop, if_neg (Nat.not_le.mpr hroom)]

/-- Accepting a frame from `srcKey` drops the window of `victim`. -/
def Evicts (t : CtrlReplayTable) (srcKey victim : UInt64) : Prop :=
  srcKey ∉ t.sources ∧ t.sources.size = ctrlReplayMaxSources ∧ t.isOldest victim = true

/-! ## Commits -/

structure Committed (t t' : CtrlReplayTable) (srcKey : UInt64) (counter : Nat) : Prop where
  withinBound : t'.WithinBound
  self : ∀ c, t'.allows srcKey c = false ↔
    c = counter ∨ c + dataReplayWindowBits ≤ counter ∨ t.allows srcKey c = false
  other : ∀ key ≠ srcKey, t'.sources.lookup key = t.sources.lookup key ∨ t.Evicts srcKey key

theorem insert_other (h : key ≠ srcKey)
    {v : DataReplayWindow × Instant} : (m.insert srcKey v).lookup key = m.lookup key := by
  rw [HashMap.lookup_insert_eq, if_neg h]

theorem committed_known (h : t.WithinBound) {window : DataReplayWindow}
    {seen : Instant} (hl : t.sources.lookup srcKey = some (window, seen)) (counter : Nat) (now : Instant) :
    t.Committed { t with sources := t.sources.insert srcKey (window.commit counter, now) } srcKey counter where
  withinBound := ⟨h.bound, by
    have hmem : srcKey ∈ t.sources := (HashMap.mem_iff_lookup _).mpr ⟨_, hl⟩
    simp only [HashMap.size_insert_of_mem _ hmem, h.size_le]⟩
  self c := by
    simp only [allows, HashMap.lookup_insert_eq, if_true, hl, ReplayWindow.allows_eq_false_iff]
    rw [ReplayWindow.blocks_commit (by decide)]
  other key hne := .inl (insert_other hne)

theorem committed_fresh (h : t.WithinBound)
    (hroom : m.size < t.maxSources) (hnew : srcKey ∉ t.sources) (hm : srcKey ∉ m)
    (hother : ∀ key ≠ srcKey, m.lookup key = t.sources.lookup key ∨ t.Evicts srcKey key) (counter : Nat)
    (now : Instant) :
    t.Committed { t with sources := m.insert srcKey (ReplayWindow.new.commit counter, now) } srcKey counter where
  withinBound := ⟨h.bound, by
    simp only [HashMap.size_insert_of_notMem _ hm]
    exact hroom⟩
  self c := by
    simp only [allows, HashMap.lookup_insert_eq, if_true, AList.lookup_eq_none.mpr hnew,
      ReplayWindow.allows_eq_false_iff]
    rw [ReplayWindow.blocks_commit (by decide)]
    simp [ReplayWindow.not_blocks_new]
  other key hne := by
    dsimp only
    rw [insert_other hne]
    exact hother key hne

theorem WithinBound.commit (h : t.WithinBound) (srcKey : UInt64) (counter : Nat)
    (now : Instant) (tie : Nat) : t.Committed (t.commit srcKey counter now tie) srcKey counter := by
  unfold CtrlReplayTable.commit
  split
  · rename_i window seen hl
    exact committed_known h hl counter now
  rename_i hl
  have hnew : srcKey ∉ t.sources := AList.lookup_eq_none.mp hl
  by_cases hfull : t.maxSources ≤ t.sources.size
  · obtain ⟨key, hold, hevict, hroom⟩ := h.evict hfull tie
    simp only [ge_iff_le, hfull, if_true, hevict, Nat.not_le.mpr hroom, if_false]
    refine committed_fresh h hroom hnew (fun hmem => hnew (AList.mem_erase.mp hmem).2) ?_ counter now
    intro key' _
    rw [HashMap.lookup_erase_eq]
    split
    · rename_i hk
      subst hk
      exact .inr ⟨hnew, Nat.le_antisymm (h.bound ▸ h.size_le) (h.bound ▸ hfull), (oldest_mem hold).2⟩
    · exact .inl rfl
  simp only [ge_iff_le, hfull, if_false]
  exact committed_fresh h (Nat.not_le.mp hfull) hnew hnew (fun _ _ => .inl rfl) counter now

theorem Committed.blocked {t' : CtrlReplayTable} {counter : Nat} (h : t.Committed t' srcKey counter) {c : Nat}
    (hb : t.allows key c = false) : t'.allows key c = false ∨ t.Evicts srcKey key := by
  by_cases hk : key = srcKey
  · subst hk
    exact .inl ((h.self c).mpr (.inr (.inr hb)))
  refine (h.other key hk).imp_left fun hl => ?_
  unfold allows at *
  rw [hl]; exact hb

end CtrlReplayTable

/-! ## Rate limits -/

namespace ControlRateLimiter

variable {l : ControlRateLimiter}

theorem allow_of_room (src : UInt64) (now : Instant) (hreap : now - l.lastReap < secs 60)
    (hroom : l.entries.size < maxEntries) (htokens : 1 ≤ (l.refilled src now).tokens) :
    l.allow src now =
      ({ l with entries := l.entries.insert src ⟨(l.refilled src now).tokens - 1, now, now⟩ }, true) := by
  have hdue : ¬ now - l.lastReap ≥ secs 60 := Nat.not_le.mpr hreap
  have hfull : ¬ l.entries.size ≥ maxEntries := Nat.not_le.mpr hroom
  simp only [allow, hdue, hfull, if_false, decide_false, Bool.false_and, Bool.false_eq_true, not_lt.mpr htokens]
  rfl

theorem refilled_fresh {src : UInt64} (h : l.entries.lookup src = none) (now : Instant) :
    l.refilled src now = ⟨l.capacity, now, now⟩ := by
  simp [refilled, h]

end ControlRateLimiter

end ConnectUnit
