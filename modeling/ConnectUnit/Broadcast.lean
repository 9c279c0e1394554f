import Mathlib.Data.List.TakeWhile
import ConnectUnit.Lib.Machine
import ConnectUnit.Net

/-!
# Broadcast deduplication

A packet is fresh if its key is not among the keys of the last two seconds.
-/

open List (cons_append length_append map_append mem_append mem_cons mem_singleton)
open Machine (run trace)

namespace ConnectUnit

inductive HashInput where
  | text (s : String)
  | bytes (bs : Bytes)
  | usize (n : Nat)
  deriving DecidableEq

abbrev RandomState := List HashInput → UInt64

abbrev BcastKey := BitVec 128

structure BroadcastDeduplicator where
  seen : List BcastKey
  timeline : List (Instant × BcastKey)
  hasherState : RandomState

namespace BroadcastDeduplicator

def ttl : Nat := millis 2000

def maxCache : Nat := 4096

def new (hasherState : RandomState) : BroadcastDeduplicator := { seen := [], timeline := [], hasherState }

section
variable (d : BroadcastDeduplicator)
variable (now : Instant) (scope : String) (packet : Bytes)

def evict : BroadcastDeduplicator :=
  let old : Instant × BcastKey → Bool := fun x => ttl ≤ now - x.1
  { d with
    timeline := d.timeline.dropWhile old
    seen := d.seen.filter fun k => k ∉ (d.timeline.takeWhile old).map (·.2) }

/-! ## Keys -/

def stablePrefix : List HashInput :=
  let pre := min packet.length 128
  if pre ≥ 20 then
    let header := (((packet.take 20).set 8 0).set 10 0).set 11 0
    .bytes header :: if pre > 20 then [.bytes ((packet.take pre).drop 20)] else []
  else
    let short := (packet.take pre).set 8 0
    [.bytes (if pre > 11 then (short.set 10 0).set 11 0 else short)]

def keyInput : List HashInput :=
  stablePrefix packet ++ (if packet.length > 128 then [.bytes (packet.drop (packet.length - 32))] else []) ++
    [.usize packet.length]

def makeKey : BcastKey :=
  let hi := d.hasherState (.text "mint-bcast-key-a" :: keyInput packet)
  let lo := rotateLeft (d.hasherState (.text "mint-bcast-key-b" :: keyInput packet)) 13
  hi.toBitVec ++ lo.toBitVec

def makeScopedKey : BcastKey :=
  let scopeHash := d.hasherState [.text "mint-bcast-scope", .text scope]
  let mixed := scopeHash * 0x9E3779B185EBCA87
  let scopeKey : BcastKey := mixed.toBitVec ++ (rotateLeft mixed 17).toBitVec
  (d.makeKey packet).rotateLeft 29 ^^^ scopeKey

/-! ## Checking a packet -/

def insert (key : BcastKey) : BroadcastDeduplicator :=
  let timeline := d.timeline ++ [(now, key)]
  match timeline with
  | (_, old) :: rest =>
    if timeline.length > maxCache then { d with timeline := rest, seen := (key :: d.seen).filter (· ≠ old) }
    else { d with timeline, seen := key :: d.seen }
  | [] => d

def isFreshKey (key : BcastKey) : BroadcastDeduplicator × Bool :=
  let d := d.evict now
  if key ∈ d.seen then (d, false) else (d.insert now key, true)

def isFresh : BroadcastDeduplicator × Bool := d.isFreshKey now (d.makeKey packet)

def isFreshScoped : BroadcastDeduplicator × Bool :=
  d.isFreshKey now (d.makeScopedKey scope packet)

end

/-! ## A key stays -/

section
variable {d : BroadcastDeduplicator} {now : Instant} {key : BcastKey}

/-- The keys are those of the timeline, which is in the order of time and holds none twice. -/
structure Consistent (d : BroadcastDeduplicator) (now : Instant) : Prop where
  sorted : (d.timeline.map (·.1)).Pairwise (· ≤ ·)
  past : ∀ x ∈ d.timeline, x.1 ≤ now
  nodup : (d.timeline.map (·.2)).Nodup
  seen : ∀ k, k ∈ d.seen ↔ k ∈ d.timeline.map (·.2)

theorem new_consistent {r : RandomState} : Consistent (new r) now :=
  ⟨List.Pairwise.nil, nofun, List.nodup_nil, fun _ => Iff.rfl⟩

section
variable (h : Consistent d now)
include h

theorem Consistent.mono {now' : Instant} (hn : now ≤ now') : Consistent d now' :=
  ⟨h.sorted, fun x hx => Nat.le_trans (h.past x hx) hn, h.nodup, h.seen⟩

theorem Consistent.evict : Consistent (d.evict now) now := by
  have hsub : (d.evict now).timeline.Sublist d.timeline := List.dropWhile_sublist _
  refine ⟨h.sorted.sublist (hsub.map _), fun x hx => h.past x (hsub.subset hx), h.nodup.sublist (hsub.map _), ?_⟩
  intro k
  unfold BroadcastDeduplicator.evict
  rw [List.mem_filter, h.seen]
  simp only [decide_eq_true_eq]
  -- the keys that go and the keys that stay are disjoint
  have hnd := h.nodup
  rw [← List.takeWhile_append_dropWhile (p := fun x => decide (ttl ≤ now - x.1)) (l := d.timeline),
    map_append, List.nodup_append] at hnd
  nth_rewrite 1 [← List.takeWhile_append_dropWhile (p := fun x => decide (ttl ≤ now - x.1)) (l := d.timeline)]
  rw [map_append, mem_append]
  constructor
  · intro hk
    exact hk.1.resolve_left hk.2
  intro hk
  exact ⟨.inr hk, fun hk' => hnd.2.2 k hk' k hk rfl⟩

theorem Consistent.insert (hk : key ∉ d.seen) : Consistent (d.insert now key) now := by
  have hnew : key ∉ d.timeline.map (·.2) := fun hm => hk ((h.seen key).mpr hm)
  have hsorted : ((d.timeline ++ [(now, key)]).map (·.1)).Pairwise (· ≤ ·) := by
    rw [map_append]
    refine List.pairwise_append.mpr ⟨h.sorted, List.pairwise_singleton _ _, fun t ht t' ht' => ?_⟩
    obtain ⟨x, hx, rfl⟩ := List.mem_map.mp ht
    rw [mem_singleton.mp ht']
    exact h.past x hx
  have hpast : ∀ x ∈ d.timeline ++ [(now, key)], x.1 ≤ now := by
    intro x hx
    rcases mem_append.mp hx with hx | hx
    · exact h.past x hx
    rw [mem_singleton.mp hx]
  have hnd : ((d.timeline ++ [(now, key)]).map (·.2)).Nodup := by
    rw [map_append, List.map_singleton, List.nodup_append]
    refine ⟨h.nodup, List.nodup_singleton _, fun k hm k' hm' => ?_⟩
    rw [mem_singleton.mp hm']
    intro he
    have he : k = key := he
    exact hnew (he ▸ hm)
  have hseen : ∀ k, k ∈ key :: d.seen ↔ k ∈ (d.timeline ++ [(now, key)]).map (·.2) := by
    intro k
    rw [map_append, mem_append, mem_cons, h.seen, List.map_singleton, mem_singleton, or_comm]
  unfold BroadcastDeduplicator.insert
  dsimp only
  split
  · rename_i t old rest ht
    rw [ht] at hsorted hpast hnd hseen
    split
    · refine ⟨hsorted.of_cons, fun x hx => hpast x (List.mem_cons_of_mem _ hx), (List.nodup_cons.mp hnd).2,
        fun k => ?_⟩
      rw [List.mem_filter, hseen, List.map_cons, mem_cons, decide_eq_true_eq]
      constructor
      · intro hk
        exact hk.1.resolve_left hk.2
      intro hk
      refine ⟨.inr hk, fun he => ?_⟩
      subst he
      exact (List.nodup_cons.mp hnd).1 hk
    rw [ht]
    exact ⟨hsorted, hpast, hnd, hseen⟩
  · exact h

theorem Consistent.isFreshKey (key : BcastKey) : Consistent (d.isFreshKey now key).1 now := by
  unfold BroadcastDeduplicator.isFreshKey
  dsimp only
  split
  · exact h.evict
  rename_i hk
  exact h.evict.insert hk

end

def Holds (d : BroadcastDeduplicator) (key : BcastKey) (start n : Nat) : Prop :=
  ∃ before t after, d.timeline = before ++ (t, key) :: after ∧ start ≤ t ∧ after.length ≤ n

variable {start n : Nat}

theorem Holds.mono (h : Holds d key start n) {n' : Nat} (hn : n ≤ n') : Holds d key start n' := by
  obtain ⟨before, t, after, ht, hst, hl⟩ := h
  exact ⟨before, t, after, ht, hst, Nat.le_trans hl hn⟩

theorem Holds.mem_seen (h : Holds d key start n) (hc : Consistent d now) : key ∈ d.seen := by
  obtain ⟨before, t, after, ht, -, -⟩ := h
  rw [hc.seen, ht, map_append]
  exact List.mem_append_right _ List.mem_cons_self

theorem age_lt {now start t ttl : Nat} (h : now < start + ttl) (hs : start ≤ t) (ht : 0 < ttl) : now - t < ttl := by
  omega

section
variable (h : Holds d key start n)
include h

theorem Holds.evict (hy : now < start + ttl) : Holds (d.evict now) key start n := by
  obtain ⟨before, t, after, ht, hst, hn⟩ := h
  refine ⟨before.dropWhile (fun x => ttl ≤ now - x.1), t, after, ?_, hst, hn⟩
  have hyoung : ¬ ttl ≤ now - t := Nat.not_le.mpr (age_lt hy hst (by decide))
  show d.timeline.dropWhile _ = _
  rw [ht, List.dropWhile_append]
  split
  · rename_i hnil
    rw [List.isEmpty_iff.mp hnil, List.dropWhile_cons_of_neg (by simpa using hyoung)]
    rfl
  · rfl

theorem Holds.insert (hn : n + 1 < maxCache) (k : BcastKey) : Holds (d.insert now k) key start (n + 1) := by
  obtain ⟨before, t, after, ht, hst, hl⟩ := h
  have hlen : (after ++ [(now, k)]).length ≤ n + 1 := by
    rw [length_append]
    exact Nat.add_le_add_right hl 1
  have htl : d.timeline ++ [(now, k)] = before ++ (t, key) :: (after ++ [(now, k)]) := by
    rw [ht, List.append_assoc, cons_append]
  unfold BroadcastDeduplicator.insert
  dsimp only
  rw [htl]
  cases before with
  | nil =>
    have hroom : ¬ ((t, key) :: (after ++ [(now, k)])).length > maxCache := by
      rw [List.length_cons]
      exact Nat.not_lt.mpr (Nat.le_trans (Nat.add_le_add_right hlen 1) hn)
    simp only [List.nil_append, if_neg hroom]
    exact ⟨[], t, after ++ [(now, k)], rfl, hst, hlen⟩
  | cons x before =>
    simp only [cons_append]
    split
    · exact ⟨before, t, after ++ [(now, k)], rfl, hst, hlen⟩
    exact ⟨x :: before, t, after ++ [(now, k)], rfl, hst, hlen⟩

theorem Holds.isFreshKey_self (hc : Consistent d now) (hy : now < start + ttl) :
    Holds (d.isFreshKey now key).1 key start n ∧ (d.isFreshKey now key).2 = false := by
  unfold BroadcastDeduplicator.isFreshKey
  dsimp only
  rw [if_pos ((h.evict hy).mem_seen hc.evict)]
  exact ⟨h.evict hy, rfl⟩

theorem Holds.isFreshKey (hy : now < start + ttl) {k : BcastKey} (hn : (d.isFreshKey now k).2 → n + 1 < maxCache) :
    Holds (d.isFreshKey now k).1 key start (if (d.isFreshKey now k).2 then n + 1 else n) := by
  unfold BroadcastDeduplicator.isFreshKey at hn ⊢
  dsimp only at hn ⊢
  split
  · exact h.evict hy
  rename_i hk
  rw [if_neg hk] at hn
  exact (h.evict hy).insert (hn rfl) k

end

theorem holds_of_fresh (hf : (d.isFreshKey now key).2 = true) (hs : start ≤ now) :
    Holds (d.isFreshKey now key).1 key start 0 := by
  unfold BroadcastDeduplicator.isFreshKey at hf ⊢
  dsimp only at hf ⊢
  split
  · rename_i hk
    rw [if_pos hk] at hf
    cases hf
  unfold BroadcastDeduplicator.insert
  cases ht : (d.evict now).timeline with
  | nil => exact ⟨[], now, [], rfl, hs, Nat.le_refl 0⟩
  | cons x rest =>
    simp only [cons_append]
    split
    · exact ⟨rest, now, [], rfl, hs, Nat.le_refl 0⟩
    exact ⟨x :: rest, now, [], rfl, hs, Nat.le_refl 0⟩

variable (d now) in
theorem isFreshKey_hasherState (key : BcastKey) : (d.isFreshKey now key).1.hasherState = d.hasherState := by
  unfold BroadcastDeduplicator.isFreshKey BroadcastDeduplicator.insert
  dsimp only
  split
  · rfl
  split
  · split <;> rfl
  rfl

theorem makeKey_congr {d' : BroadcastDeduplicator} (h : d'.hasherState = d.hasherState) (packet : Bytes) :
    d'.makeKey packet = d.makeKey packet := by
  unfold makeKey
  rw [h]

theorem fresh_of_old (hc : Consistent d start) (ho : start + ttl ≤ now) : (d.isFreshKey now key).2 = true := by
  have hold : ∀ x ∈ d.timeline, ttl ≤ now - x.1 := by
    intro x hx
    exact Nat.le_sub_of_add_le' (Nat.le_trans (Nat.add_le_add_right (hc.past x hx) _) ho)
  have hnil : (d.evict now).timeline = [] := List.dropWhile_eq_nil_iff.mpr fun x hx => decide_eq_true (hold x hx)
  have hcons : Consistent (d.evict now) now := (hc.mono (Nat.le_trans (Nat.le_add_right _ _) ho)).evict
  have hk : key ∉ (d.evict now).seen := by
    rw [hcons.seen, hnil]
    nofun
  unfold BroadcastDeduplicator.isFreshKey
  dsimp only
  rw [if_neg hk]

end

/-! ## Sequences of calls -/

inductive Call where
  | isFresh (packet : Bytes)
  | isFreshScoped (scope : String) (packet : Bytes)

variable (d : BroadcastDeduplicator)

def Call.key : Call → BcastKey
  | .isFresh packet => d.makeKey packet
  | .isFreshScoped scope packet => d.makeScopedKey scope packet

def call (now : Instant) : Call → BroadcastDeduplicator × Bool
  | .isFresh packet => d.isFresh now packet
  | .isFreshScoped scope packet => d.isFreshScoped now scope packet

theorem call_eq (now : Instant) (c : Call) : d.call now c = d.isFreshKey now (c.key d) := by
  cases c <;> rfl

/-- A call comes some time after the one before it; it emits the key that it inserts. -/
def step (s : Instant × BroadcastDeduplicator) (c : Nat × Call) : (Instant × BroadcastDeduplicator) × List BcastKey :=
  let now := s.1 + c.1
  let r := s.2.call now c.2
  ((now, r.1), if r.2 then [c.2.key s.2] else [])

section
variable {s : Instant × BroadcastDeduplicator} {key : BcastKey} {calls : List (Nat × Call)} {start n : Nat}

theorem length_insert {d : BroadcastDeduplicator} {now : Instant} (h : d.timeline.length ≤ maxCache) :
    (d.insert now key).timeline.length ≤ maxCache := by
  unfold BroadcastDeduplicator.insert
  dsimp only
  split
  · rename_i _ old rest ht
    have hlen := congrArg List.length ht
    simp only [length_append, List.length_cons, List.length_nil] at hlen
    split
    · show rest.length ≤ maxCache
      omega
    simp_all
  · exact h

theorem length_step (h : s.2.timeline.length ≤ maxCache) (c : Nat × Call) :
    (step s c).1.2.timeline.length ≤ maxCache := by
  have he : (s.2.evict (s.1 + c.1)).timeline.length ≤ maxCache := (List.dropWhile_sublist _).length_le.trans h
  simp only [step, call_eq, BroadcastDeduplicator.isFreshKey]
  split
  · exact he
  exact length_insert he

theorem Consistent.step (h : Consistent s.2 s.1) (c : Nat × Call) : Consistent (step s c).1.2 (step s c).1.1 := by
  simp only [BroadcastDeduplicator.step, call_eq]
  exact (h.mono (Nat.le_add_right _ _)).isFreshKey _

theorem clock_le_run (s : Instant × BroadcastDeduplicator) (calls : List (Nat × Call)) :
    s.1 ≤ (run step s calls).1 := by
  induction calls generalizing s with
  | nil => exact Nat.le_refl _
  | cons c calls ih => exact Nat.le_trans (Nat.le_add_right _ _) (ih (step s c).1)

theorem Holds.run (h : Holds s.2 key start n) (hroom : n + (trace step s calls).length < maxCache)
    (hyoung : (run step s calls).1 < start + ttl) :
    Holds (run step s calls).2 key start (n + (trace step s calls).length) := by
  induction calls generalizing s n with
  | nil => exact h
  | cons c calls ih =>
    have hclock : s.1 + c.1 < start + ttl := Nat.lt_of_le_of_lt (clock_le_run (step s c).1 calls) hyoung
    simp only [trace, length_append, ← Nat.add_assoc] at hroom ⊢
    refine ih ?_ hroom hyoung
    simp only [step, call_eq] at hroom ⊢
    have hkey := h.isFreshKey hclock (k := c.2.key s.2) fun hf => by
      rw [if_pos hf, List.length_singleton] at hroom
      omega
    split
    · rename_i hf
      rwa [if_pos hf] at hkey
    rename_i hf
    rwa [if_neg hf] at hkey

/-- The set and the queue hold the same keys, none twice, in the order of time, and not more than fit. So a key is
recognised for two seconds, unless as many others as fit were inserted since. -/
theorem cache_consistent (r : RandomState) (start : Instant) (calls : List (Nat × Call)) :
    (((run step (start, new r) calls).2.timeline.map (·.2)).Nodup ∧
      ((run step (start, new r) calls).2.timeline.map (·.1)).Pairwise (· ≤ ·) ∧
      (∀ k, k ∈ (run step (start, new r) calls).2.seen ↔ k ∈ (run step (start, new r) calls).2.timeline.map (·.2)) ∧
      (run step (start, new r) calls).2.timeline.length ≤ 4096) ∧
    ∀ before c after (c' : Nat × Call), calls = before ++ c :: after →
      let s := run step (start, new r) before
      let s' := run step (start, new r) calls
      (s.2.call (s.1 + c.1) c.2).2 = true → (trace step (step s c).1 after).length < 4096 →
        s'.1 + c'.1 < s.1 + c.1 + millis 2000 → c'.2.key s'.2 = c.2.key s.2 →
        (s'.2.call (s'.1 + c'.1) c'.2).2 = false := by
  have hcons : ∀ calls, Consistent (run step (start, new r) calls).2 (run step (start, new r) calls).1 :=
    fun calls => Machine.run_invariant (P := fun s : Instant × BroadcastDeduplicator => Consistent s.2 s.1) new_consistent fun _ c h => h.step c
  refine ⟨⟨(hcons calls).nodup, (hcons calls).sorted, (hcons calls).seen, ?_⟩, ?_⟩
  · exact Machine.run_invariant (P := fun s : Instant × BroadcastDeduplicator => s.2.timeline.length ≤ maxCache)
      (Nat.zero_le _) fun _ c h => length_step h c
  intro before c after c' hcalls s s' hfresh hroom hyoung hkey
  have hrun : s' = run step (step s c).1 after := by
    simp only [s', s, hcalls, run, List.foldl_append, List.foldl_cons]
  have hin : Holds (step s c).1.2 (c.2.key s.2) (s.1 + c.1) 0 := by
    rw [call_eq] at hfresh
    simp only [step, call_eq]
    exact holds_of_fresh hfresh (Nat.le_refl _)
  have hlate : s'.1 < s.1 + c.1 + ttl := Nat.lt_of_le_of_lt (Nat.le_add_right _ _) hyoung
  have hheld : Holds s'.2 (c.2.key s.2) (s.1 + c.1) (0 + (trace step (step s c).1 after).length) := by
    rw [hrun] at hlate ⊢
    exact hin.run (by rw [Nat.zero_add]; exact hroom) hlate
  rw [call_eq, hkey]
  exact (hheld.isFreshKey_self ((hcons calls).mono (Nat.le_add_right _ _)) hyoung).2

end

end BroadcastDeduplicator

end ConnectUnit
