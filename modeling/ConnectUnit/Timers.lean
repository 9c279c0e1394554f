import ConnectUnit.Lib.LazyHeap
import ConnectUnit.ReliableSound

/-!
# Retransmission timers

Every pending packet has a deadline, and its deadline is in the heap (`Covers`), whatever stale entries lie about it.
-/

open HashMap (lookup_eq_some_iff lookup_erase_eq)

namespace ConnectUnit.Reliable

variable {t : Instant} {seq : UInt32} {p : PendingPacket} {m : HashMap UInt32 PendingPacket}
variable {dest : SocketAddr} {now : Instant}

/-! ## The heap -/

instance : Std.Total Due.before where
  total a b := by
    unfold Due.before
    rcases lt_trichotomy a.1 b.1 with h | h | h
    · exact .inl (.inl h)
    · rcases UInt32.le_total a.2 b.2 with h' | h'
      · exact .inl (.inr ⟨h, h'⟩)
      · exact .inr (.inr ⟨h.symm, h'⟩)
    · exact .inr (.inl h)

instance : IsTrans Due Due.before where
  trans a b c := by
    intro hab hbc
    unfold Due.before at hab hbc ⊢
    rcases hab with hab | ⟨hab, hab'⟩
    · rcases hbc with hbc | ⟨hbc, _⟩
      · exact .inl (lt_trans hab hbc)
      · exact .inl (hbc ▸ hab)
    rcases hbc with hbc | ⟨hbc, hbc'⟩
    · exact .inl (hab ▸ hbc)
    exact .inr ⟨hab.trans hbc, UInt32.le_trans hab' hbc'⟩

theorem Due.before.le {a b : Due} (h : Due.before a b) : a.1 ≤ b.1 := by
  rcases h with h | ⟨h, _⟩
  · exact le_of_lt h
  exact le_of_eq h

namespace ReliableChannel

structure Covers (ch : ReliableChannel) : Prop where
  sorted : ch.dueHeap.Pairwise Due.before
  covered : ∀ seq p, ch.pending.lookup seq = some p → ∃ t, p.nextAt = some t ∧ (t, seq) ∈ ch.dueHeap

def earliest (ch : ReliableChannel) : Option Instant := (ch.pending.entries.filterMap (·.2.nextAt)).min?

variable {ch ch' : ReliableChannel}

theorem earliest_eq_some_iff : ch.earliest = some t ↔ (∃ seq p, ch.pending.lookup seq = some p ∧ p.nextAt = some t) ∧
    ∀ seq p t', ch.pending.lookup seq = some p → p.nextAt = some t' → t ≤ t' := by
  unfold earliest
  rw [List.min?_eq_some_iff]
  simp only [List.mem_filterMap, forall_exists_index, and_imp]
  constructor
  · intro h
    obtain ⟨⟨e, he, ht⟩, hmin⟩ := h
    exact ⟨⟨e.1, e.2, (lookup_eq_some_iff _).mpr he, ht⟩,
      fun seq p t' hp ht' => hmin t' ⟨seq, p⟩ ((lookup_eq_some_iff _).mp hp) ht'⟩
  intro h
  obtain ⟨⟨seq, p, hp, ht⟩, hmin⟩ := h
  exact ⟨⟨⟨seq, p⟩, (lookup_eq_some_iff _).mp hp, ht⟩,
    fun t' e he ht' => hmin e.1 e.2 t' ((lookup_eq_some_iff _).mpr he) ht'⟩

theorem Covers.valid (h : ch.Covers) (hp : ch.pending.lookup seq = some p) :
    ∃ t, p.nextAt = some t ∧ (t, seq) ∈ ch.dueHeap ∧ ch.valid (t, seq) = true := by
  obtain ⟨t, ht, hmem⟩ := h.covered seq p hp
  exact ⟨t, ht, hmem, valid_iff.mpr ⟨p, hp, ht⟩⟩

theorem Covers.popStale (h : ch.Covers) : ch.popStaleDueHeapTop.Covers where
  sorted := LazyHeap.sorted_dropWhile h.sorted
  covered seq p hp := by
    obtain ⟨t, ht, hmem, hv⟩ := h.valid hp
    exact ⟨t, ht, LazyHeap.mem_dropWhile hmem hv⟩

theorem Covers.entries_eq_nil (h : ch.Covers) (hheap : ch.dueHeap = []) : ch.pending.entries = [] := by
  cases he : ch.pending.entries with
  | nil => rfl
  | cons e es =>
    have hp : ch.pending.lookup e.1 = some e.2 := (lookup_eq_some_iff _).mpr (by rw [he]; exact List.mem_cons_self)
    obtain ⟨t, _, hmem⟩ := h.covered e.1 e.2 hp
    rw [hheap] at hmem
    cases hmem

theorem Covers.top_eq_earliest (h : ch.Covers) : ch.popStaleDueHeapTop.dueHeap.head?.map (·.1) = ch.earliest := by
  cases hheap : ch.popStaleDueHeapTop.dueHeap with
  | nil =>
    have hnone : ch.pending.entries = [] := h.popStale.entries_eq_nil hheap
    unfold earliest
    rw [hnone]
    rfl
  | cons top rest =>
    obtain ⟨p, hp, ht⟩ := valid_iff.mp (valid_of_popStale hheap)
    refine (earliest_eq_some_iff.mpr ⟨⟨top.2, p, hp, ht⟩, fun seq q t' hq ht' => ?_⟩).symm
    obtain ⟨t, htq, hmem, hv⟩ := h.valid hq
    rw [htq] at ht'
    cases ht'
    rcases LazyHeap.top_first h.sorted hheap hmem hv with heq | hbefore
    · rw [← heq]
    exact hbefore.le

structure Exact (ch : ReliableChannel) : Prop extends Covers ch where
  due : ch.nextDueAt = ch.earliest

theorem Covers.refresh (h : ch.Covers) : ch.refreshNextDueFromHeap.Exact :=
  ⟨⟨h.popStale.sorted, h.popStale.covered⟩, h.top_eq_earliest⟩

/-! ## Operations -/

theorem covers_push (hm : ch.pending = m.insert seq p) (ht : p.nextAt = some t) (hs : ch.dueHeap.Pairwise Due.before)
    (hc : ∀ k q, k ≠ seq → m.lookup k = some q → ∃ t, q.nextAt = some t ∧ (t, k) ∈ ch.dueHeap) :
    (ch.pushDue t seq).Covers where
  sorted := hs.orderedInsert _ _
  covered k q hq := by
    replace hq : ch.pending.lookup k = some q := hq
    rw [hm, HashMap.lookup_insert_eq] at hq
    unfold pushDue
    simp only [List.mem_orderedInsert]
    split at hq
    · rename_i hk
      subst hk
      cases hq
      exact ⟨t, ht, .inl rfl⟩
    rename_i hk
    obtain ⟨t', ht', hmem⟩ := hc k q hk hq
    exact ⟨t', ht', .inr hmem⟩

theorem Covers.of_sub (h : ch.Covers) (hheap : ch'.dueHeap = ch.dueHeap)
    (hsub : ∀ k q, ch'.pending.lookup k = some q → ∃ p, ch.pending.lookup k = some p ∧ p.nextAt = q.nextAt) :
    ch'.Covers where
  sorted := by rw [hheap]; exact h.sorted
  covered k q hq := by
    obtain ⟨p, hp, hat⟩ := hsub k q hq
    rw [← hat, hheap]
    exact h.covered k p hp

theorem pushAll_covers (ch : ReliableChannel) (entries : List (Sigma fun _ : UInt32 => PendingPacket))
    (hs : ch.dueHeap.Pairwise Due.before) : (ch.pushAll entries).dueHeap.Pairwise Due.before ∧
    (∀ due ∈ ch.dueHeap, due ∈ (ch.pushAll entries).dueHeap) ∧ ∀ e ∈ entries, ∀ t, e.2.nextAt = some t → (t, e.1) ∈
    (ch.pushAll entries).dueHeap := by
  induction entries generalizing ch with
  | nil => exact ⟨hs, fun _ h => h, fun _ h => by cases h⟩
  | cons e entries ih =>
    unfold pushAll at ih ⊢
    rw [List.foldl_cons]
    cases he : e.2.nextAt with
    | none =>
      obtain ⟨hs', hold, hnew⟩ := ih ch hs
      refine ⟨hs', hold, fun e' hmem t ht => ?_⟩
      rcases List.mem_cons.mp hmem with rfl | hmem
      · rw [he] at ht; cases ht
      exact hnew e' hmem t ht
    | some t₀ =>
      obtain ⟨hs', hold, hnew⟩ := ih (ch.pushDue t₀ e.1) (hs.orderedInsert _ _)
      have hin : ∀ due, due = (t₀, e.1) ∨ due ∈ ch.dueHeap → due ∈ (ch.pushDue t₀ e.1).dueHeap :=
        fun due h => (List.mem_orderedInsert _).mpr h
      refine ⟨hs', fun due h => hold due (hin due (.inr h)), fun e' hmem t ht => ?_⟩
      rcases List.mem_cons.mp hmem with rfl | hmem
      · rw [he] at ht
        cases ht
        exact hold _ (hin _ (.inl rfl))
      · exact hnew e' hmem t ht

theorem rebuild_exact (h : ∀ seq p, ch.pending.lookup seq = some p → ∃ t, p.nextAt = some t) :
    ch.rebuildDueHeapFromPending.Exact := by
  obtain ⟨hs, _, hnew⟩ := pushAll_covers { ch with dueHeap := [] } ch.pending.entries .nil
  obtain ⟨heap, heq⟩ := pushAll_eq { ch with dueHeap := [] } ch.pending.entries
  refine Covers.refresh ⟨hs, fun seq p hp => ?_⟩
  rw [heq] at hp
  obtain ⟨t, ht⟩ := h seq p hp
  exact ⟨t, ht, hnew ⟨seq, p⟩ ((lookup_eq_some_iff _).mp hp) t ht⟩

theorem Exact.send (h : ch.Exact) {inner : CompactPacketType} {body : Bytes} {hint : Option Int}
    : (ch.send inner body dest hint now).1.Exact := by
  unfold ReliableChannel.send
  split
  · exact h
  refine Covers.refresh (covers_push rfl ?_ h.sorted fun k q _ hq => h.covered k q hq)
  rfl

theorem Exact.markSent (h : ch.Exact) {sentAt : Instant} : (ch.markSent seq sentAt).Exact := by
  unfold ReliableChannel.markSent
  split
  · exact h
  split
  · exact h
  refine Covers.refresh (covers_push rfl ?_ h.sorted fun k q _ hq => h.covered k q hq)
  rfl

theorem Exact.onAck (h : ch.Exact) {fromEp : SocketAddr} : (ch.onAck seq fromEp now).Exact := by
  unfold ReliableChannel.onAck
  split
  · exact h
  rename_i p hp
  split
  · have herased : (updateRtt { ch with pending := ch.pending.erase seq } p now).pending = ch.pending.erase seq ∧
        (updateRtt { ch with pending := ch.pending.erase seq } p now).dueHeap = ch.dueHeap := by
      unfold updateRtt
      split
      · exact ⟨rfl, rfl⟩
      exact ⟨rfl, rfl⟩
    refine (h.toCovers.of_sub herased.2 fun k q hq => ?_).refresh
    rw [herased.1, lookup_erase_eq] at hq
    split at hq
    · cases hq
    exact ⟨q, hq, rfl⟩
  · exact h

theorem Exact.migrateDest (h : ch.Exact) {oldDest newDest : SocketAddr} : (ch.migrateDest oldDest newDest).Exact := by
  unfold ReliableChannel.migrateDest
  split
  · exact h
  refine Covers.refresh (h.toCovers.of_sub rfl fun k q hq => ?_)
  rw [HashMap.lookup_mapVals] at hq
  obtain ⟨p, hp, rfl⟩ := Option.map_eq_some_iff.mp hq
  refine ⟨p, hp, ?_⟩
  split
  · rfl
  rfl

theorem Exact.flushDest (h : ch.Exact) : (ch.flushDest dest).Exact := by
  unfold ReliableChannel.flushDest
  refine rebuild_exact fun seq p hp => ?_
  rw [HashMap.lookup_retain] at hp
  obtain ⟨t, ht, _⟩ := h.covered seq p (Option.filter_eq_some_iff.mp hp).1
  exact ⟨t, ht⟩

end ReliableChannel

/-! ## What a tick is to do -/

namespace PendingPacket

def isDue (p : PendingPacket) (now : Instant) : Bool := p.nextAt.any fun t => t ≤ now

def again (p : PendingPacket) (tuning : ReliableTuning) (now : Instant) : PendingPacket :=
  let rto := max tuning.rtoMinMs (min (p.rtoMs * 2 % 2 ^ 32) tuning.rtoMaxMs)
  { p with retransmitted := true, retriesLeft := p.retriesLeft - 1, rtoMs := rto, nextAt := some (now + millis rto) }

def afterTick (p : PendingPacket) (tuning : ReliableTuning) (now : Instant) : Option PendingPacket :=
  if p.isDue now then if p.retriesLeft = 0 then none else some (p.again tuning now) else some p

variable {p q : PendingPacket} {tuning : ReliableTuning} {now : Instant}

theorem isDue_iff : p.isDue now = true ↔ ∃ t, p.nextAt = some t ∧ t ≤ now := by
  unfold isDue
  rw [Option.any_eq_true]
  simp only [decide_eq_true_eq]

theorem isDue_again : (p.again tuning now).isDue now = false := by
  have hpos : 0 < millis (max tuning.rtoMinMs (min (p.rtoMs * 2 % 2 ^ 32) tuning.rtoMaxMs)) := by
    have := tuning.min_pos
    unfold millis
    omega
  unfold isDue again
  dsimp only
  rw [Option.any_some, decide_eq_false_iff_not, Nat.not_le]
  exact Nat.lt_add_of_pos_right hpos

theorem not_due_of_afterTick (h : p.afterTick tuning now = some q) : q.isDue now = false := by
  unfold afterTick at h
  split at h
  · split at h
    · cases h
    · cases h
      exact isDue_again
  rename_i hdue
  cases h
  exact Bool.eq_false_iff.mpr hdue

end PendingPacket

/-- The packets to send again, and those to give up. -/
def resendable (now : Instant) (m : HashMap UInt32 PendingPacket) : List (Bytes × SocketAddr) :=
  (m.entries.filter fun e => e.2.isDue now ∧ e.2.retriesLeft ≠ 0).map fun e => (e.2.data, e.2.dest)

def expired (now : Instant) (m : HashMap UInt32 PendingPacket) : List (UInt32 × SocketAddr) :=
  (m.entries.filter fun e => e.2.isDue now ∧ e.2.retriesLeft = 0).map fun e => (e.1, e.2.dest)

section
variable {m : HashMap UInt32 PendingPacket} {seq : UInt32} {p q : PendingPacket} {now : Instant}

section
variable (h : m.lookup seq = some p)
include h

theorem resendable_perm (hd : p.isDue now = true) (hr : p.retriesLeft ≠ 0)
    (hq : q.isDue now = false) : (resendable now m).Perm ((p.data, p.dest) :: resendable now (m.insert seq q)) := by
  have hp := ((m.perm_erase h).filter fun e => e.2.isDue now ∧ e.2.retriesLeft ≠ 0).map fun e => (e.2.data, e.2.dest)
  rw [List.filter_cons_of_pos (by simp [hd, hr])] at hp
  unfold resendable
  rw [AList.entries_insert, List.filter_cons_of_neg (by simp [hq])]
  exact hp

theorem expired_insert_perm (hr : p.retriesLeft ≠ 0) (hq : q.isDue now = false) :
    (expired now m).Perm (expired now (m.insert seq q)) := by
  have hp := ((m.perm_erase h).filter fun e => e.2.isDue now ∧ e.2.retriesLeft = 0).map fun e => (e.1, e.2.dest)
  rw [List.filter_cons_of_neg (by simp [hr])] at hp
  unfold expired
  rw [AList.entries_insert, List.filter_cons_of_neg (by simp [hq])]
  exact hp

theorem expired_perm (hd : p.isDue now = true) (hr : p.retriesLeft = 0) :
    (expired now m).Perm ((seq, p.dest) :: expired now (m.erase seq)) := by
  have hp := ((m.perm_erase h).filter fun e => e.2.isDue now ∧ e.2.retriesLeft = 0).map fun e => (e.1, e.2.dest)
  rwa [List.filter_cons_of_pos (by simp [hd, hr])] at hp

theorem resendable_erase_perm (hr : p.retriesLeft = 0) : (resendable now m).Perm (resendable now (m.erase seq)) := by
  have hp := ((m.perm_erase h).filter fun e => e.2.isDue now ∧ e.2.retriesLeft ≠ 0).map fun e => (e.2.data, e.2.dest)
  rwa [List.filter_cons_of_neg (by simp [hr])] at hp

end

end

/-! ## What a tick does -/

structure Progress (now : Instant) (ch₀ : ReliableChannel) (s : Ticked) : Prop where
  covers : s.ch.Covers
  tuning : s.ch.tuning = ch₀.tuning
  resent : (s.out ++ resendable now s.ch.pending).Perm (resendable now ch₀.pending)
  failed : (s.permanentFailures ++ expired now s.ch.pending).Perm (expired now ch₀.pending)
  pending : ∀ seq, s.ch.pending.lookup seq = ch₀.pending.lookup seq ∨
    s.ch.pending.lookup seq = (ch₀.pending.lookup seq).bind (·.afterTick ch₀.tuning now)

section
variable {ch₀ : ReliableChannel} {s : Ticked} {seq : UInt32} {p : PendingPacket} {now : Instant}

theorem Progress.unfired (h : Progress now ch₀ s) (hp : s.ch.pending.lookup seq = some p) (hd : p.isDue now = true) :
    ch₀.pending.lookup seq = some p := by
  rcases h.pending seq with heq | heq
  · rw [← heq]; exact hp
  rw [hp] at heq
  obtain ⟨p₀, _, hafter⟩ := Option.bind_eq_some_iff.mp heq.symm
  rw [PendingPacket.not_due_of_afterTick hafter] at hd
  cases hd

theorem Progress.pending_set (h : Progress now ch₀ s) (hp : ch₀.pending.lookup seq = some p)
    (hm : ∀ k, m.lookup k = if k = seq then p.afterTick ch₀.tuning now else s.ch.pending.lookup k) (k : UInt32) :
    m.lookup k = ch₀.pending.lookup k ∨ m.lookup k = (ch₀.pending.lookup k).bind (·.afterTick ch₀.tuning now) := by
  rw [hm k]
  by_cases hk : k = seq
  · subst hk
    rw [if_pos rfl, hp]
    exact .inr rfl
  rw [if_neg hk]
  exact h.pending k

section
variable {rest : List Due} (hs : rest.Pairwise Due.before)
  (hothers : ∀ k q, k ≠ seq → s.ch.pending.lookup k = some q → ∃ t, q.nextAt = some t ∧ (t, k) ∈ rest)
include hs hothers

section
variable (h : Progress now ch₀ s) (hp : s.ch.pending.lookup seq = some p) (hdue : p.isDue now = true)
include h hp hdue

theorem Progress.giveUp (hr : p.retriesLeft = 0) :
    Progress now ch₀ (Ticked.fire { s with ch := { s.ch with dueHeap := rest } } now seq p) := by
  have hafter : p.afterTick ch₀.tuning now = none := by
    unfold PendingPacket.afterTick
    rw [if_pos hdue, if_pos hr]
  unfold Ticked.fire
  rw [if_pos hr]
  refine ⟨⟨hs, fun k q hq => ?_⟩, h.tuning, ?_, ?_, h.pending_set (h.unfired hp hdue) fun k => ?_⟩
  · replace hq : (s.ch.pending.erase seq).lookup k = some q := hq
    rw [lookup_erase_eq] at hq
    split at hq
    · cases hq
    rename_i hk
    exact hothers k q hk hq
  · exact ((resendable_erase_perm hp hr).symm.append_left s.out).trans h.resent
  · refine (List.Perm.trans ?_ h.failed)
    rw [List.append_assoc]
    exact (expired_perm hp hdue hr).symm.append_left s.permanentFailures
  · rw [hafter]
    exact lookup_erase_eq s.ch.pending seq k

theorem Progress.resend (hr : p.retriesLeft ≠ 0) :
    Progress now ch₀ (Ticked.fire { s with ch := { s.ch with dueHeap := rest } } now seq p) := by
  have hafter : p.afterTick ch₀.tuning now = some (p.again s.ch.tuning now) := by
    unfold PendingPacket.afterTick
    rw [if_pos hdue, if_neg hr, h.tuning]
  have hq : (p.again s.ch.tuning now).isDue now = false := PendingPacket.isDue_again
  unfold Ticked.fire
  rw [if_neg hr]
  refine ⟨?_, h.tuning, ?_, ?_, h.pending_set (h.unfired hp hdue) fun k => ?_⟩
  · exact ReliableChannel.covers_push (p := p.again s.ch.tuning now) rfl rfl hs hothers
  · refine (List.Perm.trans ?_ h.resent)
    rw [List.append_assoc]
    exact (resendable_perm hp hdue hr hq).symm.append_left s.out
  · exact ((expired_insert_perm hp hr hq).symm.append_left s.permanentFailures).trans h.failed
  · rw [hafter]
    exact HashMap.lookup_insert_eq s.ch.pending seq k _

end

end

theorem Progress.fire (h : Progress now ch₀ s) {rest : List Due}
    (hs : rest.Pairwise Due.before) (hheap : ∀ due ∈ s.ch.dueHeap, s.ch.valid due = true → due = (t, seq) ∨
      due ∈ rest)
    (hp : s.ch.pending.lookup seq = some p) (ht : p.nextAt = some t) (hle : t ≤ now) :
    Progress now ch₀ (Ticked.fire { s with ch := { s.ch with dueHeap := rest } } now seq p) := by
  have hdue : p.isDue now = true := PendingPacket.isDue_iff.mpr ⟨t, ht, hle⟩
  have hothers : ∀ k q, k ≠ seq → s.ch.pending.lookup k = some q → ∃ t, q.nextAt = some t ∧ (t, k) ∈ rest := by
    intro k q hk hq
    obtain ⟨t', ht', hmem, hv⟩ := h.covers.valid hq
    refine ⟨t', ht', ?_⟩
    rcases hheap _ hmem hv with heq | hmem
    · cases heq
      exact absurd rfl hk
    exact hmem
  by_cases hr : p.retriesLeft = 0
  · exact h.giveUp hs hothers hp hdue hr
  exact h.resend hs hothers hp hdue hr

structure Stops (now : Instant) (ch₀ : ReliableChannel) (s : Ticked) : Prop extends Progress now ch₀ s where
  none_due : ∀ seq p, s.ch.pending.lookup seq = some p → p.isDue now = false
  due : s.ch.nextDueAt = s.ch.earliest

theorem Progress.popStale (h : Progress now ch₀ s) : Progress now ch₀ { s with ch := s.ch.popStaleDueHeapTop } :=
  ⟨h.covers.popStale, h.tuning, h.resent, h.failed, h.pending⟩

theorem Progress.stops (h : Progress now ch₀ s) {heap : List Due} (hheap : s.ch.dueHeap = heap) {due : Option Instant}
    (hdue : due = s.ch.earliest) (hnone : ∀ seq p, s.ch.pending.lookup seq = some p → p.isDue now = false) :
    Stops now ch₀ { s with ch := { s.ch with dueHeap := heap, nextDueAt := due } } := by
  subst hheap
  exact ⟨⟨⟨h.covers.sorted, h.covers.covered⟩, h.tuning, h.resent, h.failed, h.pending⟩, hnone, hdue⟩

theorem not_due_before_earliest (h : s.ch.earliest = some t) (hlater : now < t)
    (hp : s.ch.pending.lookup seq = some p) : p.isDue now = false := by
  obtain ⟨_, hmin⟩ := ReliableChannel.earliest_eq_some_iff.mp h
  rw [Bool.eq_false_iff]
  intro hdue
  obtain ⟨t', ht', hle⟩ := PendingPacket.isDue_iff.mp hdue
  exact absurd (lt_of_lt_of_le hlater (hmin seq p t' hp ht')) (not_lt.mpr hle)

theorem Progress.loop {fuel : Nat} {r : Ticked} (h : Progress now ch₀ s) (hr : Ticked.loop now fuel s = some r) :
    Stops now ch₀ r := by
  induction fuel generalizing s with
  | zero => cases hr
  | succ fuel ih =>
    have htop := h.covers.top_eq_earliest
    have hpop := h.popStale
    unfold Ticked.loop at hr
    dsimp only at hr
    cases hheap : s.ch.popStaleDueHeapTop.dueHeap with
    | nil =>
      have hempty := hpop.covers.entries_eq_nil hheap
      rw [hheap] at hr htop
      dsimp only at hr hempty
      rw [if_pos hempty] at hr
      cases hr
      refine hpop.stops hheap htop fun seq p hp => ?_
      have hmem := (lookup_eq_some_iff _).mp hp
      rw [hempty] at hmem
      cases hmem
    | cons top rest =>
      obtain ⟨t, seq⟩ := top
      rw [hheap] at hr htop
      obtain ⟨p, hp, hat⟩ := ReliableChannel.valid_iff.mp (ReliableChannel.valid_of_popStale hheap)
      dsimp only at hr
      split at hr
      · rename_i hlater
        cases hr
        exact hpop.stops hheap htop fun k q hq => not_due_before_earliest htop.symm hlater hq
      rename_i hle
      have hp' : s.ch.popStaleDueHeapTop.pending.lookup seq = some p := hp
      rw [hp'] at hr
      dsimp only at hr
      rw [if_neg (not_not.mpr hat)] at hr
      have hsorted : ((t, seq) :: rest).Pairwise Due.before := hheap ▸ hpop.covers.sorted
      refine ih (hpop.fire hsorted.of_cons (fun due hmem _ => ?_) hp' hat (not_lt.mp hle)) hr
      replace hmem : due ∈ s.ch.popStaleDueHeapTop.dueHeap := hmem
      rw [hheap] at hmem
      exact List.mem_cons.mp hmem

end

namespace ReliableChannel

variable {ch : ReliableChannel}

theorem Exact.tickInto (h : ch.Exact) (now : Instant) : Stops now ch (ch.tickInto now) := by
  unfold ReliableChannel.tickInto
  split
  · rename_i hempty
    have hnone : ∀ seq p, ch.pending.lookup seq ≠ some p := by
      intro seq p hp
      rw [lookup_eq_some_iff, hempty] at hp
      cases hp
    refine ⟨⟨⟨.nil, fun seq p hp => absurd hp (hnone seq p)⟩, rfl, .refl _, .refl _, fun _ => .inl rfl⟩,
      fun seq p hp => absurd hp (hnone seq p), ?_⟩
    unfold earliest
    simp only [hempty]
    rfl
  have hstart : Progress now ch ⟨ch, [], []⟩ := ⟨h.toCovers, rfl, .refl _, .refl _, fun _ => .inl rfl⟩
  exact hstart.loop (Option.some_get _).symm

theorem Exact.step (h : ch.Exact) (op : Op) : (ch.step op).1.Exact := by
  cases op with
  | send inner body dest hint now => exact h.send
  | markSent seq sentAt => exact h.markSent
  | onAck seq fromEp now => exact h.onAck
  | migrateDest oldDest newDest => exact h.migrateDest
  | flushDest dest => exact h.flushDest
  | applyTuning t => exact ⟨⟨h.sorted, h.covered⟩, h.due⟩
  | tickInto now => exact ⟨(h.tickInto now).covers, (h.tickInto now).due⟩

theorem exact_before (ops : List Op) (i : Nat) : (before ops i).Exact := by
  have hnew : ReliableChannel.new.Exact := by
    refine ⟨⟨.nil, fun seq p hp => ?_⟩, rfl⟩
    cases hp
  exact Machine.invariant_all hnew (fun ch op h => Exact.step h op) i

theorem Exact.due_eq_none_iff (h : ch.Exact) : ch.nextDueAt = none ↔ ch.pending.entries = [] := by
  rw [h.due]
  unfold earliest
  rw [List.min?_eq_none_iff, List.filterMap_eq_nil_iff]
  constructor
  · intro hall
    refine List.eq_nil_iff_forall_not_mem.mpr fun e he => ?_
    obtain ⟨t, ht, _⟩ := h.covered e.1 e.2 ((lookup_eq_some_iff _).mpr he)
    rw [hall e he] at ht
    cases ht
  intro hempty e he
  rw [hempty] at he
  cases he

/-- The timers are exact all along a run: the deadline told is the earliest of the pending packets, and a tick
sends again and gives up exactly the packets that are due, each once, and leaves the others as they are. -/
theorem timers_exact (ops : List Op) (i : Nat) : (before ops i).nextDueAt =
    ((before ops i).pending.entries.filterMap (·.2.nextAt)).min? ∧
    ((before ops i).nextDueAt = none ↔ (before ops i).pending.entries = []) ∧ ∀ now,
    ((before ops i).tickInto now).out.Perm (resendable now (before ops i).pending) ∧
    ((before ops i).tickInto now).permanentFailures.Perm (expired now (before ops i).pending) ∧ ∀ seq,
    ((before ops i).tickInto now).ch.pending.lookup seq = ((before ops i).pending.lookup seq).bind
    (·.afterTick (before ops i).tuning now) := by
  have h := exact_before ops i
  refine ⟨h.due, h.due_eq_none_iff, fun now => ?_⟩
  have hstop := h.tickInto now
  have hresent : resendable now ((before ops i).tickInto now).ch.pending = [] := by
    refine List.map_eq_nil_iff.mpr (List.filter_eq_nil_iff.mpr fun e he => ?_)
    simp [hstop.none_due e.1 e.2 ((lookup_eq_some_iff _).mpr he)]
  have hexpired : expired now ((before ops i).tickInto now).ch.pending = [] := by
    refine List.map_eq_nil_iff.mpr (List.filter_eq_nil_iff.mpr fun e he => ?_)
    simp [hstop.none_due e.1 e.2 ((lookup_eq_some_iff _).mpr he)]
  refine ⟨?_, ?_, fun seq => ?_⟩
  · have hperm := hstop.resent
    rwa [hresent, List.append_nil] at hperm
  · have hperm := hstop.failed
    rwa [hexpired, List.append_nil] at hperm
  rcases hstop.pending seq with hsame | hfired
  · rw [hsame]
    cases hp : (before ops i).pending.lookup seq with
    | none => rfl
    | some p =>
      have hdue := hstop.none_due seq p (hsame.trans hp)
      show some p = p.afterTick _ _
      unfold PendingPacket.afterTick
      rw [hdue]
      rfl
  · exact hfired

def twoPackets : List Op :=
  [.send .joinAck [123, 125] (.v4 0xC0A80102 7777) none 0,
    .send .joinAck [91, 93] (.v4 0xC0A80103 7777) none (secs 1)]

example : (before twoPackets 2).nextDueAt = some (millis 300) ∧
    ((before twoPackets 2).tickInto (secs 1)).out = [(reliablePacket 1 .joinAck [123, 125], .v4 0xC0A80102 7777)] ∧
    ((before twoPackets 2).tickInto (secs 1)).ch.nextDueAt = some (secs 1 + millis 300) := by decide

end ReliableChannel

end ConnectUnit.Reliable
