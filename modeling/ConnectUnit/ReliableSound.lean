import Mathlib.Algebra.BigOperators.Intervals
import ConnectUnit.Reliable

/-!
# The life of a reliable packet

A packet that is queued stays pending until it is acknowledged, flushed or given up, and exactly one of these happens
to it.
-/

open Machine (emitAt emitAt_mem stateAt_succ)

namespace ConnectUnit.Reliable

variable {seq seq' : UInt32} {inner : CompactPacketType} {body packet : Bytes} {ch ch' : ReliableChannel}
variable {I : Ticked → Prop} {now : Instant} {dest : SocketAddr} {hint : Option Int} {e : Ending} {op : Op}
variable {j retries : Nat}

theorem reliablePacket_seq_inj {inner' : CompactPacketType} {body' : Bytes}
    (h : reliablePacket seq inner body = reliablePacket seq' inner' body') : seq = seq' := by
  unfold reliablePacket at h
  have h' := List.append_inj (List.cons.inj h).2 rfl
  exact u32ToBeBytes_inj h'.1

def ReliableChannel.Keyed (ch : ReliableChannel) : Prop :=
  ∀ seq p, ch.pending.lookup seq = some p → ∃ inner body, p.data = reliablePacket seq inner body

theorem ReliableChannel.Keyed.insert (h : ch.Keyed) {p : PendingPacket}
    (hp : ∃ inner body, p.data = reliablePacket seq inner body) :
    Keyed { ch with pending := ch.pending.insert seq p } := by
  intro k q hq
  rw [HashMap.lookup_insert_eq] at hq
  by_cases hk : k = seq
  · rw [if_pos hk] at hq
    cases hq
    exact hk ▸ hp
  rw [if_neg hk] at hq
  exact h k q hq

theorem ReliableChannel.Keyed.erase (h : ch.Keyed) : Keyed { ch with pending := ch.pending.erase seq } := by
  intro k q hq
  rw [HashMap.lookup_erase_eq] at hq
  by_cases hk : k = seq
  · rw [if_pos hk] at hq; cases hq
  rw [if_neg hk] at hq
  exact h k q hq

/-! ## Within a tick -/

namespace Ticked

theorem loop_invariant
    (hheap : ∀ s heap due, I s → I { s with ch := { s.ch with dueHeap := heap, nextDueAt := due } })
    (hfire : ∀ s seq p, s.ch.pending.lookup seq = some p → I s → I (s.fire now seq p)) {fuel : Nat} {s r : Ticked}
    (h : loop now fuel s = some r) (hI : I s) : I r := by
  induction fuel generalizing s with
  | zero => cases h
  | succ fuel ih =>
    unfold loop at h
    dsimp only at h
    split at h
    · split at h
      · cases h
        exact hheap s _ _ hI
      · obtain ⟨heap, due, hb⟩ := s.ch.popStaleDueHeapTop.rebuild_eq
        rw [hb] at h
        split at h
        · cases h
          exact hheap s _ _ hI
        exact ih h (hheap s _ _ hI)
    split at h
    · cases h
      exact hheap s _ _ hI
    rename_i rest _ _
    have hI' := hheap s rest s.ch.nextDueAt hI
    split at h
    · exact ih h hI'
    rename_i p hp
    split at h
    · exact ih h hI'
    exact ih h (hfire _ _ p hp hI')

def resends (s : Ticked) (data : Bytes) : Nat := s.out.countP (·.1 = data)

def failures (s : Ticked) (seq : UInt32) : Nat := s.permanentFailures.countP (·.1 = seq)

inductive Fate (seq : UInt32) (data : Bytes) (r : Nat) (s : Ticked) : Prop where
  | pending {p : PendingPacket} (found : s.ch.pending.lookup seq = some p) (same : p.data = data)
      (spent : s.resends data + p.retriesLeft = r) (quiet : s.failures seq = 0)
  | failed (gone : s.ch.pending.lookup seq = none) (spent : s.resends data ≤ r) (once : s.failures seq = 1)

structure Unknown (seq : UInt32) (data : Bytes) (s : Ticked) : Prop where
  gone : s.ch.pending.lookup seq = none
  unsent : s.resends data = 0
  quiet : s.failures seq = 0

section
variable {s : Ticked} {now : Instant} {k : UInt32} {q : PendingPacket}

theorem fire_keyed (h : s.ch.Keyed) (hq : s.ch.pending.lookup k = some q) : (s.fire now k q).ch.Keyed := by
  unfold fire
  split
  · exact h.erase
  exact h.insert (h k q hq)

theorem fire_other (s : Ticked) (now : Instant) (hne : seq ≠ k) {data : Bytes} (hdata : q.data ≠ data) :
    (s.fire now k q).ch.pending.lookup seq = s.ch.pending.lookup seq ∧ (s.fire now k q).resends data = s.resends data
    ∧ (s.fire now k q).failures seq = s.failures seq := by
  unfold fire
  split
  · refine ⟨?_, rfl, ?_⟩
    · exact (HashMap.lookup_erase_eq _ k seq).trans (if_neg hne)
    · simp [failures, Ne.symm hne]
  refine ⟨?_, ?_, rfl⟩
  · exact (HashMap.lookup_insert_eq _ k seq _).trans (if_neg hne)
  simp [resends, hdata]

theorem data_ne (hk : s.ch.Keyed) (hq : s.ch.pending.lookup k = some q) (hne : seq ≠ k)
    (inner : CompactPacketType) (body : Bytes) : q.data ≠ reliablePacket seq inner body := by
  intro he
  obtain ⟨inner', body', hd⟩ := hk k q hq
  exact hne (reliablePacket_seq_inj (he.symm.trans hd))

theorem Unknown.fire (h : Unknown seq (reliablePacket seq inner body) s) (hk : s.ch.Keyed)
    (hq : s.ch.pending.lookup k = some q) : Unknown seq (reliablePacket seq inner body) (s.fire now k q) := by
  have hne : seq ≠ k := by
    intro he
    rw [← he, h.gone] at hq
    cases hq
  obtain ⟨hl, hr, hf⟩ := fire_other s now hne (data_ne hk hq hne inner body)
  exact ⟨hl.trans h.gone, hr.trans h.unsent, hf.trans h.quiet⟩

theorem Fate.fire {r : Nat} (h : Fate seq (reliablePacket seq inner body) r s) (hk : s.ch.Keyed)
    (hq : s.ch.pending.lookup k = some q) : Fate seq (reliablePacket seq inner body) r (s.fire now k q) := by
  by_cases hne : seq = k
  · subst hne
    cases h with
    | failed gone _ _ => rw [gone] at hq; cases hq
    | pending found same spent quiet =>
      rw [found] at hq
      cases hq
      unfold Ticked.fire
      split
      · rename_i hr
        refine .failed ?_ ?_ ?_
        · exact (HashMap.lookup_erase_eq _ seq seq).trans (if_pos rfl)
        · exact Nat.le_of_add_right_le (Nat.le_of_eq spent)
        simp only [failures] at quiet ⊢
        simp [quiet]
      rename_i hr
      refine .pending ((HashMap.lookup_insert_eq _ seq seq _).trans (if_pos rfl)) same ?_ quiet
      simp only [resends] at spent ⊢
      rw [List.countP_append, same]
      simp only [List.countP_singleton, decide_true, if_true]
      omega
  · obtain ⟨hl, hr, hf⟩ := fire_other s now hne (data_ne hk hq hne inner body)
    cases h with
    | pending found same spent quiet =>
      exact .pending (hl.trans found) same (by rw [hr]; exact spent) (hf.trans quiet)
    | failed gone spent once => exact .failed (hl.trans gone) (by rw [hr]; exact spent) (hf.trans once)

end

end Ticked

/-! ## One operation -/

def ReliableChannel.Output.resends (data : Bytes) : Output → Bool
  | .resend packet _ => packet = data
  | _ => false

def ReliableChannel.Output.fails (seq : UInt32) : Output → Bool
  | .failed seq' _ => seq' = seq
  | _ => false

inductive Ending where
  | acked
  | flushed
  | failed
  deriving DecidableEq

namespace ReliableChannel

def Ends (ch : ReliableChannel) (op : Op) (seq : UInt32) : Ending → Prop
  | .acked => ∃ fromEp now p, op = .onAck seq fromEp now ∧ ch.pending.lookup seq = some p ∧ fromEp.ip = p.dest.ip
  | .flushed => ∃ dest p, op = .flushDest dest ∧ ch.pending.lookup seq = some p ∧ p.dest = dest
  | .failed => ∃ o ∈ (ch.step op).2, o.fails seq = true

def Queues (ch : ReliableChannel) (op : Op) (seq : UInt32) : Prop :=
  ∃ packet, Output.sent (.queued seq packet) ∈ (ch.step op).2

structure Kept (seq : UInt32) (p : PendingPacket) (r : ReliableChannel × List Output) : Prop where
  found : ∃ p', r.1.pending.lookup seq = some p' ∧ p'.data = p.data ∧
    r.2.countP (Output.resends p.data) + p'.retriesLeft = p.retriesLeft
  quiet : r.2.countP (Output.fails seq) = 0

structure Left (seq : UInt32) (p : PendingPacket) (r : ReliableChannel × List Output) : Prop where
  gone : r.1.pending.lookup seq = none
  spent : r.2.countP (Output.resends p.data) ≤ p.retriesLeft
  once : r.2.countP (Output.fails seq) ≤ 1

section
variable {ch : ReliableChannel} {op : Op} {seq : UInt32} {p : PendingPacket}

theorem countP_fails_eq_zero : (ch.step op).2.countP (Output.fails seq) = 0 ↔ ¬ ch.Ends op seq .failed := by
  rw [List.countP_eq_zero]
  constructor
  · intro h hends
    obtain ⟨o, ho, hf⟩ := hends
    exact h o ho hf
  intro h o ho hf
  exact h ⟨o, ho, hf⟩

theorem step_tick_counts (ch : ReliableChannel) (now : Instant) (seq : UInt32) (data : Bytes) :
    (ch.step (.tickInto now)).2.countP (Output.resends data) = (ch.tickInto now).resends data ∧
    (ch.step (.tickInto now)).2.countP (Output.fails seq) = (ch.tickInto now).failures seq := by
  have hout : ∀ l : List (Bytes × SocketAddr),
      (l.map fun e => Output.resend e.1 e.2).countP (Output.resends data) = l.countP (·.1 = data) ∧
        (l.map fun e => Output.resend e.1 e.2).countP (Output.fails seq) = 0 := by
    intro l
    rw [List.countP_map, List.countP_map, List.countP_eq_zero]
    exact ⟨rfl, fun _ _ h => nomatch h⟩
  have hfail : ∀ l : List (UInt32 × SocketAddr),
      (l.map fun e => Output.failed e.1 e.2).countP (Output.resends data) = 0 ∧
        (l.map fun e => Output.failed e.1 e.2).countP (Output.fails seq) = l.countP (·.1 = seq) := by
    intro l
    rw [List.countP_map, List.countP_map, List.countP_eq_zero]
    exact ⟨fun _ _ h => (nomatch h), rfl⟩
  simp only [step, List.countP_append, hout, hfail, Nat.add_zero, Nat.zero_add]
  exact ⟨rfl, rfl⟩

theorem tickInto_invariant (ch : ReliableChannel) (now : Instant)
    (hheap : ∀ s heap due, I s → I { s with ch := { s.ch with dueHeap := heap, nextDueAt := due } })
    (hfire : ∀ s seq p, s.ch.pending.lookup seq = some p → I s → I (s.fire now seq p)) (h : I ⟨ch, [], []⟩) :
    I (ch.tickInto now) := by
  unfold tickInto
  split
  · exact hheap ⟨ch, [], []⟩ _ _ h
  exact Ticked.loop_invariant hheap hfire (Option.some_get _).symm h

theorem tickInto_keyed (hk : ch.Keyed) : (ch.tickInto now).ch.Keyed := by
  exact tickInto_invariant _ _ (I := fun s => s.ch.Keyed) (fun _ _ _ h => h)
    (fun s seq p hp h => Ticked.fire_keyed h hp) hk

theorem tickInto_unknown (hk : ch.Keyed) (hp : ch.pending.lookup seq = none) (now : Instant)
    (inner : CompactPacketType) (body : Bytes) :
    Ticked.Unknown seq (reliablePacket seq inner body) (ch.tickInto now) := by
  have h := tickInto_invariant ch now
    (I := fun s => s.ch.Keyed ∧ Ticked.Unknown seq (reliablePacket seq inner body) s)
    (fun _ _ _ h => ⟨h.1, ⟨h.2.gone, h.2.unsent, h.2.quiet⟩⟩)
    (fun s k q hq h => ⟨Ticked.fire_keyed h.1 hq, h.2.fire h.1 hq⟩) ⟨hk, ⟨hp, rfl, rfl⟩⟩
  exact h.2

theorem tickInto_fate (hk : ch.Keyed) (hp : ch.pending.lookup seq = some p) (now : Instant) :
    Ticked.Fate seq p.data p.retriesLeft (ch.tickInto now) := by
  obtain ⟨inner, body, hd⟩ := hk seq p hp
  rw [hd]
  have h := tickInto_invariant ch now
    (I := fun s => s.ch.Keyed ∧ Ticked.Fate seq (reliablePacket seq inner body) p.retriesLeft s) ?_
    (fun s k q hq h => ⟨Ticked.fire_keyed h.1 hq, h.2.fire h.1 hq⟩) ⟨hk, .pending hp hd (Nat.zero_add _) rfl⟩
  · exact h.2
  intro s heap due h
  refine ⟨h.1, ?_⟩
  cases h.2 with
  | pending found same spent quiet => exact .pending found same spent quiet
  | failed gone spent once => exact .failed gone spent once

/-! ## The other operations -/

theorem markSent_lookup (ch : ReliableChannel) (seq : UInt32) (sentAt : Instant) (k : UInt32) : ∃ f : PendingPacket →
    PendingPacket, (∀ p, (f p).data = p.data ∧ (f p).retriesLeft = p.retriesLeft) ∧
    (ch.markSent seq sentAt).pending.lookup k = (ch.pending.lookup k).map f := by
  have hsame : ∃ f : PendingPacket → PendingPacket, (∀ p, (f p).data = p.data ∧ (f p).retriesLeft = p.retriesLeft) ∧
      ch.pending.lookup k = (ch.pending.lookup k).map f := ⟨id, fun _ => ⟨rfl, rfl⟩, Option.map_id_apply.symm⟩
  unfold markSent
  split
  · exact hsame
  rename_i p hp
  split
  · exact hsame
  by_cases hk : k = seq
  · subst hk
    refine ⟨fun q => { q with actualSentAt := some sentAt, nextAt := some (sentAt + millis p.rtoMs) },
      fun _ => ⟨rfl, rfl⟩, ?_⟩
    rw [hp]
    exact (HashMap.lookup_insert_eq ch.pending k k _).trans (if_pos rfl)
  obtain ⟨f, hf, he⟩ := hsame
  exact ⟨f, hf, ((HashMap.lookup_insert_eq ch.pending seq k _).trans (if_neg hk)).trans he⟩

theorem migrateDest_lookup (ch : ReliableChannel) (oldDest newDest : SocketAddr) (k : UInt32) : ∃ f : PendingPacket →
    PendingPacket, (∀ p, (f p).data = p.data ∧ (f p).retriesLeft = p.retriesLeft) ∧
    (ch.migrateDest oldDest newDest).pending.lookup k = (ch.pending.lookup k).map f := by
  unfold migrateDest
  split
  · exact ⟨id, fun _ => ⟨rfl, rfl⟩, Option.map_id_apply.symm⟩
  refine ⟨_, fun p => ?_, HashMap.lookup_mapVals ch.pending _ k⟩
  split
  · exact ⟨rfl, rfl⟩
  exact ⟨rfl, rfl⟩

theorem flushDest_lookup (ch : ReliableChannel) (dest : SocketAddr) (k : UInt32) :
    (ch.flushDest dest).pending.lookup k = (ch.pending.lookup k).filter fun p => p.dest ≠ dest := by
  unfold flushDest
  obtain ⟨heap, due, h⟩ := rebuild_eq { ch with pending := ch.pending.retain fun _ p => p.dest ≠ dest }
  rw [h]
  exact HashMap.lookup_retain ch.pending _ k

theorem onAck_lookup (ch : ReliableChannel) (seq : UInt32) (fromEp : SocketAddr) (now : Instant) (k : UInt32) :
    (ch.onAck seq fromEp now).pending.lookup k = if k = seq ∧ (ch.pending.lookup seq).any
    (fun p => fromEp.ip = p.dest.ip) then none else ch.pending.lookup k := by
  unfold onAck
  cases hp : ch.pending.lookup seq with
  | none => simp
  | some p =>
    dsimp only
    have hip : fromEp = p.dest ∨ fromEp.ip = p.dest.ip ↔ fromEp.ip = p.dest.ip :=
      ⟨fun h => h.elim (fun he => he ▸ rfl) id, .inr⟩
    by_cases hm : fromEp.ip = p.dest.ip
    · rw [if_pos (hip.mpr hm)]
      have hpend : ∀ c : ReliableChannel, (c.updateRtt p now).pending = c.pending := by
        intro c
        unfold updateRtt
        split <;> rfl
      show (updateRtt { ch with pending := ch.pending.erase seq } p now).pending.lookup k = _
      rw [hpend, HashMap.lookup_erase_eq]
      simp [hm]
    rw [if_neg fun h => hm (hip.mp h)]
    simp [hm]

theorem send_cases (ch : ReliableChannel) (inner : CompactPacketType) (body : Bytes) (dest : SocketAddr)
    (hint : Option Int) (now : Instant) : ch.send inner body dest hint now = (ch, .backpressure) ∨
    (ch.send inner body dest hint now).2 = .queued ch.nextSeq (reliablePacket ch.nextSeq inner body) ∧
    (ch.send inner body dest hint now).1.nextSeq = ch.nextSeq + 1 ∧ ∃ p : PendingPacket, p.data = reliablePacket
    ch.nextSeq inner body ∧ p.retriesLeft = ch.tuning.retriesLeft ∧ ∀ k,
    (ch.send inner body dest hint now).1.pending.lookup k = if k = ch.nextSeq then some p else ch.pending.lookup
    k := by
  unfold send
  split
  · exact .inl rfl
  exact .inr ⟨rfl, rfl, _, rfl, rfl, fun k => HashMap.lookup_insert_eq ch.pending ch.nextSeq k _⟩

theorem Keyed.of_map (hk : ch.Keyed)
    (h : ∀ k, ∃ f : PendingPacket → PendingPacket, (∀ p, (f p).data = p.data ∧ (f p).retriesLeft = p.retriesLeft) ∧
      ch'.pending.lookup k = (ch.pending.lookup k).map f) : ch'.Keyed := by
  intro k q hq
  obtain ⟨f, hf, hl⟩ := h k
  rw [hl] at hq
  obtain ⟨p, hp, rfl⟩ := Option.map_eq_some_iff.mp hq
  rw [(hf p).1]
  exact hk k p hp

theorem Keyed.of_sub (hk : ch.Keyed)
    (h : ∀ k q, ch'.pending.lookup k = some q → ch.pending.lookup k = some q) : ch'.Keyed :=
  fun k q hq => hk k q (h k q hq)

theorem Keyed.step (hk : ch.Keyed) (op : Op) : (ch.step op).1.Keyed := by
  cases op with
  | send inner body dest hint now =>
    rcases send_cases ch inner body dest hint now with h | ⟨_, _, p, hd, _, hl⟩
    · simp only [ReliableChannel.step, h]
      exact hk
    intro k q hq
    replace hq : (ch.send inner body dest hint now).1.pending.lookup k = some q := hq
    rw [hl] at hq
    by_cases hkn : k = ch.nextSeq
    · rw [if_pos hkn] at hq
      cases hq
      exact ⟨inner, body, hkn ▸ hd⟩
    rw [if_neg hkn] at hq
    exact hk k q hq
  | markSent seq sentAt => exact hk.of_map fun k => markSent_lookup ch seq sentAt k
  | onAck seq fromEp now =>
    refine hk.of_sub fun k q hq => ?_
    replace hq : (ch.onAck seq fromEp now).pending.lookup k = some q := hq
    rw [onAck_lookup] at hq
    split at hq
    · cases hq
    exact hq
  | migrateDest oldDest newDest => exact hk.of_map fun k => migrateDest_lookup ch oldDest newDest k
  | flushDest dest =>
    refine hk.of_sub fun k q hq => ?_
    replace hq : (ch.flushDest dest).pending.lookup k = some q := hq
    rw [flushDest_lookup] at hq
    exact (Option.filter_eq_some_iff.mp hq).1
  | applyTuning t => exact hk
  | tickInto now => exact tickInto_keyed hk

theorem send_of_queued (h : Output.sent (.queued seq packet) ∈ (ch.step op).2) : ∃ inner body dest hint now, op =
    .send inner body dest hint now ∧ seq = ch.nextSeq ∧ packet = reliablePacket seq inner body := by
  cases op with
  | send inner body dest hint now =>
    refine ⟨inner, body, dest, hint, now, rfl, ?_⟩
    have hsent : SendResult.queued seq packet = (ch.send inner body dest hint now).2 :=
      Output.sent.inj (List.mem_singleton.mp h)
    rcases send_cases ch inner body dest hint now with hb | ⟨hres, _⟩
    · rw [hb] at hsent
      cases hsent
    rw [hres] at hsent
    cases hsent
    exact ⟨rfl, rfl⟩
  | tickInto now => simp [step] at h
  | markSent | onAck | migrateDest | flushDest | applyTuning => cases h

theorem ne_nextSeq_of_not_queues
    (hres : (ch.send inner body dest hint now).2 = .queued ch.nextSeq (reliablePacket ch.nextSeq inner body))
    (hq : ¬ ch.Queues (.send inner body dest hint now) seq) : seq ≠ ch.nextSeq := by
  intro he
  refine hq ⟨reliablePacket ch.nextSeq inner body, ?_⟩
  simp only [step, hres, he, List.mem_singleton]

theorem ends_of_pending_none (hp : ch.pending.lookup seq = none) (h : ch.Ends op seq e) : e = .failed := by
  cases e with
  | acked =>
    obtain ⟨_, _, p, _, hl, _⟩ := h
    rw [hp] at hl; cases hl
  | flushed =>
    obtain ⟨_, p, _, hl, _⟩ := h
    rw [hp] at hl; cases hl
  | failed => rfl

theorem step_unknown (hk : ch.Keyed) (hp : ch.pending.lookup seq = none) (hq : ¬ ch.Queues op seq)
    (inner : CompactPacketType) (body : Bytes) : (ch.step op).1.pending.lookup seq = none ∧ (ch.step op).2.countP
    (Output.resends (reliablePacket seq inner body)) = 0 ∧ ∀ e, ¬ ch.Ends op seq e := by
  have hends : (ch.step op).2.countP (Output.fails seq) = 0 → ∀ e, ¬ ch.Ends op seq e := by
    intro h e he
    have hf := ends_of_pending_none hp he
    subst hf
    exact countP_fails_eq_zero.mp h he
  cases op with
  | send inner' body' dest hint now =>
    rcases send_cases ch inner' body' dest hint now with h | ⟨hres, _, p, _, _, hl⟩
    · refine ⟨?_, rfl, hends rfl⟩
      simp only [ReliableChannel.step, h]
      exact hp
    refine ⟨?_, rfl, hends rfl⟩
    exact (hl seq).trans ((if_neg (ne_nextSeq_of_not_queues hres hq)).trans hp)
  | markSent seq' sentAt =>
    obtain ⟨f, _, hl⟩ := markSent_lookup ch seq' sentAt seq
    exact ⟨hl.trans (by rw [hp]; rfl), rfl, hends rfl⟩
  | onAck seq' fromEp now =>
    refine ⟨?_, rfl, hends rfl⟩
    refine (onAck_lookup ch _ fromEp now seq).trans ?_
    rw [hp, ite_self]
  | migrateDest oldDest newDest =>
    obtain ⟨f, _, hl⟩ := migrateDest_lookup ch oldDest newDest seq
    exact ⟨hl.trans (by rw [hp]; rfl), rfl, hends rfl⟩
  | flushDest dest =>
    exact ⟨(flushDest_lookup ch dest seq).trans (by rw [hp]; rfl), rfl, hends rfl⟩
  | applyTuning t => exact ⟨hp, rfl, hends rfl⟩
  | tickInto now =>
    have h := tickInto_unknown hk hp now inner body
    obtain ⟨hr, hf⟩ := step_tick_counts ch now seq (reliablePacket seq inner body)
    exact ⟨h.gone, hr.trans h.unsent, hends (hf.trans h.quiet)⟩

theorem Kept.of_silent {p' : PendingPacket} (hl : ch'.pending.lookup seq = some p')
    (hd : p'.data = p.data) (hr : p'.retriesLeft = p.retriesLeft) : Kept seq p (ch', []) :=
  ⟨⟨p', hl, hd, by rw [hr]; exact Nat.zero_add _⟩, rfl⟩

theorem Left.of_silent (hl : ch'.pending.lookup seq = none) : Left seq p (ch', []) :=
  ⟨hl, Nat.zero_le _, Nat.zero_le _⟩

theorem no_ends (hack : ∀ fromEp now, op ≠ .onAck seq fromEp now) (hflush : ∀ dest, op ≠ .flushDest dest)
    (hfail : (ch.step op).2.countP (Output.fails seq) = 0) (e : Ending) : ¬ ch.Ends op seq e := by
  intro he
  cases e with
  | acked => obtain ⟨fromEp, now, _, hop, _⟩ := he; exact hack fromEp now hop
  | flushed => obtain ⟨dest, _, hop, _⟩ := he; exact hflush dest hop
  | failed => exact countP_fails_eq_zero.mp hfail he

/-! Each of the three operations that end a wait does it in its own way. -/

theorem ends_onAck {fromEp : SocketAddr} (h : ch.Ends (.onAck seq' fromEp now) seq e) : e = .acked := by
  cases e with
  | acked => rfl
  | flushed => obtain ⟨_, _, hop, _⟩ := h; cases hop
  | failed => obtain ⟨o, ho, _⟩ := h; cases ho

theorem ends_flushDest (h : ch.Ends (.flushDest dest) seq e) : e = .flushed := by
  cases e with
  | acked => obtain ⟨_, _, _, hop, _⟩ := h; cases hop
  | flushed => rfl
  | failed => obtain ⟨o, ho, _⟩ := h; cases ho

theorem ends_tickInto (h : ch.Ends (.tickInto now) seq e) : e = .failed := by
  cases e with
  | acked => obtain ⟨_, _, _, hop, _⟩ := h; cases hop
  | flushed => obtain ⟨_, _, hop, _⟩ := h; cases hop
  | failed => rfl

theorem step_pending (hk : ch.Keyed) (hp : ch.pending.lookup seq = some p) (hq : ¬ ch.Queues op seq) :
    (Kept seq p (ch.step op) ∧ ∀ e, ¬ ch.Ends op seq e) ∨
    (Left seq p (ch.step op) ∧ ∃ e, ch.Ends op seq e ∧ ∀ e', ch.Ends op seq e' → e' = e) := by
  cases op with
  | send inner' body' dest hint now =>
    refine .inl ⟨⟨⟨p, ?_, rfl, Nat.zero_add _⟩, rfl⟩, no_ends nofun nofun rfl⟩
    rcases send_cases ch inner' body' dest hint now with h | ⟨hres, _, p', _, _, hl⟩
    · simp only [ReliableChannel.step, h]
      exact hp
    exact (hl seq).trans ((if_neg (ne_nextSeq_of_not_queues hres hq)).trans hp)
  | markSent seq' sentAt =>
    obtain ⟨f, hf, hl⟩ := markSent_lookup ch seq' sentAt seq
    rw [hp] at hl
    exact .inl ⟨.of_silent hl (hf p).1 (hf p).2, no_ends nofun nofun rfl⟩
  | onAck seq' fromEp now =>
    have hl := onAck_lookup ch seq' fromEp now seq
    by_cases hm : seq = seq' ∧ (ch.pending.lookup seq').any fun p => fromEp.ip = p.dest.ip
    · rw [if_pos hm] at hl
      obtain ⟨rfl, hip⟩ := hm
      rw [hp] at hip
      simp only [Option.any_some, decide_eq_true_eq] at hip
      exact .inr ⟨.of_silent hl, .acked, ⟨fromEp, now, p, rfl, hp, hip⟩, fun e he => ends_onAck he⟩
    rw [if_neg hm] at hl
    refine .inl ⟨.of_silent (hl.trans hp) rfl rfl, fun e he => ?_⟩
    obtain rfl := ends_onAck he
    obtain ⟨_, _, p', hop, hp', hip⟩ := he
    cases hop
    refine hm ⟨rfl, ?_⟩
    rw [hp']
    simpa using hip
  | migrateDest oldDest newDest =>
    obtain ⟨f, hf, hl⟩ := migrateDest_lookup ch oldDest newDest seq
    rw [hp] at hl
    exact .inl ⟨.of_silent hl (hf p).1 (hf p).2, no_ends nofun nofun rfl⟩
  | flushDest dest =>
    have hl := flushDest_lookup ch dest seq
    rw [hp] at hl
    by_cases hd : p.dest = dest
    · exact .inr ⟨.of_silent (hl.trans (by simp [hd])), .flushed, ⟨dest, p, rfl, hp, hd⟩,
        fun e he => ends_flushDest he⟩
    refine .inl ⟨.of_silent (hl.trans (by simp [hd])) rfl rfl, fun e he => ?_⟩
    obtain rfl := ends_flushDest he
    obtain ⟨_, p', hop, hp', hd'⟩ := he
    cases hop
    rw [hp] at hp'
    cases hp'
    exact hd hd'
  | applyTuning t =>
    exact .inl ⟨.of_silent hp rfl rfl, no_ends nofun nofun rfl⟩
  | tickInto now =>
    obtain ⟨hr, hf⟩ := step_tick_counts ch now seq p.data
    cases tickInto_fate hk hp now with
    | pending found same spent quiet =>
      have hquiet := hf.trans quiet
      exact .inl ⟨⟨⟨_, found, same, by rw [hr]; exact spent⟩, hquiet⟩, no_ends nofun nofun hquiet⟩
    | failed gone spent once =>
      refine .inr ⟨⟨gone, by rw [hr]; exact spent, by rw [hf, once]⟩, .failed, ?_, fun e he => ends_tickInto he⟩
      refine Classical.byContradiction fun hno => ?_
      rw [countP_fails_eq_zero.mpr hno] at hf
      omega

/-! ## Sequence numbers -/

def Op.isSend : Op → Bool
  | .send .. => true
  | _ => false

theorem tickInto_nextSeq : (ch.tickInto now).ch.nextSeq = ch.nextSeq := by
  refine tickInto_invariant _ _ (I := fun s => s.ch.nextSeq = ch.nextSeq) (fun _ _ _ h => h) ?_ rfl
  intro s seq p _ h
  unfold Ticked.fire
  split
  · exact h
  exact h

theorem step_nextSeq_of_not_send {op : Op} (h : op.isSend = false) : (ch.step op).1.nextSeq = ch.nextSeq := by
  cases op with
  | send => cases h
  | markSent seq sentAt =>
    simp only [step, markSent]
    split
    · rfl
    split
    · rfl
    rfl
  | onAck seq fromEp now =>
    simp only [step, onAck]
    split
    · rfl
    split
    · simp only [refreshNextDueFromHeap, popStaleDueHeapTop, updateRtt]
      split
      · rfl
      rfl
    · rfl
  | migrateDest oldDest newDest =>
    simp only [step, migrateDest]
    split
    · rfl
    rfl
  | flushDest dest =>
    obtain ⟨heap, due, h⟩ := rebuild_eq { ch with pending := ch.pending.retain fun _ p => p.dest ≠ dest }
    simp only [step, flushDest, h]
  | applyTuning t => rfl
  | tickInto now => exact tickInto_nextSeq

theorem step_nextSeq : (ch.step op).1.nextSeq = ch.nextSeq ∧
    (∀ seq, ¬ ch.Queues op seq) ∨ (ch.step op).1.nextSeq = ch.nextSeq + 1 ∧ op.isSend = true ∧ ∀ seq, ch.Queues op seq
    → seq = ch.nextSeq := by
  cases hsend : op.isSend with
  | false =>
    refine .inl ⟨step_nextSeq_of_not_send hsend, fun seq hq => ?_⟩
    obtain ⟨packet, hq⟩ := hq
    obtain ⟨_, _, _, _, _, rfl, _⟩ := send_of_queued hq
    cases hsend
  | true =>
    cases op with
    | send inner body dest hint now =>
      rcases send_cases ch inner body dest hint now with h | ⟨_, hnext, _⟩
      · refine .inl ⟨by simp only [step, h], fun seq hq => ?_⟩
        obtain ⟨packet, hq⟩ := hq
        simp [step, h] at hq
      refine .inr ⟨hnext, rfl, fun seq hq => ?_⟩
      obtain ⟨packet, hq⟩ := hq
      obtain ⟨_, _, _, _, _, _, hseq, _⟩ := send_of_queued hq
      exact hseq
    | markSent | onAck | migrateDest | flushDest | applyTuning | tickInto => cases hsend

end

/-! ## Runs -/

section
variable {ops : List Op} {i : Nat} {seq : UInt32}

def before (ops : List Op) (i : Nat) : ReliableChannel := Machine.stateAt step .new ops i

def QueuedAt (ops : List Op) (i : Nat) (seq : UInt32) : Prop := ∃ op, ops[i]? = some op ∧ (before ops i).Queues op seq

def EndsAt (ops : List Op) (seq : UInt32) (k : Nat) (e : Ending) : Prop :=
  ∃ op, ops[k]? = some op ∧ (before ops k).Ends op seq e

def sends (ops : List Op) (i : Nat) : Nat := (ops.take i).countP Op.isSend

theorem sends_succ (h : ops[i]? = some op) : sends ops (i + 1) = sends ops i + if op.isSend then 1 else 0 := by
  unfold sends
  rw [List.take_add_one, h, List.countP_append]
  simp [List.countP_singleton]

theorem sends_succ_of_none (h : ops[i]? = none) : sends ops (i + 1) = sends ops i := by
  unfold sends
  rw [List.take_add_one, h]
  simp

theorem keyed_before (ops : List Op) (i : Nat) : (before ops i).Keyed :=
  Machine.invariant_all (fun _ _ h => by cases h) (fun _ op h => h.step op) i

theorem nextSeq_ahead (hq : QueuedAt ops i seq) (hij : i < j) :
    ∃ n, 1 ≤ n ∧ sends ops i + n ≤ sends ops j ∧ (before ops j).nextSeq = seq + UInt32.ofNat n := by
  induction j with
  | zero => omega
  | succ j ih =>
    rcases Nat.lt_or_ge i j with h | h
    · obtain ⟨n, hn, hs, heq⟩ := ih h
      cases hop : ops[j]? with
      | none =>
        refine ⟨n, hn, by rw [sends_succ_of_none hop]; exact hs, ?_⟩
        exact (congrArg nextSeq (Machine.stateAt_succ_of_none step .new ops hop)).trans heq
      | some op =>
        have hst : before ops (j + 1) = ((before ops j).step op).1 := stateAt_succ step .new ops hop
        have hcount := sends_succ hop
        rcases step_nextSeq with ⟨hnext, _⟩ | ⟨hnext, hsend, _⟩
        · exact ⟨n, hn, by omega, by rw [hst, hnext, heq]⟩
        rw [if_pos hsend] at hcount
        refine ⟨n + 1, by omega, by omega, ?_⟩
        rw [hst, hnext, heq, UInt32.ofNat_add, UInt32.add_assoc]
        rfl
    · have hji : i = j := by omega
      subst hji
      obtain ⟨op, hop, hop'⟩ := hq
      have hst : before ops (i + 1) = ((before ops i).step op).1 := stateAt_succ step .new ops hop
      have hcount := sends_succ hop
      rcases step_nextSeq with ⟨_, hno⟩ | ⟨hnext, hsend, hseq⟩
      · exact absurd hop' (hno seq)
      rw [if_pos hsend] at hcount
      exact ⟨1, le_rfl, by omega, by rw [hst, hnext, hseq seq hop']; rfl⟩

theorem not_requeued (hfew : ops.countP Op.isSend < 2 ^ 32) (hq : QueuedAt ops i seq) (hij : i < j) (op : Op) : ¬
    (before ops j).Queues op seq := by
  intro hj
  obtain ⟨n, hn, hs, hnext⟩ := nextSeq_ahead hq hij
  have hle : sends ops j ≤ ops.countP Op.isSend := (List.take_sublist j ops).countP_le
  rcases step_nextSeq with ⟨_, hno⟩ | ⟨_, _, hseq⟩
  · exact hno seq hj
  have heq := hseq seq hj
  rw [hnext] at heq
  have hzero : UInt32.ofNat n = 0 := UInt32.add_eq_left.mp heq.symm
  have hmod : n % 2 ^ 32 = 0 := by
    have := congrArg UInt32.toNat hzero
    simpa using this
  omega

def resendsBetween (ops : List Op) (packet : Bytes) (i j : Nat) : Nat :=
  ∑ k ∈ Finset.Ico i j, (emitAt step .new ops k).countP (Output.resends packet)

def IsPending (ops : List Op) (seq : UInt32) (j : Nat) : Prop := ((before ops j).pending.lookup seq).isSome

inductive Story (ops : List Op) (i : Nat) (seq : UInt32) (packet : Bytes) (retries j : Nat) : Prop where
  | pending {p : PendingPacket} (found : (before ops j).pending.lookup seq = some p) (same : p.data = packet)
      (spent : resendsBetween ops packet (i + 1) j + p.retriesLeft ≤ retries)
      (open_ : ∀ k e, i < k → k < j → ¬ EndsAt ops seq k e)
  | ended {k : Nat} {e : Ending} (gone : (before ops j).pending.lookup seq = none)
      (spent : resendsBetween ops packet (i + 1) j ≤ retries) (late : i < k) (early : k < j)
      (ends : EndsAt ops seq k e)
      (only : ∀ k' e', i < k' → k' < j → EndsAt ops seq k' e' → k' = k ∧ e' = e)

theorem resendsBetween_succ (ops : List Op) (packet : Bytes) {i : Nat} (h : i ≤ j) : resendsBetween ops packet i
    (j + 1) = resendsBetween ops packet i j + (emitAt step .new ops j).countP (Output.resends packet) :=
  Finset.sum_Ico_succ_top h _

theorem emitAt_of_some (h : ops[j]? = some op) : emitAt step .new ops j = ((before ops j).step op).2 := by
  unfold emitAt
  rw [h]
  rfl

theorem Story.step (hij : i < j) (hop : ops[j]? = some op) (hq : ¬ (before ops j).Queues op seq)
    (h : Story ops i seq (reliablePacket seq inner body) retries j) : Story ops i seq (reliablePacket seq inner body)
    retries (j + 1) := by
  have hst : before ops (j + 1) = ((before ops j).step op).1 := stateAt_succ ReliableChannel.step .new ops hop
  have hcount := resendsBetween_succ ops (reliablePacket seq inner body) (show i + 1 ≤ j from hij)
  rw [emitAt_of_some hop] at hcount
  have hat : ∀ e, EndsAt ops seq j e ↔ (before ops j).Ends op seq e := by
    intro e
    constructor
    · intro he
      obtain ⟨op', hop', he⟩ := he
      rw [hop] at hop'
      cases hop'
      exact he
    · exact fun he => ⟨op, hop, he⟩
  cases h with
  | pending found same spent open_ =>
    rw [← same] at hcount spent ⊢
    rcases step_pending (keyed_before ops j) found hq with ⟨hkept, hends⟩ | ⟨hleft, e, hends, honly⟩
    · obtain ⟨p', hl, hd, hr⟩ := hkept.found
      refine .pending (hst ▸ hl) hd (by omega) fun k e hik hkj he => ?_
      rcases Nat.lt_succ_iff_lt_or_eq.mp hkj with hlt | rfl
      · exact open_ k e hik hlt he
      exact hends e ((hat e).mp he)
    have hspent := hleft.spent
    refine .ended (hst ▸ hleft.gone) (by omega) hij (Nat.lt_succ_self j) ((hat e).mpr hends) ?_
    intro k' e' hik hkj he
    rcases Nat.lt_succ_iff_lt_or_eq.mp hkj with hlt | rfl
    · exact absurd he (open_ k' e' hik hlt)
    exact ⟨rfl, honly e' ((hat e').mp he)⟩
  | ended gone spent late early ends only =>
    obtain ⟨hl, hr, hends⟩ := step_unknown (keyed_before ops j) gone hq inner body
    refine .ended (hst ▸ hl) (by omega) late (by omega) ends fun k' e' hik hkj he => ?_
    rcases Nat.lt_succ_iff_lt_or_eq.mp hkj with hlt | rfl
    · exact only k' e' hik hlt he
    exact absurd ((hat e').mp he) (hends e')

theorem Story.idle (hij : i < j) (hop : ops[j]? = none)
    (h : Story ops i seq packet retries j) : Story ops i seq packet retries (j + 1) := by
  have hst : before ops (j + 1) = before ops j := Machine.stateAt_succ_of_none ReliableChannel.step .new ops hop
  have hcount := resendsBetween_succ ops packet (show i + 1 ≤ j from hij)
  have hsilent : emitAt ReliableChannel.step .new ops j = [] := by
    unfold emitAt
    rw [hop]
  rw [hsilent, List.countP_nil] at hcount
  have hnot : ∀ e, ¬ EndsAt ops seq j e := by
    intro e he
    obtain ⟨op, hop', _⟩ := he
    rw [hop] at hop'
    cases hop'
  cases h with
  | pending found same spent open_ =>
    refine .pending (hst ▸ found) same (by omega) fun k e hik hkj he => ?_
    rcases Nat.lt_succ_iff_lt_or_eq.mp hkj with hlt | rfl
    · exact open_ k e hik hlt he
    exact hnot e he
  | ended gone spent late early ends only =>
    refine .ended (hst ▸ gone) (by omega) late (by omega) ends fun k' e' hik hkj he => ?_
    rcases Nat.lt_succ_iff_lt_or_eq.mp hkj with hlt | rfl
    · exact only k' e' hik hlt he
    exact absurd he (hnot e')

section
variable {inner : CompactPacketType} {body : Bytes} {dest : SocketAddr} {hint : Option Int} {now : Instant}
  (hop : ops[i]? = some (.send inner body dest hint now))
  (hq : (before ops i).Queues (.send inner body dest hint now) seq)
include hop hq

theorem story_start : Story ops i seq (reliablePacket seq inner body) (before ops i).tuning.retriesLeft (i + 1) := by
  have hst : before ops (i + 1) = ((before ops i).step _).1 := stateAt_succ step .new ops hop
  obtain ⟨packet, hq⟩ := hq
  rcases send_cases (before ops i) inner body dest hint now with hb | ⟨_, _, p, hd, hr, hl⟩
  · simp [step, hb] at hq
  obtain ⟨_, _, _, _, _, _, hseq, _⟩ := send_of_queued hq
  refine .pending (p := p) ?_ (hseq ▸ hd) ?_ fun k e hik hkj => by omega
  · rw [hst, hseq]
    exact (hl _).trans (if_pos rfl)
  simp [resendsBetween, hr]

theorem story_at (hfew : ops.countP Op.isSend < 2 ^ 32) (hij : i < j) :
    Story ops i seq (reliablePacket seq inner body) (before ops i).tuning.retriesLeft j := by
  induction j with
  | zero => omega
  | succ j ih =>
    rcases Nat.lt_succ_iff_lt_or_eq.mp hij with h | rfl
    · cases hj : ops[j]? with
      | some op => exact (ih h).step h hj (not_requeued hfew ⟨_, hop, hq⟩ h op)
      | none => exact (ih h).idle h hj
    · exact story_start hop hq

end

/-- A packet queued by operation `i` is pending until one operation ends its wait in one way. It is sent again
at most as often as the channel allowed when it was queued, and only while it is pending. -/
structure LifeCycle (ops : List Op) (i : Nat) (seq : UInt32) (packet : Bytes) : Prop where
  oneState : ∀ j, i < j → (IsPending ops seq j ∧ ∀ k e, i < k → k < j → ¬ EndsAt ops seq k e) ∨
    (¬ IsPending ops seq j ∧ ∃! ke : Nat × Ending, i < ke.1 ∧ ke.1 < j ∧ EndsAt ops seq ke.1 ke.2)
  reportedOnce : ∀ k, i < k → (emitAt step .new ops k).countP (Output.fails seq) ≤ 1
  resends : ∀ j, resendsBetween ops packet (i + 1) j ≤ (before ops i).tuning.retriesLeft
  onlyPending : ∀ k dest, i < k → Output.resend packet dest ∈ emitAt step .new ops k → IsPending ops seq k

theorem Story.oneState (h : Story ops i seq packet retries j) :
    (IsPending ops seq j ∧ ∀ k e, i < k → k < j → ¬ EndsAt ops seq k e) ∨
    (¬ IsPending ops seq j ∧ ∃! ke : Nat × Ending, i < ke.1 ∧ ke.1 < j ∧ EndsAt ops seq ke.1 ke.2) := by
  unfold IsPending
  cases h with
  | pending found _ _ open_ => exact .inl ⟨by rw [found]; rfl, open_⟩
  | @ended k e gone _ late early ends only =>
    refine .inr ⟨by rw [gone]; nofun, (k, e), ⟨late, early, ends⟩, fun ke h => ?_⟩
    obtain ⟨hk, he⟩ := only ke.1 ke.2 h.1 h.2.1 h.2.2
    exact Prod.ext hk he

theorem Story.resends_le (h : Story ops i seq packet retries j) : resendsBetween ops packet (i + 1) j ≤ retries := by
  cases h with
  | pending _ _ spent _ => omega
  | ended _ spent _ _ _ _ => exact spent

section
variable {inner : CompactPacketType} {body : Bytes} {retries k : Nat}
  (h : Story ops i seq (reliablePacket seq inner body) retries k) (hfresh : ∀ op, ¬ (before ops k).Queues op seq)
include h hfresh

theorem Story.fails_le_one : (emitAt ReliableChannel.step .new ops k).countP (Output.fails seq) ≤ 1 := by
  cases hk : ops[k]? with
  | none => simp [emitAt, hk]
  | some op =>
    rw [emitAt_of_some hk]
    cases h with
    | pending found _ _ _ =>
      rcases step_pending (keyed_before ops k) found (hfresh op) with ⟨hkept, _⟩ | ⟨hleft, _⟩
      · rw [hkept.quiet]
        exact Nat.zero_le _
      exact hleft.once
    | ended gone _ _ _ _ _ =>
      have hends := (step_unknown (keyed_before ops k) gone (hfresh op) inner body).2.2
      rw [countP_fails_eq_zero.mpr (hends .failed)]
      exact Nat.zero_le _

theorem Story.pending_of_resend
    (hmem : Output.resend (reliablePacket seq inner body) dest ∈ emitAt ReliableChannel.step .new ops k) :
    IsPending ops seq k := by
  cases h with
  | pending found _ _ _ =>
    unfold IsPending
    rw [found]
    rfl
  | ended gone _ _ _ _ _ =>
    obtain ⟨op, _, hout⟩ := emitAt_mem _ _ _ hmem
    have hzero := (step_unknown (keyed_before ops k) gone (hfresh op) inner body).2.1
    have := List.countP_eq_zero.mp hzero _ hout
    simp [Output.resends] at this

end

theorem lifeCycle_of_send (hfew : ops.countP Op.isSend < 2 ^ 32)
    (hop : ops[i]? = some (.send inner body dest hint now))
    (hq : (before ops i).Queues (.send inner body dest hint now) seq) :
    LifeCycle ops i seq (reliablePacket seq inner body) := by
  have hstory {j : Nat} (hij : i < j) := story_at hop hq hfew hij
  have hfresh {k : Nat} (hik : i < k) (op : Op) := not_requeued hfew ⟨_, hop, hq⟩ hik op
  refine ⟨fun j hij => (hstory hij).oneState, fun k hik => (hstory hik).fails_le_one (hfresh hik), fun j => ?_,
    fun k dest' hik hmem => (hstory hik).pending_of_resend (hfresh hik) hmem⟩
  rcases Nat.lt_or_ge i j with hij | hij
  · exact (hstory hij).resends_le
  unfold resendsBetween
  rw [Finset.Ico_eq_empty (by omega), Finset.sum_empty]
  exact Nat.zero_le _

theorem tickInto_terminates (h : ch.pending.entries ≠ []) :
    ∃ fuel, ∀ n, fuel ≤ n → Ticked.loop now n ⟨ch, [], []⟩ = some (ch.tickInto now) := by
  refine ⟨2 * ch.work + 2, fun n hn => Ticked.loop_mono hn ?_⟩
  unfold tickInto
  rw [if_neg h]
  exact (Option.some_get _).symm

end

/-- Every packet returned as queued has one life cycle, and every tick terminates. -/
theorem queued_packet_life_cycle (ops : List Op) (hfew : ops.countP Op.isSend < 2 ^ 32) :
    (∀ i seq packet, Output.sent (.queued seq packet) ∈ emitAt step .new ops i → LifeCycle ops i seq packet) ∧
    ∀ j now, ops[j]? = some (.tickInto now) → (before ops j).pending.entries ≠ [] → ∃ fuel, ∀ n, fuel ≤ n →
    Ticked.loop now n ⟨before ops j, [], []⟩ = some ((before ops j).tickInto now) := by
  refine ⟨fun i seq packet hmem => ?_, fun j now _ h => tickInto_terminates h⟩
  obtain ⟨op, hop, hout⟩ := emitAt_mem _ _ _ hmem
  obtain ⟨inner, body, dest, hint, now, rfl, _, rfl⟩ := send_of_queued hout
  exact lifeCycle_of_send hfew hop ⟨_, hout⟩

/-- A join answer that nobody acknowledges: sent, sent again once and given up. -/
def unanswered : List Op :=
  [.send .joinAck [123, 125] (.v4 0xC0A80102 7777) none 0, .tickInto (secs 1), .tickInto (secs 2)]

theorem unanswered_life_cycle : LifeCycle unanswered 0 1 (reliablePacket 1 .joinAck [123, 125]) :=
  (queued_packet_life_cycle unanswered (by decide)).1 0 1 _ (by decide)

/-! ## The channel as a route update sees it -/

def view (ch : ReliableChannel) : ConnectUnit.ReliableChannel where
  pending := ch.pending.mapWithKey fun _ p => ⟨p.dest, p.nextAt⟩
  dueHeap := ch.dueHeap
  nextDueAt := ch.nextDueAt

theorem view_refresh : ch.refreshNextDueFromHeap.view = ch.view.refreshNextDueFromHeap := by
  have hvalid : ∀ due : Due, ch.valid due = (ch.view.pending.lookup due.2).any fun p => p.nextAt = some due.1 := by
    intro due
    unfold valid view
    dsimp only
    rw [HashMap.lookup_mapWithKey]
    cases ch.pending.lookup due.2 with
    | none => rfl
    | some p => rfl
  have hdrop : ch.popStaleDueHeapTop.dueHeap = ch.view.popStaleDueHeapTop.dueHeap := by
    unfold popStaleDueHeapTop ConnectUnit.ReliableChannel.popStaleDueHeapTop
    simp only [hvalid]
    rfl
  unfold refreshNextDueFromHeap ConnectUnit.ReliableChannel.refreshNextDueFromHeap
  simp only [view, hdrop]
  rfl

theorem view_migrateDest {oldDest newDest : SocketAddr} :
    (ch.migrateDest oldDest newDest).view = ch.view.migrateDest oldDest newDest := by
  unfold migrateDest ConnectUnit.ReliableChannel.migrateDest
  split
  · rfl
  rw [view_refresh]
  refine congrArg ConnectUnit.ReliableChannel.refreshNextDueFromHeap ?_
  unfold view
  simp only [ConnectUnit.ReliableChannel.mk.injEq, and_true]
  refine AList.ext ?_
  simp only [HashMap.mapWithKey, HashMap.mapVals, List.map_map]
  refine List.map_congr_left fun e _ => ?_
  simp only [Function.comp_apply]
  split
  · rfl
  rfl

end ReliableChannel

end ConnectUnit.Reliable
