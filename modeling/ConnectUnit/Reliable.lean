import Mathlib.Data.List.Sort
import ConnectUnit.Inbound

/-!
# The reliable channel

Packets that wait for an acknowledgement. The packets are kept by sequence number; a heap of deadlines says which is
due next.
-/

namespace ConnectUnit

variable {ch : ReliableChannel} {due : Due} {rest : List Due} {s : Ticked}

def CompactPacketType.toByte : CompactPacketType → UInt8
  | .data => 0x01
  | .encrypted => 0x02
  | .fec => 0x03
  | .reliable => 0x04
  | .ack => 0x05
  | .joinAck => 0x06
  | .ping => 0x07
  | .pong => 0x08

namespace Reliable

/-! ## Timeouts -/

def i32 (n : Int) : Int := n.bmod (2 ^ 32)

def u32 (n : Int) : Nat := (n % 2 ^ 32).toNat

structure ReliableTuning where
  rtoMinMs : Nat
  rtoMaxMs : Nat
  maxPending : Nat
  retriesLeft : Nat
  min_pos : 5 ≤ rtoMinMs
  min_le_max : rtoMinMs ≤ rtoMaxMs

def srttMinMs : Int := 5

/-- The bounds are cast to `i32`; the program stops if they are out of order then, which this leaves open. -/
def computeRtoMs (srttMs rttvarMs : Int) (t : ReliableTuning) : Nat :=
  let srtt := max srttMs srttMinMs
  let rttvar := max rttvarMs 1
  u32 (max (i32 t.rtoMinMs) (min (i32 (srtt + max (i32 (4 * rttvar)) 10)) (i32 t.rtoMaxMs)))

def initialRtoForSend (srttMs rttvarMs : Int) (rttHintMs : Option Int) (t : ReliableTuning) : Nat :=
  let base := computeRtoMs srttMs rttvarMs t
  match rttHintMs.filter (0 < ·) with
  | some r => min base (computeRtoMs (max r 20) (max (r.tdiv 2) 10) t)
  | none => base

/-! ## State -/

structure PendingPacket where
  data : Bytes
  dest : SocketAddr
  nextAt : Option Instant
  enqueuedAt : Instant
  actualSentAt : Option Instant
  retransmitted : Bool
  retriesLeft : Nat
  rtoMs : Nat

abbrev Due := Instant × UInt32

/-- The order of the heap: by deadline, then by sequence number. -/
def Due.before (a b : Due) : Prop := a.1 < b.1 ∨ a.1 = b.1 ∧ a.2 ≤ b.2

instance : DecidableRel Due.before := fun a b => inferInstanceAs (Decidable (a.1 < b.1 ∨ a.1 = b.1 ∧ a.2 ≤ b.2))

structure ReliableChannel where
  nextSeq : UInt32
  pending : HashMap UInt32 PendingPacket
  /-- The heap of due packets, soonest first. -/
  dueHeap : List Due
  nextDueAt : Option Instant
  srttMs : Int
  rttvarMs : Int
  tuning : ReliableTuning

inductive SendResult where
  | queued (seq : UInt32) (packet : Bytes)
  | backpressure
  deriving DecidableEq

def ackPacket (seq : UInt32) : Bytes := CompactPacketType.ack.toByte :: u32ToBeBytes seq

def reliablePacket (seq : UInt32) (inner : CompactPacketType) (body : Bytes) : Bytes :=
  CompactPacketType.reliable.toByte :: (u32ToBeBytes seq ++ inner.toByte :: body)

namespace ReliableChannel

def new : ReliableChannel where
  nextSeq := 1
  pending := ∅
  dueHeap := []
  nextDueAt := none
  srttMs := 100
  rttvarMs := 50
  tuning := ⟨50, 400, 256, 1, by decide, by decide⟩

section
variable (ch : ReliableChannel)

def applyTuning (t : ReliableTuning) : ReliableChannel := { ch with tuning := t }

def resetSession : ReliableChannel :=
  { ch with pending := ∅, dueHeap := [], nextDueAt := none, nextSeq := 1, srttMs := 100, rttvarMs := 50 }

/-! ## The heap -/

def pushDue (t : Instant) (seq : UInt32) : ReliableChannel :=
  { ch with dueHeap := ch.dueHeap.orderedInsert Due.before (t, seq) }

def valid (due : Due) : Bool := (ch.pending.lookup due.2).any fun p => p.nextAt = some due.1

def popStaleDueHeapTop : ReliableChannel := { ch with dueHeap := ch.dueHeap.dropWhile fun due => !ch.valid due }

def refreshNextDueFromHeap : ReliableChannel :=
  let ch := ch.popStaleDueHeapTop
  { ch with nextDueAt := ch.dueHeap.head?.map (·.1) }

def pushAll (entries : List (Sigma fun _ : UInt32 => PendingPacket)) : ReliableChannel :=
  entries.foldl (fun ch e => match e.2.nextAt with
    | some t => ch.pushDue t e.1
    | none => ch) ch

def rebuildDueHeapFromPending : ReliableChannel :=
  (pushAll { ch with dueHeap := [] } ch.pending.entries).refreshNextDueFromHeap

/-! ## Operations -/

def send (inner : CompactPacketType) (body : Bytes) (dest : SocketAddr) (rttHintMs : Option Int) (now : Instant) :
    ReliableChannel × SendResult :=
  if ch.tuning.maxPending ≤ HashMap.size ch.pending then (ch, .backpressure)
  else
    let seq := ch.nextSeq
    let packet := reliablePacket seq inner body
    let rto := initialRtoForSend ch.srttMs ch.rttvarMs rttHintMs ch.tuning
    let due := now + millis rto
    let ch := { ch with
      nextSeq := seq + 1
      pending := ch.pending.insert seq ⟨packet, dest, some due, now, none, false, ch.tuning.retriesLeft, rto⟩ }
    ((ch.pushDue due seq).refreshNextDueFromHeap, .queued seq packet)

def markSent (seq : UInt32) (sentAt : Instant) : ReliableChannel :=
  match ch.pending.lookup seq with
  | none => ch
  | some p =>
    if p.actualSentAt.isSome then ch
    else
      let due := sentAt + millis p.rtoMs
      let ch :=
        { ch with pending := ch.pending.insert seq { p with actualSentAt := some sentAt, nextAt := some due } }
      (ch.pushDue due seq).refreshNextDueFromHeap

def updateRtt (p : PendingPacket) (now : Instant) : ReliableChannel :=
  if p.retransmitted then ch
  else
    let rttMs := i32 (max ((now - p.actualSentAt.getD p.enqueuedAt) / 1000000 : Nat) 1 : Nat)
    let rttvar := (i32 (i32 (3 * ch.rttvarMs) + i32 (i32 (ch.srttMs - rttMs)).natAbs)).tdiv 4
    let srtt := (i32 (i32 (7 * ch.srttMs) + rttMs)).tdiv 8
    { ch with rttvarMs := max rttvar 1, srttMs := max srtt srttMinMs }

def onAck (seq : UInt32) (fromEp : SocketAddr) (now : Instant) : ReliableChannel :=
  match ch.pending.lookup seq with
  | none => ch
  | some p =>
    if fromEp = p.dest ∨ fromEp.ip = p.dest.ip then
      (updateRtt { ch with pending := ch.pending.erase seq } p now).refreshNextDueFromHeap
    else ch

def migrateDest (oldDest newDest : SocketAddr) : ReliableChannel :=
  if oldDest = newDest then ch
  else refreshNextDueFromHeap
    { ch with pending := ch.pending.mapVals fun p => if p.dest = oldDest then { p with dest := newDest } else p }

def flushDest (dest : SocketAddr) : ReliableChannel :=
  rebuildDueHeapFromPending { ch with pending := ch.pending.retain fun _ p => p.dest ≠ dest }

end

end ReliableChannel

/-! ## Ticks -/

/-- The channel within `tick_into`, the packets to send again and those given up. -/
structure Ticked where
  ch : ReliableChannel
  out : List (Bytes × SocketAddr)
  permanentFailures : List (UInt32 × SocketAddr)

namespace Ticked

def fire (s : Ticked) (now : Instant) (seq : UInt32) (p : PendingPacket) : Ticked :=
  if p.retriesLeft = 0 then
    { s with
      ch := { s.ch with pending := s.ch.pending.erase seq }
      permanentFailures := s.permanentFailures ++ [(seq, p.dest)] }
  else
    let rto := max s.ch.tuning.rtoMinMs (min (p.rtoMs * 2 % 2 ^ 32) s.ch.tuning.rtoMaxMs)
    let due := now + millis rto
    let p := { p with retransmitted := true, retriesLeft := p.retriesLeft - 1, rtoMs := rto, nextAt := some due }
    { s with
      ch := { s.ch with pending := s.ch.pending.insert seq p }.pushDue due seq
      out := s.out ++ [(p.data, p.dest)] }

/-- The loop of `tick_into`; `none` if the fuel runs out. -/
def loop (now : Instant) : Nat → Ticked → Option Ticked
  | 0, _ => none
  | fuel + 1, s =>
    let ch := s.ch.popStaleDueHeapTop
    match ch.dueHeap with
    | [] =>
      if ch.pending.entries = [] then some { s with ch := { ch with nextDueAt := none } }
      else
        let ch := ch.rebuildDueHeapFromPending
        if ch.dueHeap = [] then
          some { s with ch := { ch with nextDueAt := (ch.pending.entries.filterMap (·.2.nextAt)).min? } }
        else loop now fuel { s with ch := ch }
    | (t, seq) :: rest =>
      if now < t then some { s with ch := { ch with nextDueAt := some t } }
      else
        let s := { s with ch := { ch with dueHeap := rest } }
        match ch.pending.lookup seq with
        | none => loop now fuel s
        | some p => if p.nextAt ≠ some t then loop now fuel s else loop now fuel (s.fire now seq p)

end Ticked

/-! ## Termination -/

def ReliableChannel.work (ch : ReliableChannel) : Nat := ch.pending.total fun p => p.retriesLeft + 1

theorem ReliableChannel.pushAll_eq (ch : ReliableChannel) (entries : List (Sigma fun _ : UInt32 => PendingPacket)) :
    ∃ heap, ch.pushAll entries = { ch with dueHeap := heap } := by
  refine List.foldlRecOn (motive := fun c : ReliableChannel => ∃ heap, c = { ch with dueHeap := heap }) entries _
    ⟨ch.dueHeap, rfl⟩ ?_
  rintro _ ⟨heap, rfl⟩ e _
  split <;> exact ⟨_, rfl⟩

theorem ReliableChannel.rebuild_eq (ch : ReliableChannel) :
    ∃ heap due, ch.rebuildDueHeapFromPending = { ch with dueHeap := heap, nextDueAt := due } := by
  obtain ⟨heap, h⟩ := pushAll_eq { ch with dueHeap := [] } ch.pending.entries
  unfold rebuildDueHeapFromPending
  rw [h]
  exact ⟨_, _, rfl⟩

theorem ReliableChannel.valid_of_popStale
    (h : ch.popStaleDueHeapTop.dueHeap = due :: rest) : ch.valid due = true := by
  have hne : ch.dueHeap.dropWhile (fun due => !ch.valid due) ≠ [] := by
    intro hnil
    rw [popStaleDueHeapTop, hnil] at h
    cases h
  have hhead := List.head_dropWhile_not (fun due => !ch.valid due) hne
  have heq : (ch.dueHeap.dropWhile fun due => !ch.valid due).head hne = due := by
    have h' : ch.dueHeap.dropWhile (fun due => !ch.valid due) = due :: rest := h
    simp only [h', List.head_cons]
  rw [heq] at hhead
  simpa using hhead

theorem ReliableChannel.rebuild_valid
    (h : ch.rebuildDueHeapFromPending.dueHeap = due :: rest) : ch.rebuildDueHeapFromPending.valid due = true :=
  (valid_of_popStale h : (pushAll { ch with dueHeap := [] } ch.pending.entries).valid due = true)

theorem ReliableChannel.popStale_of_valid
    (h : ch.dueHeap = due :: rest) (hv : ch.valid due = true) : ch.popStaleDueHeapTop.dueHeap = due :: rest := by
  unfold popStaleDueHeapTop
  simp [h, hv]

theorem ReliableChannel.valid_iff :
    ch.valid due = true ↔ ∃ p, ch.pending.lookup due.2 = some p ∧ p.nextAt = some due.1 := by
  unfold valid
  simp [Option.any_eq_true]

theorem Ticked.fire_work {seq : UInt32} {p : PendingPacket} (h : s.ch.pending.lookup seq = some p)
    (now : Instant) : (s.fire now seq p).ch.work + 1 = s.ch.work := by
  unfold fire ReliableChannel.work
  split
  · rename_i hr
    have := s.ch.pending.total_erase h fun p => p.retriesLeft + 1
    rw [hr] at this
    exact this
  rename_i hr
  have := s.ch.pending.total_insert h { p with
      retransmitted := true
      retriesLeft := p.retriesLeft - 1
      rtoMs := max s.ch.tuning.rtoMinMs (min (p.rtoMs * 2 % 2 ^ 32) s.ch.tuning.rtoMaxMs)
      nextAt := some (now + millis (max s.ch.tuning.rtoMinMs (min (p.rtoMs * 2 % 2 ^ 32) s.ch.tuning.rtoMaxMs))) }
    fun p => p.retriesLeft + 1
  simp only [ReliableChannel.pushDue] at this ⊢
  omega

theorem Ticked.loop_isSome (now : Instant) (fuel : Nat) (s : Ticked) (h : 2 * s.ch.work + 2 ≤ fuel ∨
      2 * s.ch.work + 1 ≤ fuel ∧ ∃ due rest, s.ch.dueHeap = due :: rest ∧ s.ch.valid due = true) :
    (loop now fuel s).isSome := by
  induction fuel generalizing s with
  | zero => omega
  | succ fuel ih =>
    unfold loop
    dsimp only
    cases hheap : s.ch.popStaleDueHeapTop.dueHeap with
    | nil =>
      have hfuel : 2 * s.ch.work + 2 ≤ fuel + 1 := by
        rcases h with h | ⟨_, due, rest, hd, hv⟩
        · exact h
        rw [ReliableChannel.popStale_of_valid hd hv] at hheap
        cases hheap
      dsimp only
      split
      · rfl
      split
      · rfl
      rename_i hne
      obtain ⟨due, rest, hd⟩ := List.exists_cons_of_ne_nil hne
      have hwork : s.ch.popStaleDueHeapTop.rebuildDueHeapFromPending.work = s.ch.work := by
        obtain ⟨heap, due, h⟩ := s.ch.popStaleDueHeapTop.rebuild_eq
        rw [h]
        rfl
      refine ih _ (.inr ⟨?_, due, rest, hd, ?_⟩)
      · dsimp only
        omega
      exact ReliableChannel.rebuild_valid hd
    | cons due rest =>
      obtain ⟨t, seq⟩ := due
      obtain ⟨p, hp, hat⟩ := ReliableChannel.valid_iff.mp (ReliableChannel.valid_of_popStale hheap)
      have hp' : s.ch.popStaleDueHeapTop.pending.lookup seq = some p := hp
      dsimp only
      split
      · rfl
      rw [hp']
      dsimp only
      rw [if_neg (not_not.mpr hat)]
      refine ih _ (.inl ?_)
      have hfire := fire_work (s := { s with ch := { s.ch.popStaleDueHeapTop with dueHeap := rest } }) hp' now
      have hfuel : 2 * s.ch.work ≤ fuel := by omega
      exact (congrArg (2 * ·) hfire).trans_le hfuel

theorem Ticked.loop_mono {now : Instant} {fuel fuel' : Nat} (hle : fuel ≤ fuel') {r : Ticked}
    (h : loop now fuel s = some r) : loop now fuel' s = some r := by
  induction fuel generalizing s fuel' with
  | zero => cases h
  | succ fuel ih =>
    obtain ⟨fuel', rfl⟩ : ∃ n, fuel' = n + 1 := ⟨fuel' - 1, by omega⟩
    have hle' : fuel ≤ fuel' := by omega
    unfold loop at h ⊢
    dsimp only at h ⊢
    split at h
    · split at h
      · rename_i hp; rw [if_pos hp]; exact h
      · rename_i hp
        rw [if_neg hp]
        split at h
        · rename_i hd; rw [if_pos hd]; exact h
        rename_i hd; rw [if_neg hd]; exact ih hle' h
    split at h
    · rename_i ht; rw [if_pos ht]; exact h
    rename_i ht
    rw [if_neg ht]
    split at h
    · exact ih hle' h
    split at h
    · rename_i hat; rw [if_pos hat]; exact ih hle' h
    rename_i hat; rw [if_neg hat]; exact ih hle' h

namespace ReliableChannel

def tickInto (ch : ReliableChannel) (now : Instant) : Ticked :=
  if ch.pending.entries = [] then ⟨{ ch with dueHeap := [], nextDueAt := none }, [], []⟩
  else (Ticked.loop now (2 * ch.work + 2) ⟨ch, [], []⟩).get (Ticked.loop_isSome now _ _ (.inl le_rfl))

/-! ## Runs -/

inductive Op where
  | send (inner : CompactPacketType) (body : Bytes) (dest : SocketAddr) (rttHintMs : Option Int) (now : Instant)
  | markSent (seq : UInt32) (sentAt : Instant)
  | onAck (seq : UInt32) (fromEp : SocketAddr) (now : Instant)
  | migrateDest (oldDest newDest : SocketAddr)
  | flushDest (dest : SocketAddr)
  | applyTuning (t : ReliableTuning)
  | tickInto (now : Instant)

inductive Output where
  | sent (r : SendResult)
  | resend (packet : Bytes) (dest : SocketAddr)
  | failed (seq : UInt32) (dest : SocketAddr)
  deriving DecidableEq

def step (ch : ReliableChannel) (op : Op) : ReliableChannel × List Output :=
  match op with
  | .send inner body dest hint now =>
    let r := ch.send inner body dest hint now
    (r.1, [.sent r.2])
  | .markSent seq sentAt => (ch.markSent seq sentAt, [])
  | .onAck seq fromEp now => (ch.onAck seq fromEp now, [])
  | .migrateDest oldDest newDest => (ch.migrateDest oldDest newDest, [])
  | .flushDest dest => (ch.flushDest dest, [])
  | .applyTuning t => (ch.applyTuning t, [])
  | .tickInto now =>
    let r := ch.tickInto now
    (r.ch, r.out.map (fun e => .resend e.1 e.2) ++ r.permanentFailures.map fun e => .failed e.1 e.2)

end ReliableChannel

end Reliable

end ConnectUnit
