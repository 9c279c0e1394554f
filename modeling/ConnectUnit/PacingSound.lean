import Mathlib.Algebra.Order.Group.Multiset
import Mathlib.Tactic.Abel
import ConnectUnit.Lib.Machine
import ConnectUnit.PacingSelect

/-!
# Accounting of the pacing engine

Every packet that the engine accepts is queued, sent, dropped or removed with its peer, and the counters of the engine
agree with its queues.
-/

open IndexMap (balance_modifyAt balance_upsert total total_removeAt)

namespace ConnectUnit.Pacing

variable {q q' : PeerDataQueue} {p : Packet} {e e' : PacingEngine} {now deadline : Instant} {dest : SocketAddr}
variable {retransmit : Bool} {clock : Nat → Instant} {answers : Answers} {c : TickClock} {dropped : List Packet}
variable {entry : QueuedData} {priorityOn : Bool} {threshold sent : Nat} {batch : List QueuedData} {pkt : Bytes}
variable {outcome : SendOutcome} {rest : List QueuedPacket} {rttMs qdMs : Option ℚ} {fate fate' : Fate}
variable {log log' : List Move}

/-! ## Bags of packets -/

section
variable {α : Type} (f : α → Packet)
variable {l : List α}

def bag (l : List α) : Multiset Packet := ↑(l.map f)

@[simp] theorem bag_nil : bag f [] = 0 := rfl

@[simp] theorem bag_cons {a : α} : bag f (a :: l) = {f a} + bag f l := by
  unfold bag
  rw [Multiset.singleton_add, List.map_cons, Multiset.cons_coe]

@[simp] theorem bag_append {l' : List α} : bag f (l ++ l') = bag f l + bag f l' := by
  unfold bag
  rw [List.map_append, Multiset.coe_add]

@[simp] theorem card_bag : (bag f l).card = l.length := by
  unfold bag
  rw [Multiset.coe_card, List.length_map]

end

namespace PeerDataQueue

def packets (dest : SocketAddr) (q : PeerDataQueue) : Multiset Packet :=
  bag (·.packet dest) q.small + bag (·.packet dest) q.bulk

def busy (q : PeerDataQueue) : Nat := if q.isEmpty then 0 else 1

section
variable (dest : SocketAddr) (q : PeerDataQueue)

theorem card_packets : (q.packets dest).card = q.len := by
  unfold packets len
  rw [Multiset.card_add, card_bag, card_bag]

theorem isEmpty_iff : q.isEmpty = true ↔ q.len = 0 := by
  unfold isEmpty len
  simp

theorem busy_eq : q.busy = if 0 < q.len then 1 else 0 := by
  unfold busy
  by_cases h : q.len = 0
  · rw [if_pos ((isEmpty_iff q).mpr h), if_neg (by omega)]
  rw [if_neg (mt (isEmpty_iff q).mp h), if_pos (by omega)]

theorem packets_pushBackClassified :
    (q.pushBackClassified entry priorityOn threshold).packets dest = q.packets dest + {entry.packet dest} := by
  unfold pushBackClassified packets
  split
  · simp only [bag_append, bag_cons, bag_nil]; abel
  simp only [bag_append, bag_cons, bag_nil]; abel

theorem packets_pushFrontRequeue :
    (q.pushFrontRequeue entry priorityOn threshold).packets dest = q.packets dest + {entry.packet dest} := by
  unfold pushFrontRequeue packets
  split
  · simp only [bag_cons]; abel
  simp only [bag_cons]; abel

@[simp] theorem isEmpty_pushBackClassified : (q.pushBackClassified entry priorityOn threshold).isEmpty = false := by
  unfold pushBackClassified
  split <;> simp [isEmpty]

@[simp] theorem isEmpty_pushFrontRequeue : (q.pushFrontRequeue entry priorityOn threshold).isEmpty = false := by
  unfold pushFrontRequeue
  split <;> simp [isEmpty]

@[simp] theorem isEmpty_push (entry : QueuedData) (maxDepth : Nat) (priorityOn : Bool) (threshold : Nat) :
    (q.push entry maxDepth priorityOn threshold).1.isEmpty = false := by
  unfold push
  split <;> exact isEmpty_pushBackClassified _

theorem packets_pushAll :
    (q.pushAll batch priorityOn threshold).packets dest = q.packets dest + bag (·.packet dest) batch := by
  unfold pushAll
  induction batch generalizing q with
  | nil => rw [List.foldl_nil, bag_nil, add_zero]
  | cons entry batch ih => rw [List.foldl_cons, ih, packets_pushBackClassified, bag_cons, add_assoc]

theorem isEmpty_pushAll (h : batch ≠ []) (priorityOn : Bool) (threshold : Nat) :
    (q.pushAll batch priorityOn threshold).isEmpty = false := by
  unfold pushAll
  rw [← List.dropLast_append_getLast h, List.foldl_append, List.foldl_cons, List.foldl_nil,
      isEmpty_pushBackClassified]

theorem lanes_pushAll (batch : List QueuedData) (priorityOn : Bool) (threshold : Nat) :
    (q.pushAll batch priorityOn threshold).small = q.small ++ batch.filter
    (fun entry => isSmallPacket entry.pkt.length priorityOn threshold) ∧ (q.pushAll batch priorityOn threshold).bulk =
    q.bulk ++ batch.filter fun entry => !isSmallPacket entry.pkt.length priorityOn threshold := by
  unfold pushAll
  induction batch generalizing q with
  | nil => simp
  | cons entry batch ih =>
    have hpush := ih (q.pushBackClassified entry priorityOn threshold)
    rw [List.foldl_cons, hpush.1, hpush.2]
    unfold pushBackClassified
    split <;> rename_i h <;> simp [h]

theorem packets_dropOldestForCapacity :
    q.packets dest = q.dropOldestForCapacity.1.packets dest + bag (·.packet dest) q.dropOldestForCapacity.2 := by
  unfold dropOldestForCapacity packets
  split
  · rename_i entry bulk h
    simp only [h, bag_cons, bag_nil]; abel
  rename_i h
  cases q.small <;> simp [h, add_comm]

theorem packets_push (entry : QueuedData) (maxDepth : Nat) (priorityOn : Bool) (threshold : Nat) : q.packets dest +
    {entry.packet dest} = (q.push entry maxDepth priorityOn threshold).1.packets dest + bag (·.packet dest)
    (q.push entry maxDepth priorityOn threshold).2.2 := by
  unfold push
  split
  · rw [packets_pushBackClassified]
    conv_lhs => rw [packets_dropOldestForCapacity dest q]
    abel
  · rw [packets_pushBackClassified, bag_nil, add_zero]

theorem length_dropped_push {maxDepth : Nat} (hmax : 0 < maxDepth) (entry : QueuedData) (priorityOn : Bool)
    (threshold : Nat) : (q.push entry maxDepth priorityOn threshold).2.2.length = if
    (q.push entry maxDepth priorityOn threshold).2.1 then 0 else 1 := by
  unfold push
  split
  · rename_i h
    have hpos : 0 < q.len := Nat.lt_of_lt_of_le hmax h
    unfold dropOldestForCapacity
    split
    · rfl
    rename_i hb
    unfold len at hpos
    rw [hb, List.length_nil, Nat.add_zero] at hpos
    simp only [Bool.false_eq_true, if_false, List.length_take]
    omega
  · rfl

def Takes (q : PeerDataQueue) (r : PeerDataQueue × Option QueuedData) : Prop :=
  match r.2 with
  | none => q.len = 0 ∧ r.1 = q
  | some entry =>
    (q.small = entry :: r.1.small ∧ r.1.bulk = q.bulk) ∨ (q.bulk = entry :: r.1.bulk ∧ r.1.small = q.small)

theorem Takes.packets {q : PeerDataQueue} (h : Takes q (q', some entry)) {dest : SocketAddr} :
    q.packets dest = q'.packets dest + {entry.packet dest} := by
  unfold PeerDataQueue.packets
  rcases h with ⟨hsmall, hbulk⟩ | ⟨hbulk, hsmall⟩
  · rw [hsmall, ← hbulk, bag_cons]; abel
  rw [hbulk, ← hsmall, bag_cons]; abel

theorem takes_popFifoByAge : Takes q q.popFifoByAge := by
  unfold popFifoByAge
  split
  · rename_i s small b bulk hs hb
    split
    · exact .inl ⟨hs, rfl⟩
    exact .inr ⟨hb, rfl⟩
  · rename_i s small hs hb
    exact .inl ⟨hs, rfl⟩
  · rename_i b bulk hs hb
    exact .inr ⟨hb, rfl⟩
  · rename_i hs hb
    exact ⟨by simp [len, hs, hb], rfl⟩

theorem takes_popSmallFront (h : q.small ≠ []) (pops : Nat) :
    Takes q (popSmallFront { q with consecutiveSmallPops := pops }) := by
  obtain ⟨s, small, hs⟩ := List.exists_cons_of_ne_nil h
  unfold Takes popSmallFront
  rw [hs]
  exact .inl ⟨rfl, rfl⟩

theorem takes_popBulkFront (h : q.bulk ≠ []) (pops : Nat) :
    Takes q (popBulkFront { q with consecutiveSmallPops := pops }) := by
  obtain ⟨b, bulk, hb⟩ := List.exists_cons_of_ne_nil h
  unfold Takes popBulkFront
  rw [hb]
  exact .inr ⟨rfl, rfl⟩

theorem takes_popData (priorityOn : Bool) (now : Instant) : Takes q (q.popData priorityOn now) := by
  unfold popData
  split
  · rename_i h
    exact ⟨(isEmpty_iff q).mp h, rfl⟩
  rename_i hne
  split
  · exact takes_popFifoByAge q
  split
  · rename_i hforce
    apply takes_popBulkFront
    intro hb
    simp [shouldForceBulk, hb] at hforce
  split
  · rename_i hsmall
    apply takes_popSmallFront
    simpa using hsmall
  rename_i hsmall
  apply takes_popBulkFront
  intro hb
  simp [isEmpty, hb] at hne hsmall
  exact hne hsmall

end

end PeerDataQueue

namespace PacingEngine

/-! ## Books -/

section
variable (e : PacingEngine)

def queued : Multiset Packet :=
  bag QueuedPacket.packet e.controlQ + bag QueuedPacket.packet e.retransmitQ +
    e.peerQueues.total PeerDataQueue.packets

structure Accounts : Prop where
  total : e.queuedPacketsTotal =
    e.controlQ.length + e.retransmitQ.length + (e.peerQueues.entries.map fun p => p.2.len).sum
  nonEmpty : e.nonEmptyPeers = (e.peerQueues.entries.filter fun p => !p.2.isEmpty).length
  dropped : e.droppedPackets = e.droppedData + e.droppedControlNormal + e.droppedControlRetransmit + e.shedSojourn

theorem card_queued : e.queued.card =
    e.controlQ.length + e.retransmitQ.length + (e.peerQueues.entries.map fun p => p.2.len).sum := by
  have hcard (l : List (SocketAddr × PeerDataQueue)) :
      (l.map fun p : SocketAddr × PeerDataQueue => p.2.packets p.1).sum.card = (l.map fun p => p.2.len).sum := by
    induction l with
    | nil => rfl
    | cons p l ih => simp only [List.map_cons, List.sum_cons, Multiset.card_add, ih, PeerDataQueue.card_packets]
  unfold queued total
  rw [Multiset.card_add, Multiset.card_add, card_bag, card_bag, hcard]

theorem total_busy {m : IndexMap SocketAddr PeerDataQueue} :
    m.total (fun _ q => q.busy) = (m.entries.filter fun p => !p.2.isEmpty).length := by
  unfold total
  induction m.entries with
  | nil => rfl
  | cons p l ih =>
    rw [List.map_cons, List.sum_cons, ih, List.filter_cons]
    show p.2.busy + _ = _
    unfold PeerDataQueue.busy
    cases p.2.isEmpty <;> simp [Nat.add_comm]

end

structure Moves (e e' : PacingEngine) (gain loss : Multiset Packet) : Prop where
  packets : e.queued + gain = e'.queued + loss
  accounts : e.Accounts → e'.Accounts

namespace Moves

variable {e e' e'' : PacingEngine} {gain gain' loss loss' : Multiset Packet}

protected theorem refl : Moves e e 0 0 := ⟨rfl, id⟩

protected theorem trans (h : Moves e e' gain loss) (h' : Moves e' e'' gain' loss') :
    Moves e e'' (gain + gain') (loss + loss') := by
  refine ⟨?_, fun ha => h'.accounts (h.accounts ha)⟩
  rw [← add_assoc, h.packets, add_right_comm, h'.packets]
  abel

theorem cancel {back : Multiset Packet} (h : Moves e e' (gain + back) (loss + back)) : Moves e e' gain loss := by
  refine ⟨add_right_cancel (b := back) ?_, h.accounts⟩
  rw [add_assoc, h.packets, add_assoc]

theorem of_counters (hp : e.queued + gain = e'.queued + loss) (htotal : e.queuedPacketsTotal = e.queued.card →
      e'.queuedPacketsTotal + loss.card = e.queuedPacketsTotal + gain.card)
    (hbusy : e.nonEmptyPeers = e.peerQueues.total (fun _ q => q.busy) →
      e'.nonEmptyPeers = e'.peerQueues.total (fun _ q => q.busy))
    (hdropped : e.droppedPackets +
      (e'.droppedData + e'.droppedControlNormal + e'.droppedControlRetransmit + e'.shedSojourn)
      = e'.droppedPackets + (e.droppedData + e.droppedControlNormal + e.droppedControlRetransmit + e.shedSojourn)) :
    Moves e e' gain loss := by
  refine ⟨hp, fun ha => ⟨?_, ?_, ?_⟩⟩
  · have hcard := congrArg Multiset.card hp
    rw [Multiset.card_add, Multiset.card_add] at hcard
    have h := htotal (ha.total.trans e.card_queued.symm)
    have := ha.total
    rw [← card_queued] at this ⊢
    omega
  · rw [← total_busy]
    exact hbusy (ha.nonEmpty.trans (total_busy).symm)
  have := ha.dropped
  omega

theorem of_same_books (hc : e'.controlQ = e.controlQ) (hr : e'.retransmitQ = e.retransmitQ)
    (hp : e'.peerQueues = e.peerQueues) (hn : e'.nonEmptyPeers = e.nonEmptyPeers)
    (ht : e'.queuedPacketsTotal = e.queuedPacketsTotal)
    (hd : (e'.droppedPackets, e'.droppedData, e'.droppedControlNormal, e'.droppedControlRetransmit, e'.shedSojourn) =
      (e.droppedPackets, e.droppedData, e.droppedControlNormal, e.droppedControlRetransmit, e.shedSojourn)) :
    Moves e e' 0 0 := by
  simp only [Prod.mk.injEq] at hd
  obtain ⟨h1, h2, h3, h4, h5⟩ := hd
  refine ⟨?_, fun ha => ⟨?_, ?_, ?_⟩⟩
  · unfold queued
    rw [hc, hr, hp]
  · rw [ht, hc, hr, hp]
    exact ha.total
  · rw [hn, hp]
    exact ha.nonEmpty
  · rw [h1, h2, h3, h4, h5]
    exact ha.dropped

end Moves

/-! ## Changes of one queue -/

section
variable {e e' : PacingEngine} {gain loss : Multiset Packet}

theorem queued_of_control (hc : bag QueuedPacket.packet e.controlQ + gain =
    bag QueuedPacket.packet e'.controlQ + loss)
    (hr : e'.retransmitQ = e.retransmitQ) (hp : e'.peerQueues = e.peerQueues) :
    e.queued + gain = e'.queued + loss := by
  unfold queued
  rw [hr, hp, add_right_comm, add_right_comm _ _ gain, hc]
  abel

theorem queued_of_retransmit
    (hr : bag QueuedPacket.packet e.retransmitQ + gain = bag QueuedPacket.packet e'.retransmitQ + loss)
    (hc : e'.controlQ = e.controlQ) (hp : e'.peerQueues = e.peerQueues) : e.queued + gain = e'.queued + loss := by
  unfold queued
  rw [hc, hp, add_right_comm, add_assoc (bag _ _) _ gain, hr]
  abel

theorem queued_of_peers
    (hp : e.peerQueues.total PeerDataQueue.packets + gain = e'.peerQueues.total PeerDataQueue.packets + loss)
    (hc : e'.controlQ = e.controlQ) (hr : e'.retransmitQ = e.retransmitQ) : e.queued + gain = e'.queued + loss := by
  unfold queued
  rw [hc, hr, add_assoc, hp]
  simp only [add_assoc]

end

/-! ## The queue of one peer -/

section
variable {e : PacingEngine} {idx : Nat} {dest : SocketAddr} {q : PeerDataQueue}

section
variable (h : e.peerQueues.getIndex idx = some (dest, q))
include h

theorem nonEmptyPeers_take (hlen : q.len = q'.len + 1) (hn : e.nonEmptyPeers = e.peerQueues.total fun _ q => q.busy) :
    (if q'.isEmpty then e.nonEmptyPeers - 1 else e.nonEmptyPeers) = (e.peerQueues.modifyAt idx fun _ => q').total fun
    _ q => q.busy := by
  have hbusy : q.busy = 1 := by
    unfold PeerDataQueue.busy
    rw [if_neg]
    intro he
    rw [PeerDataQueue.isEmpty_iff] at he
    omega
  have hb : (e.peerQueues.total fun _ q => q.busy) + q'.busy =
      ((e.peerQueues.modifyAt idx fun _ => q').total fun _ q => q.busy) + 1 :=
    balance_modifyAt h (by rw [hbusy, Nat.add_comm])
  unfold PeerDataQueue.busy at hb hn ⊢
  split <;> rename_i he <;> simp only [he, if_true, Bool.false_eq_true, if_false] at hb <;> omega

theorem moves_take (hq : q.packets dest = q'.packets dest + {p}) : Moves e { e with
      peerQueues := e.peerQueues.modifyAt idx fun _ => q'
      queuedPacketsTotal := e.queuedPacketsTotal - 1
      nonEmptyPeers := if q'.isEmpty then e.nonEmptyPeers - 1 else e.nonEmptyPeers } 0 {p} := by
  have hlen : q.len = q'.len + 1 := by
    rw [← q.card_packets dest, ← q'.card_packets dest, hq, Multiset.card_add, Multiset.card_singleton]
  have hp : e.queued + 0 = { e with peerQueues := e.peerQueues.modifyAt idx fun _ => q' }.queued + {p} :=
    queued_of_peers (balance_modifyAt h (by rw [add_zero, hq])) rfl rfl
  refine Moves.of_counters hp (fun ht => ?_) (nonEmptyPeers_take h hlen) rfl
  have := congrArg Multiset.card hp
  simp only [Multiset.card_add, Multiset.card_singleton, Multiset.card_zero] at this ⊢
  omega

theorem moves_deficit {n : Nat} :
    Moves e { e with peerQueues := e.peerQueues.modifyAt idx fun q => { q with deficit := n } } 0 0 := by
  have hb : (e.peerQueues.total fun _ q => q.busy) + 0 =
      ((e.peerQueues.modifyAt idx fun q => { q with deficit := n }).total fun _ q => q.busy) + 0 :=
    balance_modifyAt h rfl
  refine Moves.of_counters (queued_of_peers ?_ rfl rfl) (fun _ => rfl) (fun hn => hn.trans hb) rfl
  exact balance_modifyAt h rfl

end

end

/-! ## Selection -/

theorem Glide.moves (h : Glide e e') : Moves e e' 0 0 := by
  cases h with
  | count n => exact .of_same_books rfl rfl rfl rfl rfl rfl
  | turn n => exact .of_same_books rfl rfl rfl rfl rfl rfl
  | credit h n => exact moves_deficit h

theorem Glides.moves (h : Glides e e') : Moves e e' 0 0 := by
  induction h with
  | refl => exact .refl
  | tail _ h ih => simpa only [add_zero] using ih.trans h.moves

theorem Take.moves {item : NextPacket} (h : Take now e item e') : Moves e e' 0 {item.packet} := by
  cases h with
  | control h =>
    refine Moves.of_counters (queued_of_control ?_ rfl rfl) (fun ht => ?_) id rfl
    · rw [h, bag_cons, add_zero, add_comm]
      rfl
    have : 0 < e.queued.card := by simp [queued, h]
    simp only [Multiset.card_singleton, Multiset.card_zero]
    omega
  | retransmit h =>
    refine Moves.of_counters (queued_of_retransmit ?_ rfl rfl) (fun ht => ?_) id rfl
    · rw [h, bag_cons, add_zero, add_comm]
      rfl
    have : 0 < e.queued.card := by simp [queued, h]
    simp only [Multiset.card_singleton, Multiset.card_zero]
    omega
  | @data idx dest q q' entry h hpop _ =>
    have htakes := q.takes_popData e.priorityOn now
    rw [hpop] at htakes
    exact moves_take h htakes.packets

theorem Selects.moves {r : PacingEngine × Option NextPacket} (h : Selects now e r) : Search.Outcome
    (fun e' => Moves e e' 0 0) (fun e' item => Moves e e' 0 {item.packet}) r := by
  unfold Selects Search.Outcome at *
  cases hr : r.2 with
  | none =>
    rw [hr] at h
    exact Glides.moves h
  | some item =>
    rw [hr] at h
    obtain ⟨e₁, hglide, htake⟩ := h
    simpa only [add_zero, zero_add] using (Glides.moves hglide).trans htake.moves

/-! ## Sending -/

def TakesBack (requeue : PacingEngine → PacingEngine) (p : Packet) : Prop :=
  ∀ e, Moves e { requeue e with queuedPacketsTotal := (requeue e).queuedPacketsTotal + 1 } {p} 0

theorem takesBack_requeueControl {q : QueuedPacket} : TakesBack (requeueControl q) q.packet := by
  intro e
  refine Moves.of_counters (queued_of_control ?_ rfl rfl) (fun _ => rfl) id rfl
  rw [requeueControl, bag_cons, add_zero, add_comm]

theorem takesBack_requeueRetransmit {q : QueuedPacket} : TakesBack (requeueRetransmit q) q.packet := by
  intro e
  refine Moves.of_counters (queued_of_retransmit ?_ rfl rfl) (fun _ => rfl) id rfl
  rw [requeueRetransmit, bag_cons, add_zero, add_comm]

theorem nonEmptyPeers_put {f : PeerDataQueue → PeerDataQueue} (hf : (f (e.peerQueue dest)).isEmpty = false)
    (hn : e.nonEmptyPeers = e.peerQueues.total fun _ q => q.busy) :
    (if (e.peerQueue dest).isEmpty then e.nonEmptyPeers + 1 else e.nonEmptyPeers) =
    (e.peerQueues.upsert dest .new f).total fun _ q => q.busy := by
  have hf1 : (f (e.peerQueue dest)).busy = 1 := by
    unfold PeerDataQueue.busy
    rw [hf]
    rfl
  have hb : (e.peerQueues.total fun _ q => q.busy) + 1 =
      ((e.peerQueues.upsert dest .new f).total fun _ q => q.busy) + (e.peerQueue dest).busy :=
    balance_upsert rfl ((Nat.add_comm _ _).trans (by rw [← hf1]; rfl))
  unfold PeerDataQueue.busy at hb hn ⊢
  split <;> rename_i he <;> simp only [he, if_true, Bool.false_eq_true, if_false] at hb <;> omega

theorem takesBack_requeueDataAtFront {enqueuedAt : Instant} :
    TakesBack (requeueDataAtFront dest pkt enqueuedAt) (pkt, dest) := by
  intro e
  let f : PeerDataQueue → PeerDataQueue := fun q => q.pushFrontRequeue ⟨pkt, enqueuedAt⟩ e.priorityOn e.threshold
  have hpackets (q : PeerDataQueue) : q.packets dest + {(pkt, dest)} = (f q).packets dest + 0 := by
    rw [PeerDataQueue.packets_pushFrontRequeue, add_zero]
    rfl
  exact Moves.of_counters (queued_of_peers (balance_upsert rfl (hpackets _)) rfl rfl) (fun _ => rfl)
    (nonEmptyPeers_put (PeerDataQueue.isEmpty_pushFrontRequeue _)) rfl

def Sends (e : PacingEngine) (p : Packet) (r : PacingEngine × Option TickResult) : Prop :=
  match r.2 with
  | none => Moves e r.1 0 0
  | some _ => Moves e r.1 {p} 0

theorem sends_trySendWith {requeue charge : PacingEngine → PacingEngine} (hrequeue : TakesBack requeue p)
    (hcharge : ∀ e, Moves e (charge e) 0 0) :
    Sends e p (e.trySendWith requeue charge p outcome sent) := by
  unfold trySendWith
  cases outcome with
  | ok =>
    have hpaid : Moves e { e.budgetConsume p.1.length with consecutiveErrors := 0 } 0 0 :=
      .of_same_books rfl rfl rfl rfl rfl rfl
    exact hpaid.trans (hcharge _)
  | wouldBlock => exact hrequeue e
  | error =>
    refine ⟨(hrequeue e).packets, fun ha => ?_⟩
    have h := (hrequeue e).accounts ha
    exact ⟨h.total, h.nonEmpty, h.dropped⟩

theorem sends_trySendQueuedPacket (e : PacingEngine) (q : QueuedPacket) (retransmit : Bool) (outcome : SendOutcome)
    (sent : Nat) : Sends e q.packet (e.trySendQueuedPacket q retransmit outcome sent) := by
  unfold trySendQueuedPacket
  refine sends_trySendWith ?_ (fun _ => .refl)
  cases retransmit with
  | true => exact takesBack_requeueRetransmit
  | false => exact takesBack_requeueControl

theorem sends_trySendNextPacket (e : PacingEngine) (item : NextPacket) (outcome : SendOutcome) (sent : Nat) :
    Sends e item.packet (e.trySendNextPacket item outcome sent) := by
  cases item with
  | control q => exact sends_trySendWith takesBack_requeueControl (fun _ => .refl)
  | data pkt dest enqueuedAt =>
    have hcharge (e : PacingEngine) :
        Moves e { e with backgroundCc := e.backgroundCc.consumeSendBytes dest pkt.length } 0 0 :=
      .of_same_books rfl rfl rfl rfl rfl rfl
    exact sends_trySendWith takesBack_requeueDataAtFront hcharge

/-! ## A tick -/

def Ticking.Balanced (t : Ticking) (e : PacingEngine) (dropped : Multiset Packet) : Prop :=
  Moves e t.engine 0 (↑t.sent + dropped)

section
variable {e : PacingEngine} {dropped : Multiset Packet} {t : Ticking}

theorem Ticking.balanced_start (h : Moves e e' 0 dropped) : Ticking.Balanced ⟨e', []⟩ e dropped := by
  unfold Ticking.Balanced
  rw [Multiset.coe_nil, zero_add]
  exact h

theorem Ticking.Balanced.send (h : t.Balanced e dropped) {picked : PacingEngine}
    (hpick : Moves t.engine picked 0 {p}) {r : PacingEngine × Option TickResult} (hr : Sends picked p r) :
    Ticking.Balanced ⟨r.1, if r.2.isSome then t.sent else t.sent ++ [p]⟩ e dropped := by
  unfold Ticking.Balanced at *
  unfold Sends at hr
  have hout := h.trans hpick
  cases hr2 : r.2 with
  | none =>
    rw [hr2] at hr
    have hsent := hout.trans hr
    simp only [add_zero, add_right_comm _ dropped] at hsent
    simp only [Option.isSome_none, Bool.false_eq_true, if_false, ← Multiset.coe_add, Multiset.coe_singleton]
    exact hsent
  | some result =>
    rw [hr2] at hr
    have hback := hout.trans hr
    simp only [add_zero] at hback
    exact hback.cancel

theorem moves_withRest {q : QueuedPacket}
    (h : e.reservedQueue retransmit = q :: rest) : Moves e (e.withRest retransmit rest) 0 {q.packet} := by
  unfold withRest
  cases retransmit with
  | true => exact (show Take 0 _ _ _ from .retransmit h).moves
  | false => exact (show Take 0 _ _ _ from .control h).moves

theorem tickRule_balanced : TickRule fun t => t.Balanced e dropped where
  reserved t retransmit q rest outcome n h _ hqueue :=
    h.send (moves_withRest hqueue) (sends_trySendQueuedPacket _ q retransmit outcome n)
  idle t freezeDrr c h hp := by
    simpa only [Ticking.Balanced, add_zero] using
      Moves.trans h ((selects_popNextApd t.engine freezeDrr c).moves.of_none hp)
  burst t freezeDrr c item outcome n h _ hp :=
    h.send ((selects_popNextApd t.engine freezeDrr c).moves.of_some hp) (sends_trySendNextPacket _ item outcome n)

end

/-! ## Shedding -/

theorem moves_shedAt (e : PacingEngine) (idx : Nat) (now : Instant) :
    Moves e (e.shedAt idx now).1 0 ↑(e.shedAt idx now).2.toList := by
  unfold shedAt
  split
  · exact .refl
  rename_i dest q h
  split
  · exact .refl
  rename_i entry bulk hbulk
  split
  · exact .refl
  have htake : q.packets dest = { q with bulk := bulk }.packets dest + {entry.packet dest} := by
    simp only [PeerDataQueue.packets, hbulk, bag_cons]; abel
  have hmoves := moves_take h htake
  refine ⟨hmoves.packets, fun ha => ?_⟩
  have hacc := hmoves.accounts ha
  refine ⟨hacc.total, hacc.nonEmpty, ?_⟩
  have := ha.dropped
  dsimp only
  omega

theorem moves_shedTurns {turns : List Nat} {e₀ : PacingEngine} (h : Moves e₀ e 0 ↑dropped) : Moves e₀
    (shedTurns now deadline clock turns e dropped).1 0 ↑(shedTurns now deadline clock turns e dropped).2 := by
  induction turns generalizing e dropped with
  | nil => exact h
  | cons i is ih =>
    unfold shedTurns
    split
    · exact h
    apply ih
    have hturn := (h.trans (Glides.moves (glides_advanceCursor e))).trans (moves_shedAt _ e.cursorIndex now)
    simpa only [add_zero, ← Multiset.coe_add] using hturn

theorem moves_shedStaleBulkRr (e : PacingEngine) (now deadline : Instant) (clock : Nat → Instant) :
    Moves e (e.shedStaleBulkRr now deadline clock).1 0 ↑(e.shedStaleBulkRr now deadline clock).2 := by
  unfold shedStaleBulkRr
  split
  · exact .refl
  exact moves_shedTurns .refl

theorem moves_refillBudget (e : PacingEngine) (now : Instant) : Moves e (e.refillBudget now) 0 0 := by
  unfold refillBudget refreshDrrRttRef
  dsimp only
  split
  · split <;> exact .of_same_books rfl rfl rfl rfl rfl rfl
  exact .of_same_books rfl rfl rfl rfl rfl rfl

theorem moves_apdStep (e : PacingEngine) (now drainNow : Instant) : Moves e (e.apdStep now drainNow).1 0 0 := by
  unfold apdStep
  split
  · exact .of_same_books rfl rfl rfl rfl rfl rfl
  exact .refl

theorem moves_tickWith (e : PacingEngine) (c : TickClock) (answers : Answers) :
    Moves e (e.tickWith c answers).engine 0 (↑(e.tickWith c answers).sent + ↑(e.tickWith c answers).dropped) := by
  unfold tickWith
  dsimp only
  have hstart := ((moves_refillBudget e c.start).trans (moves_apdStep _ c.start c.drain)).trans
    (moves_shedStaleBulkRr _ c.start (c.start + micros (max e.config.maxTickWorkUs 100)) c.shed)
  simp only [add_zero, zero_add] at hstart
  exact tickRule_balanced.tickWith (Ticking.balanced_start hstart)

/-! ## Enqueueing -/

theorem hinted_lanes (q : PeerDataQueue) (rttMs qdMs : Option ℚ) :
    (hinted q rttMs qdMs).small = q.small ∧ (hinted q rttMs qdMs).bulk = q.bulk := by
  unfold hinted PeerDataQueue.applyPeerRttHint PeerDataQueue.applyPeerQdHint
  constructor <;> (repeat' split) <;> rfl

theorem hinted_packets : (hinted q rttMs qdMs).packets dest = q.packets dest := by
  unfold PeerDataQueue.packets
  rw [(hinted_lanes q rttMs qdMs).1, (hinted_lanes q rttMs qdMs).2]

theorem hinted_isEmpty : (hinted q rttMs qdMs).isEmpty = q.isEmpty := by
  unfold PeerDataQueue.isEmpty
  rw [(hinted_lanes q rttMs qdMs).1, (hinted_lanes q rttMs qdMs).2]

theorem queued_put {gain loss : Multiset Packet} (hq : (e.peerQueue dest).packets dest + gain = q.packets dest + loss)
    (hc : e'.controlQ = e.controlQ) (hr : e'.retransmitQ = e.retransmitQ)
    (hp : e'.peerQueues = e.peerQueues.upsert dest .new fun _ => q) : e.queued + gain = e'.queued + loss := by
  refine queued_of_peers ?_ hc hr
  rw [hp]
  exact balance_upsert (μ := PeerDataQueue.packets) rfl hq

theorem moves_enqueuePeerWithHints (e : PacingEngine) (pkt : Bytes) (dest : SocketAddr) (rttMs qdMs : Option ℚ)
    (now : Instant) : Moves e (e.enqueuePeerWithHints pkt dest rttMs qdMs now).1 {(pkt, dest)}
    ↑(e.enqueuePeerWithHints pkt dest rttMs qdMs now).2.2 := by
  unfold enqueuePeerWithHints
  dsimp only
  generalize hr :
    (hinted (e.peerQueue dest) rttMs qdMs).push ⟨pkt, now⟩ (max e.config.maxDataQueuePackets 1) e.priorityOn
    e.threshold = r
  have hpackets := PeerDataQueue.packets_push dest (hinted (e.peerQueue dest) rttMs qdMs) ⟨pkt, now⟩
    (max e.config.maxDataQueuePackets 1) e.priorityOn e.threshold
  have hlen := PeerDataQueue.length_dropped_push (hinted (e.peerQueue dest) rttMs qdMs)
    (Nat.lt_of_lt_of_le Nat.zero_lt_one (Nat.le_max_right e.config.maxDataQueuePackets 1))
      ⟨pkt, now⟩ e.priorityOn e.threshold
  have hne := PeerDataQueue.isEmpty_push (hinted (e.peerQueue dest) rttMs qdMs) ⟨pkt, now⟩
    (max e.config.maxDataQueuePackets 1) e.priorityOn e.threshold
  rw [hr, hinted_packets] at hpackets
  rw [hr] at hlen hne
  simp only [hinted_isEmpty, hne, Bool.not_false, Bool.and_true]
  cases hkept : r.2.1 with
  | true =>
    rw [hkept, if_pos rfl] at hlen
    refine Moves.of_counters (queued_put hpackets rfl rfl rfl) (fun _ => ?_) (nonEmptyPeers_put hne) rfl
    simp [hlen]
  | false =>
    rw [hkept, if_neg (by decide)] at hlen
    refine Moves.of_counters (queued_put hpackets rfl rfl rfl) (fun _ => ?_) (nonEmptyPeers_put hne) ?_
    · simp [hlen]
    simp only [Bool.false_eq_true, if_false]
    omega

theorem bag_batchEntries {pkts : List Bytes} {now : Nat → Instant} :
    bag (·.packet dest) (batchEntries pkts now) = bag (fun pkt => (pkt, dest)) pkts := by
  have hfst :
      (QueuedData.packet · dest) ∘ (fun p : Bytes × Nat => ⟨p.1, now p.2⟩) = (fun pkt => (pkt, dest)) ∘ Prod.fst :=
    rfl
  unfold bag batchEntries
  rw [List.map_map, hfst, ← List.map_map, List.zipIdx_map_fst]

theorem moves_tryEnqueuePeerBatch (e : PacingEngine) (dest : SocketAddr) (pkts : List Bytes) (rttMs qdMs : Option ℚ)
    (now : Nat → Instant) : Moves e (e.tryEnqueuePeerBatch dest pkts rttMs qdMs now).1
    (if (e.tryEnqueuePeerBatch dest pkts rttMs qdMs now).2 then bag (fun pkt => (pkt, dest)) pkts else 0) 0 := by
  unfold tryEnqueuePeerBatch
  split
  · rename_i h
    rw [h]
    exact .refl
  rename_i hpkts
  dsimp only
  split
  · have hbusy : (hinted (e.peerQueue dest) rttMs qdMs).busy = (e.peerQueue dest).busy := by
      unfold PeerDataQueue.busy
      rw [hinted_isEmpty]
    have hb : (e.peerQueues.total fun _ q => q.busy) + 0 =
        ((e.peerQueues.upsert dest .new fun _ => hinted (e.peerQueue dest) rttMs qdMs).total fun _ q => q.busy) + 0 :=
      balance_upsert rfl hbusy.symm
    simp only [Bool.false_eq_true, if_false]
    exact Moves.of_counters (queued_put (by rw [hinted_packets]) rfl rfl rfl) (fun _ => rfl)
      (fun hn => hn.trans hb) rfl
  have hbatch : batchEntries pkts now ≠ [] := by simpa [batchEntries] using hpkts
  have hne := PeerDataQueue.isEmpty_pushAll (hinted (e.peerQueue dest) rttMs qdMs) hbatch e.priorityOn e.threshold
  simp only [hinted_isEmpty, hne, Bool.not_false, Bool.and_true, if_true]
  refine Moves.of_counters (queued_put ?_ rfl rfl rfl) (fun _ => ?_) (nonEmptyPeers_put hne) rfl
  · rw [PeerDataQueue.packets_pushAll, hinted_packets, bag_batchEntries, add_zero]
  simp

theorem bag_evict (l : List QueuedPacket) (n : Nat) (q : QueuedPacket) : bag QueuedPacket.packet l + {q.packet} = bag
    QueuedPacket.packet (l.drop n ++ [q]) + bag QueuedPacket.packet (l.take n) := by
  conv_lhs => rw [← List.take_append_drop n l]
  simp only [bag_append, bag_cons, bag_nil]
  abel

theorem overflow_le (queued cap : Nat) : overflow queued cap ≤ queued := by
  unfold overflow
  omega

theorem moves_enqueueRetransmit :
    Moves e (e.enqueueRetransmit pkt dest now).1 {(pkt, dest)} ↑(e.enqueueRetransmit pkt dest now).2.2 := by
  unfold enqueueRetransmit
  dsimp only
  have hle := overflow_le e.retransmitQ.length e.config.maxRetransmitQueuePackets
  generalize overflow e.retransmitQ.length e.config.maxRetransmitQueuePackets = n at hle ⊢
  refine Moves.of_counters (queued_of_retransmit (bag_evict e.retransmitQ n ⟨pkt, dest, now⟩) rfl rfl)
    (fun ht => ?_) id ?_
  · have : e.retransmitQ.length ≤ e.queued.card := by
      simp only [queued, Multiset.card_add, card_bag]
      omega
    simp only [Multiset.coe_card, List.length_map, List.length_take, Multiset.card_singleton]
    omega
  dsimp only
  omega

theorem moves_enqueueControl :
    Moves e (e.enqueueControl pkt dest now).1 {(pkt, dest)} ↑(e.enqueueControl pkt dest now).2.2 := by
  unfold enqueueControl
  dsimp only
  have hle := overflow_le e.controlQ.length e.config.maxControlQueuePackets
  generalize overflow e.controlQ.length e.config.maxControlQueuePackets = n at hle ⊢
  refine Moves.of_counters (queued_of_control (bag_evict e.controlQ n ⟨pkt, dest, now⟩) rfl rfl) (fun ht => ?_) id ?_
  · have : e.controlQ.length ≤ e.queued.card := by
      simp only [queued, Multiset.card_add, card_bag]
      omega
    simp only [Multiset.coe_card, List.length_map, List.length_take, Multiset.card_singleton]
    omega
  dsimp only
  omega

theorem moves_removePeer (e : PacingEngine) (dest : SocketAddr) :
    Moves e (e.removePeer dest).1 0 ↑(e.removePeer dest).2 := by
  unfold removePeer
  dsimp only
  split
  · exact .of_same_books rfl rfl rfl rfl rfl rfl
  rename_i idx hidx
  obtain ⟨q, hq⟩ := IndexMap.getIndex_of_indexOf? hidx
  have hpeer : e.peerQueue dest = q := peerQueue_of_getIndex hq
  rw [hpeer]
  have hpackets : (↑((q.small ++ q.bulk).map (·.packet dest)) : Multiset Packet) = q.packets dest := by
    unfold PeerDataQueue.packets
    rw [← bag_append]
    rfl
  rw [hpackets]
  have hp : e.queued + 0 = { e with peerQueues := e.peerQueues.removeAt idx }.queued + q.packets dest :=
    queued_of_peers ((add_zero _).trans (total_removeAt hq).symm) rfl rfl
  have hbusy : ((e.peerQueues.removeAt idx).total fun _ q => q.busy) + q.busy = e.peerQueues.total fun _ q =>
      q.busy :=
    total_removeAt hq
  refine Moves.of_counters hp (fun ht => ?_) (fun hn => ?_) rfl
  · have hcard := congrArg Multiset.card hp
    simp only [Multiset.card_add, Multiset.card_zero, PeerDataQueue.card_packets] at hcard ⊢
    omega
  rw [q.busy_eq] at hbusy
  dsimp only
  split <;> rename_i hlen <;> simp only [hlen, if_true, if_false] at hbusy <;> omega

theorem moves_setConfig {cfg : PacingConfig} : Moves e (e.setConfig cfg now) 0 0 := by
  unfold setConfig
  dsimp only
  split
  · exact ⟨rfl, fun ha => ⟨ha.total, rfl, ha.dropped⟩⟩
  exact ⟨rfl, fun ha => ⟨ha.total, rfl, ha.dropped⟩⟩

/-! ## Whole runs -/

def fated (fate : Fate) (log : List Move) : Multiset Packet := bag Prod.snd (log.filter (·.1 = fate))

@[simp] theorem fated_nil : fated fate [] = 0 := rfl

theorem fated_append : fated fate (log ++ log') = fated fate log + fated fate log' := by
  unfold fated
  rw [List.filter_append, bag_append]

theorem fated_cons : fated fate ((fate', p) :: log) = (if fate' = fate then {p} else 0) + fated fate log := by
  unfold fated
  rw [List.filter_cons]
  split <;> rename_i h <;> simp at h <;> simp [h]

theorem fated_map {l : List Packet} : fated fate (l.map (Prod.mk fate')) = if fate' = fate then ↑l else 0 := by
  induction l with
  | nil => simp
  | cons p l ih =>
    rw [List.map_cons, fated_cons, ih]
    split <;> simp

def gone (log : List Move) : Multiset Packet := fated .sent log + fated .dropped log + fated .removed log

theorem gone_append : gone (log ++ log') = gone log + gone log' := by
  simp only [gone, fated_append]
  abel

theorem Moves.of_enqueue (h : Moves e e' {p} ↑dropped) : Moves e e'
    (fated .accepted ((.accepted, p) :: dropped.map (Prod.mk .dropped)))
    (gone ((.accepted, p) :: dropped.map (Prod.mk .dropped))) := by
  simpa [gone, fated_cons, fated_map] using h

theorem moves_step (e : PacingEngine) (op : Op) :
    Moves e (e.step op).1 (fated .accepted (e.step op).2) (gone (e.step op).2) := by
  cases op with
  | enqueuePeer pkt dest rttMs qdMs now => exact (moves_enqueuePeerWithHints e pkt dest rttMs qdMs now).of_enqueue
  | enqueueBatch dest pkts rttMs qdMs now =>
    have h := moves_tryEnqueuePeerBatch e dest pkts rttMs qdMs now
    unfold step
    dsimp only
    split <;> rename_i hr <;> simp only [hr, if_true] at h
    · simp only [gone, fated_map, reduceCtorEq, if_true, if_false, add_zero]
      exact h
    exact h
  | enqueueControl pkt dest now => exact (moves_enqueueControl).of_enqueue
  | enqueueRetransmit pkt dest now => exact (moves_enqueueRetransmit).of_enqueue
  | removePeer dest =>
    have h := moves_removePeer e dest
    simpa [step, gone, fated_map] using h
  | setConfig cfg now => exact moves_setConfig
  | resetObservabilityCounters => exact ⟨rfl, fun ha => ⟨ha.total, ha.nonEmpty, rfl⟩⟩
  | onCcSample dest qdMs lossEwma => exact .of_same_books rfl rfl rfl rfl rfl rfl
  | tick c answers =>
    have h := moves_tickWith e c answers
    simpa [step, gone, fated_append, fated_map] using h

theorem accounts_new : (PacingEngine.new now).Accounts := ⟨rfl, rfl, rfl⟩

def Accounted (e : PacingEngine) (log : List Move) : Prop :=
  e.Accounts ∧ fated .accepted log = e.queued + gone log

theorem accounted_step {op : Op} (h : Accounted e log) : Accounted (e.step op).1 (log ++ (e.step op).2) := by
  have hmoves := moves_step e op
  refine ⟨hmoves.accounts h.1, ?_⟩
  rw [fated_append, h.2, gone_append, add_right_comm, hmoves.packets]
  abel

theorem accounted_run (start : Instant) (ops : List Op) :
    Accounted (Machine.run step (.new start) ops) (Machine.trace step (.new start) ops) := by
  have hall : Machine.Each step (.new start) ops fun _ _ => True := fun _ _ _ => trivial
  exact Machine.trace_invariant (fun _ _ op _ h => accounted_step h) ⟨accounts_new, rfl⟩ hall

def lanes (e : PacingEngine) (dest : SocketAddr) : List QueuedData × List QueuedData :=
  ((e.peerQueue dest).small, (e.peerQueue dest).bulk)

def AllOrNothing (e : PacingEngine) (dest : SocketAddr) (batch : List QueuedData) (r : PacingEngine × Bool) : Prop :=
  r.1.controlQ = e.controlQ ∧ r.1.retransmitQ = e.retransmitQ ∧ ∀ d, r.1.lanes d =
    if r.2 = true ∧ d = dest then
      ((e.lanes d).1 ++ batch.filter fun entry =>
        PeerDataQueue.isSmallPacket entry.pkt.length e.priorityOn e.threshold,
        (e.lanes d).2 ++ batch.filter fun entry =>
          !PeerDataQueue.isSmallPacket entry.pkt.length e.priorityOn e.threshold)
    else e.lanes d

theorem peerQueue_upsert (h : e'.peerQueues = e.peerQueues.upsert dest .new fun _ => q) (d : SocketAddr) :
    e'.peerQueue d = if d = dest then q else e.peerQueue d := by
  unfold peerQueue
  rw [h, IndexMap.get?_upsert]
  split <;> rfl

theorem allOrNothing_tryEnqueuePeerBatch (e : PacingEngine) (dest : SocketAddr) (pkts : List Bytes)
    (rttMs qdMs : Option ℚ) (now : Nat → Instant) :
    AllOrNothing e dest (batchEntries pkts now) (e.tryEnqueuePeerBatch dest pkts rttMs qdMs now) := by
  have hlanes := hinted_lanes (e.peerQueue dest) rttMs qdMs
  unfold tryEnqueuePeerBatch
  split
  · rename_i h
    refine ⟨rfl, rfl, fun d => ?_⟩
    simp [h, batchEntries]
  dsimp only
  split
  · refine ⟨rfl, rfl, fun d => ?_⟩
    rw [if_neg (by simp)]
    unfold lanes
    rw [peerQueue_upsert rfl]
    split
    · rename_i hd
      rw [hlanes.1, hlanes.2, hd]
    rfl
  refine ⟨rfl, rfl, fun d => ?_⟩
  unfold lanes
  rw [peerQueue_upsert rfl]
  by_cases hd : d = dest
  · have hpush := PeerDataQueue.lanes_pushAll (hinted (e.peerQueue dest) rttMs qdMs) (batchEntries pkts now)
      e.priorityOn e.threshold
    rw [if_pos hd, if_pos ⟨rfl, hd⟩, hd, ← hlanes.1, ← hlanes.2, ← hpush.1, ← hpush.2]
  · rw [if_neg hd, if_neg (fun h => hd h.2)]

/-- In every state that the calls of the engine lead to, the counters agree with the queues and every accepted
packet is in one place: queued, sent, dropped or removed with its peer. A batch is taken whole or not at all. -/
theorem packets_conserved (start : Instant) (ops : List Op) :
    let e := Machine.run step (.new start) ops
    let log := Machine.trace step (.new start) ops
    e.Accounts ∧ fated .accepted log = e.queued + fated .sent log + fated .dropped log + fated .removed log ∧
      ((fated .accepted log).Nodup → (e.queued + fated .sent log + fated .dropped log + fated .removed log).Nodup) ∧
      ∀ dest pkts rttMs qdMs now,
        AllOrNothing e dest (batchEntries pkts now) (e.tryEnqueuePeerBatch dest pkts rttMs qdMs now) := by
  dsimp only
  obtain ⟨haccounts, hlog⟩ := accounted_run start ops
  have hall : fated .accepted (Machine.trace step (.new start) ops) = _ :=
    hlog.trans (by rw [gone, ← add_assoc, ← add_assoc])
  exact ⟨haccounts, hall, fun h => hall ▸ h,
    fun dest pkts rttMs qdMs now => allOrNothing_tryEnqueuePeerBatch _ dest pkts rttMs qdMs now⟩

end PacingEngine

end ConnectUnit.Pacing
