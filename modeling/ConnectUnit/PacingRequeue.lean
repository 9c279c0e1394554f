import ConnectUnit.PacingDrr

/-!
# Blocked sends

A packet whose send blocks goes back to the front of a queue.
-/

namespace ConnectUnit.Pacing

variable {entry : QueuedData} {now : Instant} {q' q : PeerDataQueue} {i idx sent : Nat} {dest : SocketAddr}
variable {c : PopClock} {item : NextPacket} {rest : List QueuedPacket}

/-! ## The front of the lanes -/

namespace PeerDataQueue

section
variable {q : PeerDataQueue} (priorityOn : Bool) (now : Instant)

theorem exists_front {priorityOn : Bool} {now : Instant}
    (h : (q.popData priorityOn now).2 = some entry) : ∃ front, (q.small ++ q.bulk).head? = some front := by
  cases hq : q.small ++ q.bulk with
  | cons front _ => exact ⟨front, rfl⟩
  | nil =>
    obtain ⟨hsmall, hbulk⟩ := List.append_eq_nil_iff.mp hq
    rw [popData, if_pos (by rw [isEmpty, hsmall, hbulk]; rfl)] at h
    cases h

theorem popData_snd (h : q.small = [] ∨ q.bulk = []) : (q.popData priorityOn now).2 = (q.small ++ q.bulk).head? := by
  have htakes := q.takes_popData priorityOn now
  unfold Takes at htakes
  cases hentry : (q.popData priorityOn now).2 with
  | none =>
    rw [hentry] at htakes
    have hlen := htakes.1
    rw [len, ← List.length_append] at hlen
    rw [List.eq_nil_of_length_eq_zero hlen]
    rfl
  | some entry =>
    rw [hentry] at htakes
    rcases htakes with ⟨hsmall, _⟩ | ⟨hbulk, _⟩
    · rw [hsmall]
      rfl
    rcases h with hs | hb
    · rw [hs, hbulk]
      rfl
    rw [hb] at hbulk
    cases hbulk

theorem frontLen_eq (h : q.small = [] ∨ q.bulk = []) :
    q.frontLen priorityOn now = ((q.small ++ q.bulk).head?.map (·.pkt.length)).getD 0 := by
  have hpop := popData_snd priorityOn now h
  cases hfront : (q.small ++ q.bulk).head? with
  | none =>
    rw [List.head?_eq_none_iff] at hfront
    exact q.frontLen_of_isEmpty _ _ ((isEmpty_iff q).mpr (by rw [len, ← List.length_append, hfront]; rfl))
  | some entry =>
    rw [hfront] at hpop
    exact (q.length_of_popData _ _ hpop).symm

theorem holSojournMs_eq (hs : q'.small = q.small) (hb : q'.bulk = q.bulk) :
    q'.holSojournMs now = q.holSojournMs now := by
  unfold holSojournMs bulkHolSojournMs bulkFrontSojournMs
  rw [hs, hb]

end

end PeerDataQueue

namespace PacingEngine

/-- The queues hold the same packets in the same order. -/
structure SameQueues (e e' : PacingEngine) : Prop where
  control : e'.controlQ = e.controlQ
  retransmit : e'.retransmitQ = e.retransmitQ
  lanes : ∀ dest, e'.lanes dest = e.lanes dest

/-- Every data packet stands in the lane that the settings give to its length. -/
def Placed (e : PacingEngine) : Prop :=
  ∀ dest, (∀ entry ∈ (e.lanes dest).1, PeerDataQueue.isSmallPacket entry.pkt.length e.priorityOn e.threshold = true) ∧
    ∀ entry ∈ (e.lanes dest).2, PeerDataQueue.isSmallPacket entry.pkt.length e.priorityOn e.threshold = false

/-- The engine after the selected packet was not sent because the socket would block. -/
def blocked (e : PacingEngine) (c : PopClock) (item : NextPacket) (sent : Nat) : PacingEngine :=
  ((e.popNext c).1.trySendNextPacket item .wouldBlock sent).1

def frontOf (e : PacingEngine) (dest : SocketAddr) : Option QueuedData := ((e.lanes dest).1 ++ (e.lanes dest).2).head?

structure Undivided (e : PacingEngine) : Prop where
  noRetransmit : e.retransmitQ = []
  oneKind : e.controlQ = [] ∨ ∀ dest, e.frontOf dest = none
  oneLane : ∀ dest, (e.lanes dest).1 = [] ∨ (e.lanes dest).2 = []
  onePeer : e.config.drrEnabled = true → ∀ x y, e.frontOf x ≠ none → e.frontOf y ≠ none → x = y
  quantum : e.config.drrEnabled = true → ∀ dest entry, e.frontOf dest = some entry → 0 < entry.pkt.length ∧
    entry.pkt.length ≤ e.config.scaledDrrQuantum (e.peerQueue dest).rttMs e.cachedRttRefMs
  size : e.peerQueues.size ≤ 2 ^ 64

def outline (peer : SocketAddr × PeerDataQueue) : SocketAddr × List QueuedData × List QueuedData × ℚ :=
  (peer.1, peer.2.small, peer.2.bulk, peer.2.rttMs)

structure Alike (e e' : PacingEngine) : Prop where
  config : e'.config = e.config
  cc : e'.backgroundCc = e.backgroundCc
  rttRef : e'.cachedRttRefMs = e.cachedRttRefMs
  control : e'.controlQ = e.controlQ
  retransmit : e'.retransmitQ = e.retransmitQ
  peers : ∀ i, (e'.peerQueues.getIndex i).map outline = (e.peerQueues.getIndex i).map outline

section
variable {e e' : PacingEngine}

theorem lanes_of_getIndex (h : e.peerQueues.getIndex i = some (dest, q)) : e.lanes dest = (q.small, q.bulk) := by
  unfold lanes
  rw [peerQueue_of_getIndex h]

/-! ## Engines that differ in turns and credits only -/

protected theorem Alike.refl (e : PacingEngine) : Alike e e := ⟨rfl, rfl, rfl, rfl, rfl, fun _ => rfl⟩

section
variable (h : Alike e e')
include h

protected theorem Alike.trans {e'' : PacingEngine} (h' : Alike e' e'') : Alike e e'' where
  config := h'.config.trans h.config
  cc := h'.cc.trans h.cc
  rttRef := h'.rttRef.trans h.rttRef
  control := h'.control.trans h.control
  retransmit := h'.retransmit.trans h.retransmit
  peers i := (h'.peers i).trans (h.peers i)

protected theorem Alike.symm : Alike e' e where
  config := h.config.symm
  cc := h.cc.symm
  rttRef := h.rttRef.symm
  control := h.control.symm
  retransmit := h.retransmit.symm
  peers i := (h.peers i).symm

theorem Alike.getIndex
    (hi : e.peerQueues.getIndex i = some (dest, q)) : ∃ q', e'.peerQueues.getIndex i = some (dest, q') ∧ q'.small =
    q.small ∧ q'.bulk = q.bulk ∧ q'.rttMs = q.rttMs := by
  have hp := h.peers i
  rw [hi] at hp
  obtain ⟨⟨dest', q'⟩, hi', ho⟩ := Option.map_eq_some_iff.mp hp
  simp only [outline, Prod.mk.injEq] at ho
  obtain ⟨rfl, hsmall, hbulk, hrtt⟩ := ho
  exact ⟨q', hi', hsmall, hbulk, hrtt⟩

theorem Alike.getIndex_none (hi : e.peerQueues.getIndex i = none) : e'.peerQueues.getIndex i = none := by
  have hp := h.peers i
  rw [hi] at hp
  exact Option.map_eq_none_iff.mp hp

theorem Alike.size : e'.peerQueues.size = e.peerQueues.size := by
  have hle {e e' : PacingEngine} (h : Alike e e') : e'.peerQueues.size ≤ e.peerQueues.size :=
    List.getElem?_eq_none_iff.mp
      (h.getIndex_none (i := e.peerQueues.size) (List.getElem?_eq_none_iff.mpr (Nat.le_refl _)))
  exact Nat.le_antisymm (hle h) (hle h.symm)

theorem Alike.lanes (dest : SocketAddr) : e'.lanes dest = e.lanes dest := by
  cases hidx : e.peerQueues.indexOf? dest with
  | some i =>
    obtain ⟨q, hi⟩ := IndexMap.getIndex_of_indexOf? hidx
    obtain ⟨q', hi', hsmall, hbulk, _⟩ := h.getIndex hi
    rw [lanes_of_getIndex hi, lanes_of_getIndex hi', hsmall, hbulk]
  | none =>
    cases hidx' : e'.peerQueues.indexOf? dest with
    | some i =>
      obtain ⟨q', hi'⟩ := IndexMap.getIndex_of_indexOf? hidx'
      obtain ⟨q, hi, _⟩ := h.symm.getIndex hi'
      rw [IndexMap.indexOf?_of_getIndex hi] at hidx
      cases hidx
    | none =>
      unfold PacingEngine.lanes peerQueue
      rw [IndexMap.get?_eq_none_of_indexOf? hidx, IndexMap.get?_eq_none_of_indexOf? hidx']

theorem Alike.sameQueues : SameQueues e e' := ⟨h.control, h.retransmit, h.lanes⟩

theorem Alike.priorityOn : e'.priorityOn = e.priorityOn := congrArg PacingConfig.drrSmallPacketPriority h.config

theorem Alike.canSend : e'.backgroundCcCanSend = e.backgroundCcCanSend := by
  unfold backgroundCcCanSend
  rw [h.cc]

end

theorem Placed.alike (hp : Placed e) (h : Alike e e') : Placed e' := by
  unfold Placed PacingEngine.priorityOn threshold
  rw [h.config]
  intro dest
  rw [h.lanes dest]
  exact hp dest

theorem alike_modifyAt {f : PeerDataQueue → PeerDataQueue}
    (h : e.peerQueues.getIndex idx = some (dest, q)) (hf : outline (dest, f q) = outline (dest, q)) (i : Nat) :
    ((e.peerQueues.modifyAt idx f).getIndex i).map outline = (e.peerQueues.getIndex i).map outline := by
  by_cases hi : idx = i
  · rw [← hi, IndexMap.getIndex_modifyAt h, h]
    exact congrArg some hf
  rw [IndexMap.getIndex_modifyAt_ne hi]

theorem Glide.alike (h : Glide e e') : Alike e e' := by
  cases h with
  | count n => exact ⟨rfl, rfl, rfl, rfl, rfl, fun _ => rfl⟩
  | turn n => exact ⟨rfl, rfl, rfl, rfl, rfl, fun _ => rfl⟩
  | credit h n => exact ⟨rfl, rfl, rfl, rfl, rfl, alike_modifyAt h rfl⟩

theorem Glides.alike (h : Glides e e') : Alike e e' := by
  induction h with
  | refl => exact .refl e
  | tail _ h ih => exact ih.trans h.alike

/-! ## Putting a packet back -/

theorem pushFrontRequeue_lanes {priorityOn : Bool} {threshold : Nat} (h : PeerDataQueue.Takes q (q', some entry))
    (hsmall : ∀ x ∈ q.small, PeerDataQueue.isSmallPacket x.pkt.length priorityOn threshold = true)
    (hbulk : ∀ x ∈ q.bulk, PeerDataQueue.isSmallPacket x.pkt.length priorityOn threshold = false) :
    (q'.pushFrontRequeue entry priorityOn threshold).small = q.small ∧
    (q'.pushFrontRequeue entry priorityOn threshold).bulk = q.bulk := by
  unfold PeerDataQueue.pushFrontRequeue
  rcases h with ⟨hs, hb⟩ | ⟨hb, hs⟩
  · rw [if_pos (hsmall entry (hs ▸ List.mem_cons_self))]
    exact ⟨hs.symm, hb⟩
  rw [if_neg (by rw [hbulk entry (hb ▸ List.mem_cons_self)]; decide)]
  exact ⟨hs, hb.symm⟩

theorem rttMs_pushFrontRequeue (q : PeerDataQueue) (entry : QueuedData) (priorityOn : Bool) (threshold : Nat) :
    (q.pushFrontRequeue entry priorityOn threshold).rttMs = q.rttMs := by
  unfold PeerDataQueue.pushFrontRequeue
  split <;> rfl

theorem rttMs_popData {priorityOn : Bool} : (q.popData priorityOn now).1.rttMs = q.rttMs := by
  unfold PeerDataQueue.popData PeerDataQueue.popFifoByAge
  repeat' split
  all_goals rfl

theorem Take.alike_data {pkt : Bytes} {enqueuedAt : Instant} (hp : Placed e)
    (h : Take now e (.data pkt dest enqueuedAt) e') : Alike e (requeueDataAtFront dest pkt enqueuedAt e') := by
  cases h with
  | @data idx dest q q' entry h hpop _ =>
    have htakes := q.takes_popData e.priorityOn now
    rw [hpop] at htakes
    have hplaced := hp dest
    rw [lanes_of_getIndex h] at hplaced
    have hback := pushFrontRequeue_lanes htakes hplaced.1 hplaced.2
    have hrtt : q'.rttMs = q.rttMs := (congrArg (·.1.rttMs) hpop).symm.trans rttMs_popData
    have hget := IndexMap.getIndex_modifyAt h fun _ => q'
    refine ⟨rfl, rfl, rfl, rfl, rfl, fun i => ?_⟩
    unfold requeueDataAtFront
    dsimp only
    rw [IndexMap.upsert_of_indexOf? (IndexMap.indexOf?_of_getIndex hget)]
    by_cases hi : idx = i
    · rw [← hi, IndexMap.getIndex_modifyAt hget, h]
      exact congrArg some
        (Prod.ext rfl (Prod.ext hback.1 (Prod.ext hback.2 ((rttMs_pushFrontRequeue ..).trans hrtt))))
    · rw [IndexMap.getIndex_modifyAt_ne hi, IndexMap.getIndex_modifyAt_ne hi]

theorem alike_blocked (hp : Placed e) (hr : e.retransmitQ = [])
    (h : (e.popNext c).2 = some item) (sent : Nat) : Alike e (e.blocked c item sent) := by
  obtain ⟨e₁, hglide, htake⟩ := (selects_popNext e c).of_some h
  have hsame := Glides.alike hglide
  unfold blocked trySendNextPacket trySendWith
  generalize (e.popNext c).1 = e' at htake
  cases item with
  | control q =>
    generalize hitem : NextPacket.control q = item at htake
    cases htake with
    | control hq =>
      cases hitem
      exact ⟨hsame.config, hsame.cc, hsame.rttRef, hq.symm.trans hsame.control, hsame.retransmit, hsame.peers⟩
    | retransmit hq =>
      rw [hsame.retransmit, hr] at hq
      cases hq
    | data => cases hitem
  | data pkt dest enqueuedAt =>
    have hback := hsame.trans (htake.alike_data (hp.alike hsame))
    exact ⟨hback.config, hback.cc, hback.rttRef, hback.control, hback.retransmit, hback.peers⟩

theorem retransmitQ_blocked {q : QueuedPacket} (hr : e.retransmitQ = q :: rest) (h : (e.popNext c).2 = some item) :
    (e.blocked c item sent).retransmitQ = rest ∧ (e.blocked c item sent).controlQ = q :: e.controlQ := by
  have hpop : e.popNext c =
      ({ e with retransmitQ := rest, queuedPacketsTotal := e.queuedPacketsTotal - 1 }, some (.control q)) := by
    unfold popNext popWith popRetransmitForSend
    rw [hr]
    rfl
  rw [hpop] at h
  cases h
  unfold blocked
  rw [hpop]
  exact ⟨rfl, rfl⟩

theorem blocked_sameQueues_iff (hp : Placed e) (h : (e.popNext c).2 = some item)
    : SameQueues e (e.blocked c item sent) ↔ e.retransmitQ = [] := by
  constructor
  · intro hsame
    cases hr : e.retransmitQ with
    | nil => rfl
    | cons q rest =>
      have hrest := hsame.retransmit
      rw [(retransmitQ_blocked hr h).1, hr] at hrest
      exact absurd hrest.symm (List.cons_ne_self q rest)
  intro hr
  exact (alike_blocked hp hr h sent).sameQueues

theorem reserved_blocked {retransmit : Bool} {q : QueuedPacket} (h : e.reservedQueue retransmit = q :: rest) :
    ((e.withRest retransmit rest).trySendQueuedPacket q retransmit .wouldBlock sent).1 =
      { e with queuedPacketsTotal := e.queuedPacketsTotal - 1 + 1 } := by
  cases retransmit with
  | true =>
    have hq : e.retransmitQ = q :: rest := h
    simp only [withRest, trySendQueuedPacket, trySendWith, requeueRetransmit, if_true, ← hq]
  | false =>
    have hq : e.controlQ = q :: rest := h
    simp only [withRest, trySendQueuedPacket, trySendWith, requeueControl, Bool.false_eq_true, if_false, ← hq]

/-! ## The next attempt -/

theorem popWith_exhausts {popPeers : PacingEngine → Instant → PacingEngine × Option NextPacket}
    : Search.Outcome (fun e => e.controlQ = []) (fun _ _ => True) (e.popWith popPeers c) := by
  have htry (r : PacingEngine × Option NextPacket) : Search.Outcome (fun _ => True) (fun _ _ => True) r := by
    unfold Search.Outcome
    split <;> trivial
  refine (htry _).orElse fun e _ => (htry _).orElse fun e _ => (htry _).orElse fun e _ => ?_
  unfold popControlForSend
  split
  · trivial
  assumption

theorem popNext_control (hr : e.retransmitQ = []) (hd : ∀ dest, e.frontOf dest = none) (c : PopClock) :
    (e.popNext c).2 = e.controlQ.head?.map .control := by
  have hsel := selects_popNext e c
  cases h : (e.popNext c).2 with
  | some item =>
    obtain ⟨e₁, hglide, htake⟩ := hsel.of_some h
    have hsame := Glides.alike hglide
    generalize (e.popNext c).1 = e' at htake
    cases htake with
    | control hq =>
      rw [← hsame.control, hq]
      rfl
    | retransmit hq =>
      rw [hsame.retransmit, hr] at hq
      cases hq
    | @data idx dest q q' entry hget hpop _ =>
      obtain ⟨front, hfront⟩ := PeerDataQueue.exists_front (congrArg Prod.snd hpop)
      have hnone := hd dest
      rw [frontOf, ← hsame.lanes, lanes_of_getIndex hget, hfront] at hnone
      cases hnone
  | none =>
    have hlast : (e.popNext c).1.controlQ = [] := (popWith_exhausts).of_none h
    rw [← (Glides.alike (hsel.of_none h)).control, hlast]
    rfl

theorem popNext_snd_of_data_only (hc : e.controlQ = []) (hr : e.retransmitQ = []) (c : PopClock) :
    ∃ n, (e.popNext c).2 =
    if e.config.drrEnabled then (({ e with interleaveCounter := n } : PacingEngine).popPeersDrr c.now).2
    else (({ e with interleaveCounter := n } : PacingEngine).popPeersInOrder c.now).2 := by
  obtain ⟨n, hn⟩ := popNext_of_data_only hc hr c
  refine ⟨n, ?_⟩
  have hsel : Selects c.now e (if e.config.drrEnabled then ({ e with interleaveCounter := n } : PacingEngine).popPeersDrr c.now
      else ({ e with interleaveCounter := n } : PacingEngine).popPeersInOrder c.now) := by
    refine Selects.after (.single (.count n)) ?_
    split
    · exact selects_popPeersDrr _ _
    exact selects_popPeersInOrder _ _
  rw [hn, ← apply_ite Prod.snd]
  unfold Search.orElse
  split
  · rename_i item hitem
    exact hitem.symm
  rename_i hnone
  rw [popControlForSend_none ((Glides.alike (hsel.of_none hnone)).control.trans hc), hnone]

theorem popPeerAt_snd
    (h : e.peerQueues.getIndex idx = some (dest, q)) : (e.popPeerAt idx now).2 = (q.popData e.priorityOn now).2.map
    fun entry => .data entry.pkt dest entry.enqueuedAt := by
  unfold popPeerAt
  rw [h]
  dsimp only
  split
  · rename_i hnone
    rw [hnone]
    rfl
  rename_i entry hentry
  rw [hentry]
  rfl

theorem Alike.servePeerAt_snd (h : Alike e e') (hl : ∀ dest, (e.lanes dest).1 = [] ∨ (e.lanes dest).2 = [])
    : (e'.servePeerAt idx now).2 = (e.servePeerAt idx now).2 := by
  unfold servePeerAt
  cases hi : e.peerQueues.getIndex idx with
  | none => rw [h.getIndex_none hi]
  | some peer =>
    obtain ⟨dest, q⟩ := peer
    obtain ⟨q', hi', hs, hb, _⟩ := h.getIndex hi
    have hlane := hl dest
    rw [lanes_of_getIndex hi] at hlane
    have hlane' : q'.small = [] ∨ q'.bulk = [] := by
      rw [hs, hb]
      exact hlane
    rw [hi']
    dsimp only
    rw [PeerDataQueue.frontLen_eq _ _ hlane, PeerDataQueue.frontLen_eq _ _ hlane',
        PeerDataQueue.holSojournMs_eq now hs hb,
      h.canSend, apply_ite Prod.snd, apply_ite Prod.snd, popPeerAt_snd hi, popPeerAt_snd hi',
      PeerDataQueue.popData_snd _ _ hlane, PeerDataQueue.popData_snd _ _ hlane', hs, hb]

theorem popPeerAt_none (h : (e.popPeerAt idx now).2 = none) : (e.popPeerAt idx now).1 = e := by
  cases hi : e.peerQueues.getIndex idx with
  | none =>
    unfold popPeerAt
    rw [hi]
  | some peer =>
    rw [popPeerAt_snd hi, Option.map_eq_none_iff] at h
    unfold popPeerAt
    rw [hi]
    dsimp only
    rw [h]

theorem servePeerAt_none (h : (e.servePeerAt idx now).2 = none) : (e.servePeerAt idx now).1 = e := by
  unfold servePeerAt at *
  cases hi : e.peerQueues.getIndex idx with
  | none => rfl
  | some peer =>
    rw [hi] at h
    dsimp only at *
    split at h
    · rename_i hcc
      rw [if_pos hcc]
      exact popPeerAt_none h
    rename_i hcc
    rw [if_neg hcc]

theorem Alike.popPeersInOrder_snd (h : Alike e e') (hl : ∀ dest, (e.lanes dest).1 = [] ∨ (e.lanes dest).2 = [])
    : (e'.popPeersInOrder now).2 = (e.popPeersInOrder now).2 := by
  unfold popPeersInOrder
  rw [Search.untilSome_snd (fun _ => servePeerAt_none), Search.untilSome_snd (fun _ => servePeerAt_none), h.size]
  exact congrArg (List.findSome? · _) (funext fun idx => h.servePeerAt_snd hl)

def Ready (e : PacingEngine) (i : Nat) (now : Instant) : Prop :=
  ∃ dest q, e.peerQueues.getIndex i = some (dest, q) ∧ (q.small = [] ∨ q.bulk = []) ∧
    0 < q.frontLen e.priorityOn now ∧
    q.frontLen e.priorityOn now ≤ e.config.scaledDrrQuantum q.rttMs e.cachedRttRefMs ∧
    e.backgroundCcCanSend dest (q.frontLen e.priorityOn now) (q.holSojournMs now) = true

theorem Ready.alike (hready : Ready e i now) (h : Alike e e') : Ready e' i now := by
  obtain ⟨dest, q, hi, hlane, hpos, hle, hcc⟩ := hready
  obtain ⟨q', hi', hs, hb, hrtt⟩ := h.getIndex hi
  have hlane' : q'.small = [] ∨ q'.bulk = [] := by
    rw [hs, hb]
    exact hlane
  have hlen : q'.frontLen e'.priorityOn now = q.frontLen e.priorityOn now := by
    rw [PeerDataQueue.frontLen_eq _ _ hlane, PeerDataQueue.frontLen_eq _ _ hlane', hs, hb]
  refine ⟨dest, q', hi', hlane', ?_⟩
  rw [hlen, PeerDataQueue.holSojournMs_eq now hs hb, h.config, h.rttRef, hrtt, h.canSend]
  exact ⟨hpos, hle, hcc⟩

theorem Ready.drrVisit (h : Ready e e.cursorIndex now) : (e.drrVisit now).2 ≠ none := by
  obtain ⟨dest, q, hi, _, hpos, hle, hcc⟩ := h
  intro hnone
  have hlt := ((drrVisit_self hi now hcc hpos).of_none hnone).1
  unfold creditAfter at hlt
  dsimp only at hlt
  omega

def turnAfter (cursor k : Nat) : Nat := if k = 0 then cursor else (cursor + k) % 2 ^ 64

theorem exists_turn {n : Nat} (hi : i < n) (hn : n ≤ 2 ^ 64) {cursor : Nat} :
    ∃ k < n * 2, turnAfter cursor k % n = i := by
  generalize hc : (cursor + 1) % 2 ^ 64 = c
  have hlt : c < 2 ^ 64 := hc ▸ Nat.mod_lt _ (by decide)
  have hstep (m : Nat) : turnAfter cursor (m + 1) = (c + m) % 2 ^ 64 := by
    rw [turnAfter, if_neg (Nat.succ_ne_zero m), ← hc, Nat.mod_add_mod, Nat.add_comm m 1, Nat.add_assoc]
  by_cases hroom : c + n ≤ 2 ^ 64
  · have hm : (i + n - c % n) % n < n := Nat.mod_lt _ (Nat.zero_lt_of_lt hi)
    have hcn : c % n < n := Nat.mod_lt _ (Nat.zero_lt_of_lt hi)
    refine ⟨(i + n - c % n) % n + 1, by omega, ?_⟩
    rw [hstep, Nat.mod_eq_of_lt (a := c + _) (by omega), Nat.add_mod_mod, ← Nat.mod_add_mod,
      show c % n + (i + n - c % n) = i + n by omega, Nat.add_mod_right, Nat.mod_eq_of_lt hi]
  refine ⟨2 ^ 64 - c + i + 1, by omega, ?_⟩
  rw [hstep, show c + (2 ^ 64 - c + i) = i + 2 ^ 64 by omega, Nat.add_mod_right,
    Nat.mod_eq_of_lt (Nat.lt_of_lt_of_le hi hn), Nat.mod_eq_of_lt hi]

def InTurn (e : PacingEngine) (i left : Nat) : Prop := ∃ k < left, turnAfter e.drrCursor k % e.peerQueues.size = i

theorem InTurn.visit {left : Nat} (h : InTurn e i (left + 1)) (hi : e.cursorIndex ≠ i) :
    InTurn (e.drrVisit now).1 i left := by
  obtain ⟨k, hk, hturn⟩ := h
  have hframe := visitFrame_drrVisit e now
  cases k with
  | zero => exact absurd hturn hi
  | succ k =>
    refine ⟨k, Nat.lt_of_succ_lt_succ hk, ?_⟩
    rw [hframe.size, ← hturn, hframe.cursor]
    unfold turnAfter
    rw [if_neg (Nat.succ_ne_zero k), Nat.mod_add_mod, Nat.add_right_comm, ← Nat.add_assoc]
    split
    · rename_i hzero
      rw [hzero]
    rfl

theorem Ready.popPeersDrr (h : Ready e i now) (hn : e.peerQueues.size ≤ 2 ^ 64)
    (hbusy : e.nonEmptyPeers ≠ 0) : (e.popPeersDrr now).2 ≠ none := by
  obtain ⟨_, _, hget, _⟩ := id h
  have hi := lt_size hget
  unfold PacingEngine.popPeersDrr
  rw [if_neg (by simpa using ⟨Nat.ne_of_gt (Nat.zero_lt_of_lt hi), hbusy⟩)]
  intro hnone
  have hsearch : Search.Outcome (fun s => Ready s i now ∧ InTurn s i 0) (fun _ _ => True)
      (Search.untilSome (fun e _ => e.drrVisit now) (List.range (e.peerQueues.size * 2)) e) := by
    refine Search.Outcome.untilSome_left (I := fun left s => Ready s i now ∧ InTurn s i left)
      (fun left s _ hs => ?_) ?_
    · unfold Search.Outcome
      split
      · trivial
      rename_i hmiss
      refine ⟨hs.1.alike (Glides.alike ((selects_drrVisit s now).of_none hmiss)), hs.2.visit ?_⟩
      intro hidx
      exact (hidx ▸ hs.1 : Ready s s.cursorIndex now).drrVisit hmiss
    rw [List.length_range]
    exact ⟨h, exists_turn hi hn⟩
  obtain ⟨k, hk, _⟩ := (hsearch.of_none hnone).2
  exact Nat.not_lt_zero k hk

theorem Undivided.take {e₁ : PacingEngine} (hu : Undivided e)
    (hc : e.controlQ = []) (h : Alike e e₁) (htake : Take now e₁ item e') : ∃ dest entry, e.frontOf dest = some entry
    ∧ item = .data entry.pkt dest entry.enqueuedAt ∧ (e.config.drrEnabled = true → ∃ i, Ready e₁ i now) := by
  cases htake with
  | control hq =>
    rw [h.control, hc] at hq
    cases hq
  | retransmit hq =>
    rw [h.retransmit, hu.noRetransmit] at hq
    cases hq
  | @data idx dest q q' entry hget hpop hcc =>
    have hlanes := lanes_of_getIndex hget
    have hlane := hu.oneLane dest
    rw [← h.lanes, hlanes] at hlane
    have hfront : e.frontOf dest = some entry := by
      rw [frontOf, ← h.lanes, hlanes, ← PeerDataQueue.popData_snd e₁.priorityOn now hlane, hpop]
    refine ⟨dest, entry, hfront, rfl, fun hdrr => ⟨idx, dest, q, hget, hlane, ?_⟩⟩
    obtain ⟨q₀, hget₀, _, _, hrtt⟩ := h.symm.getIndex hget
    have hquantum := hu.quantum hdrr dest entry hfront
    rw [peerQueue_of_getIndex hget₀, hrtt, ← h.config, ← h.rttRef,
      q.length_of_popData _ _ (congrArg Prod.snd hpop)] at hquantum
    exact ⟨hquantum.1, hquantum.2, hcc⟩

theorem nonEmptyPeers_blocked (hc : e.controlQ = []) (hr : e.retransmitQ = [])
    (hdrr : e.config.drrEnabled = true) (h : (e.popNext c).2 = some item) (sent : Nat) :
    (e.blocked c item sent).nonEmptyPeers ≠ 0 := by
  have hbusy : e.nonEmptyPeers ≠ 0 := by
    obtain ⟨n, hn⟩ := popNext_snd_of_data_only hc hr c
    rw [h, hdrr, if_pos rfl] at hn
    intro hzero
    rw [PacingEngine.popPeersDrr, if_pos (by simp [hzero])] at hn
    cases hn
  obtain ⟨e₁, hglide, htake⟩ := (selects_popNext e c).of_some h
  have hsame := Glides.alike hglide
  have hcount : e₁.nonEmptyPeers = e.nonEmptyPeers := by
    clear htake hsame
    induction hglide with
    | refl => rfl
    | tail _ hg ih => cases hg <;> exact ih
  unfold blocked trySendNextPacket trySendWith
  generalize (e.popNext c).1 = e' at htake
  cases htake with
  | control hq =>
    rw [hsame.control, hc] at hq
    cases hq
  | retransmit hq =>
    rw [hsame.retransmit, hr] at hq
    cases hq
  | @data idx dest q q' entry hget hpop _ =>
    have hleft : PacingEngine.peerQueue { e₁ with
        peerQueues := e₁.peerQueues.modifyAt idx fun _ => q'
        queuedPacketsTotal := e₁.queuedPacketsTotal - 1
        nonEmptyPeers := if q'.isEmpty then e₁.nonEmptyPeers - 1 else e₁.nonEmptyPeers } dest = q' := by
      rw [peerQueue, IndexMap.get?_of_getIndex (IndexMap.getIndex_modifyAt hget fun _ => q')]
      rfl
    unfold requeueDataAtFront
    dsimp only
    rw [hleft, hcount]
    split <;> omega

theorem Undivided.popNext_in_order (hu : Undivided e) (hc : e.controlQ = []) (hdrr : ¬ e.config.drrEnabled = true)
    (h : Alike e e') (c : PopClock) : (e'.popNext c).2 = (e.popNext c).2 := by
  have hdrr' : ¬ e'.config.drrEnabled = true := by
    rw [h.config]
    exact hdrr
  obtain ⟨n, hn⟩ := popNext_snd_of_data_only hc hu.noRetransmit c
  obtain ⟨n', hn'⟩ := popNext_snd_of_data_only (h.control.trans hc) (h.retransmit.trans hu.noRetransmit) c
  rw [hn, hn', if_neg hdrr, if_neg hdrr']
  have hcount : Glides e { e with interleaveCounter := n } := .single (.count n)
  have hcount' : Glides e' { e' with interleaveCounter := n' } := .single (.count n')
  have halike := (Glides.alike hcount).symm.trans (h.trans (Glides.alike hcount'))
  exact halike.popPeersInOrder_snd hu.oneLane

theorem Undivided.popNext_drr (hu : Undivided e) (hc : e.controlQ = [])
    (hdrr : e.config.drrEnabled = true) (h : Alike e e') (hbusy : e'.nonEmptyPeers ≠ 0)
    (hitem : (e.popNext c).2 = some item) : (e'.popNext c).2 = some item := by
  have hdrr' : e'.config.drrEnabled = true := by
    rw [h.config]
    exact hdrr
  obtain ⟨e₁, hglide, htake⟩ := (selects_popNext e c).of_some hitem
  have hsame := Glides.alike hglide
  obtain ⟨dest, entry, hfront, hdata, hready⟩ := hu.take hc hsame htake
  obtain ⟨i, hready⟩ := hready hdrr
  have hsome : (e'.popNext c).2 ≠ none := by
    obtain ⟨n, hn⟩ := popNext_snd_of_data_only (h.control.trans hc) (h.retransmit.trans hu.noRetransmit) c
    have hcount : Glides e' { e' with interleaveCounter := n } := .single (.count n)
    rw [hn, if_pos hdrr']
    exact (((hready.alike hsame.symm).alike h).alike (Glides.alike hcount)).popPeersDrr (h.size ▸ hu.size) hbusy
  obtain ⟨item', hitem'⟩ := Option.ne_none_iff_exists'.mp hsome
  obtain ⟨e₂, hglide', htake'⟩ := (selects_popNext _ c).of_some hitem'
  obtain ⟨dest', entry', hfront', hdata', _⟩ := hu.take hc (h.trans (Glides.alike hglide')) htake'
  have hdest : dest' = dest := hu.onePeer hdrr dest' dest (by rw [hfront']; exact nofun) (by rw [hfront]; exact nofun)
  rw [hdest, hfront] at hfront'
  cases hfront'
  rw [hitem', hdata', hdata, hdest]

theorem Undivided.popNext_blocked (hu : Undivided e) (hp : Placed e)
    (h : (e.popNext c).2 = some item) : ((e.blocked c item sent).popNext c).2 = some item := by
  have hback := alike_blocked hp hu.noRetransmit h sent
  rcases hu.oneKind with hc | hnone
  · by_cases hdrr : e.config.drrEnabled = true
    · exact hu.popNext_drr hc hdrr hback (nonEmptyPeers_blocked hc hu.noRetransmit hdrr h sent) h
    · exact (hu.popNext_in_order hc hdrr hback c).trans h
  have hnone' : ∀ dest, (e.blocked c item sent).frontOf dest = none := fun dest => by
    rw [frontOf, hback.lanes]
    exact hnone dest
  rw [popNext_control (hback.retransmit.trans hu.noRetransmit) hnone', hback.control,
    ← popNext_control hu.noRetransmit hnone c, h]

end

/-- One data packet waits. -/
def oneWaiting : PacingEngine := Machine.run step (.new 0) [.enqueuePeer (packetOf 100) longPeer none none 0]

theorem lanes_oneWaiting :
    oneWaiting.lanes dest = if dest = longPeer then ([⟨packetOf 100, 0⟩], []) else ([], []) := by
  let e := PacingEngine.new 0
  have hget := IndexMap.get?_upsert (m := e.peerQueues) longPeer dest .new fun _ =>
    (hinted (e.peerQueue longPeer) none none).push ⟨packetOf 100, 0⟩ (max e.config.maxDataQueuePackets 1) e.priorityOn
      e.threshold |>.1
  unfold lanes peerQueue
  rw [show oneWaiting.peerQueues.get? dest = _ from hget]
  split <;> rfl

end PacingEngine

end ConnectUnit.Pacing
