import Mathlib.Data.Int.CardIntervalMod
import ConnectUnit.PacingSound

/-!
# Fairness of the deficit round robin

A visit of the scheduler adds a quantum to the credit of a peer and sends at most one packet, whatever credit is left.
-/

open Machine (Each run stateAt trace)
open Search (Outcome orElse orElse_none orElse_some)
open IndexMap (getIndex_modifyAt getIndex_modifyAt_ne indexOf?_of_getIndex size_modifyAt)

namespace ConnectUnit.Pacing

variable {entry : QueuedData} {e e' e₀ : PacingEngine} {now : Instant} {item : NextPacket}
variable {n j i bytes count size deficit m k turn : Nat} {c : PopClock} {dest p q : SocketAddr} {q₀ : PeerDataQueue}
variable {priorityOn : Bool} {threshold : Nat}

namespace PeerDataQueue

section
variable (q : PeerDataQueue) (priorityOn : Bool) (now : Instant)

/-! ## The front of a queue -/

theorem length_of_popData (h : (q.popData priorityOn now).2 = some entry) :
    entry.pkt.length = q.frontLen priorityOn now := by
  unfold popData at h
  unfold frontLen
  dsimp only
  split at h
  · cases h
  rename_i hne
  rw [if_neg hne]
  split at h
  · rename_i hpr
    rw [if_pos hpr, h]
    rfl
  rename_i hpr
  rw [if_neg hpr]
  split at h
  · rename_i hforce
    rw [if_pos hforce, show q.bulk.head? = some entry from h]
    rfl
  rename_i hforce
  rw [if_neg hforce]
  split at h
  · rename_i hsmall
    rw [if_pos hsmall, show q.small.head? = some entry from h]
    rfl
  rename_i hsmall
  rw [if_neg hsmall, show q.bulk.head? = some entry from h]
  rfl

theorem frontLen_of_isEmpty (h : q.isEmpty = true) : q.frontLen priorityOn now = 0 := by
  unfold frontLen
  rw [if_pos h]

theorem isEmpty_of_frontLen (h : 0 < q.frontLen priorityOn now) : q.isEmpty = false := by
  rw [← Bool.not_eq_true]
  intro hempty
  rw [q.frontLen_of_isEmpty _ _ hempty] at h
  exact Nat.lt_irrefl 0 h

theorem popData_credit : ({ q with deficit := n } : PeerDataQueue).popData priorityOn now =
    ({ (q.popData priorityOn now).1 with deficit := n }, (q.popData priorityOn now).2) := by
  have hempty : ({ q with deficit := n } : PeerDataQueue).isEmpty = q.isEmpty := rfl
  have hforce : ({ q with deficit := n } : PeerDataQueue).shouldForceBulk now = q.shouldForceBulk now := rfl
  unfold popData
  rw [hempty, hforce, popFifoByAge_credit]
  dsimp only
  repeat' split
  all_goals rfl

theorem exists_popData (h : 0 < q.frontLen priorityOn now) : ∃ q' entry, q.popData priorityOn now = (q', some entry) ∧
    entry.pkt.length = q.frontLen priorityOn now := by
  have htakes := q.takes_popData priorityOn now
  unfold Takes at htakes
  cases hentry : (q.popData priorityOn now).2 with
  | none =>
    rw [hentry] at htakes
    rw [q.frontLen_of_isEmpty _ _ ((q.isEmpty_iff).mpr htakes.1)] at h
    exact absurd h (Nat.lt_irrefl 0)
  | some entry =>
    exact ⟨(q.popData priorityOn now).1, entry, Prod.ext rfl hentry, q.length_of_popData _ _ hentry⟩

end

end PeerDataQueue

namespace PacingEngine

/-! ## One visit -/

/-- What the peers get at each visit when round trip times do not count. -/
def quantum (e : PacingEngine) : Nat := max (max e.config.drrQuantum 1) PacingConfig.minDrrQuantum

/-- Only data, scheduled by deficit round robin without round trip times and congestion control. -/
structure DrrOnly (e : PacingEngine) : Prop where
  drrEnabled : e.config.drrEnabled = true
  rttUnaware : e.config.drrRttAware = false
  ccDisabled : e.backgroundCc.config.enabled = false
  noControl : e.controlQ = []
  noRetransmit : e.retransmitQ = []

theorem DrrOnly.quantum_eq (h : DrrOnly e) {rttMs refMs : ℚ} : e.config.scaledDrrQuantum rttMs refMs = e.quantum := by
  unfold PacingConfig.scaledDrrQuantum quantum
  simp [h.rttUnaware]

theorem DrrOnly.canSend (h : DrrOnly e) {len : Nat} {hol : ℚ} : e.backgroundCcCanSend dest len hol = true := by
  simp [backgroundCcCanSend, BackgroundCcEngine.canSendData, h.ccDisabled]

structure VisitFrame (e e' : PacingEngine) : Prop where
  config : e'.config = e.config
  rttRef : e'.cachedRttRefMs = e.cachedRttRefMs
  cc : e'.backgroundCc = e.backgroundCc
  controlQ : e'.controlQ = e.controlQ
  retransmitQ : e'.retransmitQ = e.retransmitQ
  size : e'.peerQueues.size = e.peerQueues.size
  cursor : e'.drrCursor = (e.drrCursor + 1) % 2 ^ 64
  others : ∀ i, i ≠ e.cursorIndex → e'.peerQueues.getIndex i = e.peerQueues.getIndex i

theorem visitFrame_drrVisit (e : PacingEngine) (now : Instant) : VisitFrame e (e.drrVisit now).1 := by
  have hcredit {e' : PacingEngine} (h : VisitFrame e e') (n : Nat) :
      VisitFrame e { e' with peerQueues := e'.peerQueues.modifyAt e.cursorIndex fun q => { q with deficit := n } } :=
    { h with
      size := (size_modifyAt).trans h.size
      others := fun i hi => (getIndex_modifyAt_ne hi.symm _).trans (h.others i hi) }
  have hpop {e' : PacingEngine} (h : VisitFrame e e') : VisitFrame e (e'.popPeerAt e.cursorIndex now).1 := by
    unfold popPeerAt
    split
    · exact h
    dsimp only
    split
    · exact h
    exact { h with
      size := (size_modifyAt).trans h.size
      others := fun i hi => (getIndex_modifyAt_ne hi.symm _).trans (h.others i hi) }
  have hturn : VisitFrame e e.advanceCursor := ⟨rfl, rfl, rfl, rfl, rfl, rfl, rfl, fun _ _ => rfl⟩
  unfold drrVisit
  dsimp only
  split
  · exact hturn
  split
  · exact hcredit hturn 0
  split
  · exact hcredit hturn _
  split
  · exact hcredit hturn _
  exact hpop (hcredit hturn _)

theorem drrVisit_dest (h : (e.drrVisit now).2 = some item) :
    ∃ q, e.peerQueues.getIndex e.cursorIndex = some (item.packet.2, q) := by
  unfold drrVisit at h
  dsimp only at h
  split at h
  · cases h
  rename_i dest q hq
  split at h
  · cases h
  split at h
  · cases h
  split at h
  · cases h
  unfold popPeerAt at h
  rw [getIndex_modifyAt hq] at h
  dsimp only at h
  split at h
  · cases h
  cases h
  exact ⟨q, hq⟩

section
variable {e : PacingEngine} {x : SocketAddr} {q : PeerDataQueue}

theorem popPeerAt_credit {idx : Nat} {q' : PeerDataQueue}
    (h : e.peerQueues.getIndex idx = some (x, { q with deficit := n }))
    (hpop : q.popData e.priorityOn now = (q', some entry)) :
    (e.popPeerAt idx now).2 = some (.data entry.pkt x entry.enqueuedAt) ∧
      (e.popPeerAt idx now).1.peerQueues.getIndex idx = some (x, { q' with deficit := n }) := by
  unfold popPeerAt
  rw [h]
  dsimp only
  rw [q.popData_credit, hpop]
  exact ⟨rfl, getIndex_modifyAt h _⟩

theorem drrVisit_self (h : e.peerQueues.getIndex e.cursorIndex = some (x, q)) (now : Instant)
    (hsend : e.backgroundCcCanSend x (q.frontLen e.priorityOn now) (q.holSojournMs now) = true)
    (hfront : 0 < q.frontLen e.priorityOn now) :
    Outcome (fun e' => e.creditAfter q now < q.frontLen e.priorityOn now ∧
        e'.peerQueues.getIndex e.cursorIndex = some (x, { q with deficit := e.creditAfter q now }))
      (fun e' item => ∃ q' entry, q.popData e.priorityOn now = (q', some entry) ∧
        q.frontLen e.priorityOn now ≤ e.creditAfter q now ∧ item = .data entry.pkt x entry.enqueuedAt ∧
        e'.peerQueues.getIndex e.cursorIndex =
          some (x, { q' with deficit := e.creditAfter q now - q.frontLen e.priorityOn now }))
      (e.drrVisit now) := by
  have hne := q.isEmpty_of_frontLen _ _ hfront
  unfold drrVisit
  dsimp only
  rw [show e.advanceCursor.peerQueues = e.peerQueues from rfl, h, show e.advanceCursor.priorityOn =
      e.priorityOn from rfl,
    show e.advanceCursor.backgroundCcCanSend = e.backgroundCcCanSend from rfl,
    show e.advanceCursor.creditAfter = e.creditAfter from rfl]
  dsimp only
  rw [hne, hsend]
  simp only [Bool.false_eq_true, if_false, Bool.not_true]
  split
  · rename_i hskip
    refine ⟨?_, getIndex_modifyAt h _⟩
    simpa [Nat.ne_of_gt hfront] using hskip
  rename_i hgo
  obtain ⟨q', entry, hpop, _⟩ := q.exists_popData _ _ hfront
  have hle : q.frontLen e.priorityOn now ≤ e.creditAfter q now := by
    simp only [Bool.or_eq_true, decide_eq_true_eq, not_or, Nat.not_lt] at hgo
    exact hgo.2
  obtain ⟨hitem, hget⟩ := popPeerAt_credit (e := { e.advanceCursor with
    peerQueues := e.peerQueues.modifyAt e.cursorIndex fun q' =>
      { q' with deficit := e.creditAfter q now - q.frontLen e.priorityOn now } }) (getIndex_modifyAt h _) hpop
  unfold Outcome
  rw [hitem]
  exact ⟨q', entry, hpop, hle, rfl, hget⟩

def topped (e : PacingEngine) (q : PeerDataQueue) (now : Instant) : Nat :=
  min (q.deficit + e.quantum) (max (4 * e.quantum) (q.frontLen e.priorityOn now))

theorem DrrOnly.creditAfter_eq (h : DrrOnly e) : e.creditAfter q now = e.topped q now := by
  unfold creditAfter topped
  dsimp only
  rw [h.quantum_eq]

end

/-! ## One selection -/

def visits (n i c : Nat) : Nat := Nat.count (fun k => k % n = i) c

def bytesTo (x : SocketAddr) (item : NextPacket) : Nat := if item.packet.2 = x then item.packet.1.length else 0

def Frugal (e : PacingEngine) (q : PeerDataQueue) (now : Instant) : Prop :=
  q.deficit < q.frontLen e.priorityOn now ∧ q.frontLen e.priorityOn now ≤ 3 * e.quantum

structure SameRound (e₀ e : PacingEngine) : Prop where
  config : e.config = e₀.config
  size : e.peerQueues.size = e₀.peerQueues.size
  drr : DrrOnly e

/-- A peer has paid for `bytes` out of its credit and the quanta of its visits. -/
def Settled (e₀ : PacingEngine) (i : Nat) (q : PeerDataQueue) (e : PacingEngine) (bytes deficit : Nat) : Prop :=
  bytes + deficit + e₀.quantum * visits e₀.peerQueues.size i e₀.drrCursor =
    q.deficit + e₀.quantum * visits e₀.peerQueues.size i e.drrCursor

structure Waiting (e₀ : PacingEngine) (i : Nat) (x : SocketAddr) (q : PeerDataQueue) (now : Instant) (left : Nat)
    (e : PacingEngine) : Prop extends SameRound e₀ e where
  room : e.drrCursor + left < 2 ^ 64
  peer : ∃ d, e.peerQueues.getIndex i = some (x, { q with deficit := d }) ∧ d < q.frontLen e₀.priorityOn now ∧
    Settled e₀ i q e 0 d

structure Paid (e₀ : PacingEngine) (i : Nat) (x : SocketAddr) (q : PeerDataQueue) (e : PacingEngine)
    (item : NextPacket) : Prop extends SameRound e₀ e where
  peer : ∃ q', e.peerQueues.getIndex i = some (x, q') ∧ q'.deficit ≤ 4 * e₀.quantum ∧
    Settled e₀ i q e (bytesTo x item) q'.deficit

section
variable {e₀ e : PacingEngine} {i : Nat} {x : SocketAddr} {q : PeerDataQueue} {now : Instant} {left : Nat}

theorem VisitFrame.sameRound (h : VisitFrame e e') (hs : SameRound e₀ e) : SameRound e₀ e' where
  config := h.config.trans hs.config
  size := h.size.trans hs.size
  drr := ⟨by rw [h.config]; exact hs.drr.drrEnabled, by rw [h.config]; exact hs.drr.rttUnaware,
    by rw [h.cc]; exact hs.drr.ccDisabled, h.controlQ.trans hs.drr.noControl, h.retransmitQ.trans hs.drr.noRetransmit⟩

theorem SameRound.quantum_eq (h : SameRound e₀ e) : e.quantum = e₀.quantum := by
  unfold quantum
  rw [h.config]

theorem SameRound.priorityOn_eq (h : SameRound e₀ e) : e.priorityOn = e₀.priorityOn := by
  unfold priorityOn
  rw [h.config]

theorem visits_drrCursor : visits e.peerQueues.size i (e.drrCursor + 1) =
    visits e.peerQueues.size i e.drrCursor + if e.cursorIndex = i then 1 else 0 := Nat.count_succ _ _

section
variable (hf : Frugal e₀ q now) (h : Waiting e₀ i x q now (left + 1) e)
include h

theorem Waiting.drrVisit_cursor : (e.drrVisit now).1.drrCursor = e.drrCursor + 1 := by
  have := h.room
  rw [(visitFrame_drrVisit e now).cursor, Nat.mod_eq_of_lt (by omega)]

include hf

theorem Waiting.visit_self (hi : e.cursorIndex = i) :
    Outcome (Waiting e₀ i x q now left) (Paid e₀ i x q) (e.drrVisit now) := by
  have hframe := visitFrame_drrVisit e now
  have hround := hframe.sameRound h.toSameRound
  obtain ⟨d, hget, hlt, hsettled⟩ := h.peer
  have hvisits := visits_drrCursor (e := e) (i := i)
  rw [if_pos hi, h.size] at hvisits
  have hfront :
      ({ q with deficit := d } : PeerDataQueue).frontLen e.priorityOn now = q.frontLen e₀.priorityOn now := by
    rw [h.priorityOn_eq, q.frontLen_credit]
  have htopped : e.topped { q with deficit := d } now = d + e₀.quantum := by
    unfold topped
    rw [h.quantum_eq]
    have := hf.2
    have hle : d + e₀.quantum ≤ 4 * e₀.quantum := by omega
    exact Nat.min_eq_left (Nat.le_trans hle (Nat.le_max_left _ _))
  subst hi
  have hself := drrVisit_self hget now h.drr.canSend (by rw [hfront]; omega)
  rw [hfront, h.drr.creditAfter_eq, htopped] at hself
  unfold Settled at hsettled
  unfold Outcome at hself ⊢
  split
  · rename_i item hitem
    rw [hitem] at hself
    obtain ⟨q', entry, hpop, hle, hitem', hget'⟩ := hself
    have hlen := PeerDataQueue.length_of_popData _ _ _ (congrArg Prod.snd hpop)
    have hbytes : bytesTo x item = q.frontLen e₀.priorityOn now := by
      rw [hitem', bytesTo, NextPacket.packet, if_pos rfl, ← hfront]
      exact hlen
    refine ⟨hround, _, hget', ?_, ?_⟩
    · have := hf.2
      dsimp only
      omega
    unfold Settled
    rw [h.drrVisit_cursor, hvisits, hbytes, Nat.mul_add]
    dsimp only
    omega
  · rename_i hnone
    rw [hnone] at hself
    refine ⟨hround, by rw [h.drrVisit_cursor]; have := h.room; omega, d + e₀.quantum, hself.2, hself.1, ?_⟩
    unfold Settled
    rw [h.drrVisit_cursor, hvisits, Nat.mul_add]
    omega

theorem Waiting.visit_other (hi : e.cursorIndex ≠ i) :
    Outcome (Waiting e₀ i x q now left) (Paid e₀ i x q) (e.drrVisit now) := by
  have hframe := visitFrame_drrVisit e now
  have hround := hframe.sameRound h.toSameRound
  obtain ⟨d, hget, hlt, hsettled⟩ := h.peer
  have hvisits := visits_drrCursor (e := e) (i := i)
  rw [if_neg hi, h.size] at hvisits
  have hget' := (hframe.others i (Ne.symm hi)).trans hget
  unfold Outcome
  split
  · rename_i item hitem
    obtain ⟨q₁, hq₁⟩ := drrVisit_dest hitem
    refine ⟨hround, _, hget', ?_, ?_⟩
    · have := hf.2
      dsimp only
      omega
    have hzero : bytesTo x item = 0 := by
      unfold bytesTo
      rw [if_neg]
      intro hx
      rw [hx] at hq₁
      exact hi (IndexMap.getIndex_inj hq₁ hget)
    unfold Settled at hsettled ⊢
    rw [h.drrVisit_cursor, hvisits, hzero]
    exact hsettled
  · refine ⟨hround, by rw [h.drrVisit_cursor]; have := h.room; omega, d, hget', hlt, ?_⟩
    unfold Settled at hsettled ⊢
    rw [h.drrVisit_cursor, hvisits]
    exact hsettled

theorem Waiting.visit : Outcome (Waiting e₀ i x q now left) (Paid e₀ i x q) (e.drrVisit now) := by
  by_cases hi : e.cursorIndex = i
  · exact h.visit_self hf hi
  exact h.visit_other hf hi

end

theorem Waiting.done (h : Waiting e₀ i x q now left e) : Waiting e₀ i x q now 0 e :=
  { h with room := Nat.lt_of_le_of_lt (Nat.le_add_right _ _) h.room }

theorem Waiting.popPeersDrr (hf : Frugal e₀ q now) (h : Waiting e₀ i x q now (e.peerQueues.size * 2) e) :
    Outcome (Waiting e₀ i x q now 0) (Paid e₀ i x q) (e.popPeersDrr now) := by
  unfold PacingEngine.popPeersDrr
  split
  · exact h.done
  apply Outcome.untilSome_left (I := fun left => Waiting e₀ i x q now left) fun _ _ _ hs => hs.visit hf
  rw [List.length_range]
  exact h

theorem popControlForSend_none (h : e.controlQ = []) : e.popControlForSend = (e, none) := by
  unfold popControlForSend
  rw [h]

theorem popNext_of_data_only (hc : e.controlQ = []) (hr : e.retransmitQ = []) (c : PopClock) : ∃ n, e.popNext c =
    orElse (if e.config.drrEnabled then ({ e with interleaveCounter := n } : PacingEngine).popPeersDrr c.now
      else ({ e with interleaveCounter := n } : PacingEngine).popPeersInOrder c.now) popControlForSend := by
  have hrtx : e.popRetransmitForSend = (e, none) := by
    unfold popRetransmitForSend
    rw [hr]
  have hctrl : e.tryPopControlInterleaved c.aging =
      ({ e with interleaveCounter := (e.interleaveCounter + 1) % 256 }, none) := by
    unfold tryPopControlInterleaved
    dsimp only
    split
    · exact popControlForSend_none hc
    rfl
  refine ⟨(e.interleaveCounter + 1) % 256, ?_⟩
  unfold popNext popWith
  rw [hrtx, orElse_none, hctrl, orElse_none]

theorem DrrOnly.popNext_eq (h : DrrOnly e) (c : PopClock) : ∃ n, e.popNext c =
    orElse (({ e with interleaveCounter := n } : PacingEngine).popPeersDrr c.now) popControlForSend := by
  obtain ⟨n, hn⟩ := popNext_of_data_only h.noControl h.noRetransmit c
  rw [h.drrEnabled, if_pos rfl] at hn
  exact ⟨n, hn⟩

theorem DrrOnly.popNext_peer (hd : DrrOnly e) (hget : e.peerQueues.getIndex i = some (x, q)) (hf : Frugal e q c.now)
    (hroom : e.drrCursor + e.peerQueues.size * 2 < 2 ^ 64) : SameRound e (e.popNext c).1 ∧ ∃ q',
    (e.popNext c).1.peerQueues.getIndex i = some (x, q') ∧ q'.deficit ≤ 4 * e.quantum ∧ Settled e i q (e.popNext c).1
    ((e.popNext c).2.toList.map (bytesTo x)).sum q'.deficit := by
  obtain ⟨n, hpop⟩ := hd.popNext_eq c
  have hstart : Waiting e i x q c.now (e.peerQueues.size * 2) { e with interleaveCounter := n } :=
    { config := rfl
      size := rfl
      drr := ⟨hd.drrEnabled, hd.rttUnaware, hd.ccDisabled, hd.noControl, hd.noRetransmit⟩
      room := hroom
      peer := ⟨q.deficit, hget, hf.1, by unfold Settled; rw [Nat.zero_add]⟩ }
  have hout : Outcome (Waiting e i x q c.now 0) (Paid e i x q) (e.popNext c) := by
    rw [hpop]
    refine (hstart.popPeersDrr hf).orElse fun s hs => ?_
    rw [popControlForSend_none hs.drr.noControl]
    exact hs
  unfold Outcome at hout
  split at hout
  · rename_i item hitem
    obtain ⟨q', hq', hle, hsettled⟩ := hout.peer
    exact ⟨hout.toSameRound, q', hq', hle, by simpa [hitem] using hsettled⟩
  rename_i hnone
  obtain ⟨d, hq', hlt, hsettled⟩ := hout.peer
  refine ⟨hout.toSameRound, _, hq', ?_, by simpa [hnone] using hsettled⟩
  have := hf.2
  dsimp only
  omega

end

/-! ## Runs -/

/-- A step of a run of the scheduler: a selection, or a packet that arrives for a peer. -/
inductive DrrOp where
  | pop (c : PopClock)
  | arrive (pkt : Bytes) (dest : SocketAddr) (now : Instant)

def drrStep (e : PacingEngine) : DrrOp → PacingEngine × List NextPacket
  | .pop c => ((e.popNext c).1, (e.popNext c).2.toList)
  | .arrive pkt dest now => ((e.enqueuePeerWithHints pkt dest none none now).1, [])

/-- The bytes of a run that go to a peer. -/
def bytesOf (x : SocketAddr) (items : List NextPacket) : Nat := (items.map (bytesTo x)).sum

theorem bytesOf_append {x : SocketAddr} {l l' : List NextPacket} :
    bytesOf x (l ++ l') = bytesOf x l + bytesOf x l' := by
  unfold bytesOf
  rw [List.map_append, List.sum_append]

section
variable {e : PacingEngine} {i : Nat} {x : SocketAddr} {q : PeerDataQueue}

theorem deficit_push {maxDepth : Nat} : (q.push entry maxDepth priorityOn threshold).1.deficit = q.deficit := by
  unfold PeerDataQueue.push PeerDataQueue.dropOldestForCapacity PeerDataQueue.pushBackClassified
  repeat' split
  all_goals rfl

theorem arrive_fields (e : PacingEngine) (pkt : Bytes) (dest : SocketAddr) (now : Instant) :
    let e' := (e.enqueuePeerWithHints pkt dest none none now).1
    e'.peerQueues = (e.peerQueues.upsert dest .new fun _ =>
        ((e.peerQueue dest).push ⟨pkt, now⟩ (max e.config.maxDataQueuePackets 1) e.priorityOn e.threshold).1) ∧
      e'.config = e.config ∧ e'.drrCursor = e.drrCursor ∧ e'.controlQ = e.controlQ ∧ e'.retransmitQ = e.retransmitQ ∧
      e'.backgroundCc = e.backgroundCc.ensurePeer dest := by
  unfold enqueuePeerWithHints
  dsimp only
  split
  · exact ⟨rfl, rfl, rfl, rfl, rfl, rfl⟩
  exact ⟨rfl, rfl, rfl, rfl, rfl, rfl⟩

theorem arrive_peer (hd : DrrOnly e) (pkt : Bytes) (now : Instant)
    (hj : e.peerQueues.indexOf? dest = some j) (hget : e.peerQueues.getIndex i = some (x, q)) :
    let e' := (e.enqueuePeerWithHints pkt dest none none now).1
    SameRound e e' ∧ e'.drrCursor = e.drrCursor ∧
      ∃ q', e'.peerQueues.getIndex i = some (x, q') ∧ q'.deficit = q.deficit := by
  obtain ⟨v, hv⟩ := IndexMap.getIndex_of_indexOf? hj
  have hpeer : e.peerQueue dest = v := peerQueue_of_getIndex hv
  have hcc : (e.backgroundCc.ensurePeer dest).config.enabled = false := by
    unfold BackgroundCcEngine.ensurePeer
    rw [hd.ccDisabled]
    exact hd.ccDisabled
  obtain ⟨hpeers, hconfig, hcursor, hc, hr, hbg⟩ := arrive_fields e pkt dest now
  rw [IndexMap.upsert_of_indexOf? hj, hpeer] at hpeers
  intro e'
  refine ⟨⟨hconfig, ?_, ⟨?_, ?_, ?_, hc.trans hd.noControl, hr.trans hd.noRetransmit⟩⟩, hcursor, ?_⟩
  · rw [hpeers, size_modifyAt]
  · rw [hconfig]
    exact hd.drrEnabled
  · rw [hconfig]
    exact hd.rttUnaware
  · rw [hbg]
    exact hcc
  · rw [hpeers]
    by_cases hij : j = i
    · subst hij
      rw [hv] at hget
      cases hget
      exact ⟨_, getIndex_modifyAt hv _, deficit_push⟩
    · exact ⟨q, (getIndex_modifyAt_ne hij _).trans hget, rfl⟩

theorem visits_eq {i : Nat} (hi : i < n) {c : Nat} : visits n i c = c / n + if i < c % n then 1 else 0 := by
  have hmod : (fun k => k % n = i) = fun k => k ≡ i [MOD n] := by
    funext k
    rw [Nat.ModEq, Nat.mod_eq_of_lt hi]
  have hcard := Nat.count_modEq_card c (Nat.zero_lt_of_lt hi) i
  rw [Nat.mod_eq_of_lt hi] at hcard
  rw [← hcard]
  unfold visits
  congr 1

theorem visits_close {i : Nat} (hi : i < n) (hj : j < n) (c₀ c : Nat) :
    visits n i c + visits n j c₀ ≤ visits n j c + visits n i c₀ + 2 := by
  rw [visits_eq hi, visits_eq hi, visits_eq hj, visits_eq hj]
  split <;> split <;> split <;> split <;> omega

theorem lt_size (h : e.peerQueues.getIndex i = some (x, q)) : i < e.peerQueues.size :=
  (List.getElem?_eq_some_iff.mp h).1

theorem exists_position (h : (e.peerQueue x).isEmpty = false) :
    ∃ i, e.peerQueues.getIndex i = some (x, e.peerQueue x) := by
  unfold peerQueue at *
  cases hidx : e.peerQueues.indexOf? x with
  | none =>
    rw [IndexMap.get?_eq_none_of_indexOf? hidx] at h
    exact absurd h (by decide)
  | some i =>
    obtain ⟨v, hv⟩ := IndexMap.getIndex_of_indexOf? hidx
    rw [IndexMap.get?_of_getIndex hv]
    exact ⟨i, hv⟩

/-- Every selection finds the front packets of both peers to use up their credit, with turns left on the counter;
packets arrive for known peers. -/
def Spends (p q : SocketAddr) (e : PacingEngine) : DrrOp → Prop
  | .pop c => Frugal e (e.peerQueue p) c.now ∧ Frugal e (e.peerQueue q) c.now ∧
      e.drrCursor + e.peerQueues.size * 2 < 2 ^ 64
  | .arrive _ dest _ => (e.peerQueues.indexOf? dest).isSome

def Share (e₀ : PacingEngine) (i : Nat) (x : SocketAddr) (q₀ : PeerDataQueue) (e : PacingEngine) (bytes : Nat) :
    Prop :=
  ∃ q, e.peerQueues.getIndex i = some (x, q) ∧ Settled e₀ i q₀ e bytes q.deficit ∧
    (bytes = 0 ∧ q.deficit = q₀.deficit ∨ q₀.deficit ≤ 3 * e₀.quantum ∧ q.deficit ≤ 4 * e₀.quantum)

theorem Share.pop (hs : SameRound e₀ e) (h : Share e₀ i x q₀ e bytes) (hf : Frugal e (e.peerQueue x) c.now)
    (hroom : e.drrCursor + e.peerQueues.size * 2 < 2 ^ 64) : Share e₀ i x q₀ (e.popNext c).1
    (bytes + bytesOf x (e.popNext c).2.toList) := by
  obtain ⟨q, hget, hsettled, hcredit⟩ := h
  have hq : e.peerQueue x = q := peerQueue_of_getIndex hget
  rw [hq] at hf
  obtain ⟨hround, q', hget', hle, hpaid⟩ := hs.drr.popNext_peer hget hf hroom
  refine ⟨q', hget', ?_, .inr ⟨?_, ?_⟩⟩
  · unfold Settled at *
    unfold bytesOf
    rw [hs.quantum_eq, hs.size] at hpaid
    omega
  · have := hf.1
    have := hf.2
    rw [hs.quantum_eq] at this
    rcases hcredit with ⟨_, heq⟩ | ⟨hle₀, _⟩ <;> omega
  rw [hs.quantum_eq] at hle
  exact hle

theorem Share.arrive (hs : SameRound e₀ e) (h : Share e₀ i x q₀ e bytes) {pkt : Bytes}
    (hj : e.peerQueues.indexOf? dest = some j) : Share e₀ i x q₀ (e.enqueuePeerWithHints pkt dest none none now).1
    bytes := by
  obtain ⟨q, hget, hsettled, hcredit⟩ := h
  obtain ⟨_, hcursor, q', hget', hdeficit⟩ := arrive_peer hs.drr pkt now hj hget
  refine ⟨q', hget', ?_, ?_⟩
  · unfold Settled at *
    rw [hcursor, hdeficit]
    exact hsettled
  rw [hdeficit]
  exact hcredit

theorem SameRound.trans (h : SameRound e₀ e) (h' : SameRound e e') : SameRound e₀ e' :=
  ⟨h'.config.trans h.config, h'.size.trans h.size, h'.drr⟩

structure Shares (e₀ : PacingEngine) (i j : Nat) (p q : SocketAddr) (e : PacingEngine) (log : List NextPacket) : Prop
    extends SameRound e₀ e where
  left : Share e₀ i p (e₀.peerQueue p) e (bytesOf p log)
  right : Share e₀ j q (e₀.peerQueue q) e (bytesOf q log)

theorem Shares.step {q : SocketAddr} {log : List NextPacket} (h : Shares e₀ i j p q e log) {op : DrrOp}
    (hop : Spends p q e op) : Shares e₀ i j p q (e.drrStep op).1 (log ++ (e.drrStep op).2) := by
  cases op with
  | pop c =>
    obtain ⟨hp, hq, hroom⟩ := hop
    obtain ⟨qp, hget, _⟩ := h.left
    have hround := (h.drr.popNext_peer hget (by
      have heq : e.peerQueue p = qp := peerQueue_of_getIndex hget
      exact heq ▸ hp) hroom).1
    refine ⟨h.toSameRound.trans hround, ?_, ?_⟩
    · rw [bytesOf_append]
      exact h.left.pop h.toSameRound hp hroom
    rw [bytesOf_append]
    exact h.right.pop h.toSameRound hq hroom
  | arrive pkt dest now =>
    obtain ⟨k, hk⟩ := Option.isSome_iff_exists.mp hop
    obtain ⟨qp, hget, _⟩ := h.left
    have hround := (arrive_peer h.drr pkt now hk hget).1
    refine ⟨h.toSameRound.trans hround, ?_, ?_⟩
    · rw [bytesOf_append]
      exact h.left.arrive h.toSameRound hk
    rw [bytesOf_append]
    exact h.right.arrive h.toSameRound hk

theorem Share.le {q : SocketAddr} {qp qq : PeerDataQueue} {bp bq : Nat}
    (hs : SameRound e₀ e) (hp : Share e₀ i p qp e bp) (hq : Share e₀ j q qq e bq) : bp ≤ bq + 9 * e₀.quantum := by
  obtain ⟨q₁, hget₁, hsettled₁, hcredit₁⟩ := hp
  obtain ⟨q₂, hget₂, hsettled₂, hcredit₂⟩ := hq
  rcases hcredit₁ with ⟨hzero, _⟩ | ⟨hstart, _⟩
  · omega
  have hcredit : q₂.deficit ≤ qq.deficit + 4 * e₀.quantum := by
    rcases hcredit₂ with ⟨_, heq⟩ | ⟨_, hle⟩ <;> omega
  have hturns := visits_close (hs.size ▸ lt_size hget₁) (hs.size ▸ lt_size hget₂) e₀.drrCursor e.drrCursor
  have hquanta := Nat.mul_le_mul_left e₀.quantum hturns
  simp only [Nat.mul_add] at hquanta
  unfold Settled at hsettled₁ hsettled₂
  omega

/-- With packets that use up their credit, the bytes that two backlogged peers get in a run are within nine quanta of
each other. -/
theorem bytes_fair {ops : List DrrOp} {q : SocketAddr} (hd : DrrOnly e) (hp : (e.peerQueue p).isEmpty = false)
    (hq : (e.peerQueue q).isEmpty = false) (hok : Each drrStep e ops (Spends p q)) :
    |(bytesOf p (trace drrStep e ops) : ℤ) - bytesOf q (trace drrStep e ops)| ≤ 9 * e.quantum := by
  obtain ⟨i, hi⟩ := exists_position hp
  obtain ⟨j, hj⟩ := exists_position hq
  have hround : SameRound e e := ⟨rfl, rfl, hd⟩
  have hzero (i : Nat) (x : SocketAddr) : Settled e i (e.peerQueue x) e (bytesOf x []) (e.peerQueue x).deficit := by
    unfold Settled bytesOf
    simp
  have hstart : Shares e i j p q e [] :=
    ⟨hround, ⟨_, hi, hzero i p, .inl ⟨rfl, rfl⟩⟩, ⟨_, hj, hzero j q, .inl ⟨rfl, rfl⟩⟩⟩
  have hshares : Shares e i j p q (run drrStep e ops) (trace drrStep e ops) :=
    Machine.trace_invariant (fun _ _ _ hop h => Shares.step h hop) hstart hok
  have hle := hshares.left.le hshares.toSameRound hshares.right
  have hge := hshares.right.le hshares.toSameRound hshares.left
  rw [abs_le]
  omega

end

def drrConfig : PacingConfig := { PacingConfig.default with drrRttAware := false, drrSmallPacketPriority := false }

def shortPeer : SocketAddr := .v4 1 9000
def longPeer : SocketAddr := .v4 2 9000

/-- A packet of this many bytes. -/
def packetOf (n : Nat) : Bytes := List.replicate n 0

instance (p q : SocketAddr) (e : PacingEngine) (op : DrrOp) : Decidable (Spends p q e op) := by
  unfold Spends Frugal
  split <;> infer_instance

def levelled : List Op :=
  [.setConfig drrConfig 0, .enqueuePeer (packetOf 1500) shortPeer none none 0,
    .enqueuePeer (packetOf 1500) shortPeer none none 0, .enqueuePeer (packetOf 1500) longPeer none none 0]

/-- Each of two selections takes the packet of one of the peers. -/
theorem levelled_fair :
    let e := run step (.new 0) levelled
    let popped := trace drrStep e [.pop ⟨0, 0⟩, .pop ⟨0, 0⟩]
    bytesOf shortPeer popped = 1500 ∧ |(bytesOf shortPeer popped : ℤ) - bytesOf longPeer popped| ≤ 9 * e.quantum := by
  have hd : DrrOnly (run step (.new 0) levelled) :=
    ⟨by decide +kernel, by decide +kernel, by decide +kernel, by decide +kernel, by decide +kernel⟩
  refine ⟨by decide +kernel, bytes_fair hd (by decide +kernel) (by decide +kernel) ?_⟩
  decide +kernel

/-! ## Short packets -/

/-- Fairness for every run of two backlogged peers, by a bound on the quantum and the longest packet. -/
def FairBy (bound : Nat → Nat → Nat) : Prop :=
  ∀ (start : Instant) (setup : List Op) (ops : List DrrOp) (p q : SocketAddr) (len : Nat),
    let e := run step (.new start) setup
    let popped := trace drrStep e ops
    DrrOnly e →
    (∀ i, ((stateAt drrStep e ops i).peerQueue p).isEmpty = false ∧
      ((stateAt drrStep e ops i).peerQueue q).isEmpty = false) →
    (∀ item ∈ popped, item.packet.1.length ≤ len) →
    |(bytesOf p popped : ℤ) - bytesOf q popped| ≤ bound e.config.drrQuantum len

def uniform (count size deficit : Nat) : PeerDataQueue :=
  ⟨[], List.replicate count ⟨packetOf size, 0⟩, deficit, 0, -1, -1⟩

def lopsided : List Op :=
  [.setConfig drrConfig 0, .enqueuePeer (packetOf 1) shortPeer none none 0,
    .enqueuePeer (packetOf 1) shortPeer none none 0,
    .enqueuePeer (packetOf 1500) longPeer none none 0, .enqueuePeer (packetOf 1500) longPeer none none 0]

structure Stage (m k turn : Nat) (e : PacingEngine) : Prop where
  drr : DrrOnly e
  fifo : e.priorityOn = false
  quantum : e.quantum = 1500
  depth : 3 ≤ e.config.maxDataQueuePackets
  accounts : e.Accounts
  size : e.peerQueues.size = 2
  turn : e.drrCursor % 2 = turn
  short : ∃ d, e.peerQueues.getIndex 0 = some (shortPeer, uniform m 1 d)
  long : e.peerQueues.getIndex 1 = some (longPeer, uniform k 1500 0)

theorem stage_lopsided : Stage 2 2 0 (run step (.new 0) lopsided) where
  drr := ⟨by decide +kernel, by decide +kernel, by decide +kernel, by decide +kernel, by decide +kernel⟩
  fifo := by decide +kernel
  quantum := by decide +kernel
  depth := by decide +kernel
  accounts := (accounted_run 0 lopsided).1
  size := by decide +kernel
  turn := by decide +kernel
  short := ⟨0, by decide +kernel⟩
  long := by decide +kernel

section
variable {e : PacingEngine} {x : SocketAddr} {q : PeerDataQueue}

theorem Accounts.nonEmptyPeers_ne_zero (ha : e.Accounts) (h : e.peerQueues.getIndex i = some (x, q))
    (hfront : 0 < q.frontLen priorityOn now) : e.nonEmptyPeers ≠ 0 := by
  have hne := q.isEmpty_of_frontLen _ _ hfront
  rw [ha.nonEmpty]
  apply Nat.ne_of_gt
  apply List.length_pos_of_mem (a := (x, q))
  exact List.mem_filter.mpr ⟨List.mem_of_getElem? h, by rw [hne]; rfl⟩

theorem popPeersDrr_first (hsize : 0 < e.peerQueues.size) (hbusy : e.nonEmptyPeers ≠ 0)
    (h : (e.drrVisit now).2 = some item) : e.popPeersDrr now = e.drrVisit now := by
  unfold popPeersDrr
  rw [if_neg (by simpa using ⟨Nat.ne_of_gt hsize, hbusy⟩)]
  obtain ⟨k, hk⟩ : ∃ k, e.peerQueues.size * 2 = k + 1 := ⟨e.peerQueues.size * 2 - 1, by omega⟩
  rw [hk, List.range_succ_eq_map]
  exact orElse_some h

theorem DrrOnly.popNext_turn (hd : DrrOnly e) (ha : e.Accounts)
    (h : e.peerQueues.getIndex e.cursorIndex = some (x, q))
    (hfront : 0 < q.frontLen e.priorityOn c.now)
    (hcredit : q.frontLen e.priorityOn c.now ≤ e.topped q c.now) :
    ∃ q' entry, q.popData e.priorityOn c.now = (q', some entry) ∧
      (e.popNext c).2 = some (.data entry.pkt x entry.enqueuedAt) ∧ VisitFrame e (e.popNext c).1 ∧
      (e.popNext c).1.peerQueues.getIndex e.cursorIndex =
        some (x, { q' with deficit := e.topped q c.now - q.frontLen e.priorityOn c.now }) := by
  obtain ⟨n, hpop⟩ := hd.popNext_eq c
  have hd₁ : DrrOnly { e with interleaveCounter := n } :=
    ⟨hd.drrEnabled, hd.rttUnaware, hd.ccDisabled, hd.noControl, hd.noRetransmit⟩
  have hvisit := drrVisit_self (e := { e with interleaveCounter := n }) h c.now hd₁.canSend hfront
  rw [hd₁.creditAfter_eq] at hvisit
  have hframe := visitFrame_drrVisit { e with interleaveCounter := n } c.now
  unfold Outcome at hvisit
  split at hvisit
  · rename_i item hitem
    obtain ⟨q', entry, hdata, _, rfl, hget⟩ := hvisit
    have hsearch := popPeersDrr_first (e := { e with interleaveCounter := n }) (Nat.zero_lt_of_lt (lt_size h))
      (ha.nonEmptyPeers_ne_zero h hfront) hitem
    rw [hpop, hsearch, orElse_some hitem]
    exact ⟨q', entry, hdata, hitem, ⟨hframe.config, hframe.rttRef, hframe.cc, hframe.controlQ,
      hframe.retransmitQ, hframe.size, hframe.cursor, hframe.others⟩, hget⟩
  · exact absurd hcredit (Nat.not_le_of_lt hvisit.1)

theorem frontLen_uniform : (uniform (count + 1) size deficit).frontLen false now = size := by
  simp [uniform, PeerDataQueue.frontLen, PeerDataQueue.isEmpty, PeerDataQueue.popFifoByAge, List.replicate_succ,
      packetOf]

theorem popData_uniform :
    (uniform (count + 1) size deficit).popData false now = (uniform count size deficit, some ⟨packetOf size, 0⟩) := by
  simp [uniform, PeerDataQueue.popData, PeerDataQueue.isEmpty, PeerDataQueue.popFifoByAge, List.replicate_succ]

theorem push_uniform {depth : Nat} (h : count < depth) :
    ((uniform count size deficit).push ⟨packetOf size, 0⟩ depth false threshold).1 = uniform (count + 1) size
    deficit := by
  simp [uniform, PeerDataQueue.push, PeerDataQueue.len, PeerDataQueue.pushBackClassified, PeerDataQueue.isSmallPacket,
    List.replicate_succ', Nat.not_le_of_lt h]

theorem Stage.frame (h : Stage m k turn e) (hround : SameRound e e')
    (ha : e'.Accounts) {turn' : Nat} (hturn : e'.drrCursor % 2 = turn')
    {m' k' d : Nat} (hshort : e'.peerQueues.getIndex 0 = some (shortPeer, uniform m' 1 d))
    (hlong : e'.peerQueues.getIndex 1 = some (longPeer, uniform k' 1500 0)) : Stage m' k' turn' e' where
  drr := hround.drr
  fifo := hround.priorityOn_eq.trans h.fifo
  quantum := hround.quantum_eq.trans h.quantum
  depth := by rw [hround.config]; exact h.depth
  accounts := ha
  size := hround.size.trans h.size
  turn := hturn
  short := ⟨d, hshort⟩
  long := hlong

theorem accounts_popNext (ha : e.Accounts) : (e.popNext c).1.Accounts := by
  have hmoves := (selects_popNext e c).moves
  unfold Outcome at hmoves
  split at hmoves
  · exact hmoves.accounts ha
  exact hmoves.accounts ha

theorem Stage.pop_short (h : Stage (m + 1) k 0 e) (c : PopClock) :
    Stage m k 1 (e.drrStep (.pop c)).1 ∧ (e.drrStep (.pop c)).2 = [.data (packetOf 1) shortPeer 0] := by
  obtain ⟨d, hshort⟩ := h.short
  have hidx : e.cursorIndex = 0 := by rw [cursorIndex, h.size, h.turn]
  have hfront : (uniform (m + 1) 1 d).frontLen e.priorityOn c.now = 1 := by rw [h.fifo, frontLen_uniform]
  have hcredit : 1 ≤ e.topped (uniform (m + 1) 1 d) c.now := by
    unfold topped
    rw [hfront, h.quantum]
    omega
  obtain ⟨q', entry, hdata, hitem, hframe, hget⟩ := h.drr.popNext_turn h.accounts (by rw [hidx]; exact hshort)
    (by rw [hfront]; exact Nat.one_pos) (by rw [hfront]; exact hcredit)
  rw [h.fifo, popData_uniform] at hdata
  cases hdata
  have hlong := (hframe.others 1 (by rw [hidx]; decide)).trans h.long
  have hturn : (e.popNext c).1.drrCursor % 2 = 1 := by
    have := h.turn
    rw [hframe.cursor]
    omega
  rw [hidx] at hget
  refine ⟨h.frame (hframe.sameRound ⟨rfl, rfl, h.drr⟩) (accounts_popNext h.accounts) hturn hget hlong, ?_⟩
  exact congrArg Option.toList hitem

theorem Stage.pop_long (h : Stage m (k + 1) 1 e) (c : PopClock) :
    Stage m k 0 (e.drrStep (.pop c)).1 ∧ (e.drrStep (.pop c)).2 = [.data (packetOf 1500) longPeer 0] := by
  obtain ⟨d, hshort⟩ := h.short
  have hidx : e.cursorIndex = 1 := by rw [cursorIndex, h.size, h.turn]
  have hfront : (uniform (k + 1) 1500 0).frontLen e.priorityOn c.now = 1500 := by rw [h.fifo, frontLen_uniform]
  have hcredit : e.topped (uniform (k + 1) 1500 0) c.now = 1500 := by
    unfold topped
    rw [hfront, h.quantum]
    simp [uniform]
  obtain ⟨q', entry, hdata, hitem, hframe, hget⟩ := h.drr.popNext_turn h.accounts (by rw [hidx]; exact h.long)
    (by rw [hfront]; decide) (by rw [hfront, hcredit])
  rw [h.fifo, popData_uniform] at hdata
  cases hdata
  have hshort' := (hframe.others 0 (by rw [hidx]; decide)).trans hshort
  have hturn : (e.popNext c).1.drrCursor % 2 = 0 := by
    have := h.turn
    rw [hframe.cursor]
    omega
  rw [hidx, hfront, hcredit] at hget
  refine ⟨h.frame (hframe.sameRound ⟨rfl, rfl, h.drr⟩) (accounts_popNext h.accounts) hturn hshort' hget, ?_⟩
  exact congrArg Option.toList hitem

theorem Stage.getIndex_arrive (h : Stage m k turn e)
    (hcount : count < 3) (hi : e.peerQueues.getIndex i = some (x, uniform count size deficit)) :
    let e' := (e.drrStep (.arrive (packetOf size) x 0)).1
    e'.peerQueues.getIndex i = some (x, uniform (count + 1) size deficit) ∧
      ∀ j, i ≠ j → e'.peerQueues.getIndex j = e.peerQueues.getIndex j := by
  have hpeer : e.peerQueue x = uniform count size deficit := peerQueue_of_getIndex hi
  have hdepth : count < max e.config.maxDataQueuePackets 1 :=
    Nat.lt_of_lt_of_le (Nat.lt_of_lt_of_le hcount h.depth) (Nat.le_max_left _ _)
  have hpeers := (arrive_fields e (packetOf size) x 0).1
  rw [IndexMap.upsert_of_indexOf? (indexOf?_of_getIndex hi), hpeer, h.fifo, push_uniform hdepth] at hpeers
  dsimp only [drrStep]
  rw [hpeers]
  exact ⟨getIndex_modifyAt hi _, fun j hj => getIndex_modifyAt_ne hj _⟩

theorem Stage.arrive_short (h : Stage m k turn e) (hm : m < 3) :
    Stage (m + 1) k turn (e.drrStep (.arrive (packetOf 1) shortPeer 0)).1 := by
  obtain ⟨d, hshort⟩ := h.short
  obtain ⟨hround, hcursor, _⟩ := arrive_peer h.drr (packetOf 1) 0 (indexOf?_of_getIndex hshort) hshort
  obtain ⟨hget, hothers⟩ := h.getIndex_arrive hm hshort
  have ha := (moves_enqueuePeerWithHints e (packetOf 1) shortPeer none none 0).accounts h.accounts
  exact h.frame hround ha ((congrArg (· % 2) hcursor).trans h.turn) hget ((hothers 1 (by decide)).trans h.long)

theorem Stage.arrive_long (h : Stage m k turn e) (hk : k < 3) :
    Stage m (k + 1) turn (e.drrStep (.arrive (packetOf 1500) longPeer 0)).1 := by
  obtain ⟨d, hshort⟩ := h.short
  obtain ⟨hround, hcursor, _⟩ := arrive_peer h.drr (packetOf 1500) 0 (indexOf?_of_getIndex h.long) h.long
  obtain ⟨hget, hothers⟩ := h.getIndex_arrive hk h.long
  have ha := (moves_enqueuePeerWithHints e (packetOf 1500) longPeer none none 0).accounts h.accounts
  exact h.frame hround ha ((congrArg (· % 2) hcursor).trans h.turn) ((hothers 0 (by decide)).trans hshort) hget

theorem Stage.backlogged (h : Stage (m + 1) (k + 1) turn e) :
    (e.peerQueue shortPeer).isEmpty = false ∧ (e.peerQueue longPeer).isEmpty = false := by
  obtain ⟨d, hshort⟩ := h.short
  rw [peerQueue_of_getIndex hshort, peerQueue_of_getIndex h.long]
  simp [uniform, PeerDataQueue.isEmpty, List.replicate_succ]

end

def lopsidedRounds : Nat → List DrrOp
  | 0 => []
  | n + 1 => .pop ⟨0, 0⟩ :: .pop ⟨0, 0⟩ :: .arrive (packetOf 1) shortPeer 0 :: .arrive (packetOf 1500) longPeer 0 ::
      lopsidedRounds n

def lopsidedItems : Nat → List NextPacket
  | 0 => []
  | n + 1 => .data (packetOf 1) shortPeer 0 :: .data (packetOf 1500) longPeer 0 :: lopsidedItems n

theorem lopsidedRounds_run (n : Nat) (h : Stage 2 2 0 e) :
    (∀ i, ((stateAt drrStep e (lopsidedRounds n) i).peerQueue shortPeer).isEmpty = false ∧
      ((stateAt drrStep e (lopsidedRounds n) i).peerQueue longPeer).isEmpty = false) ∧
    trace drrStep e (lopsidedRounds n) = lopsidedItems n := by
  induction n generalizing e with
  | zero => exact ⟨fun i => by rw [lopsidedRounds, stateAt, List.take_nil]; exact h.backlogged, rfl⟩
  | succ n ih =>
    have h₁ := h.pop_short ⟨0, 0⟩
    have h₂ := h₁.1.pop_long ⟨0, 0⟩
    have h₃ := h₂.1.arrive_short (by decide)
    have h₄ := h₃.arrive_long (by decide)
    obtain ⟨hstates, htrace⟩ := ih h₄
    constructor
    · intro i
      rcases i with _ | _ | _ | _ | i <;> simp only [lopsidedRounds, Machine.stateAt_cons, Machine.stateAt_zero]
      · exact h.backlogged
      · exact h₁.1.backlogged
      · exact h₂.1.backlogged
      · exact h₃.backlogged
      · exact hstates i
    rw [lopsidedRounds, trace, trace, trace, trace, h₁.2, h₂.2, htrace]
    rfl

theorem bytesOf_lopsidedItems (n : Nat) :
    bytesOf shortPeer (lopsidedItems n) = n ∧ bytesOf longPeer (lopsidedItems n) = 1500 * n := by
  have hshort (p : Bytes) :
      bytesTo shortPeer (.data p shortPeer 0) = p.length ∧ bytesTo longPeer (.data p shortPeer 0) = 0 :=
    ⟨rfl, rfl⟩
  have hlong (p : Bytes) :
      bytesTo shortPeer (.data p longPeer 0) = 0 ∧ bytesTo longPeer (.data p longPeer 0) = p.length :=
    ⟨rfl, rfl⟩
  have hlen (k : Nat) : (packetOf k).length = k := List.length_replicate
  unfold bytesOf
  induction n with
  | zero => exact ⟨rfl, rfl⟩
  | succ n ih =>
    simp only [lopsidedItems, List.map_cons, List.sum_cons, hshort, hlong, hlen, ih]
    omega

theorem length_lopsidedItems (n : Nat) (item : NextPacket) (h : item ∈ lopsidedItems n) :
    item.packet.1.length ≤ 1500 := by
  have hlen (k : Nat) : (packetOf k).length = k := List.length_replicate
  induction n with
  | zero => cases h
  | succ n ih =>
    rcases List.mem_cons.mp h with rfl | h
    · exact Nat.le_trans (hlen 1).le (by decide)
    rcases List.mem_cons.mp h with rfl | h
    · exact (hlen 1500).le
    exact ih h

/-- No bound on the quantum and the packet length holds for all runs: the peer with one-byte packets falls behind
with every round. -/
theorem bytes_unfair : ¬ ∃ bound, FairBy bound := by
  intro ⟨bound, hfair⟩
  have hquantum : (run step (.new 0) lopsided).config.drrQuantum = 1500 := by decide +kernel
  obtain ⟨hstates, htrace⟩ := lopsidedRounds_run (bound 1500 1500 + 1) stage_lopsided
  have hbytes := bytesOf_lopsidedItems (bound 1500 1500 + 1)
  have h :=
    hfair 0 lopsided (lopsidedRounds (bound 1500 1500 + 1)) shortPeer longPeer 1500 stage_lopsided.drr hstates ?_
  · rw [hquantum, htrace, hbytes.1, hbytes.2, abs_le] at h
    omega
  rw [htrace]
  exact fun item => length_lopsidedItems _ item

end PacingEngine

end ConnectUnit.Pacing
