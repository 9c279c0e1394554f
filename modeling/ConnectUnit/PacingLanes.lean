import ConnectUnit.PacingBudget
import ConnectUnit.PacingRequeue

/-!
# No lane starves

While control packets wait, one of four selections that take no
retransmission takes one of them. While long packets of a peer wait, at most
eight of its short ones go between two long ones.
-/

open Machine (Each each_cons run trace)

namespace ConnectUnit.Pacing

variable {q q' : PeerDataQueue} {now : Instant} {entry : QueuedData} {e' : PacingEngine} {dest : SocketAddr}
variable {idx : Nat} {c : PopClock} {pkt : Bytes} {enqueuedAt : Instant} {rttMs qdMs : Option ℚ}

/-! ## Turns of a peer -/

namespace PeerDataQueue

theorem popData_turn (h : q.popData true now = (q', some entry)) :
    (q'.small.length < q.small.length ∧ q'.consecutiveSmallPops = min (q.consecutiveSmallPops + 1) 255 ∧
        (q.bulk = [] ∨ q.consecutiveSmallPops < 8)) ∨
      (q'.small = q.small ∧ q'.consecutiveSmallPops = 0) := by
  unfold popData at h
  split at h
  · cases h
  rw [if_neg (by decide)] at h
  split at h
  · obtain rfl := congrArg Prod.fst h
    exact .inr ⟨rfl, rfl⟩
  rename_i hforce
  split at h
  · rename_i hsmall
    obtain rfl := congrArg Prod.fst h
    refine .inl ⟨?_, rfl, ?_⟩
    · cases hq : q.small with
      | nil => simp [hq] at hsmall
      | cons s small => simp [popSmallFront]
    by_cases hbulk : q.bulk = []
    · exact .inl hbulk
    refine .inr (Nat.lt_of_not_le fun hcount => hforce ?_)
    simp [shouldForceBulk, hbulk, hcount]
  obtain rfl := congrArg Prod.fst h
  exact .inr ⟨rfl, rfl⟩

theorem consecutiveSmallPops_pushBackClassified {priorityOn : Bool} {threshold : Nat} :
    (q.pushBackClassified entry priorityOn threshold).consecutiveSmallPops = q.consecutiveSmallPops := by
  unfold pushBackClassified
  split <;> rfl

theorem consecutiveSmallPops_push (q : PeerDataQueue) (entry : QueuedData) (maxDepth : Nat) (priorityOn : Bool)
    (threshold : Nat) :
    (q.push entry maxDepth priorityOn threshold).1.consecutiveSmallPops = q.consecutiveSmallPops := by
  unfold push dropOldestForCapacity
  dsimp only
  split
  · rw [consecutiveSmallPops_pushBackClassified]
    split <;> rfl
  exact consecutiveSmallPops_pushBackClassified

theorem consecutiveSmallPops_pushAll (q : PeerDataQueue) (batch : List QueuedData) (priorityOn : Bool)
    (threshold : Nat) : (q.pushAll batch priorityOn threshold).consecutiveSmallPops = q.consecutiveSmallPops := by
  refine List.foldlRecOn (motive := fun t : PeerDataQueue => t.consecutiveSmallPops = q.consecutiveSmallPops) batch _
    rfl fun t h e _ => ?_
  rw [consecutiveSmallPops_pushBackClassified, h]

end PeerDataQueue

namespace PacingEngine

/-! ## Selections and arrivals -/

inductive Lane where
  | control
  | retransmit
  | small (dest : SocketAddr)
  | bulk (dest : SocketAddr)
  deriving DecidableEq

def laneOf (e e' : PacingEngine) : NextPacket → Lane
  | .control _ => if e'.retransmitQ.length < e.retransmitQ.length then .retransmit else .control
  | .data _ dest _ =>
    if (e'.peerQueue dest).small.length < (e.peerQueue dest).small.length then .small dest else .bulk dest

def taken (e : PacingEngine) (r : PacingEngine × Option NextPacket) : Option Lane := r.2.map (laneOf e r.1)

inductive LaneOp where
  | popNext (c : PopClock)
  | popNextApd (freezeDrr : Bool) (c : PopClock)
  | enqueuePeer (pkt : Bytes) (dest : SocketAddr) (rttMs queuingDelayMs : Option ℚ) (now : Instant)
  | enqueueBatch (dest : SocketAddr) (pkts : List Bytes) (rttMs queuingDelayMs : Option ℚ) (now : Nat → Instant)
  | enqueueControl (pkt : Bytes) (dest : SocketAddr) (now : Instant)
  | enqueueRetransmit (pkt : Bytes) (dest : SocketAddr) (now : Instant)

/-- A selection gives out the lane of its packet, an arrival nothing. -/
def laneStep (e : PacingEngine) : LaneOp → PacingEngine × List (Option Lane)
  | .popNext c => ((e.popNext c).1, [taken e (e.popNext c)])
  | .popNextApd freezeDrr c => ((e.popNextApd freezeDrr c).1, [taken e (e.popNextApd freezeDrr c)])
  | .enqueuePeer pkt dest rttMs qdMs now => ((e.enqueuePeerWithHints pkt dest rttMs qdMs now).1, [])
  | .enqueueBatch dest pkts rttMs qdMs now => ((e.tryEnqueuePeerBatch dest pkts rttMs qdMs now).1, [])
  | .enqueueControl pkt dest now => ((e.enqueueControl pkt dest now).1, [])
  | .enqueueRetransmit pkt dest now => ((e.enqueueRetransmit pkt dest now).1, [])

/-! ## Turns of the control packets -/

section
variable (e : PacingEngine) (now : Instant)

theorem interleaveCounter_popPeerAt : (e.popPeerAt idx now).1.interleaveCounter = e.interleaveCounter := by
  unfold popPeerAt
  split
  · rfl
  dsimp only
  split <;> rfl

theorem interleaveCounter_servePeerAt : (e.servePeerAt idx now).1.interleaveCounter = e.interleaveCounter := by
  unfold servePeerAt
  split
  · rfl
  split
  · exact interleaveCounter_popPeerAt e now
  rfl

theorem interleaveCounter_drrVisit : (e.drrVisit now).1.interleaveCounter = e.interleaveCounter := by
  unfold drrVisit
  dsimp only
  repeat' split
  · rfl
  · rfl
  · rfl
  · rfl
  · exact interleaveCounter_popPeerAt _ now

theorem interleaveCounter_popPeersDrr : (e.popPeersDrr now).1.interleaveCounter = e.interleaveCounter := by
  unfold popPeersDrr
  split
  · rfl
  exact Search.untilSome_fst (I := fun s : PacingEngine => s.interleaveCounter = e.interleaveCounter)
    (fun s _ hs => (interleaveCounter_drrVisit s now).trans hs) rfl

theorem interleaveCounter_popPeersInOrder : (e.popPeersInOrder now).1.interleaveCounter = e.interleaveCounter :=
  Search.untilSome_fst (I := fun s : PacingEngine => s.interleaveCounter = e.interleaveCounter)
    (fun s _ hs => (interleaveCounter_servePeerAt s now).trans hs) rfl

theorem interleaveCounter_popPeersRoundRobin : (e.popPeersRoundRobin now).1.interleaveCounter = e.interleaveCounter :=
  Search.untilSome_fst (I := fun s : PacingEngine => s.interleaveCounter = e.interleaveCounter)
    (fun (s : PacingEngine) _ hs => (interleaveCounter_servePeerAt s.advanceCursor now).trans hs) rfl

theorem interleaveDivisor_eq : e.interleaveDivisor now = 2 ∨ e.interleaveDivisor now = 4 := by
  unfold interleaveDivisor
  dsimp only
  split
  · exact .inl rfl
  exact .inr rfl

end

def ControlTurn (e e' : PacingEngine) (lane : Option Lane) : Prop :=
  lane = some .control ∨ (lane = some .retransmit ∧ e'.interleaveCounter = e.interleaveCounter) ∨
    e'.interleaveCounter % 4 = e.interleaveCounter % 4 + 1

theorem ControlTurn.counted {e : PacingEngine} {lane : Option Lane} (h : ControlTurn e e' lane)
    (hne : some .control ∉ [lane]) :
    ([lane].filter (· ≠ some .retransmit)).length + e.interleaveCounter % 4 ≤ e'.interleaveCounter % 4 := by
  have hle : ([lane].filter (· ≠ some .retransmit)).length ≤ 1 := List.length_filter_le _ _
  rcases h with hctrl | ⟨hrtx, hsame⟩ | hnext
  · exact absurd (List.mem_singleton.mpr hctrl.symm) hne
  · rw [hrtx, hsame]
    exact Nat.le_of_eq (Nat.zero_add _)
  omega

section
variable {e : PacingEngine} (hc : e.controlQ ≠ [])
include hc

theorem controlTurn_popWith {popPeers : PacingEngine → Instant → PacingEngine × Option NextPacket}
    (hkeep : ∀ e now, (popPeers e now).1.interleaveCounter = e.interleaveCounter) :
    ControlTurn e (e.popWith popPeers c).1 (taken e (e.popWith popPeers c)) := by
  unfold popWith popRetransmitForSend
  split
  · rename_i q rest hq
    refine .inr (.inl ⟨?_, rfl⟩)
    simp [taken, laneOf, Search.orElse, hq]
  rename_i hr
  rw [Search.orElse_none]
  unfold tryPopControlInterleaved
  dsimp only
  split
  · obtain ⟨q, rest, hq⟩ := List.exists_cons_of_ne_nil hc
    left
    simp [popControlForSend, hq, taken, laneOf, Search.orElse]
  rename_i hturn
  rw [Search.orElse_none]
  have hcount : (Search.orElse (popPeers { e with interleaveCounter := (e.interleaveCounter + 1) % 256 } c.now)
      popControlForSend).1.interleaveCounter = (e.interleaveCounter + 1) % 256 := by
    refine Search.orElse_fst (I := fun s : PacingEngine => s.interleaveCounter = (e.interleaveCounter + 1) % 256)
      (hkeep _ c.now) fun s hs => ?_
    unfold popControlForSend
    split <;> exact hs
  refine .inr (.inr ?_)
  rw [hcount]
  rcases interleaveDivisor_eq e c.aging with hdiv | hdiv
  · rw [hdiv] at hturn
    omega
  rw [hdiv] at hturn
  omega

theorem controlTurn_popNext : ControlTurn e (e.popNext c).1 (taken e (e.popNext c)) := by
  refine controlTurn_popWith hc (fun e now => ?_)
  split
  · exact interleaveCounter_popPeersDrr e now
  exact interleaveCounter_popPeersInOrder e now

theorem controlTurn_popNextApd {freezeDrr : Bool} :
    ControlTurn e (e.popNextApd freezeDrr c).1 (taken e (e.popNextApd freezeDrr c)) := by
  unfold popNextApd
  split
  · exact controlTurn_popWith hc interleaveCounter_popPeersRoundRobin
  exact controlTurn_popNext hc

theorem laneStep_control (op : LaneOp) (hne : some .control ∉ (laneStep e op).2) :
    ((laneStep e op).2.filter (· ≠ some .retransmit)).length + e.interleaveCounter % 4 ≤
    (laneStep e op).1.interleaveCounter % 4 := by
  -- arrivals leave the counter alone since control packets wait already
  have hidle {e' : PacingEngine} (h : e'.interleaveCounter = e.interleaveCounter) :
      0 + e.interleaveCounter % 4 ≤ e'.interleaveCounter % 4 := by
    rw [h, Nat.zero_add]
  cases op with
  | popNext c => exact (controlTurn_popNext hc).counted hne
  | popNextApd freezeDrr c => exact (controlTurn_popNextApd hc).counted hne
  | enqueuePeer pkt dest rttMs qdMs now =>
    apply hidle
    show (e.enqueuePeerWithHints pkt dest rttMs qdMs now).1.interleaveCounter = _
    unfold enqueuePeerWithHints
    dsimp only
    split <;> rfl
  | enqueueBatch dest pkts rttMs qdMs now =>
    apply hidle
    show (e.tryEnqueuePeerBatch dest pkts rttMs qdMs now).1.interleaveCounter = _
    unfold tryEnqueuePeerBatch
    dsimp only
    repeat' split
    all_goals rfl
  | enqueueControl pkt dest now => exact hidle (if_neg hc)
  | enqueueRetransmit pkt dest now => exact hidle rfl

end

theorem selections_without_control (ops : List LaneOp) (e : PacingEngine)
    (hc : Each laneStep e ops fun s _ => s.controlQ ≠ []) (hne : some .control ∉ trace laneStep e ops)
    : ((trace laneStep e ops).filter (· ≠ some .retransmit)).length + e.interleaveCounter % 4 ≤ 3 := by
  induction ops generalizing e with
  | nil =>
    have := Nat.mod_lt e.interleaveCounter (show 4 > 0 by decide)
    simp only [trace, List.filter_nil, List.length_nil]
    omega
  | cons op ops ih =>
    obtain ⟨hnow, hlater⟩ := each_cons.mp hc
    rw [trace, List.mem_append, not_or] at hne
    have hstep := laneStep_control hnow op hne.1
    have hrest := ih _ hlater hne.2
    rw [trace, List.filter_append, List.length_append]
    omega

/-! ## Turns of the lanes of a peer -/

def smallPops (e : PacingEngine) (x : SocketAddr) : Nat := (e.peerQueue x).consecutiveSmallPops

def PeerTurn (x : SocketAddr) (e e' : PacingEngine) (lane : Option Lane) : Prop :=
  (lane = some (.small x) ∧ ((e.peerQueue x).bulk = [] ∨ e.smallPops x < 8 ∧ e'.smallPops x = e.smallPops x + 1)) ∨
    (lane = some (.bulk x) ∧ e'.smallPops x = 0) ∨
    (lane ≠ some (.small x) ∧ lane ≠ some (.bulk x) ∧ e'.smallPops x = e.smallPops x)

section
variable {e : PacingEngine} (x : SocketAddr)

theorem Glides.smallPops (h : Glides e e') : e'.smallPops x = e.smallPops x := by
  obtain ⟨n, hn⟩ := Glides.peerQueue h x
  unfold PacingEngine.smallPops
  rw [hn]

theorem peerTurn_control (h : e'.smallPops x = e.smallPops x) (q : QueuedPacket) :
    PeerTurn x e e' (some (laneOf e e' (.control q))) := by
  have hlane : laneOf e e' (.control q) = .retransmit ∨ laneOf e e' (.control q) = .control := by
    unfold laneOf
    dsimp only
    split
    · exact .inl rfl
    exact .inr rfl
  rcases hlane with hlane | hlane
  · exact .inr (.inr ⟨by simp [hlane], by simp [hlane], h⟩)
  exact .inr (.inr ⟨by simp [hlane], by simp [hlane], h⟩)

theorem peerTurn_other (hx : x ≠ dest) (h : e'.smallPops x = e.smallPops x)
    : PeerTurn x e e' (some (laneOf e e' (.data pkt dest enqueuedAt))) := by
  have hlane : laneOf e e' (.data pkt dest enqueuedAt) = .small dest ∨
      laneOf e e' (.data pkt dest enqueuedAt) = .bulk dest := by
    unfold laneOf
    dsimp only
    split
    · exact .inl rfl
    exact .inr rfl
  rcases hlane with hlane | hlane
  · exact .inr (.inr ⟨by simp [hlane, Ne.symm hx], by simp [hlane], h⟩)
  exact .inr (.inr ⟨by simp [hlane], by simp [hlane, Ne.symm hx], h⟩)

theorem peerTurn_self {n : Nat}
    (hq : q = { e.peerQueue x with deficit := n }) (hpop : q.popData true now = (q', some entry))
    (hq' : e'.peerQueue x = q')
    : PeerTurn x e e' (some (laneOf e e' (.data pkt x enqueuedAt))) := by
  have hlen : q.small = (e.peerQueue x).small := by rw [hq]
  have hbulk : q.bulk = (e.peerQueue x).bulk := by rw [hq]
  have hcount : q.consecutiveSmallPops = (e.peerQueue x).consecutiveSmallPops := by rw [hq]
  unfold PeerTurn PacingEngine.smallPops laneOf
  dsimp only
  rw [hq', ← hlen, ← hbulk, ← hcount]
  rcases PeerDataQueue.popData_turn hpop with ⟨hsmall, hnext, hfree⟩ | ⟨hsmall, hnext⟩
  · rw [if_pos hsmall]
    refine .inl ⟨rfl, hfree.imp_right fun hlt => ⟨hlt, ?_⟩⟩
    rw [hnext]
    omega
  rw [hsmall, if_neg (Nat.lt_irrefl _)]
  exact .inr (.inl ⟨rfl, hnext⟩)

theorem peerTurn_selects (hp : e.priorityOn = true) {r : PacingEngine × Option NextPacket}
    (hs : Selects now e r) : PeerTurn x e r.1 (taken e r) := by
  unfold taken
  cases hitem : r.2 with
  | none => exact .inr (.inr ⟨nofun, nofun, Glides.smallPops x (hs.of_none hitem)⟩)
  | some item =>
    obtain ⟨e₁, hglide, htake⟩ := hs.of_some hitem
    have hcount := Glides.smallPops x hglide
    rw [Option.map_some]
    generalize r.1 = e' at htake ⊢
    cases htake with
    | control hq =>
      apply peerTurn_control
      exact hcount
    | retransmit hq =>
      apply peerTurn_control
      exact hcount
    | @data idx dest q q' entry hget hpop _ =>
      have hpeer : PacingEngine.peerQueue { e₁ with
          peerQueues := e₁.peerQueues.modifyAt idx fun _ => q'
          queuedPacketsTotal := e₁.queuedPacketsTotal - 1
          nonEmptyPeers := if q'.isEmpty then e₁.nonEmptyPeers - 1 else e₁.nonEmptyPeers } x =
          if x = dest then q' else e₁.peerQueue x :=
        peerQueue_modifyAt hget (f := fun _ => q') rfl
      by_cases hx : x = dest
      · subst hx
        obtain ⟨n, hn⟩ := Glides.peerQueue hglide x
        rw [peerQueue_of_getIndex hget] at hn
        rw [(Glides.alike hglide).priorityOn, hp] at hpop
        rw [if_pos rfl] at hpeer
        exact peerTurn_self x hn hpop hpeer
      rw [if_neg hx] at hpeer
      exact peerTurn_other x hx ((congrArg PeerDataQueue.consecutiveSmallPops hpeer).trans hcount)

theorem consecutiveSmallPops_hinted (q : PeerDataQueue) (rttMs qdMs : Option ℚ) :
    (hinted q rttMs qdMs).consecutiveSmallPops = q.consecutiveSmallPops := by
  unfold hinted PeerDataQueue.applyPeerRttHint PeerDataQueue.applyPeerQdHint
  repeat' split
  all_goals rfl

theorem smallPops_upsert (h : e'.peerQueues = e.peerQueues.upsert dest .new fun _ => q)
    (hq : q.consecutiveSmallPops = (e.peerQueue dest).consecutiveSmallPops) : e'.smallPops x = e.smallPops x := by
  unfold smallPops
  rw [peerQueue_upsert h]
  split
  · rename_i hx
    rw [hq, hx]
  rfl

theorem smallPops_enqueuePeerWithHints :
    (e.enqueuePeerWithHints pkt dest rttMs qdMs now).1.smallPops x = e.smallPops x := by
  have hcount := PeerDataQueue.consecutiveSmallPops_push (hinted (e.peerQueue dest) rttMs qdMs) ⟨pkt, now⟩
    (max e.config.maxDataQueuePackets 1) e.priorityOn e.threshold
  refine smallPops_upsert x ?_ (hcount.trans (consecutiveSmallPops_hinted _ rttMs qdMs))
  unfold enqueuePeerWithHints
  dsimp only
  split <;> rfl

theorem smallPops_tryEnqueuePeerBatch {pkts : List Bytes}
    {now : Nat → Instant} : (e.tryEnqueuePeerBatch dest pkts rttMs qdMs now).1.smallPops x = e.smallPops x := by
  have hhint := consecutiveSmallPops_hinted (e.peerQueue dest) rttMs qdMs
  unfold tryEnqueuePeerBatch
  dsimp only
  split
  · rfl
  split
  · exact smallPops_upsert x rfl hhint
  exact smallPops_upsert x rfl ((PeerDataQueue.consecutiveSmallPops_pushAll _ _ _ _).trans hhint)

theorem laneStep_peer (hp : e.priorityOn = true) (op : LaneOp) : (laneStep e op).1.priorityOn = true ∧
    ((laneStep e op).2 = [] ∧ (laneStep e op).1.smallPops x = e.smallPops x ∨
      ∃ lane, (laneStep e op).2 = [lane] ∧ PeerTurn x e (laneStep e op).1 lane) := by
  have hselect {now : Instant} {r : PacingEngine × Option NextPacket} (hs : Selects now e r) :
      r.1.priorityOn = true ∧ PeerTurn x e r.1 (taken e r) :=
    ⟨(congrArg PacingConfig.drrSmallPacketPriority (Selects.sameBudget hs).config).trans hp, peerTurn_selects x hp hs⟩
  cases op with
  | popNext c =>
    obtain ⟨hprio, hturn⟩ := hselect (selects_popNext e c)
    exact ⟨hprio, .inr ⟨_, rfl, hturn⟩⟩
  | popNextApd freezeDrr c =>
    obtain ⟨hprio, hturn⟩ := hselect (selects_popNextApd e freezeDrr c)
    exact ⟨hprio, .inr ⟨_, rfl, hturn⟩⟩
  | enqueuePeer pkt dest rttMs qdMs now =>
    refine ⟨?_, .inl ⟨rfl, smallPops_enqueuePeerWithHints x⟩⟩
    unfold laneStep enqueuePeerWithHints
    dsimp only
    split <;> exact hp
  | enqueueBatch dest pkts rttMs qdMs now =>
    refine ⟨?_, .inl ⟨rfl, smallPops_tryEnqueuePeerBatch x⟩⟩
    unfold laneStep tryEnqueuePeerBatch
    dsimp only
    repeat' split
    all_goals exact hp
  | enqueueControl pkt dest now => exact ⟨hp, .inl ⟨rfl, rfl⟩⟩
  | enqueueRetransmit pkt dest now => exact ⟨hp, .inl ⟨rfl, rfl⟩⟩

theorem small_selections_le (ops : List LaneOp) (e : PacingEngine) (hp : e.priorityOn = true)
    (hle : e.smallPops x ≤ 8) (hbulk : Each laneStep e ops fun s _ => (s.peerQueue x).bulk ≠ [])
    (hne : some (.bulk x) ∉ trace laneStep e ops) : (trace laneStep e ops).count (some (.small x)) +
    e.smallPops x ≤ 8 := by
  induction ops generalizing e with
  | nil => simpa [trace] using hle
  | cons op ops ih =>
    obtain ⟨hnow, hlater⟩ := each_cons.mp hbulk
    rw [trace, List.mem_append, not_or] at hne
    obtain ⟨hprio, hstep⟩ := laneStep_peer x hp op
    rw [trace, List.count_append]
    rcases hstep with ⟨hnone, hsame⟩ | ⟨lane, hone, hturn⟩
    · have hrest := ih _ hprio (by omega) hlater hne.2
      rw [hnone, List.count_nil]
      omega
    rw [hone] at hne ⊢
    rcases hturn with ⟨hsmall, hfree⟩ | ⟨hlong, _⟩ | ⟨hsmall, _, hsame⟩
    · obtain ⟨hlt, hnext⟩ := hfree.resolve_left hnow
      have hrest := ih _ hprio (by omega) hlater hne.2
      rw [hsmall, List.count_singleton_self]
      omega
    · exact absurd (List.mem_singleton.mpr hlong.symm) hne.1
    have hrest := ih _ hprio (by omega) hlater hne.2
    rw [List.count_singleton, if_neg (by simpa using hsmall)]
    omega

end

/-! ## The bounds -/

/-- From any state on: four selections that are no retransmissions include a control packet as long as control packets
wait, and a long packet of a peer is followed by at most eight short ones before the next, as long as one waits. -/
theorem no_lane_starves (e : PacingEngine) (ops : List LaneOp) : (Each laneStep e ops (fun s _ => s.controlQ ≠ []) →
      4 ≤ ((trace laneStep e ops).filter (· ≠ some .retransmit)).length →
      some .control ∈ trace laneStep e ops) ∧
    ∀ x op, e.priorityOn = true → some (.bulk x) ∈ (laneStep e op).2 →
      Each laneStep (laneStep e op).1 ops (fun s _ => (s.peerQueue x).bulk ≠ []) →
      some (.bulk x) ∉ trace laneStep (laneStep e op).1 ops →
      (trace laneStep (laneStep e op).1 ops).count (some (.small x)) ≤ 8 := by
  refine ⟨fun hc hfour => ?_, fun x op hp hlong hbulk hne => ?_⟩
  · by_contra hne
    have hthree := selections_without_control ops e hc hne
    omega
  obtain ⟨hprio, hstep⟩ := laneStep_peer x hp op
  have hzero : (laneStep e op).1.smallPops x = 0 := by
    rcases hstep with ⟨hnone, _⟩ | ⟨lane, hone, hturn⟩
    · rw [hnone] at hlong
      cases hlong
    rw [hone, List.mem_singleton] at hlong
    subst hlong
    rcases hturn with ⟨hsmall, _⟩ | ⟨_, hreset⟩ | ⟨_, hother, _⟩
    · cases hsmall
    · exact hreset
    exact absurd rfl hother
  have hcount := small_selections_le x ops _ hprio (by omega) hbulk hne
  omega

def crowd : List LaneOp :=
  [.enqueueControl [1] shortPeer 0, .enqueueControl [2] shortPeer 0,
    .enqueueBatch longPeer (List.replicate 3 (packetOf 1000) ++ List.replicate 20 (packetOf 10)) none none fun _ => 0]

def selections (n : Nat) : List LaneOp := List.replicate n (.popNextApd false ⟨0, 0⟩)

/-- Both bounds are met: the other three of four selections are data, and eight short packets go between two long
ones. -/
theorem crowd_turns : some .control ∈ trace laneStep (run laneStep (.new 0) crowd) (selections 4) ∧
    (trace laneStep (run laneStep (.new 0) (crowd ++ selections 11)) (selections 8)).count
    (some (.small longPeer)) = 8 ∧
    (trace laneStep (run laneStep (.new 0) (crowd ++ selections 11)) (selections 8)).count
    (some (.small longPeer)) ≤ 8 := by
  refine ⟨?_, by decide +kernel, ?_⟩
  · exact (no_lane_starves (run laneStep (.new 0) crowd) (selections 4)).1 (by decide +kernel) (by decide +kernel)
  exact (no_lane_starves (run laneStep (.new 0) (crowd ++ selections 10)) (selections 8)).2 longPeer
    (.popNextApd false ⟨0, 0⟩) (by decide +kernel) (by decide +kernel) (by decide +kernel) (by decide +kernel)

end PacingEngine

end ConnectUnit.Pacing
