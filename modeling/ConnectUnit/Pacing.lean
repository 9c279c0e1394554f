import ConnectUnit.Lib.IndexMap
import ConnectUnit.Lib.Search
import ConnectUnit.PacingConfig

/-!
# The pacing engine

Packets wait in a queue for control messages, one for retransmissions and two lanes for each peer.
-/

namespace ConnectUnit.Pacing

def elapsedMs (now since : Instant) : ℚ := ((now - since : Nat) : ℚ) / 1000000

/-! ## The queue of a peer -/

structure QueuedPacket where
  pkt : Bytes
  dest : SocketAddr
  enqueuedAt : Instant
  deriving DecidableEq

structure QueuedData where
  pkt : Bytes
  enqueuedAt : Instant
  deriving DecidableEq

structure PeerDataQueue where
  small : List QueuedData
  bulk : List QueuedData
  deficit : Nat
  consecutiveSmallPops : Nat
  rttMs : ℚ
  queuingDelayMs : ℚ
  deriving DecidableEq

namespace PeerDataQueue

def new : PeerDataQueue := ⟨[], [], 0, 0, -1, -1⟩

section
variable (q : PeerDataQueue)

def isEmpty : Bool := q.small.isEmpty && q.bulk.isEmpty

def len : Nat := q.small.length + q.bulk.length

def isSmallPacket (pktLen : Nat) (priorityOn : Bool) (threshold : Nat) : Bool := priorityOn && pktLen < threshold

def dropOldestForCapacity : PeerDataQueue × List QueuedData :=
  match q.bulk with
  | entry :: bulk => ({ q with bulk := bulk }, [entry])
  | [] => ({ q with small := q.small.tail }, q.small.take 1)

variable (entry : QueuedData) (priorityOn : Bool) (now : Instant)

def pushBackClassified (threshold : Nat) : PeerDataQueue :=
  if isSmallPacket entry.pkt.length priorityOn threshold then { q with small := q.small ++ [entry] }
  else { q with bulk := q.bulk ++ [entry] }

def pushAll (batch : List QueuedData) (priorityOn : Bool) (threshold : Nat) : PeerDataQueue :=
  batch.foldl (fun q entry => q.pushBackClassified entry priorityOn threshold) q

def push (maxDepth : Nat) (priorityOn : Bool) (threshold : Nat) : PeerDataQueue × Bool × List QueuedData :=
  if maxDepth ≤ q.len then
    let r := q.dropOldestForCapacity
    (r.1.pushBackClassified entry priorityOn threshold, false, r.2)
  else (q.pushBackClassified entry priorityOn threshold, true, [])

def pushFrontRequeue (threshold : Nat) : PeerDataQueue :=
  if isSmallPacket entry.pkt.length priorityOn threshold then { q with small := entry :: q.small }
  else { q with bulk := entry :: q.bulk }

def popFifoByAge : PeerDataQueue × Option QueuedData :=
  match q.small, q.bulk with
  | s :: small, b :: bulk =>
    if s.enqueuedAt ≤ b.enqueuedAt then ({ q with small := small }, some s) else ({ q with bulk := bulk }, some b)
  | s :: small, [] => ({ q with small := small }, some s)
  | [], b :: bulk => ({ q with bulk := bulk }, some b)
  | [], [] => (q, none)

def popSmallFront : PeerDataQueue × Option QueuedData := ({ q with small := q.small.tail }, q.small.head?)

def popBulkFront : PeerDataQueue × Option QueuedData := ({ q with bulk := q.bulk.tail }, q.bulk.head?)

def bulkFrontSojournMs : Option ℚ := q.bulk.head?.map fun e => elapsedMs now e.enqueuedAt

def bulkHolSojournMs : ℚ := (q.bulkFrontSojournMs now).getD 0

def holSojournMs : ℚ :=
  max ((q.small.head?.map fun e => elapsedMs now e.enqueuedAt).getD 0) (q.bulkHolSojournMs now)

def shouldForceBulk : Bool :=
  !q.bulk.isEmpty && (8 ≤ q.consecutiveSmallPops || 8 ≤ q.bulkHolSojournMs now)

def popData : PeerDataQueue × Option QueuedData :=
  if q.isEmpty then (q, none)
  else if !priorityOn then q.popFifoByAge
  else if q.shouldForceBulk now then popBulkFront { q with consecutiveSmallPops := 0 }
  else if !q.small.isEmpty then popSmallFront { q with consecutiveSmallPops := min (q.consecutiveSmallPops + 1) 255 }
  else popBulkFront { q with consecutiveSmallPops := 0 }

def frontLen : Nat :=
  let lenOf (e : Option QueuedData) : Nat := (e.map (·.pkt.length)).getD 0
  if q.isEmpty then 0
  else if !priorityOn then lenOf q.popFifoByAge.2
  else if q.shouldForceBulk now then lenOf q.bulk.head?
  else if !q.small.isEmpty then lenOf q.small.head?
  else lenOf q.bulk.head?

def applyPeerRttHint (rttMs : Option ℚ) : PeerDataQueue :=
  match rttMs with
  | some r => if 0 < r then { q with rttMs := r } else q
  | none => q

def applyPeerQdHint (qdMs : Option ℚ) : PeerDataQueue :=
  match qdMs with
  | some qd => if 0 ≤ qd then { q with queuingDelayMs := qd } else q
  | none => q

end

end PeerDataQueue

/-! ## The engine -/

inductive ApdPhase where
  | cooldown
  | alert
  | drain
  deriving DecidableEq

structure ApdState where
  phase : ApdPhase
  confirmCounter : Nat
  drainEnteredAt : Option Instant
  cooldownUntil : Option Instant
  cfg : ApdConfig
  lastPureSpin : Bool
  lastTickUs : Nat
  rampBurst : Nat
  lastFillRatio : ℚ
  deriving DecidableEq

def ApdState.new (cfg : ApdConfig) : ApdState := ⟨.cooldown, 0, none, none, cfg, false, 0, 0, 0⟩

structure PacingEngine where
  config : PacingConfig
  controlQ : List QueuedPacket
  retransmitQ : List QueuedPacket
  peerQueues : IndexMap SocketAddr PeerDataQueue
  nonEmptyPeers : Nat
  queuedPacketsTotal : Nat
  tickSeq : Nat
  budget : ℚ
  lastTick : Instant
  droppedPackets : Nat
  droppedData : Nat
  droppedControlNormal : Nat
  droppedControlRetransmit : Nat
  shedSojourn : Nat
  consecutiveErrors : Nat
  interleaveCounter : Nat
  drrCursor : Nat
  apd : ApdState
  cachedRttRefMs : ℚ
  backgroundCc : BackgroundCcEngine

inductive NextPacket where
  | control (q : QueuedPacket)
  | data (pkt : Bytes) (dest : SocketAddr) (enqueuedAt : Instant)
  deriving DecidableEq

inductive TickResult where
  | progress (sent : Nat)
  | socketDead (lastFailedDest : SocketAddr)
  deriving DecidableEq

abbrev Packet := Bytes × SocketAddr

def QueuedPacket.packet (q : QueuedPacket) : Packet := (q.pkt, q.dest)

def QueuedData.packet (d : QueuedData) (dest : SocketAddr) : Packet := (d.pkt, dest)

def NextPacket.packet : NextPacket → Packet
  | .control q => q.packet
  | .data pkt dest _ => (pkt, dest)

namespace PacingEngine

def new (now : Instant) : PacingEngine where
  config := .default
  controlQ := []
  retransmitQ := []
  peerQueues := ∅
  nonEmptyPeers := 0
  queuedPacketsTotal := 0
  tickSeq := 0
  budget := 0
  lastTick := now
  droppedPackets := 0
  droppedData := 0
  droppedControlNormal := 0
  droppedControlRetransmit := 0
  shedSojourn := 0
  consecutiveErrors := 0
  interleaveCounter := 0
  drrCursor := 0
  apd := .new .default
  cachedRttRefMs := -1
  backgroundCc := .new .default

section
variable (e : PacingEngine)

/-! ## Enqueueing -/

def priorityOn : Bool := e.config.drrSmallPacketPriority

def threshold : Nat := e.config.drrSmallPacketThresholdBytes

def hinted (q : PeerDataQueue) (rttMs queuingDelayMs : Option ℚ) : PeerDataQueue :=
  (q.applyPeerRttHint rttMs).applyPeerQdHint queuingDelayMs

variable (idx : Nat) (pkt : Bytes) (dest : SocketAddr) (now : Instant)

/-- The queue that the entry of a peer stands for. -/
def peerQueue : PeerDataQueue := (e.peerQueues.get? dest).getD .new

def enqueuePeerWithHints (rttMs queuingDelayMs : Option ℚ) (now : Instant) : PacingEngine × Bool × List Packet :=
  let q := hinted (e.peerQueue dest) rttMs queuingDelayMs
  let r := q.push ⟨pkt, now⟩ (max e.config.maxDataQueuePackets 1) e.priorityOn e.threshold
  let e := { e with
    peerQueues := e.peerQueues.upsert dest .new fun _ => r.1
    backgroundCc := e.backgroundCc.ensurePeer dest
    nonEmptyPeers := if q.isEmpty && !r.1.isEmpty then e.nonEmptyPeers + 1 else e.nonEmptyPeers }
  (if r.2.1 then { e with queuedPacketsTotal := e.queuedPacketsTotal + 1 }
    else { e with droppedPackets := e.droppedPackets + 1, droppedData := e.droppedData + 1 },
    r.2.1, r.2.2.map (·.packet dest))

/-- The packets of a batch, each with its own reading of the clock. -/
def batchEntries (pkts : List Bytes) (now : Nat → Instant) : List QueuedData :=
  pkts.zipIdx.map fun p => ⟨p.1, now p.2⟩

def tryEnqueuePeerBatch (pkts : List Bytes) (rttMs queuingDelayMs : Option ℚ)
    (now : Nat → Instant) : PacingEngine × Bool :=
  if pkts = [] then (e, true)
  else
    let q := hinted (e.peerQueue dest) rttMs queuingDelayMs
    let cc := e.backgroundCc.ensurePeer dest
    if max e.config.maxDataQueuePackets 1 < q.len + pkts.length then
      ({ e with peerQueues := e.peerQueues.upsert dest .new fun _ => q, backgroundCc := cc }, false)
    else
      let q' := q.pushAll (batchEntries pkts now) e.priorityOn e.threshold
      ({ e with
        peerQueues := e.peerQueues.upsert dest .new fun _ => q'
        backgroundCc := cc
        nonEmptyPeers := if q.isEmpty && !q'.isEmpty then e.nonEmptyPeers + 1 else e.nonEmptyPeers
        queuedPacketsTotal := e.queuedPacketsTotal + pkts.length }, true)

/-- The packets that leave with the peer are the second component. -/
def removePeer : PacingEngine × List Packet :=
  let cc := e.backgroundCc.removePeer dest
  match e.peerQueues.indexOf? dest with
  | none => ({ e with backgroundCc := cc }, [])
  | some idx =>
    let q := e.peerQueue dest
    let peers := e.peerQueues.removeAt idx
    let cursor := if idx < e.drrCursor then e.drrCursor - 1 else e.drrCursor
    ({ e with
      peerQueues := peers
      nonEmptyPeers := if 0 < q.len then e.nonEmptyPeers - 1 else e.nonEmptyPeers
      queuedPacketsTotal := e.queuedPacketsTotal - q.len
      drrCursor := if peers.size = 0 then 0 else cursor % peers.size
      backgroundCc := cc }, (q.small ++ q.bulk).map (·.packet dest))

def overflow (queued cap : Nat) : Nat := queued + 1 - max cap 1

def enqueueRetransmit : PacingEngine × Bool × List Packet :=
  let n := overflow e.retransmitQ.length e.config.maxRetransmitQueuePackets
  ({ e with
    retransmitQ := e.retransmitQ.drop n ++ [⟨pkt, dest, now⟩]
    queuedPacketsTotal := e.queuedPacketsTotal - n + 1
    droppedPackets := e.droppedPackets + n
    droppedControlRetransmit := e.droppedControlRetransmit + n },
    0 < n, (e.retransmitQ.take n).map QueuedPacket.packet)

def enqueueControl : PacingEngine × Bool × List Packet :=
  let n := overflow e.controlQ.length e.config.maxControlQueuePackets
  ({ e with
    interleaveCounter := if e.controlQ = [] then 3 else e.interleaveCounter
    controlQ := e.controlQ.drop n ++ [⟨pkt, dest, now⟩]
    queuedPacketsTotal := e.queuedPacketsTotal - n + 1
    droppedPackets := e.droppedPackets + n
    droppedControlNormal := e.droppedControlNormal + n },
    0 < n, (e.controlQ.take n).map QueuedPacket.packet)

/-! ## Selection -/

def popControlForSend : PacingEngine × Option NextPacket :=
  match e.controlQ with
  | q :: rest => ({ e with controlQ := rest, queuedPacketsTotal := e.queuedPacketsTotal - 1 }, some (.control q))
  | [] => (e, none)

def popRetransmitForSend : PacingEngine × Option NextPacket :=
  match e.retransmitQ with
  | q :: rest => ({ e with retransmitQ := rest, queuedPacketsTotal := e.queuedPacketsTotal - 1 }, some (.control q))
  | [] => (e, none)

def interleaveDivisor : Nat :=
  let pressure := decide (max e.config.maxControlQueuePackets 1 ≤ e.controlQ.length * 2)
  let aging := e.controlQ.head?.any fun q => millis 8 ≤ now - q.enqueuedAt
  if pressure || aging then 2 else 4

def tryPopControlInterleaved : PacingEngine × Option NextPacket :=
  let counter := (e.interleaveCounter + 1) % 256
  let e' := { e with interleaveCounter := counter }
  if counter % e.interleaveDivisor now = 0 then e'.popControlForSend else (e', none)

def backgroundCcCanSend (frontLen : Nat) (holSojournMs : ℚ) : Bool :=
  frontLen = 0 || e.backgroundCc.canSendData dest frontLen holSojournMs

def popPeerAt : PacingEngine × Option NextPacket :=
  match e.peerQueues.getIndex idx with
  | none => (e, none)
  | some (dest, q) =>
    let r := q.popData e.priorityOn now
    match r.2 with
    | none => (e, none)
    | some entry =>
      ({ e with
        peerQueues := e.peerQueues.modifyAt idx fun _ => r.1
        queuedPacketsTotal := e.queuedPacketsTotal - 1
        nonEmptyPeers := if r.1.isEmpty then e.nonEmptyPeers - 1 else e.nonEmptyPeers },
        some (.data entry.pkt dest entry.enqueuedAt))

def servePeerAt : PacingEngine × Option NextPacket :=
  match e.peerQueues.getIndex idx with
  | none => (e, none)
  | some (dest, q) =>
    if e.backgroundCcCanSend dest (q.frontLen e.priorityOn now) (q.holSojournMs now) then e.popPeerAt idx now
    else (e, none)

def cursorIndex : Nat := e.drrCursor % e.peerQueues.size

def advanceCursor : PacingEngine := { e with drrCursor := (e.drrCursor + 1) % 2 ^ 64 }

def roundRobinVisit : PacingEngine × Option NextPacket :=
  e.advanceCursor.servePeerAt e.cursorIndex now

def creditAfter (q : PeerDataQueue) (now : Instant) : Nat :=
  let quantum := e.config.scaledDrrQuantum q.rttMs e.cachedRttRefMs
  min (q.deficit + quantum) (max (4 * quantum) (q.frontLen e.priorityOn now))

/-- One turn of the deficit round robin: the peer gets its quantum and sends at most one packet. -/
def drrVisit : PacingEngine × Option NextPacket :=
  let idx := e.cursorIndex
  let e := e.advanceCursor
  match e.peerQueues.getIndex idx with
  | none => (e, none)
  | some (dest, q) =>
    if q.isEmpty then ({ e with peerQueues := e.peerQueues.modifyAt idx fun q => { q with deficit := 0 } }, none)
    else
      let frontLen := q.frontLen e.priorityOn now
      let credit := e.creditAfter q now
      let kept := { e with peerQueues := e.peerQueues.modifyAt idx fun q => { q with deficit := credit } }
      if frontLen = 0 || credit < frontLen then (kept, none)
      else if !e.backgroundCcCanSend dest frontLen (q.holSojournMs now) then (kept, none)
      else
        let paid :=
          { e with peerQueues := e.peerQueues.modifyAt idx fun q => { q with deficit := credit - frontLen } }
        paid.popPeerAt idx now

def popPeersInOrder : PacingEngine × Option NextPacket :=
  Search.untilSome (fun e idx => e.servePeerAt idx now) (List.range e.peerQueues.size) e

def popPeersDrr : PacingEngine × Option NextPacket :=
  if e.peerQueues.size = 0 || e.nonEmptyPeers = 0 then (e, none)
  else Search.untilSome (fun e _ => e.drrVisit now) (List.range (e.peerQueues.size * 2)) e

def popPeersRoundRobin : PacingEngine × Option NextPacket :=
  Search.untilSome (fun e _ => e.roundRobinVisit now) (List.range e.peerQueues.size) e

/-- The two readings of the clock that a selection makes. -/
structure PopClock where
  aging : Instant
  now : Instant

def popWith (popPeers : PacingEngine → Instant → PacingEngine × Option NextPacket) (c : PopClock) :
    PacingEngine × Option NextPacket :=
  Search.orElse e.popRetransmitForSend fun e =>
    Search.orElse (e.tryPopControlInterleaved c.aging) fun e =>
      Search.orElse (popPeers e c.now) popControlForSend

def popNext (c : PopClock) : PacingEngine × Option NextPacket :=
  e.popWith (fun e now => if e.config.drrEnabled then e.popPeersDrr now else e.popPeersInOrder now) c

def popNextApd (freezeDrr : Bool) (c : PopClock) : PacingEngine × Option NextPacket :=
  if freezeDrr then e.popWith popPeersRoundRobin c else e.popNext c

end

end PacingEngine

end ConnectUnit.Pacing
