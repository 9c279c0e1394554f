import ConnectUnit.Pacing

/-!
# A tick of the pacing engine

The drain state machine (APD) fixes the burst of a tick, shedding drops data that waited for too long, and then
packets are sent while there is budget and time.
-/

namespace ConnectUnit.Pacing

def micros (n : Nat) : Nat := n * 1000

/-! ## Adaptive precision drain -/

structure ApdDecision where
  effectiveBurst : Nat
  freezeDrr : Bool
  deriving DecidableEq

namespace ApdState

def fillEpsilon : ℚ := 1 / 2 ^ 23

section
variable (st : ApdState)
variable (fillRatio : ℚ) (r : Reading) (baseBurst : Nat) (suppressCc : Bool)

def startedRamp : Nat := if st.rampBurst = 0 then baseBurst else st.rampBurst

def decayRampBurstOnly : ApdState :=
  { st with rampBurst := max (st.startedRamp baseBurst - 1) baseBurst, lastFillRatio := fillRatio }

def updateRampBurst (baseBurst rampCeiling : Nat) : ApdState :=
  let target := st.cfg.rampTargetBurst fillRatio baseBurst (max rampCeiling baseBurst)
  { st with
    rampBurst :=
      if st.lastFillRatio + fillEpsilon < fillRatio then target else max (st.startedRamp baseBurst - 1) target
    lastFillRatio := fillRatio }

def rampPinned (baseBurst rampCeiling : Nat) : Bool := max rampCeiling baseBurst ≤ st.rampBurst

def exitDrainToCooldown (now : Instant) (baseBurst : Nat) : ApdState × ApdDecision :=
  ({ st with
    phase := .cooldown
    cooldownUntil := some (now + millis st.cfg.cooldownMs)
    drainEnteredAt := none
    confirmCounter := 0
    lastPureSpin := false
    lastTickUs := 0 }, ⟨max st.rampBurst baseBurst, false⟩)

def moveRamp (fillRatio : ℚ) (baseBurst rampCeiling : Nat) : ApdState :=
  if suppressCc then st.decayRampBurstOnly fillRatio baseBurst else st.updateRampBurst fillRatio baseBurst rampCeiling

def paced : ApdState × ApdDecision :=
  ({ st with lastPureSpin := false, lastTickUs := 0 }, ⟨max st.rampBurst baseBurst, false⟩)

def drained (drainBurst : Nat) : ApdState × ApdDecision :=
  ({ st with lastPureSpin := true, lastTickUs := st.cfg.drainTickUs }, ⟨drainBurst, st.cfg.drainFreezeDrr⟩)

/-- What the step reads: the fill of the queues, the longest wait, whether some peer may send, and the clock
before the step and at its check of the drain budget. -/
structure Reading where
  fillRatio : ℚ
  holSojournMs : ℚ
  anyCcSendable : Bool
  now : Instant
  drainNow : Instant

def stepCooldown (baseBurst rampCeiling : Nat) : ApdState × ApdDecision :=
  let st := if st.cooldownUntil.all (· ≤ r.now) then
    { st with phase := .alert, confirmCounter := 0, cooldownUntil := none } else st
  (st.moveRamp suppressCc r.fillRatio baseBurst rampCeiling).paced baseBurst

def stepAlert (baseBurst rampCeiling drainBurst : Nat) : ApdState × ApdDecision :=
  let st := st.moveRamp suppressCc r.fillRatio baseBurst rampCeiling
  let fillArm := st.rampPinned baseBurst rampCeiling && st.cfg.highWatermark < r.fillRatio
  let sojournArm := st.cfg.sojournEnabled && st.cfg.maxSojournMs < r.holSojournMs
  if (fillArm || sojournArm) && !suppressCc then
    let st := if st.cfg.confirmTicks = 0 then st else { st with confirmCounter := st.confirmCounter + 1 }
    if st.cfg.confirmTicks = 0 || st.cfg.confirmTicks ≤ st.confirmCounter then
      { st with phase := .drain, drainEnteredAt := some r.now }.drained drainBurst
    else st.paced baseBurst
  else if 0 < st.cfg.confirmTicks then { st with confirmCounter := st.confirmCounter - 1 }.paced baseBurst
  else st.paced baseBurst

def stepDrain (baseBurst drainBurst : Nat) : ApdState × ApdDecision :=
  let budgetExhausted := decide (0 < st.cfg.spinloopBudgetMs) &&
    st.drainEnteredAt.any fun t => millis st.cfg.spinloopBudgetMs ≤ r.drainNow - t
  let fillExit := decide (r.fillRatio < st.cfg.lowWatermark)
  let sojournExit := !st.cfg.sojournEnabled || r.holSojournMs < st.cfg.targetSojournMs
  if suppressCc || budgetExhausted || (fillExit && sojournExit) then st.exitDrainToCooldown r.now baseBurst
  else st.drained drainBurst

def step : ApdState × ApdDecision :=
  let rampCeiling := max st.cfg.rampMaxBurst baseBurst
  let drainBurst := max 1 (min st.cfg.drainMaxBurst rampCeiling)
  let suppressCc := st.cfg.requireCcHeadroom && !r.anyCcSendable
  match st.phase with
  | .cooldown => st.stepCooldown r suppressCc baseBurst rampCeiling
  | .alert => st.stepAlert r suppressCc baseBurst rampCeiling drainBurst
  | .drain => st.stepDrain r suppressCc baseBurst drainBurst

end

end ApdState

namespace PacingEngine

section
variable (e : PacingEngine)

def queueCapacity : Nat :=
  max e.nonEmptyPeers 1 * e.config.maxDataQueuePackets + e.config.maxControlQueuePackets +
    e.config.maxRetransmitQueuePackets

def queueFillRatio : ℚ := clampQ (e.queuedPacketsTotal / max e.queueCapacity 1) 0 1

def apdPressureScan (now : Instant) : ℚ × Bool :=
  let heads := (e.controlQ.head?.toList ++ e.retransmitQ.head?.toList).map fun q => elapsedMs now q.enqueuedAt
  let peers := e.peerQueues.entries.map fun p => p.2.holSojournMs now
  let ccNeeded := e.apd.cfg.requireCcHeadroom && e.config.backgroundCc.enabled
  let busy := e.peerQueues.entries.filter fun p => !p.2.isEmpty
  ((heads ++ peers).foldl max 0,
    !ccNeeded || busy.isEmpty ||
      busy.any fun p => e.backgroundCcCanSend p.1 (p.2.frontLen e.priorityOn now) (p.2.holSojournMs now))

def apdStep (now drainNow : Instant) : PacingEngine × ApdDecision :=
  if e.apd.cfg.enabled then
    let scan := e.apdPressureScan now
    let r := e.apd.step ⟨e.queueFillRatio, scan.1, scan.2, now, drainNow⟩ e.config.baseMaxBurst
    ({ e with apd := r.1 }, r.2)
  else (e, ⟨e.config.baseMaxBurst, false⟩)

/-! ## Budget -/

def budgetCapValue : ℚ :=
  match e.config.paceRateMode with
  | .pps => e.config.budgetCapPackets
  | .bytes => e.config.budgetCapPackets * 1300

def budgetHasRoom : Bool :=
  match e.config.paceRateMode with
  | .pps => 1 ≤ e.budget
  | .bytes => 64 ≤ e.budget

def packetCost (pktLen : Nat) : ℚ :=
  match e.config.paceRateMode with
  | .pps => 1
  | .bytes => pktLen

def paceRate : ℚ :=
  match e.config.paceRateMode with
  | .pps => e.config.targetPps
  | .bytes => e.config.targetBps

def budgetConsume (pktLen : Nat) : PacingEngine := { e with budget := e.budget - e.packetCost pktLen }

def elapsedSecs (now since : Instant) : ℚ := ((now - since : Nat) : ℚ) / 1000000000

def refreshDrrRttRef : PacingEngine :=
  if !e.config.drrRttAware || !e.config.drrEnabled then { e with cachedRttRefMs := -1 }
  else
    let busy := e.peerQueues.entries.filter fun p => !p.2.isEmpty
    { e with cachedRttRefMs := medianPositiveRtt (busy.map fun p => p.2.rttMs) }

def refillBudget (now : Instant) : PacingEngine :=
  let elapsed := elapsedSecs now e.lastTick
  let e := { e with
    lastTick := now
    budget := min (e.budget + elapsed * e.paceRate) e.budgetCapValue
    backgroundCc := e.backgroundCc.refillAllTokens elapsed
    tickSeq := (e.tickSeq + 1) % 2 ^ 64 }
  if e.tickSeq % 32 = 0 then e.refreshDrrRttRef else e

/-! ## Shedding -/

def shedAt (idx : Nat) (now : Instant) : PacingEngine × Option Packet :=
  match e.peerQueues.getIndex idx with
  | none => (e, none)
  | some (dest, q) =>
    match q.bulk with
    | [] => (e, none)
    | entry :: bulk =>
      if elapsedMs now entry.enqueuedAt ≤ e.config.shed.maxSojournMs then (e, none)
      else
        let q := { q with bulk := bulk }
        ({ e with
          peerQueues := e.peerQueues.modifyAt idx fun _ => q
          nonEmptyPeers := if q.isEmpty then e.nonEmptyPeers - 1 else e.nonEmptyPeers
          queuedPacketsTotal := e.queuedPacketsTotal - 1
          shedSojourn := e.shedSojourn + 1
          droppedPackets := e.droppedPackets + 1 }, some (entry.packet dest))

def shedTurns (now deadline : Instant) (clock : Nat → Instant) :
    List Nat → PacingEngine → List Packet → PacingEngine × List Packet
  | [], e, dropped => (e, dropped)
  | i :: is, e, dropped =>
    if e.config.shed.maxPerTick ≤ dropped.length || deadline ≤ clock i then (e, dropped)
    else
      let r := e.advanceCursor.shedAt e.cursorIndex now
      shedTurns now deadline clock is r.1 (dropped ++ r.2.toList)

def shedStaleBulkRr (now deadline : Instant) (clock : Nat → Instant) : PacingEngine × List Packet :=
  if !e.config.shed.enabled || e.nonEmptyPeers = 0 || e.queueFillRatio < e.config.shed.minFill then (e, [])
  else shedTurns now deadline clock (List.range e.peerQueues.size) e []

/-! ## Sending -/

inductive SendOutcome where
  | ok
  | wouldBlock
  | error
  deriving DecidableEq

def trySendWith (requeue charge : PacingEngine → PacingEngine) (p : Packet) (outcome : SendOutcome) (sent : Nat) :
    PacingEngine × Option TickResult :=
  let back := requeue e
  match outcome with
  | .ok => (charge { e.budgetConsume p.1.length with consecutiveErrors := 0 }, none)
  | .wouldBlock => ({ back with queuedPacketsTotal := back.queuedPacketsTotal + 1 }, some (.progress sent))
  | .error =>
    let errors := back.consecutiveErrors + 1
    ({ back with queuedPacketsTotal := back.queuedPacketsTotal + 1, consecutiveErrors := errors },
      some (if 5 ≤ errors then .socketDead p.2 else .progress sent))

def requeueControl (q : QueuedPacket) (e : PacingEngine) : PacingEngine := { e with controlQ := q :: e.controlQ }

def requeueRetransmit (q : QueuedPacket) (e : PacingEngine) : PacingEngine :=
  { e with retransmitQ := q :: e.retransmitQ }

def requeueDataAtFront (dest : SocketAddr) (pkt : Bytes) (enqueuedAt : Instant) (e : PacingEngine) : PacingEngine :=
  { e with
    peerQueues := e.peerQueues.upsert dest .new fun q => q.pushFrontRequeue ⟨pkt, enqueuedAt⟩ e.priorityOn e.threshold
    nonEmptyPeers := if (e.peerQueue dest).isEmpty then e.nonEmptyPeers + 1 else e.nonEmptyPeers }

def trySendQueuedPacket (q : QueuedPacket) (retransmit : Bool) (outcome : SendOutcome) (sent : Nat) :
    PacingEngine × Option TickResult :=
  e.trySendWith (if retransmit then requeueRetransmit q else requeueControl q) id q.packet outcome sent

def trySendNextPacket (item : NextPacket) (outcome : SendOutcome) (sent : Nat) : PacingEngine × Option TickResult :=
  match item with
  | .control q => e.trySendWith (requeueControl q) id q.packet outcome sent
  | .data pkt dest enqueuedAt =>
    e.trySendWith (requeueDataAtFront dest pkt enqueuedAt)
      (fun e => { e with backgroundCc := e.backgroundCc.consumeSendBytes dest pkt.length }) (pkt, dest) outcome sent

end

structure Ticking where
  engine : PacingEngine
  sent : List Packet

/-- The readings of the clock in a tick. Each loop reads it once before a packet, so the number of packets sent
tells its readings apart. -/
structure TickClock where
  start : Instant
  drain : Instant
  shed : Nat → Instant
  retransmit : Nat → Instant
  control : Nat → Instant
  burst : Nat → Instant
  pop : Nat → PopClock

/-- The answer of the socket to the first send, the second send and so on. -/
abbrev Answers := Nat → SendOutcome

def reservedMaySend (pktLen remaining phaseInitial : Nat) : Bool :=
  0 < remaining && (remaining = phaseInitial || pktLen ≤ remaining)

def reservedConsume (remaining phaseInitial pktLen : Nat) : Nat :=
  if remaining = phaseInitial && remaining < pktLen then 0 else remaining - pktLen

/-- The engine with the rest of the queue of retransmissions or of control packets. -/
def withRest (e : PacingEngine) (retransmit : Bool) (rest : List QueuedPacket) : PacingEngine :=
  let e := { e with queuedPacketsTotal := e.queuedPacketsTotal - 1 }
  if retransmit then { e with retransmitQ := rest } else { e with controlQ := rest }

def drainReserved (retransmit : Bool) (initial : Nat) (deadline : Instant) (clock : Nat → Instant)
    (answers : Answers) :
    List QueuedPacket → Nat → Ticking → Ticking × Option TickResult
  | [], _, t => (t, none)
  | q :: rest, remaining, t =>
    let sent := t.sent.length
    if deadline ≤ clock sent || !t.engine.budgetHasRoom || q.pkt.length = 0 ||
        !reservedMaySend q.pkt.length remaining initial then (t, none)
    else
      let r := (t.engine.withRest retransmit rest).trySendQueuedPacket q retransmit (answers sent) sent
      match r.2 with
      | some result => ({ t with engine := r.1 }, some result)
      | none =>
        drainReserved retransmit initial deadline clock answers rest
          (reservedConsume remaining initial q.pkt.length) ⟨r.1, t.sent ++ [q.packet]⟩

def drainReservedPrefix (c : TickClock) (deadline : Instant) (answers : Answers) (t : Ticking) :
    Ticking × Option TickResult :=
  let rtx := t.engine.config.minRetransmitReservedBytesPerTick
  let ctrl := t.engine.config.minControlReservedBytesPerTick
  Search.orElse (drainReserved true rtx deadline c.retransmit answers t.engine.retransmitQ rtx t) fun t =>
    drainReserved false ctrl deadline c.control answers t.engine.controlQ ctrl t

def sendBurst (freezeDrr : Bool) (deadline : Instant) (c : TickClock) (answers : Answers) :
    Nat → Ticking → Ticking × Option TickResult
  | 0, t => (t, none)
  | n + 1, t =>
    let sent := t.sent.length
    if deadline ≤ c.burst sent || !t.engine.budgetHasRoom then (t, none)
    else
      let picked := t.engine.popNextApd freezeDrr (c.pop sent)
      match picked.2 with
      | none => ({ t with engine := picked.1 }, none)
      | some item =>
        let r := picked.1.trySendNextPacket item (answers sent) sent
        match r.2 with
        | some result => ({ t with engine := r.1 }, some result)
        | none => sendBurst freezeDrr deadline c answers n ⟨r.1, t.sent ++ [item.packet]⟩

/-- What a tick leaves behind. -/
structure Ticked where
  engine : PacingEngine
  result : TickResult
  sent : List Packet
  dropped : List Packet

def tickWith (e : PacingEngine) (c : TickClock) (answers : Answers) : Ticked :=
  let deadline := c.start + micros (max e.config.maxTickWorkUs 100)
  let decision := (e.refillBudget c.start).apdStep c.start c.drain
  let shed := decision.1.shedStaleBulkRr c.start deadline c.shed
  let r := Search.orElse (drainReservedPrefix c deadline answers ⟨shed.1, []⟩)
    (sendBurst decision.2.freezeDrr deadline c answers decision.2.effectiveBurst)
  { engine := r.1.engine
    result := r.2.getD (.progress r.1.sent.length)
    sent := r.1.sent
    dropped := shed.2 }

/-! ## The rest of the interface -/

section
variable (e : PacingEngine)

def resetApdRuntimeState : PacingEngine :=
  { e with apd := { e.apd with
      phase := .cooldown
      confirmCounter := 0
      drainEnteredAt := none
      cooldownUntil := none
      rampBurst := e.config.baseMaxBurst
      lastFillRatio := 0 } }

/-- The budget is cut to the number of packets of the cap in either mode. -/
def setConfig (cfg : PacingConfig) (now : Instant) : PacingEngine :=
  let cfg := cfg.sanitize
  let changed := e.apd.cfg ≠ cfg.apd
  let e := { e with
    apd := { e.apd with cfg := cfg.apd, lastPureSpin := false, lastTickUs := 0 }
    backgroundCc := e.backgroundCc.setConfig cfg.backgroundCc }
  let e := if changed then e.resetApdRuntimeState else e
  { e with
    config := cfg
    lastTick := now
    budget := min e.budget cfg.budgetCapPackets
    consecutiveErrors := 0
    nonEmptyPeers := (e.peerQueues.entries.filter fun p => !p.2.isEmpty).length }

def setBackgroundCcConfig (cc : BackgroundCcConfig) : PacingEngine :=
  { e with config := { e.config with backgroundCc := cc }, backgroundCc := e.backgroundCc.setConfig cc }

def removeCcPeer (dest : SocketAddr) : PacingEngine := { e with backgroundCc := e.backgroundCc.removePeer dest }

/-- The queues and everything that was learned go; the settings stay. -/
def resetSessionRuntime (now : Instant) : PacingEngine :=
  let e := resetApdRuntimeState { e with
    controlQ := []
    retransmitQ := []
    peerQueues := ∅
    nonEmptyPeers := 0
    queuedPacketsTotal := 0
    tickSeq := 0
    budget := 0
    droppedPackets := 0
    droppedData := 0
    droppedControlNormal := 0
    droppedControlRetransmit := 0
    consecutiveErrors := 0
    interleaveCounter := 0
    drrCursor := 0
    shedSojourn := 0
    cachedRttRefMs := -1
    backgroundCc := .new e.config.backgroundCc }
  { e with apd := { e.apd with lastPureSpin := false, lastTickUs := 0 }, lastTick := now }

def resetObservabilityCounters : PacingEngine :=
  { e with
    droppedPackets := 0
    droppedData := 0
    droppedControlNormal := 0
    droppedControlRetransmit := 0
    shedSojourn := 0 }

end

/-- A call of the engine. -/
inductive Op where
  | enqueuePeer (pkt : Bytes) (dest : SocketAddr) (rttMs queuingDelayMs : Option ℚ) (now : Instant)
  | enqueueBatch (dest : SocketAddr) (pkts : List Bytes) (rttMs queuingDelayMs : Option ℚ) (now : Nat → Instant)
  | enqueueControl (pkt : Bytes) (dest : SocketAddr) (now : Instant)
  | enqueueRetransmit (pkt : Bytes) (dest : SocketAddr) (now : Instant)
  | removePeer (dest : SocketAddr)
  | setConfig (cfg : PacingConfig) (now : Instant)
  | resetObservabilityCounters
  | onCcSample (dest : SocketAddr) (qdMs lossEwma : ℚ)
  | tick (c : TickClock) (answers : Answers)

inductive Fate where
  | accepted
  | sent
  | dropped
  | removed
  deriving DecidableEq

abbrev Move := Fate × Packet

def step (e : PacingEngine) : Op → PacingEngine × List Move
  | .enqueuePeer pkt dest rttMs qdMs now =>
    let r := e.enqueuePeerWithHints pkt dest rttMs qdMs now
    (r.1, (.accepted, (pkt, dest)) :: r.2.2.map (Prod.mk .dropped))
  | .enqueueBatch dest pkts rttMs qdMs now =>
    let r := e.tryEnqueuePeerBatch dest pkts rttMs qdMs now
    (r.1, if r.2 then (pkts.map fun pkt => (pkt, dest)).map (Prod.mk .accepted) else [])
  | .enqueueControl pkt dest now =>
    let r := e.enqueueControl pkt dest now
    (r.1, (.accepted, (pkt, dest)) :: r.2.2.map (Prod.mk .dropped))
  | .enqueueRetransmit pkt dest now =>
    let r := e.enqueueRetransmit pkt dest now
    (r.1, (.accepted, (pkt, dest)) :: r.2.2.map (Prod.mk .dropped))
  | .removePeer dest =>
    let r := e.removePeer dest
    (r.1, r.2.map (Prod.mk .removed))
  | .setConfig cfg now => (e.setConfig cfg now, [])
  | .resetObservabilityCounters => (e.resetObservabilityCounters, [])
  | .onCcSample dest qdMs lossEwma => ({ e with backgroundCc := e.backgroundCc.onCcSample dest qdMs lossEwma }, [])
  | .tick c answers =>
    let r := e.tickWith c answers
    (r.engine, r.sent.map (Prod.mk .sent) ++ r.dropped.map (Prod.mk .dropped))

end PacingEngine

end ConnectUnit.Pacing
