import ConnectUnit.AdvancedTuning
import ConnectUnit.Inbound
import ConnectUnit.Lib.Outstanding

/-!
# Predictive healing

When a route seems to fail, the engine pings the ways to the peer and remembers the peer's address as one that is
being healed, which keeps further heals of it away.
-/

open Machine (run trace)

namespace ConnectUnit

/-! ## Candidates -/

def PathSet.controlRaceEndpoints (ps : PathSet) : List SocketAddr :=
  let live := (ps.paths.filterMap id).filter (·.consecutiveFailures < 5)
  let first := match ps.activeEndpointKind with
    | some (active, _) => if live.any (·.endpoint = active) then [active] else []
    | none => []
  live.foldl (fun out p => if 3 ≤ out.length ∨ p.endpoint ∈ out then out else out ++ [p.endpoint]) first

namespace RoutingTable

def controlRaceEndpointsForEndpoint (t : RoutingTable) (ep : SocketAddr) (ignoreRelayEp : Option SocketAddr) :
    List SocketAddr :=
  match (t.vipForDataEndpoint ep ignoreRelayEp).bind t.table.lookup with
  | none => [ep]
  | some entry =>
    match entry.pathSet.map PathSet.controlRaceEndpoints with
    | some (raced :: more) => raced :: more
    | _ => [entry.endpoint]

/-- What `note_fail` returns: the route of the endpoint, and whether it has failed often enough to be healed. -/
def noteFailResult (t : RoutingTable) (fromEp : SocketAddr) (ignoreRelayEp : Option SocketAddr) (now : Instant) :
    Option String × Bool :=
  match t.vipForDataEndpoint fromEp ignoreRelayEp with
  | none => (none, false)
  | some vip =>
    match (t.noteFail fromEp ignoreRelayEp now).table.lookup vip with
    | none => (none, false)
    | some entry => (some vip, 3 ≤ entry.failStreak)

end RoutingTable

/-! ## State -/

structure FeatureFlags where
  predictiveHeal : Bool
  multipathCore : Bool
  controlPathRace : Bool

abbrev PingId := { id : UInt64 // id ≠ 0 }

theorem max_one_ne_zero {x : UInt64} : max x 1 ≠ 0 := by
  change (if x ≤ 1 then 1 else x) ≠ 0
  split
  next => decide
  next h =>
    rintro rfl
    exact h (by decide)

def PingId.next (id : PingId) : PingId := ⟨max (id.val + 1) 1, max_one_ne_zero⟩

/-- The engine with what it keeps for its own pings. -/
structure Prober (γ : Type) where
  inbound : Inbound γ
  healCooldownUntil : HashMap String Instant
  probeMissByEp : HashMap SocketAddr Nat
  nextPingId : PingId
  featureFlags : FeatureFlags
  engineLimits : Advanced.EngineLimitsTuning

structure Sending where
  draws : List UInt64
  now : Instant
  epochMs : Nat
  sent : Bool

structure SentPing where
  id : UInt64
  ping : PendingPing
  sentAt : Instant
  deriving DecidableEq

structure HealAttempt where
  now : Instant
  send : Nat → Sending
  after : Instant

namespace Prober

section
variable {γ : Type} (s : Prober γ)

def pings : HashMap UInt64 PendingPing := s.inbound.pendingPings

def vips : List String := s.inbound.pendingHealVips

def addPing (id : UInt64) (p : PendingPing) : Prober γ :=
  { s with inbound := { s.inbound with pendingPings := s.inbound.pendingPings.insert id p } }

def dropPing (id : UInt64) : Prober γ :=
  { s with inbound := { s.inbound with pendingPings := s.inbound.pendingPings.erase id } }

variable (vip : String) (now : Instant)

def addHeal : Prober γ :=
  { s with inbound := { s.inbound with pendingHealVips := vip :: s.inbound.pendingHealVips } }

def dropHeal : Prober γ :=
  { s with inbound := { s.inbound with pendingHealVips := s.inbound.pendingHealVips.filter (· ≠ vip) } }

def coolDown : Prober γ :=
  { s with healCooldownUntil := s.healCooldownUntil.insert vip (now + millis s.engineLimits.healCooldownMs) }

def onRouting (f : RoutingTable → RoutingTable) : Prober γ := { s with inbound := s.inbound.onRouting f }

/-! ## Sending pings -/

/-- An id that no ping has, and the next state of the counter; `none` if all ids are taken, when the loop
of the source does not end. -/
def allocatePingId (draws : List UInt64) : Option (UInt64 × PingId) :=
  match (draws.take 16).find? fun id => id ≠ 0 && (s.pings.lookup id).isNone with
  | some id => some (id, s.nextPingId)
  | none =>
    (Outstanding.firstFree PingId.next (fun id => (s.pings.lookup id.val).isSome) (s.pings.size + 1)
      s.nextPingId).map fun r => (r.1.val, r.2)

def tryPing (p : PendingPing) (w : Sending) : Prober γ × List SentPing :=
  match s.allocatePingId w.draws with
  | none => (s, [])
  | some (id, next) =>
    let s := { s with nextPingId := next }.addPing id p
    if w.sent then (s, [⟨id, p, w.now⟩]) else (s.dropPing id, [])

def healPing (send : Nat → Sending) (s : Prober γ) (c : SocketAddr × Nat) : Prober γ × List SentPing :=
  let w := send c.2
  s.tryPing ⟨c.1, false, w.now + millis 750, w.epochMs, .heal vip c.1⟩ w

def probePing (epochMs : Nat) (send : Nat → Sending) (s : Prober γ) (c : SocketAddr × Nat) :
    Prober γ × List SentPing :=
  s.tryPing ⟨c.1, false, now + millis 2000, epochMs, .probe⟩ (send c.2)

def sendProbePingsTo (endpoints : List SocketAddr) (now : Instant) (epochMs : Nat) (send : Nat → Sending) :
    Prober γ × List SentPing :=
  (run (probePing now epochMs send) s endpoints.zipIdx,
    trace (probePing now epochMs send) s endpoints.zipIdx)

def pingPeer (dest : SocketAddr) (timeoutMs : Nat) (w : Sending) : Prober γ × List SentPing :=
  match s.allocatePingId w.draws with
  | none => (s, [])
  | some (id, next) =>
    let s := { s with nextPingId := next }
    if !w.sent then (s, [])
    else
      let p : PendingPing := ⟨dest, true, w.now + millis (min (max timeoutMs 50) 60000), w.epochMs, .user⟩
      (s.addPing id p, [⟨id, p, w.now⟩])

/-! ## Healing -/

def controlRaceDests (primary : SocketAddr) : List SocketAddr :=
  if !(s.featureFlags.multipathCore && s.featureFlags.controlPathRace) then [primary]
  else
    let dests := s.inbound.core.routing.controlRaceEndpointsForEndpoint primary none
    if dests = [] then [primary] else dests

def pendingHealCount : Nat :=
  (s.pings.entries.filter fun e => match e.2.kind with
    | .heal .. => true
    | _ => false).length

def pingCandidates (h : HealAttempt) (candidates : List SocketAddr) : Prober γ × List SentPing :=
  let probes := (candidates.take 3).zipIdx
  let sent := trace (healPing vip h.send) s probes
  let s := run (healPing vip h.send) s probes
  if sent.isEmpty then ((s.dropHeal vip).coolDown vip h.after, []) else (s, sent)

def spawnPredictiveHeal (h : HealAttempt) : Prober γ × List SentPing :=
  if !s.featureFlags.predictiveHeal then (s, [])
  else if (s.healCooldownUntil.lookup vip).any (h.now < ·) then (s, [])
  else if s.engineLimits.maxPendingHealProbes ≤ s.pendingHealCount then (s, [])
  else if vip ∈ s.vips then (s, [])
  else
    let s := s.addHeal vip
    match s.inbound.core.routing.table.lookup vip with
    | none => (s.dropHeal vip, [])
    | some entry =>
      let candidates := s.controlRaceDests entry.endpoint
      if candidates = [] then (s.dropHeal vip, []) else s.pingCandidates vip h candidates

/-! ## Answers -/

def answered (body : Bytes) (a : Arrival) : Option PendingPing :=
  ((decodePongPayload body).bind fun r => s.pings.lookup r.1).filter (·.answeredBy a.fromEp)

def handlePongBody (body : Bytes) (a : Arrival) : Prober γ :=
  let t := { s with inbound := s.inbound.handlePongBody body a }
  match s.answered body a with
  | none => t
  | some p =>
    let t := { t with probeMissByEp := t.probeMissByEp.erase a.fromEp }
    match p.kind with
    | .heal vip _ => if vip ∈ s.vips then { t with healCooldownUntil := t.healCooldownUntil.erase vip } else t
    | _ => t

/-! ## Expiry -/

def expirePing (r : Prober γ × List SocketAddr) (k : UInt64) : Prober γ × List SocketAddr :=
  match r.1.pings.lookup k with
  | none => r
  | some p =>
    let s := r.1.dropPing k
    match p.kind with
    | .user => (s, r.2)
    | .heal vip _ => (if s.inbound.healRemains vip then s else (s.dropHeal vip).coolDown vip now, r.2)
    | .probe =>
      let misses := min ((s.probeMissByEp.lookup p.dest).getD 0 + 1) (2 ^ 32 - 1)
      ({ s with probeMissByEp := s.probeMissByEp.insert p.dest misses },
        if s.engineLimits.probeMissFailThreshold ≤ misses then r.2.insert p.dest else r.2)

def noteFailed (r : Prober γ × List String) (dest : SocketAddr) : Prober γ × List String :=
  let fail := r.1.inbound.core.routing.noteFailResult dest none now
  (r.1.onRouting fun t => t.noteFail dest none now,
    if r.1.featureFlags.predictiveHeal && fail.2 then r.2 ++ fail.1.toList else r.2)

def expired (order : IterOrder) : List UInt64 :=
  ((order.arrange s.pings.entries).filter (·.2.deadline ≤ now)).map (·.1)

def expirePendingPings (order failOrder : IterOrder) : Prober γ × List String :=
  let r := (s.expired now order).foldl (expirePing now) (s, [])
  (failOrder.arrange r.2).foldl (noteFailed now) (r.1, [])

def pingWatchdog (order failOrder : IterOrder) (heals : Nat → HealAttempt) : Prober γ × List SentPing :=
  let r := s.expirePendingPings now order failOrder
  let heal := fun (s : Prober γ) (c : String × Nat) => s.spawnPredictiveHeal c.1 (heals c.2)
  (run heal r.1 r.2.zipIdx, trace heal r.1 r.2.zipIdx)

/-! ## Routes and sessions -/

def onPeerRouteRemoved : Prober γ :=
  { s.dropHeal vip with healCooldownUntil := s.healCooldownUntil.erase vip }

def resetSession : Prober γ :=
  { s with
    inbound := { s.inbound with
      core := s.inbound.core.resetSession now
      fecDecoders := ∅
      pmtud := .new
      pendingPings := ∅
      pendingHealVips := []
      reliableSeen := []
      reliableSeenTimeline := [] }
    healCooldownUntil := ∅
    probeMissByEp := ∅ }

inductive Event where
  | spawnPredictiveHeal (vip : String) (h : HealAttempt)
  | pong (body : Bytes) (a : Arrival)
  | pingWatchdog (now : Instant) (order failOrder : IterOrder) (heals : Nat → HealAttempt)
  | pingPeer (dest : SocketAddr) (timeoutMs : Nat) (w : Sending)
  | sendProbePingsTo (endpoints : List SocketAddr) (now : Instant) (epochMs : Nat) (send : Nat → Sending)
  | routing (now : Instant) (op : RoutingTable.Op)
  | onPeerRouteRemoved (vip : String)
  | resetSession (now : Instant)
  | configure (flags : FeatureFlags) (limits : Advanced.EngineLimitsTuning)

def step (s : Prober γ) : Event → Prober γ × List SentPing
  | .spawnPredictiveHeal vip h => s.spawnPredictiveHeal vip h
  | .pong body a => (s.handlePongBody body a, [])
  | .pingWatchdog now order failOrder heals => s.pingWatchdog now order failOrder heals
  | .pingPeer dest timeoutMs w => s.pingPeer dest timeoutMs w
  | .sendProbePingsTo endpoints now epochMs send => s.sendProbePingsTo endpoints now epochMs send
  | .routing now op => (s.onRouting fun t => t.apply now op, [])
  | .onPeerRouteRemoved vip => (s.onPeerRouteRemoved vip, [])
  | .resetSession now => (s.resetSession now, [])
  | .configure flags limits => ({ s with featureFlags := flags, engineLimits := limits }, [])

end

end Prober

end ConnectUnit
