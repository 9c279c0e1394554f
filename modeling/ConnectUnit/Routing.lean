import ConnectUnit.Route
import ConnectUnit.Lib.Machine

/-!
# The routing table

Routes by virtual IP, with four indexes kept by hand: by endpoint, by secondary path endpoint, by node id and by the
32-bit form of the virtual IP.
-/

namespace ConnectUnit

structure RoutingTable where
  table : HashMap String RouteEntry
  epToVip : HashMap SocketAddr String
  pathEpToVip : HashMap SocketAddr String
  nodeToVip : HashMap String String
  vipU32ToVip : HashMap UInt32 String
  revision : UInt64
  tombstones : HashMap String (UInt64 × Instant)
  lastTombstonePrune : Instant
  failover : FailoverTuning
  congestion : CongestionTuning
  routingEwma : RoutingEwmaTuning

namespace RoutingTable

variable (t : RoutingTable) (vip : String) (ep : SocketAddr) (now : Instant)

def new : RoutingTable where
  table := ∅
  epToVip := ∅
  pathEpToVip := ∅
  nodeToVip := ∅
  vipU32ToVip := ∅
  revision := 0
  tombstones := ∅
  lastTombstonePrune := now
  failover := {}
  congestion := {}
  routingEwma := {}

def tombstoneTtl : Nat := secs 300
def tombstoneMinRetention : Nat := secs 600
def tombstonePruneInterval : Nat := secs 60

/-! ## Path index -/

def clearPathEpIndexForVip : RoutingTable :=
  { t with pathEpToVip := t.pathEpToVip.retain fun _ v => v ≠ vip }

def secondaryEndpoints (e : RouteEntry) : List SocketAddr :=
  e.pathEndpoints.reduceOption.filter (· ≠ e.endpoint)

def rebuildPathEpIndexForVip : RoutingTable :=
  let t := t.clearPathEpIndexForVip vip
  match t.table.lookup vip with
  | none => t
  | some e => { t with pathEpToVip := (secondaryEndpoints e).foldl (fun m ep => m.insert ep vip) t.pathEpToVip }

/-! ## Adding and removing routes -/

def pruneTombstones (retainVips : List String) (now : Instant) : RoutingTable :=
  { t with
    tombstones := t.tombstones.retain fun vip (_, created) =>
      vip ∈ retainVips || now - created < tombstoneMinRetention || now - created < tombstoneTtl
    lastTombstonePrune := now }

def remove : RoutingTable :=
  let t := t.clearPathEpIndexForVip vip
  let t := match t.table.lookup vip with
    | some entry =>
      { t with
        table := t.table.erase vip
        epToVip := if t.epToVip.lookup entry.endpoint = some vip then t.epToVip.erase entry.endpoint else t.epToVip
        nodeToVip := if entry.nodeId ≠ "" then t.nodeToVip.erase entry.nodeId else t.nodeToVip }
    | none => t
  { t with
    vipU32ToVip := match ipv4ToU32 vip with
      | some u => t.vipU32ToVip.erase u
      | none => t.vipU32ToVip
    revision := t.revision + 1
    tombstones := t.tombstones.insert vip (t.revision + 1, now) }

inductive Alias where
  | none
  | reject
  | removePrev (prevVip : String)
  | dropEp
  deriving DecidableEq, Repr

def aliasDecision (prevVip prevNode incomingNode : String) (prevState : RouteState) : Alias :=
  let conflictingIdentity : Bool := prevNode ≠ "" && incomingNode ≠ "" && prevNode ≠ incomingNode
  let ambiguousIdentity : Bool := prevNode ≠ "" && incomingNode = ""
  let allowAmbiguousRebind := ambiguousIdentity && (prevState = .stale || prevState = .degraded)
  if conflictingIdentity || (ambiguousIdentity && !allowAmbiguousRebind) then .reject
  else if incomingNode ≠ "" ∧ prevNode = incomingNode then .removePrev prevVip
  else if prevNode = "" ∧ incomingNode ≠ "" then .removePrev prevVip
  else .dropEp

def aliasOf (nodeId : Option String) : Alias :=
  match t.epToVip.lookup ep with
  | .none => .none
  | some prevVip =>
    if prevVip = vip then .none
    else
      let prevNode := ((t.table.lookup prevVip).map (·.nodeId)).getD ""
      let prevState := ((t.table.lookup prevVip).map (·.state)).getD .candidate
      aliasDecision prevVip prevNode (nodeId.getD "") prevState

def placedEntry (old : Option RouteEntry) (ep : SocketAddr) (nodeId : Option String) (qualityInitial : Int)
    (now : Instant) : RouteEntry :=
  let entry := old.getD (RouteEntry.new ep qualityInitial now)
  { entry with
    endpoint := ep
    pathSet := match entry.pathSet with
      | some ps => some (ps.setDirect ep now)
      | none => some (PathSet.new ep now)
    lastSeen := now
    nodeId := nodeId.getD entry.nodeId }

def isChange (old : Option RouteEntry) (ep : SocketAddr) (nodeId : Option String) : Bool :=
  match old with
  | none => true
  | some o => o.endpoint ≠ ep || nodeId.any fun n => o.nodeId ≠ n

def place (nodeId : Option String) (now : Instant) : RoutingTable :=
  let old := t.table.lookup vip
  let entry := placedEntry old ep nodeId t.routingEwma.qualityInitial now
  let revision := if isChange old ep nodeId then t.revision + 1 else t.revision
  let entry := if isChange old ep nodeId then { entry with lastModifiedRevision := revision } else entry
  let epToVip := match old with
    | some o => t.epToVip.erase o.endpoint
    | none => t.epToVip
  let nodeToVip := match old with
    | some o => if o.nodeId ≠ "" ∧ entry.nodeId ≠ o.nodeId then t.nodeToVip.erase o.nodeId else t.nodeToVip
    | none => t.nodeToVip
  let t := { t with
    table := t.table.insert vip entry
    epToVip := epToVip.insert ep vip
    nodeToVip := if entry.nodeId ≠ "" then nodeToVip.insert entry.nodeId vip else nodeToVip
    vipU32ToVip := match ipv4ToU32 vip with
      | some u => t.vipU32ToVip.insert u vip
      | none => t.vipU32ToVip
    revision := revision
    tombstones := t.tombstones.erase vip }
  t.rebuildPathEpIndexForVip vip

def pruneIfDue : RoutingTable :=
  if now - t.lastTombstonePrune ≥ tombstonePruneInterval then t.pruneTombstones [] now else t

def update (nodeId : Option String) (now : Instant) : RoutingTable :=
  let t := t.pruneIfDue now
  match t.aliasOf vip ep nodeId with
  | .none => t.place vip ep nodeId now
  | .reject => t
  | .removePrev prevVip => (t.remove prevVip now).place vip ep nodeId now
  | .dropEp => RoutingTable.place { t with epToVip := t.epToVip.erase ep } vip ep nodeId now

def removeAll (vips : List String) (now : Instant) : RoutingTable :=
  vips.foldl (fun t vip => t.remove vip now) t

def outsideSubnet (anchor : UInt32) (pre : Nat) (vip : String) : Bool :=
  match ipv4ToU32 vip with
  | some ip => !sameSubnet anchor ip pre
  | none => true

def drainOne (acc : RoutingTable × List (String × SocketAddr × String)) (vip : String) :
    RoutingTable × List (String × SocketAddr × String) :=
  match acc.1.table.lookup vip with
  | some entry => (acc.1.remove vip now, acc.2 ++ [(vip, entry.endpoint, entry.nodeId)])
  | none => acc

def drainVipsOutsideSubnet (myVip : String) (pre : Nat) (order : List String) (now : Instant) :
    RoutingTable × List (String × SocketAddr × String) :=
  match ipv4ToU32 myVip with
  | none => (t, [])
  | some anchor =>
    let victims := order.filter fun vip => (t.table.lookup vip).isSome && outsideSubnet anchor pre vip
    victims.foldl (drainOne now) (t, [])

def evictOldStale (staleAge : Nat) (order : List String) (now : Instant) : RoutingTable :=
  t.removeAll (order.filter fun vip =>
    (t.table.lookup vip).any fun e => e.state = .stale && now - e.lastSeen > staleAge) now

/-! ## Lookups -/

def lookup : Option SocketAddr := (t.table.lookup vip).map (·.endpoint)

def lookupVipByU32 (u : UInt32) : Option String := t.vipU32ToVip.lookup u

def lookupByVipU32 (u : UInt32) : Option SocketAddr := (t.vipU32ToVip.lookup u).bind t.lookup

def lookupEpByNode (nodeId : String) : Option SocketAddr :=
  (t.nodeToVip.lookup nodeId).bind t.lookup

def vipForDataEndpoint (ignoreRelayEp : Option SocketAddr) : Option String :=
  if ignoreRelayEp = some ep then none else (t.epToVip.lookup ep).or (t.pathEpToVip.lookup ep)

/-! ## Samples and marks on one route -/

def onEntry (f : RouteEntry → RouteEntry) : RoutingTable :=
  { t with table := t.table.modify vip f }

def onVip (vip : Option String) (f : RouteEntry → RouteEntry) : RoutingTable :=
  match vip with
  | some vip => t.onEntry vip f
  | none => t

def noteRtt (fromEp : SocketAddr) (rttMs : Int) (ignoreRelayEp : Option SocketAddr) (now : Instant) : RoutingTable :=
  t.onVip (t.vipForDataEndpoint fromEp ignoreRelayEp) fun e =>
    e.noteRtt fromEp rttMs t.failover t.congestion t.routingEwma now

def noteFwdOwd (fromEp : SocketAddr) (owdSampleMs rttMs : ℚ)
    (ignoreRelayEp : Option SocketAddr) (now : Instant) : RoutingTable :=
  t.onVip (t.vipForDataEndpoint fromEp ignoreRelayEp) fun e =>
    if e.isActivePath fromEp then (e.updateOwdBaseOnSample owdSampleMs rttMs now t.congestion).1 else e

def noteFail (fromEp : SocketAddr) (ignoreRelayEp : Option SocketAddr) (now : Instant) : RoutingTable :=
  t.onVip (t.vipForDataEndpoint fromEp ignoreRelayEp) fun e => e.noteFail fromEp t.routingEwma now

def noteBytesReceived (fromEp : SocketAddr) (bytes : Nat) (advancedScoring : Bool)
    (ignoreRelayEp : Option SocketAddr) (now : Instant) : RoutingTable :=
  t.onVip (t.vipForDataEndpoint fromEp ignoreRelayEp) fun e =>
    e.noteBytesReceived fromEp bytes advancedScoring t.routingEwma now

def noteBytesReceivedForVipU32 (dstVipU32 : UInt32) (bytes : Nat) (advancedScoring : Bool)
    (now : Instant) : RoutingTable :=
  t.onVip (t.lookupVipByU32 dstVipU32) fun e =>
    e.noteBytesReceived e.endpoint bytes advancedScoring t.routingEwma now

def noteBytesReceivedBatch (batch : List (SocketAddr × Nat)) (advancedScoring : Bool)
    (ignoreRelayEp : Option SocketAddr) (now : Instant) : RoutingTable :=
  batch.foldl (fun t (fromEp, bytes) => t.noteBytesReceived fromEp bytes advancedScoring ignoreRelayEp now) t

def noteRelayFallback : RoutingTable :=
  t.onEntry vip fun e => e.noteRelayFallback t.failover now

def beginTransition (oldEp : SocketAddr) (oldKind : PathKind) (window : Nat) (now : Instant) : RoutingTable :=
  t.onEntry vip fun e => e.beginTransition oldEp oldKind window now

def endTransition : RoutingTable := t.onEntry vip RouteEntry.endTransition

def applyLastSeenBatch (batch : List (SocketAddr × Instant)) : RoutingTable :=
  batch.foldl (fun t (ep, ts) => t.onVip (t.epToVip.lookup ep) fun e => { e with lastSeen := ts }) t

def promoteStaleIfNeeded : RoutingTable :=
  t.onVip (t.epToVip.lookup ep) fun e =>
    if e.state = .stale then { e with lastSeen := now, state := .candidate } else e

def touchEndpoint : RoutingTable :=
  (t.onVip (t.epToVip.lookup ep) fun e => { e with lastSeen := now }).promoteStaleIfNeeded ep now

def markStaleIfIdle (idleThreshold : Nat) (now : Instant) : RoutingTable :=
  { t with
    table := t.table.mapVals fun e =>
      if now - e.lastSeen > idleThreshold ∧ e.state ≠ .stale then { e with state := .stale } else e }

/-! ## Relay paths -/

def clearRelayPath : RoutingTable :=
  let t := t.onEntry vip fun e => { e with
    pathSet := e.pathSet.map fun ps => { ps with
      path1 := none
      activeIdx := if ps.activeIdx = 1 then 0 else ps.activeIdx
      switchCandidateIdx := none
      switchCandidateSince := none } }
  t.rebuildPathEpIndexForVip vip

def stampRelayHop (destVip : String) (hop : SocketAddr) (now : Instant) : RoutingTable :=
  match t.table.lookup destVip with
  | none => t
  | some _ =>
    let t := t.onEntry destVip fun e => { e with
      pathSet := some ((e.pathSet.getD (PathSet.new e.endpoint now)).setRelay hop now) }
    t.rebuildPathEpIndexForVip destVip

/-! ## Relay selection -/

def isEndpointStale : Bool :=
  ((t.epToVip.lookup ep).bind t.table.lookup).any fun e => e.state = .stale

def hopUsable (destVip : Option String) (myVip : String) (exclude : Option SocketAddr) : Bool :=
  if exclude = some ep then false
  else
    match t.epToVip.lookup ep with
    | none => false
    | some hopVip =>
      if hopVip = myVip then false
      else if destVip.any fun dest => hopVip = dest || (t.table.lookup dest).any (·.endpoint = ep) then false
      else
        match t.table.lookup hopVip with
        | none => false
        | some entry => if entry.failStreak ≥ 3 then false else !entry.shouldRelay t.failover

def stickyRelayHop (destVip : String) : Option SocketAddr := do
  let entry ← t.table.lookup destVip
  let ps ← entry.pathSet
  let relay ← ps.path1
  some relay.endpoint

structure HopCandidate where
  vip : String
  endpoint : SocketAddr
  quality : Int
  rttSort : Option ℚ

def HopCandidate.of (e : RouteEntry) : HopCandidate where
  vip := vip
  endpoint := e.endpoint
  quality := e.qualityScore
  rttSort := if e.smoothedRttMs < 0 then none else some e.smoothedRttMs

def rttLt : Option ℚ → Option ℚ → Bool
  | some a, some b => a < b
  | some _, none => true
  | none, _ => false

def HopCandidate.replaces (c best : HopCandidate) : Bool :=
  c.quality > best.quality ||
    (c.quality = best.quality && (rttLt c.rttSort best.rttSort || (c.rttSort = best.rttSort && c.vip < best.vip)))

def bestUsablePeerHop (destVip : Option String) (myVip : String) (exclude : Option SocketAddr)
    (order : List String) : Option SocketAddr :=
  let candidates := order.filterMap fun vip => (t.table.lookup vip).bind fun entry =>
    if vip = myVip || destVip = some vip || !t.hopUsable entry.endpoint destVip myVip exclude then none
    else some (HopCandidate.of vip entry)
  (candidates.foldl (fun best c =>
    match best with
    | none => some c
    | some b => if c.replaces b then some c else some b) none).map (·.endpoint)

inductive RelaySelection where
  | hop (ep : SocketAddr)
  | none
  deriving DecidableEq, Repr

def selectRelayEndpoint (destVip myVip : String) (exclude : Option SocketAddr)
    (order : List String) : RelaySelection :=
  match (t.stickyRelayHop destVip).filter fun sticky => t.hopUsable sticky (some destVip) myVip exclude with
  | some sticky => .hop sticky
  | .none =>
    match t.bestUsablePeerHop (some destVip) myVip exclude order with
    | some ep => .hop ep
    | .none => .none

/-! ## Runs -/

inductive Op where
  | update (vip : String) (ep : SocketAddr) (nodeId : Option String)
  | remove (vip : String)
  | drainVipsOutsideSubnet (myVip : String) (pre : Nat) (order : List String)
  | evictOldStale (staleAge : Nat) (order : List String)
  | stampRelayHop (destVip : String) (hop : SocketAddr)
  | clearRelayPath (vip : String)
  | noteRtt (fromEp : SocketAddr) (rttMs : Int) (ignoreRelayEp : Option SocketAddr)
  | noteFwdOwd (fromEp : SocketAddr) (owdSampleMs rttMs : ℚ) (ignoreRelayEp : Option SocketAddr)
  | noteFail (fromEp : SocketAddr) (ignoreRelayEp : Option SocketAddr)
  | noteBytesReceived (fromEp : SocketAddr) (bytes : Nat) (advancedScoring : Bool)
      (ignoreRelayEp : Option SocketAddr)
  | noteBytesReceivedForVipU32 (dstVipU32 : UInt32) (bytes : Nat) (advancedScoring : Bool)
  | noteBytesReceivedBatch (batch : List (SocketAddr × Nat)) (advancedScoring : Bool)
      (ignoreRelayEp : Option SocketAddr)
  | noteRelayFallback (vip : String)
  | beginTransition (vip : String) (oldEp : SocketAddr) (oldKind : PathKind) (window : Nat)
  | endTransition (vip : String)
  | applyLastSeenBatch (batch : List (SocketAddr × Instant))
  | touchEndpoint (ep : SocketAddr)
  | promoteStaleIfNeeded (ep : SocketAddr)
  | markStaleIfIdle (idleThreshold : Nat)
  | pruneTombstones (retainVips : List String)
  | setTuning (failover : FailoverTuning) (congestion : CongestionTuning) (routingEwma : RoutingEwmaTuning)

def apply : Op → RoutingTable
  | .update vip ep nodeId => t.update vip ep nodeId now
  | .remove vip => t.remove vip now
  | .drainVipsOutsideSubnet myVip pre order => (t.drainVipsOutsideSubnet myVip pre order now).1
  | .evictOldStale staleAge order => t.evictOldStale staleAge order now
  | .stampRelayHop destVip hop => t.stampRelayHop destVip hop now
  | .clearRelayPath vip => t.clearRelayPath vip
  | .noteRtt fromEp rttMs ignore => t.noteRtt fromEp rttMs ignore now
  | .noteFwdOwd fromEp owd rttMs ignore => t.noteFwdOwd fromEp owd rttMs ignore now
  | .noteFail fromEp ignore => t.noteFail fromEp ignore now
  | .noteBytesReceived fromEp bytes adv ignore => t.noteBytesReceived fromEp bytes adv ignore now
  | .noteBytesReceivedForVipU32 dst bytes adv => t.noteBytesReceivedForVipU32 dst bytes adv now
  | .noteBytesReceivedBatch batch adv ignore => t.noteBytesReceivedBatch batch adv ignore now
  | .noteRelayFallback vip => t.noteRelayFallback vip now
  | .beginTransition vip oldEp oldKind window => t.beginTransition vip oldEp oldKind window now
  | .endTransition vip => t.endTransition vip
  | .applyLastSeenBatch batch => t.applyLastSeenBatch batch
  | .touchEndpoint ep => t.touchEndpoint ep now
  | .promoteStaleIfNeeded ep => t.promoteStaleIfNeeded ep now
  | .markStaleIfIdle idle => t.markStaleIfIdle idle now
  | .pruneTombstones retainVips => t.pruneTombstones retainVips now
  | .setTuning fo cg ewma => { t with failover := fo, congestion := cg, routingEwma := ewma }

def step (op : Instant × Op) : RoutingTable × List Empty := (t.apply op.1 op.2, [])

end RoutingTable

end ConnectUnit
