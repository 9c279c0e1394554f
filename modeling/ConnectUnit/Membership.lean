import ConnectUnit.ClaimGossip
import ConnectUnit.Dispatch

/-!
# Membership of one node

The handlers of the membership messages: join hellos and their answers, claim digests, leaves, and the timers that
send and prune.
-/

namespace ConnectUnit

/-- What the engine takes from its libraries: addresses as text and the size of a digest as JSON. -/
structure WireText where
  addrToString : SocketAddr → String
  parseAddr : String → Option SocketAddr
  digestLen : String → Nat → List ClaimRecord → List LeaveTombstone → Nat

/-- What a handler reads besides its arguments: the clocks and the order of the hash maps. -/
structure Env where
  now : Instant
  tsMs : Nat
  pick : Nat
  order : IterOrder

/-! ## Messages -/

def wireProtocolVersion : Nat := 8

structure LeaveItem where
  nodeId : String
  vip : String
  vipEpoch : Nat
  deriving DecidableEq, Repr

structure GossipJson where
  fromNode : String
  leaves : Option (List LeaveItem)
  claims : Option (List ClaimRecord)
  deriving DecidableEq, Repr

structure LeaveJson extends LeaveItem where
  eventId : String
  deriving DecidableEq, Repr

structure JoinJson where
  protoVer : Option Nat
  nodeId : String
  vip : String
  vipEpoch : Nat
  pre : Option Nat
  deriving DecidableEq, Repr

structure Body (J : Type) where
  len : Nat
  json : Option J
  deriving DecidableEq, Repr

structure Member where
  core : Engine
  claimMap : ClaimMap
  leaveTombs : Marks
  fightSuppress : Marks
  msmdSeen : List String
  msmdTimeline : List (Instant × String)
  joinRateLimiter : ControlRateLimiter
  joinIpRateLimiter : ControlRateLimiter
  /-- A join waits for its answer, and whether anyone still listens for it. -/
  joinTx : Option Bool
  joiner : Bool
  pendingClaimGossip : Bool
  claimGossipDigestCursor : Nat
  claimGossipFanoutCursor : Nat
  vipRerollRetryAfter : Option Instant
  msynBodyMax : Nat

inductive MemberOutput where
  | claimGossip (dest : SocketAddr) (body : Body GossipJson)
  | leave (dest : SocketAddr) (msg : LeaveJson)
  deriving DecidableEq

namespace Member

def new (core : Engine) (msynBodyMax : Nat) (now : Instant) : Member where
  core := core
  claimMap := ∅
  leaveTombs := ∅
  fightSuppress := ∅
  msmdSeen := []
  msmdTimeline := []
  joinRateLimiter := .new 8 4 now
  joinIpRateLimiter := .new 32 16 now
  joinTx := none
  joiner := false
  pendingClaimGossip := false
  claimGossipDigestCursor := 0
  claimGossipFanoutCursor := 0
  vipRerollRetryAfter := none
  msynBodyMax := max 4096 (min msynBodyMax 524288)

def ownClaim (m : Member) : ClaimRecord := ⟨m.core.myNodeId, m.core.myVip, m.core.vipEpoch, []⟩

/-! ## Events already seen -/

def maxMsmdCache : Nat := 4096

def forgetOldest : List (Instant × String) → List String → List (Instant × String) × List String
  | [], seen => ([], seen)
  | (ts, id) :: timeline, seen =>
    if seen.length ≥ maxMsmdCache then forgetOldest timeline (seen.erase id) else ((ts, id) :: timeline, seen)

def forgetExpired (now : Instant) : List (Instant × String) → List String → List (Instant × String) × List String
  | [], seen => ([], seen)
  | (ts, id) :: timeline, seen =>
    if now - ts < secs 120 then ((ts, id) :: timeline, seen) else forgetExpired now timeline (seen.erase id)

def markMsmdSeen (m : Member) (eventId : String) (now : Instant) : Member × Bool :=
  if eventId ∈ m.msmdSeen then (m, false)
  else
    let r := forgetExpired now m.msmdTimeline m.msmdSeen
    let r := forgetOldest r.1 r.2
    ({ m with msmdTimeline := r.1 ++ [(now, eventId)], msmdSeen := r.2 ++ [eventId] }, true)

section
variable (P : Primitives)

def acceptWireClaimVip (m : Member) (vip : String) (env : Env) : Bool := m.core.acceptWireClaimVip P vip env.pick

/-! ## The local address -/

def floatunitSubnetBaseVip (key : Key) : String :=
  let p := deriveFloatunitSubnet24 P key
  dotted p.1.toNat p.2.1.toNat p.2.2.toNat 1

def occupiedVipsForReroll (m : Member) (contested : String) (vip : String) : Bool :=
  m.claimMap.entries.any (·.2.vip = vip) || (m.core.routing.table.lookup vip).isSome || vip = m.core.myVip ||
    (contested ≠ "" && vip = contested)

def applyLocalVipChange (m : Member) (newVip : String) (env : Env) : Member × Bool :=
  if newVip = "" || newVip = m.core.myVip then (m, false)
  else if !m.acceptWireClaimVip P newVip env then (m, false)
  else
    let m := { m with core := m.core.applyLocalVipChange P newVip env.pick env.now }
    ({ m with claimMap := m.claimMap.insert m.core.myNodeId m.ownClaim, pendingClaimGossip := true }, true)

def vipRerollRetryInterval : Nat := secs 30

def tryLocalVipReroll (m : Member) (contestedVip : String) (env : Env) : Member × Bool :=
  let base := match m.core.unitNetworkKey env.pick with
    | some key => floatunitSubnetBaseVip P key
    | none => m.core.myVip
  match pickFreeVip base (m.occupiedVipsForReroll contestedVip) with
  | some newVip =>
    let r := m.applyLocalVipChange P newVip env
    if r.2 then ({ r.1 with vipRerollRetryAfter := none }, true) else (r.1, false)
  | none => ({ m with vipRerollRetryAfter := some (env.now + vipRerollRetryInterval) }, false)

def settleLoser (pre : ClaimMap) (env : Env) (acc : Member × Bool) (loser : String) : Member × Bool :=
  let m := acc.1
  if loser = m.core.myNodeId then
    let r := m.tryLocalVipReroll P m.core.myVip env
    if r.2 then (r.1, true)
    else ({ r.1 with claimMap := r.1.claimMap.insert r.1.core.myNodeId r.1.ownClaim }, acc.2)
  else
    match pre.lookup loser with
    | some c =>
      ({ m with
        core := m.core.vipFight loser c.vip env.now
        claimMap := removeClaim m.claimMap loser
        fightSuppress := installFightSuppress m.fightSuppress loser c.vip c.vipEpoch env.now fightSuppressTtl },
        true)
    | none => acc

def fighters (m : Member) : List String :=
  ((m.claimMap.entries.map (·.2)).filter fun c => c.nodeId ≠ m.core.myNodeId &&
    shouldRerollForVipFight m.core.myNodeId m.core.myVip c.nodeId c.vip).map (·.nodeId)

def fight (contested : String) (env : Env) : Member → List String → Member × Bool
  | m, [] => (m, false)
  | m, _ :: peers =>
    let r := m.tryLocalVipReroll P contested env
    if r.2 then r else fight contested env r.1 peers

def applyClaimSettleAndLocalFight (m : Member) (env : Env) : Member × Bool :=
  let settled := settleDuplicateVips m.claimMap env.order
  let r := settled.2.foldl (settleLoser P m.claimMap env) ({ m with claimMap := settled.1 }, false)
  let f := fight P r.1.core.myVip env r.1 r.1.fighters
  let changed := r.2 || f.2
  (if changed then { f.1 with pendingClaimGossip := true } else f.1, changed)

/-! ## Claims -/

def merge (m : Member) (incoming : ClaimRecord) (env : Env) : Member × MergeOutcome :=
  let r := mergeClaim m.claimMap incoming m.leaveTombs m.fightSuppress env.now
  ({ m with claimMap := r.1, fightSuppress := r.2.1 }, r.2.2)

def updateRoute (m : Member) (vip : String) (ep : SocketAddr) (nodeId : String) (env : Env) : Member :=
  { m with core := m.core.updateRoute vip ep (some nodeId) (env.order.arrange m.core.routing.table.keys) env.now }

variable (W : WireText)
variable (m : Member) (env : Env)

def applyRemoteClaim (nodeId vip : String) (vipEpoch : Nat) (fromEp : SocketAddr) (env : Env) : Member :=
  if nodeId = "" || !m.acceptWireClaimVip P vip env then m
  else
    let r := m.merge ⟨nodeId, vip, vipEpoch, [W.addrToString fromEp]⟩ env
    if r.2.isBlocked then r.1
    else
      let m := (r.1.applyClaimSettleAndLocalFight P env).1
      if claimStillLive m.claimMap nodeId vip vipEpoch && vip ≠ m.core.myVip then m.updateRoute vip fromEp nodeId env
      else m

/-! ## Sending digests -/

def enrich (rt : RoutingTable) (c : ClaimRecord) : ClaimRecord :=
  if c.epHints ≠ [] then c
  else
    match rt.table.lookup c.vip with
    | some entry => if entry.state = .stale then c else { c with epHints := [W.addrToString entry.endpoint] }
    | none => c

def trimDown (fits : Nat → Bool) (floor : Nat) : Nat → Nat
  | 0 => 0
  | n + 1 => if fits (n + 1) || n + 1 ≤ floor then n + 1 else trimDown fits floor n

def trimmedDigest (claims : List ClaimRecord) (tombs : List LeaveTombstone) (env : Env) :
    List ClaimRecord × List LeaveTombstone :=
  let len := W.digestLen m.core.myNodeId env.tsMs
  let tombs := tombs.take (trimDown (fun k => len claims (tombs.take k) ≤ m.msynBodyMax) 0 tombs.length)
  let claims := claims.take (trimDown (fun k => len (claims.take k) tombs ≤ m.msynBodyMax) 1 claims.length)
  (claims, tombs)

def activeEndpoints : List SocketAddr :=
  ((env.order.arrange (m.core.routing.table.entries.map (·.2))).filter (·.state = .active)).map (·.endpoint)

def satSucc (n : Nat) : Nat := min (n + 1) (2 ^ 64 - 1)

def broadcastClaimGossip : Member × List MemberOutput :=
  if m.core.myVip = "" || m.core.myNodeId = "" then (m, [])
  else
    let m := { m with claimMap := m.claimMap.mapVals (enrich W m.core.routing) }
    let claims := buildGossipDigestRotated m.ownClaim m.claimMap m.leaveTombs env.now claimGossipDigestMax
      m.claimGossipDigestCursor
    let m := { m with claimGossipDigestCursor := satSucc m.claimGossipDigestCursor }
    let tombs := selectLeaveTombsForGossip m.leaveTombs env.now claimGossipLeaveTombsMax env.order
    let digest := trimmedDigest W m claims tombs env
    let len := W.digestLen m.core.myNodeId env.tsMs digest.1 digest.2
    if len > m.msynBodyMax then (m, [])
    else
      let leaves := digest.2.map fun t => (⟨t.nodeId, t.vip, t.vipEpoch⟩ : LeaveItem)
      let body : Body GossipJson := ⟨len, some ⟨m.core.myNodeId, some leaves, some digest.1⟩⟩
      let targets := rotateEndpoints (m.activeEndpoints env) m.claimGossipFanoutCursor 8
      ({ m with claimGossipFanoutCursor := satSucc m.claimGossipFanoutCursor }, targets.map (.claimGossip · body))

def flushPendingClaimGossip : Member × List MemberOutput :=
  if !m.pendingClaimGossip then (m, [])
  else broadcastClaimGossip W { m with pendingClaimGossip := false } env

/-! ## Digests received -/

def installLeave (m : Member) (l : LeaveItem) : Member :=
  if l.nodeId = "" || !m.acceptWireClaimVip P l.vip env then m
  else { m with leaveTombs := installLeaveTombstone m.leaveTombs l.nodeId l.vip l.vipEpoch env.now leaveTombstoneTtl }

def gossipClaim (acc : Member × List (ClaimRecord × MergeOutcome)) (c : ClaimRecord) :
    Member × List (ClaimRecord × MergeOutcome) :=
  let m := acc.1
  if c.nodeId = "" || !m.acceptWireClaimVip P c.vip env || c.nodeId = m.core.myNodeId then acc
  else
    let r := m.merge c env
    (r.1, if r.2.isBlocked then acc.2 else acc.2 ++ [(c, r.2)])

def claimEndpoint (fromNode : String) (claimsLen : Nat) (fromEp : SocketAddr) (c : ClaimRecord) : Option SocketAddr :=
  let hinted := if fromNode ≠ "" && c.nodeId = fromNode then some fromEp else c.epHints.findSome? W.parseAddr
  hinted.or (if fromNode = "" && claimsLen = 1 then some fromEp else none)

def gossipRoute (j : GossipJson) (claimsLen : Nat) (fromEp : SocketAddr) (env : Env) (acc : Member × Bool)
    (p : ClaimRecord × MergeOutcome) : Member × Bool :=
  let m := acc.1
  let c := p.1
  let gossip := acc.2 || p.2 = .accepted
  if !claimStillLive m.claimMap c.nodeId c.vip c.vipEpoch || c.vip = m.core.myVip then (m, gossip)
  else
    match claimEndpoint W j.fromNode claimsLen fromEp c with
    | some ep => (m.updateRoute c.vip ep c.nodeId env, gossip)
    | none => (m, gossip)

def gossipClaims (j : GossipJson) (claims : List ClaimRecord) (fromEp : SocketAddr) (env : Env) :
    Member × List MemberOutput :=
  let merged := claims.foldl (gossipClaim P env) (m, [])
  let settled := merged.1.applyClaimSettleAndLocalFight P env
  let routed := merged.2.foldl (gossipRoute W j claims.length fromEp env) settled
  if routed.2 || routed.1.pendingClaimGossip then
    broadcastClaimGossip W { routed.1 with pendingClaimGossip := false } env
  else (routed.1, [])

def handleClaimGossipBody (body : Body GossipJson) (fromEp : SocketAddr) (env : Env) : Member × List MemberOutput :=
  if body.len > m.msynBodyMax then (m, [])
  else
    match body.json with
    | none => (m, [])
    | some j =>
      let m := (j.leaves.getD []).foldl (installLeave P env) m
      match j.claims with
      | none => (m, [])
      | some claims => m.gossipClaims P W j claims fromEp env

/-! ## Leaves -/

def handleLeave (body : Body LeaveJson) (env : Env) : Member :=
  if body.len > 4096 then m
  else
    match body.json with
    | none => m
    | some j =>
      if j.eventId = "" then m
      else
        let seen := m.markMsmdSeen j.eventId env.now
        if !seen.2 then m
        else if j.nodeId = "" || !seen.1.acceptWireClaimVip P j.vip env then seen.1
        else
          let m := seen.1.installLeave P env j.toLeaveItem
          { m with
            claimMap := removeClaim m.claimMap j.nodeId
            core := m.core.leave P j.nodeId j.vip env.pick env.now }

def broadcastLeave (j : LeaveJson) (env : Env) : Member × List MemberOutput :=
  if !m.acceptWireClaimVip P j.vip env then (m, [])
  else
    let m := { m with
      leaveTombs := installLeaveTombstone m.leaveTombs j.nodeId j.vip j.vipEpoch env.now leaveTombstoneTtl
      claimMap := removeClaim m.claimMap j.nodeId }
    let members := ((env.order.arrange (m.core.routing.table.entries.map (·.2))).filter (·.state ≠ .stale)).map
      (·.endpoint)
    (m, members.map (.leave · j))

/-! ## Joins -/

def isValidSyncEndpoint (ep : SocketAddr) : Bool :=
  match ep.ip with
  | .v4 b =>
    let first := (b >>> 24).toUInt8
    let second := (b >>> 16).toUInt8
    b ≠ 0 && !(224 ≤ first && first ≤ 239) && first ≠ 127 && !(first = 169 && second = 254)
  | .v6 b => b ≠ 0 && b.toNat / 2 ^ 120 ≠ 255 && b ≠ 1

def clampPrefix (pre : Option Nat) : Nat := max 8 (min ((pre.map (· % 256)).getD 24) 30)

def jackMpjaBodyValid (j : JoinJson) (fromEp : SocketAddr) (env : Env) : Bool :=
  m.acceptWireClaimVip P j.vip env && j.nodeId ≠ "" && j.nodeId.utf8ByteSize ≤ 64 && isValidSyncEndpoint fromEp

def allowJoin (fromEp : SocketAddr) (now : Instant) : Member × Bool :=
  let r := m.joinRateLimiter.allow (srcAddrKey fromEp) now
  let m := { m with joinRateLimiter := r.1 }
  if !r.2 then (m, false)
  else
    let r := m.joinIpRateLimiter.allow (srcKey fromEp.ip) now
    ({ m with joinIpRateLimiter := r.1 }, r.2)

def handleJoin (body : Body JoinJson) (fromEp : SocketAddr) (env : Env) : Member × List MemberOutput :=
  if m.core.myVip = "" || m.core.myNodeId = "" then (m, [])
  else
    let allowed := m.allowJoin fromEp env.now
    let m := allowed.1
    if !allowed.2 || body.len > 8192 then (m, [])
    else
      match body.json with
      | none => (m, [])
      | some j =>
        if j.protoVer ≠ some wireProtocolVersion || j.nodeId = "" || j.nodeId.utf8ByteSize > 64 ||
            !m.acceptWireClaimVip P j.vip env then (m, [])
        else broadcastClaimGossip W (m.applyRemoteClaim P W j.nodeId j.vip j.vipEpoch fromEp env) env

def handleJoinAck (body : Body JoinJson) (fromEp : SocketAddr) (env : Env) : Member :=
  if body.len > 8192 then m
  else
    match body.json with
    | none => m
    | some j =>
      if j.protoVer ≠ some wireProtocolVersion || !m.jackMpjaBodyValid P j fromEp env then m
      else
        let waiting := m.joinTx.isSome || m.joiner
        let m := m.applyRemoteClaim P W j.nodeId j.vip j.vipEpoch fromEp env
        if !waiting then m
        else
          let delivered := m.joinTx.getD false
          let m := { m with joinTx := none }
          if !delivered && !m.joiner then m
          else { m with core := { m.core with subnetPrefix := clampPrefix j.pre }, joiner := false }

/-! ## Timers -/

def syncTick : Member × List MemberOutput :=
  let m := { m with
    leaveTombs := pruneLeaveTombstones m.leaveTombs env.now
    fightSuppress := pruneFightSuppress m.fightSuppress env.now }
  let flushed := flushPendingClaimGossip W m env
  let sent := broadcastClaimGossip W flushed.1 env
  (sent.1, flushed.2 ++ sent.2)

def retryVipFightIfDue : Member :=
  match m.vipRerollRetryAfter with
  | none => m
  | some after =>
    if env.now < after then m
    else (applyClaimSettleAndLocalFight P { m with vipRerollRetryAfter := none } env).1

def presenceTick : Member × List MemberOutput :=
  if m.core.myVip = "" || m.core.myNodeId = "" then (m, [])
  else flushPendingClaimGossip W (m.retryVipFightIfDue P env) env

def forgetRoute (rt : RoutingTable) (map : ClaimMap) (vip : String) : ClaimMap :=
  match rt.table.lookup vip with
  | some entry => if entry.nodeId ≠ "" then removeClaim map entry.nodeId else removeClaimsForVip map vip
  | none => map

def staleEvict (staleMark staleAge : Nat) (env : Env) : Member :=
  let order := env.order.arrange m.core.routing.table.keys
  let rt := m.core.routing.markStaleIfIdle staleMark env.now
  { m with
    core := m.core.staleEvict staleMark staleAge order env.now
    claimMap := (Engine.staleVictims rt staleAge order env.now).foldl (forgetRoute rt) m.claimMap }

/-! ## Events -/

inductive Event where
  | join (body : Body JoinJson) (fromEp : SocketAddr) (authenticated : Bool)
  | joinAck (body : Body JoinJson) (fromEp : SocketAddr) (authenticated : Bool)
  | claimGossip (body : Body GossipJson) (fromEp : SocketAddr) (authenticated : Bool)
  | leave (body : Body LeaveJson) (fromEp : SocketAddr) (authenticated : Bool)
  | broadcastLeave (msg : LeaveJson)
  | triggerClaimGossip
  | syncTick
  | presenceTick
  | staleEvict (staleMark staleAge : Nat)

def dispatch (tag : Tag) (fromEp : SocketAddr) (authenticated : Bool) (env : Env)
    (handle : Member → Member × List MemberOutput) : Member × List MemberOutput :=
  let r := m.core.admitControl tag fromEp authenticated env.now
  let m := { m with core := r.1 }
  if r.2 then handle m else (m, [])

def step (ev : Env × Event) : Member × List MemberOutput :=
  let env := ev.1
  match ev.2 with
  | .join body fromEp auth => m.dispatch pktJoin fromEp auth env fun m => m.handleJoin P W body fromEp env
  | .joinAck body fromEp auth => m.dispatch pktJack fromEp auth env fun m => (m.handleJoinAck P W body fromEp env, [])
  | .claimGossip body fromEp auth => m.dispatch pktClg fromEp auth env fun m =>
      if auth then m.handleClaimGossipBody P W body fromEp env else (m, [])
  | .leave body fromEp auth => m.dispatch pktLeave fromEp auth env fun m =>
      if auth then (m.handleLeave P body env, []) else (m, [])
  | .broadcastLeave msg => m.broadcastLeave P msg env
  | .triggerClaimGossip => broadcastClaimGossip W m env
  | .syncTick => syncTick W m env
  | .presenceTick => m.presenceTick P W env
  | .staleEvict staleMark staleAge => (m.staleEvict staleMark staleAge env, [])

/-- A member with its clock; an action waits for some time and then takes an event. -/
def timedStep (s : Instant × Member) (a : Nat × Env × Event) : (Instant × Member) × List MemberOutput :=
  let now := s.1 + a.1
  let r := s.2.step P W ({ a.2.1 with now := now }, a.2.2)
  ((now, r.1), r.2)

end

end Member

end ConnectUnit
