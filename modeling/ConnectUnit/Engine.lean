import ConnectUnit.Claim
import ConnectUnit.DataPlane
import ConnectUnit.ControlPlane

/-!
# The engine

The part of the peer-to-peer engine that handles keys, sealed frames and routes, with one event for each entry point
that touches it.
-/

namespace ConnectUnit

structure PunchState where
  myVip : String
  cryptoKey : Option AeadKey

structure Engine where
  cryptoKeys : CryptoPool
  data : DataCrypto
  control : ControlCrypto
  myVip : String
  myVipU32 : UInt32
  myNodeId : String
  vipEpoch : Nat
  subnetPrefix : Nat
  routing : RoutingTable
  stateView : PunchState
  /-- The copies of the view that background tasks have taken. -/
  snapshots : List PunchState
  lastSeenPending : HashMap SocketAddr Instant
  lastPrepareJoinAt : Option Instant

inductive Output where
  | sealData (aead : DataPlaneAead) (counter : Nat) (plaintext : Bytes)
  | sealControl (aead : ControlPlaneAead) (counter : Nat) (plaintext : Bytes)
  | send (dest : SocketAddr) (frame : Bytes)
  | dispatchControl (tag : Tag) (body : Bytes) (fromEp : SocketAddr)
  | handleMdatLike (plain : Bytes) (fromEp : SocketAddr)
  deriving DecidableEq

def ipv4ToString (u : UInt32) : String :=
  let octetAt (n : Nat) : String := toString (u.toNat / n % 256)
  octetAt 16777216 ++ "." ++ octetAt 65536 ++ "." ++ octetAt 256 ++ "." ++ octetAt 1

def compactData : UInt8 := 0x01

namespace Engine

def new (routing : RoutingTable) (myVip : UInt32) (myNodeId : String) (subnetPrefix : Nat) (now : Instant) :
    Engine where
  cryptoKeys := .new
  data := .empty
  control := .new now
  myVip := ipv4ToString myVip
  myVipU32 := myVip
  myNodeId := myNodeId
  vipEpoch := 0
  subnetPrefix := max 8 (min subnetPrefix 30)
  routing := routing
  stateView := ⟨ipv4ToString myVip, none⟩
  snapshots := []
  lastSeenPending := ∅
  lastPrepareJoinAt := none

structure Start where
  routing : RoutingTable
  myVip : UInt32
  myNodeId : String
  subnetPrefix : Nat
  now : Instant

def Start.engine (s : Start) : Engine := new s.routing s.myVip s.myNodeId s.subnetPrefix s.now

/-! ## Lookups -/

variable (P : Primitives) (e : Engine) (key : Key) (now : Instant)

def hasCrypto : Bool := e.cryptoKeys.hasAny

def dataPlanePrimaryKey : Option Key := e.cryptoKeys.primary.map (·.material)

def endpointToVipU32 (ep : SocketAddr) : Option UInt32 :=
  (e.routing.epToVip.lookup ep).bind ipv4ToU32

def unitNetworkKey (pick : Nat) : Option Key := (e.cryptoKeys.sharedSigningKey pick).map (·.material)

def acceptWireClaimVip (vip : String) (pick : Nat) : Bool :=
  ConnectUnit.acceptWireClaimVip P (e.unitNetworkKey pick) vip

/-! ## Data frames -/

section
variable (P : Primitives)

def sealDataOutput (call : Option (DataPlaneAead × Nat)) (payload : Bytes) : List Output :=
  match call with
  | some (aead, counter) => [.sealData aead counter payload]
  | none => []

variable (e : Engine) (dest : SocketAddr)

def encryptFramedPacketReuse (senderVip destVip : UInt32) (payload : Bytes) : Engine × Option Bytes × List Output :=
  let r := e.data.encryptFramedPacketReuse P e.dataPlanePrimaryKey senderVip destVip payload
  ({ e with data := r.1 }, r.2.2, sealDataOutput r.2.1 payload)

/-- `send_menc`; its forwarding and direct variants differ in the queue they use. -/
def sendMenc (payload : Bytes) : Engine × List Output :=
  if !e.hasCrypto then (e, [.send dest (compactData :: payload)])
  else
    match e.endpointToVipU32 dest with
    | none => (e, [])
    | some destVip =>
      if e.myVipU32 = 0 then (e, [])
      else
        let r := e.encryptFramedPacketReuse P e.myVipU32 destVip payload
        (r.1, r.2.2 ++ (r.2.1.map (Output.send dest)).toList)

def mdatOutput (plain : Option Bytes) (fromEp : SocketAddr) : List Output :=
  match plain with
  | some plain => [.handleMdatLike plain fromEp]
  | none => []

def handleEncrypted (body : Bytes) (fromEp : SocketAddr) : Engine × List Output :=
  if body.length < wireCounterLen + dataTagLen then (e, [])
  else
    match e.endpointToVipU32 fromEp with
    | none => (e, [])
    | some peerVip =>
      if e.myVipU32 = 0 then (e, [])
      else
        let r := e.data.openFrame P e.dataPlanePrimaryKey peerVip e.myVipU32 body
        ({ e with data := r.1 }, mdatOutput r.2 fromEp)

/-! ## Control frames -/

def sealControlOutput (call : Option (ControlPlaneAead × Nat)) (tag : Tag) (body : Bytes) : List Output :=
  match call with
  | some (aead, counter) => [.sealControl aead counter (tag.bytes ++ body)]
  | none => []

/-- A frame built with the given key: sealed if there is a key and the tag is no signalling tag. A
frame that could not be sealed is sent empty. -/
def buildSignedOrPlain (cached : Bool) (e : Engine) (key : Option AeadKey) (dest : SocketAddr) (tag : Tag)
    (body : Bytes) : Engine × List Output :=
  if isSignalingTag tag then (e, [.send dest (frameWithTag tag body)])
  else
    match key with
    | some key =>
      let r := ControlCrypto.sealWith P cached e.control key tag body
      let frame := match r.2.2 with
        | some sealed => frameWithTag pktCtsig sealed
        | none => []
      ({ e with control := r.1 }, sealControlOutput r.2.1 tag body ++ [.send dest frame])
    | none => (e, [.send dest (frameWithTag tag body)])

def buildSignedOrPlainReuse := buildSignedOrPlain P true e

def buildSignedOrPlainStatic := buildSignedOrPlain P false e

def sendCtrlSignedTo (tag : Tag) (body : Bytes) : Engine × List Output :=
  e.buildSignedOrPlainStatic P (e.cryptoKeys.keyForDest dest) dest tag body

def punch (task : Nat) (dest : SocketAddr) (tag : Tag) : Engine × List Output :=
  match e.snapshots[task]? with
  | some snap => e.buildSignedOrPlainStatic P snap.cryptoKey dest tag snap.myVip.toUTF8.toList
  | none => (e, [])

def signingKey (pick : Nat) : Option AeadKey :=
  (e.cryptoKeys.keyForDest dest).or (e.cryptoKeys.sharedSigningKey pick)

def sendControlPacket (tag : Tag) (body : Bytes) (pick : Nat) : Engine × List Output :=
  if needsSign tag then
    match e.signingKey dest pick with
    | some key =>
      let r := e.control.sealControlBody P key tag body
      let sent := match r.2.2 with
        | some sealed => [Output.send dest (frameWithTag pktCtsig sealed)]
        | none => []
      ({ e with control := r.1 }, sealControlOutput r.2.1 tag body ++ sent)
    | none => if e.hasCrypto then (e, []) else (e, [.send dest (frameWithTag tag body)])
  else (e, [.send dest (frameWithTag tag body)])

def touchRoutingEndpoint (fromEp : SocketAddr) (now : Instant) : Engine :=
  { e with
    lastSeenPending := e.lastSeenPending.insert fromEp now
    routing := if e.routing.isEndpointStale fromEp then e.routing.promoteStaleIfNeeded fromEp now else e.routing }

def handleSignedWrapper (body : Bytes) (fromEp : SocketAddr) (now : Instant) (tie : Nat) : Engine × List Output :=
  let r := e.control.openSigned P (e.cryptoKeys.keysForDecrypt fromEp) (srcAddrKey fromEp) body now tie
  let e := { e with control := r.1 }
  match r.2 with
  | none => (e, [])
  | some (key, tag, frameBody) =>
    let e := e.touchRoutingEndpoint fromEp now
    ({ e with cryptoKeys := e.cryptoKeys.bindPeerKey fromEp key }, [.dispatchControl tag frameBody fromEp])

end

/-! ## Keys -/

def setCryptoKey : Engine :=
  let r := e.cryptoKeys.setPrimary key
  { e with
    cryptoKeys := r.1
    data := .empty
    control := { e.control with controlCiphers := ∅ }
    stateView := { e.stateView with cryptoKey := some r.2 } }

def addCryptoKey : Engine :=
  if e.cryptoKeys.primary.isNone then e.setCryptoKey key
  else { e with cryptoKeys := (e.cryptoKeys.addKey key).1 }

def bindPeerKey (peer : SocketAddr) (key : Key) : Engine :=
  let r := e.cryptoKeys.addKey key
  { e with cryptoKeys := r.1.bindPeerKey peer r.2 }

def joinThrottled : Bool :=
  e.lastPrepareJoinAt.any fun prev => now - prev < millis 200

def joinKey : Engine :=
  let r := e.cryptoKeys.setPrimary key
  { e with
    cryptoKeys := r.1
    stateView := { e.stateView with cryptoKey := some r.2 }
    lastPrepareJoinAt := some now }

def prepareJoin (target : Option SocketAddr) (body : Bytes) (now : Instant) : Engine × List Output :=
  if e.joinThrottled now then (e, [])
  else
    let e := e.joinKey key now
    match target with
    | none => (e, [])
    | some target =>
      let punch := e.sendCtrlSignedTo P target pktHpch e.myVip.toUTF8.toList
      let join := punch.1.sendCtrlSignedTo P target pktJoin body
      (join.1, punch.2 ++ join.2)

def resetSession : Engine :=
  { e with
    cryptoKeys := e.cryptoKeys.clear
    data := .empty
    control := { e.control with controlCiphers := ∅, ctrlSendCtr := 0, ctrlReplay := e.control.ctrlReplay.clear }
    myVip := ""
    myVipU32 := 0
    subnetPrefix := 24
    myNodeId := ""
    routing := .new now
    stateView := ⟨"", none⟩
    lastSeenPending := ∅ }

/-! ## Routes -/

def onPeerRouteRemoved (vip : String) : Engine :=
  match ipv4ToU32 vip with
  | some u => { e with data := e.data.clearDataCryptoForVip u }
  | none => e

def routesRemoved (vips : List String) : Engine := vips.foldl onPeerRouteRemoved e

def setIdentity (myVip myNodeId : String) (subnetPrefix vipEpoch : Nat) (order : List String)
    (now : Instant) : Engine :=
  let e := { e with
    myVip := myVip
    myNodeId := myNodeId
    vipEpoch := vipEpoch
    myVipU32 := (ipv4ToU32 myVip).getD 0
    subnetPrefix := max 8 (min subnetPrefix 30)
    stateView := { e.stateView with myVip := myVip } }
  if myVip = "" then e
  else
    let drained := e.routing.drainVipsOutsideSubnet myVip e.subnetPrefix order now
    routesRemoved { e with routing := drained.1 } (drained.2.map (·.1))

def applyLocalVipChange (newVip : String) (pick : Nat) (now : Instant) : Engine :=
  if newVip = "" ∨ newVip = e.myVip then e
  else if !e.acceptWireClaimVip P newVip pick then e
  else { e with
    vipEpoch := min (e.vipEpoch + 1) (2 ^ 64 - 1)
    myVip := newVip
    myVipU32 := (ipv4ToU32 newVip).getD 0
    stateView := { e.stateView with myVip := newVip }
    routing := e.routing.remove e.myVip now }

def routeOfNode (nodeId vip : String) : Option RouteEntry :=
  (e.routing.table.lookup vip).filter fun entry => entry.nodeId = "" || entry.nodeId = nodeId

def leavingRoute (nodeId vip : String) (pick : Nat) : Option RouteEntry :=
  if nodeId = "" || !e.acceptWireClaimVip P vip pick then none else e.routeOfNode nodeId vip

/-- A leave that was authenticated and not seen before. -/
def leave (nodeId vip : String) (pick : Nat) (now : Instant) : Engine :=
  match e.leavingRoute P nodeId vip pick with
  | none => e
  | some entry =>
    let e := onPeerRouteRemoved { e with routing := e.routing.remove vip now } vip
    { e with cryptoKeys := e.cryptoKeys.unbindPeer entry.endpoint }

def vipFight (loser vip : String) (now : Instant) : Engine :=
  match e.routeOfNode loser vip with
  | none => e
  | some _ => onPeerRouteRemoved { e with routing := e.routing.remove vip now } vip

def staleVictims (rt : RoutingTable) (staleAge : Nat) (order : List String) (now : Instant) : List String :=
  order.filter fun vip => (rt.table.lookup vip).any fun e => e.state = .stale && now - e.lastSeen > staleAge

def staleEvict (staleMark staleAge : Nat) (order : List String) (now : Instant) : Engine :=
  let rt := e.routing.markStaleIfIdle staleMark now
  let victims := staleVictims rt staleAge order now
  let endpoints := victims.filterMap rt.lookup
  let e := routesRemoved { e with routing := rt.removeAll victims now } victims
  let keys := endpoints.foldl CryptoPool.unbindPeer e.cryptoKeys
  { e with cryptoKeys := keys.prunePerPeerOrphans e.routing }

def stampRelayPath (rt : RoutingTable) (destVip myVip : String) (order : List String) (now : Instant) :
    RoutingTable :=
  match rt.selectRelayEndpoint destVip myVip none order with
  | .hop hop => rt.stampRelayHop destVip hop now
  | .none => rt.clearRelayPath destVip

/-- The part of `update_route` that changes routes and keys. -/
def updateRoute (vip : String) (ep : SocketAddr) (nodeId : Option String) (order : List String)
    (now : Instant) : Engine :=
  if e.myVip = "" ∨ vip = e.myVip then e
  else
    let oldEp := e.routing.lookup vip
    let rt := stampRelayPath (e.routing.update vip ep nodeId now) vip e.myVip order now
    { e with
      routing := rt
      cryptoKeys := match oldEp with
        | some prev => if prev ≠ ep then e.cryptoKeys.unbindPeer prev else e.cryptoKeys
        | none => e.cryptoKeys }

def flushLastSeenPending : Engine :=
  { e with
    routing := e.routing.applyLastSeenBatch (e.lastSeenPending.entries.map fun p => (p.1, p.2))
    lastSeenPending := ∅ }

/-! ## Events -/

inductive Event where
  | setCryptoKey (key : Key)
  | addCryptoKey (key : Key)
  | bindPeerKey (peer : SocketAddr) (key : Key)
  | prepareJoin (key : Key) (target : Option SocketAddr) (body : Bytes)
  | resetSession
  | setIdentity (myVip myNodeId : String) (subnetPrefix vipEpoch : Nat) (order : List String)
  | applyLocalVipChange (newVip : String) (pick : Nat)
  | peerRouteRemoved (vip : String)
  | leave (nodeId vip : String) (pick : Nat)
  | vipFight (loser vip : String)
  | staleEvict (staleMark staleAge : Nat) (order : List String)
  | updateRoute (vip : String) (ep : SocketAddr) (nodeId : Option String) (order : List String)
  | touchRoutingEndpoint (fromEp : SocketAddr)
  | flushLastSeenPending
  | encryptTo (destVip : UInt32) (payload : Bytes)
  | sendMenc (dest : SocketAddr) (payload : Bytes)
  | encrypted (body : Bytes) (fromEp : SocketAddr)
  | signedWrapper (body : Bytes) (fromEp : SocketAddr) (tie : Nat)
  | sendControlPacket (dest : SocketAddr) (tag : Tag) (body : Bytes) (pick : Nat)
  | sendCtrlSignedTo (dest : SocketAddr) (tag : Tag) (body : Bytes)
  | enqueueCtrl (dest : SocketAddr) (tag : Tag) (body : Bytes)
  | readStateView
  | punch (task : Nat) (dest : SocketAddr) (tag : Tag)

def step (ev : Instant × Event) : Engine × List Output :=
  let now := ev.1
  match ev.2 with
  | .setCryptoKey key => (e.setCryptoKey key, [])
  | .addCryptoKey key => (e.addCryptoKey key, [])
  | .bindPeerKey peer key => (e.bindPeerKey peer key, [])
  | .prepareJoin key target body => e.prepareJoin P key target body now
  | .resetSession => (e.resetSession now, [])
  | .setIdentity myVip nodeId pre epoch order => (e.setIdentity myVip nodeId pre epoch order now, [])
  | .applyLocalVipChange newVip pick => (e.applyLocalVipChange P newVip pick now, [])
  | .peerRouteRemoved vip => (e.onPeerRouteRemoved vip, [])
  | .leave nodeId vip pick => (e.leave P nodeId vip pick now, [])
  | .vipFight loser vip => (e.vipFight loser vip now, [])
  | .staleEvict staleMark staleAge order => (e.staleEvict staleMark staleAge order now, [])
  | .updateRoute vip ep nodeId order => (e.updateRoute vip ep nodeId order now, [])
  | .touchRoutingEndpoint fromEp => (e.touchRoutingEndpoint fromEp now, [])
  | .flushLastSeenPending => (e.flushLastSeenPending, [])
  | .encryptTo destVip payload =>
    let r := e.encryptFramedPacketReuse P e.myVipU32 destVip payload
    (r.1, r.2.2)
  | .sendMenc dest payload => e.sendMenc P dest payload
  | .encrypted body fromEp => e.handleEncrypted P body fromEp
  | .signedWrapper body fromEp tie => e.handleSignedWrapper P body fromEp now tie
  | .sendControlPacket dest tag body pick => e.sendControlPacket P dest tag body pick
  | .sendCtrlSignedTo dest tag body => e.sendCtrlSignedTo P dest tag body
  | .enqueueCtrl dest tag body => e.buildSignedOrPlainReuse P (e.cryptoKeys.keyForDest dest) dest tag body
  | .readStateView => ({ e with snapshots := e.snapshots ++ [e.stateView] }, [])
  | .punch task dest tag => e.punch P task dest tag

end Engine

end ConnectUnit
