import ConnectUnit.Dispatch
import ConnectUnit.Fec
import ConnectUnit.Pmtud

/-!
# Datagrams

What a datagram does to the engine, from `handle_packet` down to the route it may teach.
-/

namespace ConnectUnit

/-! ## Parsing -/

inductive CompactPacketType where
  | data | encrypted | fec | reliable | ack | joinAck | ping | pong
  deriving DecidableEq

def CompactPacketType.tryFromByte (b : UInt8) : Option CompactPacketType :=
  match b.toNat with
  | 0x01 => some .data
  | 0x02 => some .encrypted
  | 0x03 => some .fec
  | 0x04 => some .reliable
  | 0x05 => some .ack
  | 0x06 => some .joinAck
  | 0x07 => some .ping
  | 0x08 => some .pong
  | _ => none

inductive DatagramKind where
  | compact (ty : CompactPacketType) (body : Bytes)
  | control (tag : Tag) (body : Bytes)
  deriving DecidableEq

def parseCompact : Bytes → Option (CompactPacketType × Bytes)
  | [] => none
  | b :: body => (CompactPacketType.tryFromByte b).map fun ty => (ty, body)

def parseDatagram (buf : Bytes) : Option DatagramKind :=
  if buf.head? = some 'M'.toUInt8 then (Tag.split buf).map fun (tag, body) => .control tag body
  else (parseCompact buf).map fun (ty, body) => .compact ty body

def mctlFlagHb : UInt16 := 1
def mctlFlagHol : UInt16 := 2

structure MctlParsed where
  flags : UInt16
  vip : Option Bytes
  signalingOk : Bool
  deriving DecidableEq

def encodeMctl (flags : UInt16) (vip : Option Bytes) : Option Bytes :=
  let flags := flags &&& (mctlFlagHb ||| mctlFlagHol)
  if flags = 0 then none
  else vip.bind fun v =>
    if v = [] ∨ 255 < v.length then none else some (toLeBytes 2 flags.toNat ++ UInt8.ofNat v.length :: v)

def parseMctl : Bytes → Option MctlParsed
  | b0 :: b1 :: rest =>
    let flags := UInt16.ofNat (fromLeBytes [b0, b1]) &&& (mctlFlagHb ||| mctlFlagHol)
    if flags = 0 then none
    else
      match rest with
      | [] => some ⟨flags, none, false⟩
      | len :: rest =>
        if len = 0 ∨ rest.length < len.toNat then some ⟨flags, none, false⟩
        else some ⟨flags, some (rest.take len.toNat), true⟩
  | _ => none

def fromBeBytes (bs : Bytes) : Nat := fromLeBytes bs.reverse

def i32FromLeBytes (bs : Bytes) : Int :=
  let n := fromLeBytes bs
  if n < 2 ^ 31 then n else n - 2 ^ 32

def decodePongPayload (body : Bytes) : Option (UInt64 × Int) :=
  if body.length ≠ 24 then none
  else some (UInt64.ofNat (fromLeBytes (body.take 8)), i32FromLeBytes ((body.drop 16).take 4))

def isWhiteSpace (c : Char) : Bool :=
  let n := c.toNat
  (9 ≤ n && n ≤ 13) || n ∈ [0x20, 0x85, 0xA0, 0x1680, 0x2028, 0x2029, 0x202F, 0x205F, 0x3000] ||
    (0x2000 ≤ n && n ≤ 0x200A)

def trim (s : String) : String :=
  String.ofList (((s.toList.dropWhile isWhiteSpace).reverse.dropWhile isWhiteSpace).reverse)

def bodyText (body : Bytes) : Option String := (String.fromUTF8? ⟨body.toArray⟩).map trim

/-! ## State -/

inductive PendingPingKind where
  | user
  | heal (vip : String) (endpoint : SocketAddr)
  | probe
  deriving DecidableEq

structure PendingPing where
  dest : SocketAddr
  allowIpMatch : Bool
  deadline : Instant
  sentAtMs : Nat
  kind : PendingPingKind
  deriving DecidableEq

def PendingPing.answeredBy (p : PendingPing) (fromEp : SocketAddr) : Bool :=
  if p.allowIpMatch then p.dest.ip = fromEp.ip else p.dest = fromEp

inductive ReliableDedupKey where
  | vipU32 (u : UInt32)
  | addr (a : SocketAddr)
  deriving DecidableEq

/-- The engine as datagrams find it; `γ` is the type of FEC codecs. -/
structure Inbound (γ : Type) where
  core : Engine
  fecDecoders : HashMap SocketAddr (Fec.FecDecoder γ)
  pmtud : Pmtud.PathMtuDiscovery
  mtuPin : Bool
  pendingPings : HashMap UInt64 PendingPing
  pendingHealVips : List String
  reliableSeen : List (ReliableDedupKey × UInt32)
  reliableSeenTimeline : List (Instant × ReliableDedupKey × UInt32)
  plainDataLimiter : ControlRateLimiter
  multipathBandwidthProber : Bool

/-- Where a datagram comes from and what its handling reads besides the state: the two clocks and the
orders of hash maps. -/
structure Arrival where
  fromEp : SocketAddr
  now : Instant
  epochMs : Nat
  tie : Nat
  pick : CryptoPool → Nat
  order : RoutingTable → List String
  fecOrder : IterOrder

/-! ## Route learning -/

namespace Engine

def foreignVip (e : Engine) (vipIp : UInt32) : Bool :=
  (ipv4ToU32 e.myVip).any fun myVip =>
    8 ≤ e.subnetPrefix && e.subnetPrefix ≤ 30 && !sameSubnet myVip vipIp e.subnetPrefix

def allowHijack (e : Engine) (vip : String) (fromEp : SocketAddr) (authenticated : Bool) : Bool :=
  match e.routing.table.lookup vip with
  | some existing =>
    existing.endpoint = fromEp || existing.state = .stale || existing.state = .degraded || authenticated
  | none => true

end Engine

namespace Inbound

section
variable {γ : Type} (P : Primitives) (s : Inbound γ)
variable (tag : Tag) (body : Bytes) (authenticated : Bool) (a : Arrival)

def touch : Inbound γ := { s with core := s.core.touchRoutingEndpoint a.fromEp a.now }

/-- `update_route` with what it changes here of the state kept for an endpoint that is given up. -/
def updateRoute (vip : String) (nodeId : Option String) (a : Arrival) : Inbound γ :=
  if s.core.myVip = "" ∨ vip = s.core.myVip then s
  else
    let oldEp := s.core.routing.lookup vip
    let s := { s with core := s.core.updateRoute vip a.fromEp nodeId (a.order s.core.routing) a.now }
    match oldEp with
    | some prev =>
      if prev ≠ a.fromEp then
        { s with fecDecoders := s.fecDecoders.erase prev, pmtud := s.pmtud.removePeer prev }
      else s
    | none => s

def learnRouteFromHolePunchBody : Inbound γ :=
  let s := s.touch a
  match bodyText body with
  | none => s
  | some vip =>
    match ipv4ToU32 vip with
    | none => s
    | some vipIp =>
      if !s.core.acceptWireClaimVip P vip (a.pick s.core.cryptoKeys) then s
      else if s.core.foreignVip vipIp then s
      else if s.core.allowHijack vip a.fromEp authenticated then s.updateRoute vip none a
      else s

def applyHbBody : Inbound γ :=
  let s := s.touch a
  if body = [] then s
  else if ((bodyText body).bind ipv4ToU32).isSome then s.learnRouteFromHolePunchBody P body authenticated a
  else s

def applyHolBody : Inbound γ :=
  s.learnRouteFromHolePunchBody P body authenticated a

def handleMctl : Inbound γ :=
  match parseMctl body with
  | some ⟨flags, some vip, true⟩ =>
    let s := if flags &&& mctlFlagHb ≠ 0 then s.applyHbBody P vip authenticated a else s
    if flags &&& mctlFlagHol ≠ 0 then s.applyHolBody P vip authenticated a else s
  | _ => s

/-! ## Control messages -/

def dispatchControl : Inbound γ × List Output :=
  let admitted := s.core.admitControl tag a.fromEp authenticated a.now
  let s := { s with core := admitted.1 }
  if !admitted.2 then (s, [])
  else if tag ∈ [pktParaHello, pktParaReply, pktParaOk, pktParaPunchAck, pktMerr] then (s, [])
  else if tag = pktRdys ∨ tag = pktMstr ∨ tag = pktBrek then (s.touch a, [])
  else if tag ∈ [pktJoin, pktJack, pktClg, pktLeave, pktPrxy] then (s, [.dispatchControl tag body a.fromEp])
  else if tag = pktMctl then (s.handleMctl P body authenticated a, [])
  else if tag = pktKpal then (s.applyHbBody P body authenticated a, [])
  else if tag = pktHpch then (s.applyHolBody P body authenticated a, [])
  else if tag = pktHack then (s.learnRouteFromHolePunchBody P body authenticated a, [])
  else (s, [])

def handleSignedWrapper : Inbound γ × List Output :=
  let r := s.core.handleSignedWrapper P body a.fromEp a.now a.tie
  let s := { s with core := r.1 }
  match r.2 with
  | [.dispatchControl tag frameBody _] => s.dispatchControl P tag frameBody true a
  | _ => (s, [])

def applyPmarBody : Inbound γ :=
  if body.length < 10 ∨ s.mtuPin ∨ s.pmtud.pinned.isSome then s
  else
    let sz := fromBeBytes (body.take 2)
    let sessionId := UInt32.ofNat (fromBeBytes ((body.drop 2).take 4))
    let probeId := UInt32.ofNat (fromBeBytes ((body.drop 6).take 4))
    { s with pmtud := (s.pmtud.onAck a.fromEp sz probeId sessionId a.now).1 }

def handleParsedPacket : Inbound γ × List Output :=
  if tag = pktPmtu then (s, [])
  else if tag = pktPmar then (s.applyPmarBody body a, [])
  else if tag = pktCtsig then s.handleSignedWrapper P body a
  else s.dispatchControl P tag body false a

/-! ## Compact packets -/

def pruneReliableSeenCache (now : Instant) : Inbound γ :=
  let old : Instant × ReliableDedupKey × UInt32 → Bool := fun x => secs 60 ≤ now - x.1
  let young := s.reliableSeenTimeline.dropWhile old
  let excess := young.length - 16384
  let gone := s.reliableSeenTimeline.takeWhile old ++ young.take excess
  { s with
    reliableSeenTimeline := young.drop excess
    reliableSeen := s.reliableSeen.filter fun x => x ∉ gone.map (·.2) }

def reliableDedupKey (fromEp : SocketAddr) : ReliableDedupKey :=
  match s.core.endpointToVipU32 fromEp with
  | some u => .vipU32 u
  | none => .addr fromEp

def noteReliableSeen (dk : ReliableDedupKey) (seq : UInt32) (now : Instant) : Inbound γ :=
  { s with
    reliableSeen := s.reliableSeen ++ [(dk, seq)]
    reliableSeenTimeline := s.reliableSeenTimeline ++ [(now, dk, seq)] }

def handleReliablePacket : Inbound γ × List Output :=
  if body.length < 5 then (s, [])
  else
    let seq := UInt32.ofNat (fromBeBytes (body.take 4))
    if (body[4]?).bind CompactPacketType.tryFromByte ≠ some .joinAck then (s, [])
    else
      let s := s.pruneReliableSeenCache a.now
      let dk := s.reliableDedupKey a.fromEp
      if (dk, seq) ∈ s.reliableSeen then (s, [])
      else
        let s := (s.noteReliableSeen dk seq a.now).touch a
        if s.core.hasCrypto then (s, []) else s.dispatchControl P pktJack (body.drop 5) false a

def handleMdatLike (raw : Bytes) (a : Arrival) : Inbound γ := if raw.length < 20 then s else s.touch a

def handleEncrypted : Inbound γ × List Output :=
  let r := s.core.handleEncrypted P body a.fromEp
  let s := { s with core := r.1 }
  match r.2 with
  | [.handleMdatLike plain _] => (s.handleMdatLike plain a, r.2)
  | _ => (s, [])

def handleData : Inbound γ × List Output :=
  if s.core.hasCrypto then (s, [])
  else
    let r := s.plainDataLimiter.allow (srcAddrKey a.fromEp) a.now
    let s := { s with plainDataLimiter := r.1 }
    if !r.2 then (s, []) else (s.handleMdatLike body a, [.handleMdatLike body a.fromEp])

def onRouting (f : RoutingTable → RoutingTable) : Inbound γ :=
  { s with core := { s.core with routing := f s.core.routing } }

def healRemains (vip : String) : Bool :=
  s.pendingPings.entries.any fun p =>
    match p.2.kind with
    | .heal other _ => other = vip
    | _ => false

def endHeal (vip : String) : Inbound γ :=
  if s.healRemains vip then s else { s with pendingHealVips := s.pendingHealVips.filter (· ≠ vip) }

def handleHealSuccess (vip : String) (endpoint : SocketAddr) (rttMs : Int) (now : Instant) : Inbound γ :=
  if vip ∉ s.pendingHealVips then s
  else
    let s := s.endHeal vip
    if s.core.routing.vipForDataEndpoint endpoint none ≠ some vip then s
    else s.onRouting fun t => t.onEntry vip fun e => { e with
      pathSet := e.pathSet.map fun ps =>
        (ps.noteRttForEndpoint endpoint rttMs t.routingEwma now).reselectActive s.multipathBandwidthProber now }

def onActivePath (fromEp : SocketAddr) : Bool :=
  ((s.core.routing.vipForDataEndpoint fromEp none).bind s.core.routing.table.lookup).any (·.isActivePath fromEp)

def handlePongBody : Inbound γ :=
  match decodePongPayload body with
  | none => s
  | some (pingId, fwdOwdSampleMs) =>
    let s := s.touch a
    match s.pendingPings.lookup pingId with
    | none => s
    | some pending =>
      if !pending.answeredBy a.fromEp then s
      else
        let rtt : Int := max (a.epochMs - pending.sentAtMs : Nat) 1
        let active := s.onActivePath a.fromEp
        let s := { s with pendingPings := s.pendingPings.erase pingId }
        let s := s.onRouting fun t => t.noteRtt a.fromEp rtt none a.now
        let s := if active then s.onRouting fun t => t.noteFwdOwd a.fromEp fwdOwdSampleMs rtt none a.now else s
        match pending.kind with
        | .heal vip endpoint => s.handleHealSuccess vip endpoint rtt a.now
        | .user => s
        | .probe => s

def handleCompactPacket (ty : CompactPacketType) (body : Bytes) (a : Arrival) : Inbound γ × List Output :=
  match ty with
  | .reliable => s.handleReliablePacket P body a
  | .ack => (s, [])
  | .encrypted => s.handleEncrypted P body a
  | .data => s.handleData body a
  | .ping => (s.touch a, [])
  | .pong => (s.handlePongBody body a, [])
  | .fec => (s, [])
  | .joinAck => (s, [])

def handleRecovered (acc : Inbound γ × List Output) (pkt : Bytes) : Inbound γ × List Output :=
  match parseCompact pkt with
  | some (ty, body) =>
    let r := acc.1.handleCompactPacket P ty body a
    (r.1, acc.2 ++ r.2)
  | none => acc

def handleFec (rs : Codec γ UInt8) (buf : Bytes) (a : Arrival) : Inbound γ × List Output :=
  let decoder := (s.fecDecoders.lookup a.fromEp).getD (.new a.now)
  let r := decoder.pushShard rs buf a.now a.fecOrder
  let s := { s with fecDecoders := s.fecDecoders.insert a.fromEp r.1 }
  r.2.recovered.foldl (handleRecovered P a) (s, [])

def handlePacket (rs : Codec γ UInt8) (buf : Bytes) (a : Arrival) : Inbound γ × List Output :=
  match parseDatagram buf with
  | none => (s, [])
  | some (.control tag body) => s.handleParsedPacket P tag body a
  | some (.compact .fec _) => s.handleFec P rs buf a
  | some (.compact ty body) => s.handleCompactPacket P ty body a

end

def step {γ : Type} (P : Primitives) (rs : Codec γ UInt8) (s : Inbound γ) (d : Bytes × Arrival) :
    Inbound γ × List Output :=
  s.handlePacket P rs d.1 d.2

end Inbound

end ConnectUnit
