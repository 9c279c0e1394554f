import ConnectUnit.Membership
import ConnectUnit.Reliable

/-!
# A whole receiving node

Datagrams and membership in one state.
-/

namespace ConnectUnit

/-- What the JSON parser makes of the bodies of the membership messages. -/
structure JsonText where
  join : Bytes → Option JoinJson
  gossip : Bytes → Option GossipJson
  leave : Bytes → Option LeaveJson

/-- Both halves have the engine in common. -/
structure Host (γ : Type) where
  inbound : Inbound γ
  member : Member
  same : member.core = inbound.core

namespace Host

inductive Output where
  | engine (o : ConnectUnit.Output)
  | member (o : MemberOutput)
  | ack (dest : SocketAddr) (packet : Bytes)
  /-- The body of a reliable packet is handed to `dispatch_control`. -/
  | delivered (seq : UInt32) (body : Bytes) (fromEp : SocketAddr)
  deriving DecidableEq

section
variable {γ : Type} (P : Primitives) (W : WireText) (J : JsonText) (n : Host γ)

def withInbound (s : Inbound γ) : Host γ := ⟨s, { n.member with core := s.core }, rfl⟩

def withMember (m : Member) : Host γ := ⟨{ n.inbound with core := m.core }, m, rfl⟩

/-! ## Messages that are handed on -/

def env (a : Arrival) (order : IterOrder) : Env := ⟨a.now, a.epochMs, a.pick n.inbound.core.cryptoKeys, order⟩

def handleMessage (authenticated : Bool) (a : Arrival) (order : IterOrder) (tag : Tag) (body : Bytes) :
    Host γ × List Output :=
  let env := n.env a order
  if tag = pktJoin then
    let r := n.member.handleJoin P W ⟨body.length, J.join body⟩ a.fromEp env
    (n.withMember r.1, r.2.map .member)
  else if tag = pktJack then
    (n.withMember (n.member.handleJoinAck P W ⟨body.length, J.join body⟩ a.fromEp env), [])
  else if tag = pktClg ∧ authenticated then
    let r := n.member.handleClaimGossipBody P W ⟨body.length, J.gossip body⟩ a.fromEp env
    (n.withMember r.1, r.2.map .member)
  else if tag = pktLeave ∧ authenticated then
    (n.withMember (n.member.handleLeave P ⟨body.length, J.leave body⟩ env), [])
  else (n, [])

def handOn (authenticated : Bool) (a : Arrival) (order : IterOrder) (n : Host γ) (o : ConnectUnit.Output) :
    Host γ × List Output :=
  match o with
  | .dispatchControl tag body _ => n.handleMessage P W J authenticated a order tag body
  | o => (n, [.engine o])

def absorb (authenticated : Bool) (a : Arrival) (order : IterOrder) (r : Inbound γ × List ConnectUnit.Output) :
    Host γ × List Output :=
  (Machine.run (handOn P W J authenticated a order) (n.withInbound r.1) r.2,
    Machine.trace (handOn P W J authenticated a order) (n.withInbound r.1) r.2)

/-! ## Packets -/

def reliableSeq? (body : Bytes) : Option UInt32 :=
  if body.length < 5 then none
  else if (body[4]?).bind CompactPacketType.tryFromByte ≠ some .joinAck then none
  else some (UInt32.ofNat (fromBeBytes (body.take 4)))

def handleReliablePacket (body : Bytes) (a : Arrival) (order : IterOrder) : Host γ × List Output :=
  match reliableSeq? body with
  | none => (n, [])
  | some seq =>
    let r := n.inbound.handleReliablePacket P body a
    let h := n.absorb P W J false a order r
    (h.1, .ack a.fromEp (Reliable.ackPacket seq) ::
      (r.2.map fun _ => .delivered seq (body.drop 5) a.fromEp) ++ h.2)

def handleCompactPacket (a : Arrival) (order : IterOrder) (n : Host γ) (pkt : CompactPacketType × Bytes) :
    Host γ × List Output :=
  if pkt.1 = .reliable then n.handleReliablePacket P W J pkt.2 a order
  else n.absorb P W J false a order (n.inbound.handleCompactPacket P pkt.1 pkt.2 a)

variable (rs : Codec γ UInt8)

/-- The compact packets in a datagram, and the node once an FEC shard has gone into its decoder. -/
def packets (buf : Bytes) (a : Arrival) : Host γ × List (CompactPacketType × Bytes) :=
  match parseDatagram buf with
  | some (.compact .fec _) =>
    let decoder := (n.inbound.fecDecoders.lookup a.fromEp).getD (.new a.now)
    let r := decoder.pushShard rs buf a.now a.fecOrder
    (n.withInbound { n.inbound with fecDecoders := n.inbound.fecDecoders.insert a.fromEp r.1 },
      r.2.recovered.filterMap parseCompact)
  | some (.compact ty body) => (n, [(ty, body)])
  | _ => (n, [])

def handlePacket (buf : Bytes) (a : Arrival) (order : IterOrder) : Host γ × List Output :=
  match parseDatagram buf with
  | some (.control tag body) =>
    n.absorb P W J (tag = pktCtsig) a order (n.inbound.handleParsedPacket P tag body a)
  | _ =>
    let p := n.packets rs buf a
    (Machine.run (handleCompactPacket P W J a order) p.1 p.2,
      Machine.trace (handleCompactPacket P W J a order) p.1 p.2)

/-! ## Events -/

def resetSession (now : Instant) : Host γ :=
  withMember
    { n with
      inbound := { n.inbound with
        fecDecoders := ∅
        pmtud := .new
        pendingPings := ∅
        pendingHealVips := []
        reliableSeen := []
        reliableSeenTimeline := [] } }
    { n.member with
      core := n.member.core.resetSession now
      claimMap := ∅
      leaveTombs := ∅
      fightSuppress := ∅
      msmdSeen := []
      msmdTimeline := []
      joinTx := none
      joiner := false }

inductive Event where
  | datagram (buf : Bytes) (a : Arrival) (order : IterOrder)
  | membership (env : Env) (ev : Member.Event)
  | command (ev : Engine.Event)

def step (now : Instant) (n : Host γ) : Event → Host γ × List Output
  | .datagram buf a order => n.handlePacket P W J rs buf { a with now := now } order
  | .membership env ev =>
    let r := n.member.step P W ({ env with now := now }, ev)
    (n.withMember r.1, r.2.map .member)
  | .command .resetSession => (n.resetSession now, [])
  | .command ev =>
    let r := n.member.core.step P (now, ev)
    (n.withMember { n.member with core := r.1 }, r.2.map .engine)

/-- A node with its clock; an action waits for some time and then takes an event. -/
def timedStep (s : Instant × Host γ) (act : Nat × Event) : (Instant × Host γ) × List Output :=
  let now := s.1 + act.1
  let r := s.2.step P W J rs now act.2
  ((now, r.1), r.2)

end

end Host

end ConnectUnit
