import ConnectUnit.Engine

/-!
# Two engines and a channel

Node `a` sends data frames to node `b` over a channel that keeps them all, in order. The routes of both nodes to each
other come and go.
-/

namespace ConnectUnit

/-! ## The system -/

structure Node where
  vip : String
  addr : UInt32
  ep : SocketAddr
  parses : ipv4ToU32 vip = some addr
  assigned : addr ≠ 0

inductive RouteEvent where
  | learn (nodeId : Option String) (order : List String)
  | leave (nodeId : String) (pick : Nat)
  | lostFight (nodeId : String)
  | staleEvict (staleMark staleAge : Nat) (order : List String)

def RouteEvent.event (peer : Node) : RouteEvent → Engine.Event
  | .learn nodeId order => .updateRoute peer.vip peer.ep nodeId order
  | .leave nodeId pick => .leave nodeId peer.vip pick
  | .lostFight nodeId => .vipFight nodeId peer.vip
  | .staleEvict staleMark staleAge order => .staleEvict staleMark staleAge order

structure Link where
  a : Engine
  b : Engine
  /-- The frames under way, oldest first, each with the epoch it was sealed in. -/
  wire : List (Nat × Bytes)
  /-- How often `a` has lost its send counter for `b`. -/
  epoch : Nat
  /-- The epoch of the frame that `b` accepted last, if it still has the replay window for it. -/
  accepted : Option Nat

inductive LinkEvent where
  | send (payload : Bytes)
  | deliver
  | routeA (ev : RouteEvent)
  | routeB (ev : RouteEvent)

namespace Link

def start (na nb : Node) (key : Key) (nodeA nodeB : String) (pre : Nat) (now : Instant) : Link where
  a := (Engine.new (.new now) na.addr nodeA pre now).setCryptoKey key
  b := (Engine.new (.new now) nb.addr nodeB pre now).setCryptoKey key
  wire := []
  epoch := 0
  accepted := none

def framesTo (dest : SocketAddr) (outs : List Output) : List Bytes :=
  outs.filterMap fun
    | .send d frame => if d = dest then some frame else none
    | _ => none

def receiveFrame (P : Primitives) (e : Engine) (fromEp : SocketAddr) (now : Instant) : Bytes → Engine × List Output
  | [] => (e, [])
  | tag :: body => if tag = compactEncrypted then e.step P (now, .encrypted body fromEp) else (e, [])

section
variable (P : Primitives) (na nb : Node)
variable (s : Link)

def sendFrame (payload : Bytes) (now : Instant) : Link :=
  let r := s.a.step P (now, .sendMenc nb.ep payload)
  { s with a := r.1, wire := s.wire ++ (framesTo nb.ep r.2).map (s.epoch, ·) }

def deliverFrame (now : Instant) : Link × List Output :=
  match s.wire with
  | [] => (s, [])
  | (n, frame) :: wire =>
    let r := receiveFrame P s.b na.ep now frame
    ({ s with b := r.1, wire := wire, accepted := if r.2.isEmpty then s.accepted else some n }, r.2)

def routeAtA (ev : RouteEvent) (now : Instant) : Link :=
  let a := (s.a.step P (now, ev.event nb)).1
  let lost := (s.a.data.dataSendCtr.lookup nb.addr).isSome && (a.data.dataSendCtr.lookup nb.addr).isNone
  { s with a := a, epoch := if lost then s.epoch + 1 else s.epoch }

def routeAtB (ev : RouteEvent) (now : Instant) : Link :=
  let b := (s.b.step P (now, ev.event na)).1
  { s with b := b, accepted := if (b.data.dataReplay.lookup na.addr).isNone then none else s.accepted }

def step (ev : Instant × LinkEvent) : Link × List Output :=
  match ev.2 with
  | .send payload => (s.sendFrame P nb payload ev.1, [])
  | .deliver => s.deliverFrame P na ev.1
  | .routeA ev' => (s.routeAtA P nb ev' ev.1, [])
  | .routeB ev' => (s.routeAtB P na ev' ev.1, [])

end

/-- The frame at the head of the channel is the first since `b` lost its replay window, or it was sealed
in the same epoch as the frame accepted before it. -/
def MeetsEpoch (na : Node) (s : Link) (ev : Instant × LinkEvent) : Prop :=
  match ev.2 with
  | .deliver => ∀ n frame wire, s.wire = (n, frame) :: wire → (s.b.endpointToVipU32 na.ep).isSome →
      ∀ m, s.accepted = some m → m = n
  | _ => True

def AcceptsHead (P : Primitives) (na nb : Node) (s : Link) (ev : Instant × LinkEvent) : Prop :=
  match ev.2 with
  | .deliver => s.wire ≠ [] → (s.b.endpointToVipU32 na.ep).isSome →
      ∃ plain, .handleMdatLike plain na.ep ∈ (s.step P na nb ev).2
  | _ => True

end Link

end ConnectUnit
