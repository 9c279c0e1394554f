import ConnectUnit.Broadcast
import ConnectUnit.Routing

/-!
# Forwarding between engines

A data frame that an engine receives is injected into its adapter, handed on to the peer that has the destination's
virtual IP, or, if it is a broadcast, both injected and handed on to everyone but the sender.
-/

namespace ConnectUnit

def RoutingTable.selectBroadcastRelayHop (t : RoutingTable) (myVip : String) (exclude : Option SocketAddr)
    (order : List String) : RelaySelection :=
  match t.bestUsablePeerHop none myVip exclude order with
  | some ep => .hop ep
  | none => .none

def RoutingTable.transitionState (t : RoutingTable) (vip : String) (now : Instant) :
    Option (SocketAddr × PathKind) := do
  let entry ← t.table.lookup vip
  let expiry ← entry.dualWriteUntil
  if now ≥ expiry then none
  else
    let ep ← entry.dualWriteOldEp
    let kind ← entry.dualWriteOldKind
    some (ep, kind)

def RoutingTable.RelaySelection.endpoint : RoutingTable.RelaySelection → Option SocketAddr
  | .hop ep => some ep
  | .none => Option.none

def isBroadcastOrMulticast (pkt : Bytes) : Bool :=
  match pkt.head?, (pkt.drop 16).take 4 with
  | some b0, [d0, d1, d2, d3] =>
    20 ≤ pkt.length && b0 >>> 4 = 4 && ([d0, d1, d2, d3] = [255, 255, 255, 255] || (224 ≤ d0 && d0 ≤ 239))
  | _, _ => false

/-- The destination in the header, in network order. -/
def dstU32 (pkt : Bytes) : UInt32 :=
  UInt32.ofNat (((pkt.drop 16).take 4).foldl (fun n b => n * 256 + b.toNat) 0)

/-- What an engine does with a packet: `noted` is a key entered for deduplication. -/
inductive Action where
  | noted (key : BcastKey)
  | inject
  | forward (ep : SocketAddr)
  | send (ep : SocketAddr)
  deriving DecidableEq

structure Router where
  routing : RoutingTable
  myVip : String
  myVipU32 : UInt32
  dualWriteTransition : Bool
  multipathCore : Bool
  order : IterOrder

namespace Router

variable (r : Router)

def rows : List (String × RouteEntry) := (r.order.arrange r.routing.table.entries).map fun e => (e.1, e.2)

def relayHop (exclude : Option SocketAddr) : Option SocketAddr :=
  (r.routing.selectBroadcastRelayHop r.myVip exclude (r.rows.map (·.1))).endpoint

/-! ## A frame from a peer -/

variable (d : BroadcastDeduplicator) (now : Instant) (raw : Bytes) (fromEp : SocketAddr)

def transitionVip : Option String :=
  if r.dualWriteTransition then
    (r.routing.epToVip.lookup fromEp).filter fun vip => (r.routing.transitionState vip now).isSome
  else none

def direct : List SocketAddr :=
  ((r.rows.filter fun x => x.2.endpoint ≠ fromEp).filter fun x => !x.2.shouldRelay r.routing.failover).map
    (·.2.endpoint)

def needRelay : Bool :=
  (r.rows.filter fun x => x.2.endpoint ≠ fromEp).any fun x => x.2.shouldRelay r.routing.failover

def hub : Option SocketAddr := if r.needRelay fromEp then r.relayHop (some fromEp) else none

def floodTargets : List SocketAddr :=
  match r.hub fromEp with
  | some hub => (r.direct fromEp).filter (· ≠ hub) ++ if hub ≠ fromEp then [hub] else []
  | none => r.direct fromEp

def forwardUnicast : List Action :=
  let dst := dstU32 raw
  if dst = r.myVipU32 ∧ r.myVipU32 ≠ 0 then [.inject]
  else if (r.routing.epToVip.lookup fromEp).isSome then
    match r.routing.lookupByVipU32 dst with
    | some ep => if ep ≠ fromEp then [.forward ep] else []
    | none => []
  else []

def noted (key : BcastKey) (fresh : Bool) : List Action := if fresh then [.noted key] else []

def forwardBroadcast : BroadcastDeduplicator × List Action :=
  let c := d.isFresh now raw
  (c.1, noted (d.makeKey raw) c.2 ++ if c.2 then .inject :: (r.floodTargets fromEp).map .forward else [])

def forwardMdat : BroadcastDeduplicator × List Action :=
  if isBroadcastOrMulticast raw then r.forwardBroadcast d now raw fromEp else (d, r.forwardUnicast raw fromEp)

def handleMdatLike : BroadcastDeduplicator × List Action :=
  if raw.length < 20 then (d, [])
  else
    match r.transitionVip now fromEp with
    | none => r.forwardMdat d now raw fromEp
    | some vip =>
      let c := d.isFreshScoped now vip raw
      let out := noted (d.makeScopedKey vip raw) c.2
      if c.2 then
        let f := r.forwardMdat c.1 now raw fromEp
        (f.1, out ++ f.2)
      else (c.1, out)

/-! ## A packet from the adapter -/

section
variable (now : Instant) (ok : SocketAddr → Bool)

/-- A frame to `dest`, or to a usable hub if `dest` cannot be sent to; `ok` tells to whom a frame can be sent. -/
def sendDataWithFallback (dest : SocketAddr) : List Action :=
  if ok dest then [.send dest]
  else ((r.relayHop (some dest)).filter fun hub => ok hub).toList.map .send

def sendRelayHop (hop : SocketAddr) (destVip : String) : List Action :=
  if ok hop then [.send hop]
  else
    let routing := r.routing.noteFail hop none now
    let selection := routing.selectRelayEndpoint destVip r.myVip (some hop) (r.rows.map (·.1))
    (selection.endpoint.filter fun alt => ok alt).toList.map .send

def sendViaKind (destEp : SocketAddr) (kind : PathKind) (destVip : Option String) : List Action :=
  match kind with
  | .direct | .iceSrflx => r.sendDataWithFallback ok destEp
  | .hubRelay =>
    match destVip with
    | some vip => r.sendRelayHop now ok destEp vip
    | none => []

def endpointsExcludingStale : List SocketAddr := (r.rows.filter fun x => x.2.state ≠ .stale).map (·.2.endpoint)

variable (ep : SocketAddr)

def pathInUse (entry : Option RouteEntry) : SocketAddr × PathKind :=
  let active := if r.multipathCore then (entry.bind (·.pathSet)).bind PathSet.activeEndpointKind else none
  match active.filter fun a => a.2 ≠ .hubRelay with
  | some a => a
  | none => (ep, .direct)

def unicastTarget (vip : String) : Option (SocketAddr × PathKind) :=
  let entry := r.routing.table.lookup vip
  if entry.any fun e => e.shouldRelay r.routing.failover then
    match r.routing.selectRelayEndpoint vip r.myVip none (r.rows.map (·.1)) with
    | .hop hop => some (hop, .hubRelay)
    | .none => if entry.any fun e => e.state = .stale then none else some (ep, .direct)
  else some (r.pathInUse ep entry)

def oldPath (vip : String) (kind : PathKind) (prev : Option PathKind) : Option (SocketAddr × PathKind) :=
  if r.dualWriteTransition then
    match prev.filter (· ≠ kind) with
    | some oldKind => some (ep, oldKind)
    | none => r.routing.transitionState vip now
  else none

def sendUnicast (vip : String) (prev : Option PathKind) : List Action :=
  match r.unicastTarget ep vip with
  | none => []
  | some (target, kind) =>
    r.sendViaKind now ok target kind (some vip) ++
      match r.oldPath now ep vip kind prev with
      | some (oldEp, oldKind) => r.sendViaKind now ok oldEp oldKind (some vip)
      | none => []

def handleTunPacket (d : BroadcastDeduplicator) (pkt : Bytes) (prev : Option PathKind) :
    BroadcastDeduplicator × List Action :=
  let dst := dstU32 pkt
  if pkt.length < 20 then (d, [])
  else if dst = r.myVipU32 ∧ r.myVipU32 ≠ 0 then (d, [.inject])
  else
    match r.routing.lookupVipByU32 dst, r.routing.lookupByVipU32 dst with
    | some vip, some ep => (d, r.sendUnicast now ok ep vip prev)
    | _, _ =>
      if isBroadcastOrMulticast pkt then
        let c := d.isFresh now pkt
        (c.1, noted (d.makeKey pkt) c.2 ++
          if c.2 then r.endpointsExcludingStale.flatMap (r.sendDataWithFallback ok) else [])
      else (d, (r.relayHop none).toList.flatMap (r.sendDataWithFallback ok))

end

end Router

/-! ## Several engines -/

structure Mesh (ι : Type) where
  addr : ι → SocketAddr
  router : ι → Router

/-- The frames of the packet on their way, as pairs of sender and receiver. -/
structure Mesh.State (ι : Type) where
  dedup : ι → BroadcastDeduplicator
  flights : List (SocketAddr × SocketAddr)
  now : Instant

/-- `check` is a key that other traffic of the engine has checked. -/
inductive Mesh.Event (ι : Type) where
  | deliver (i : ι) (fromEp : SocketAddr)
  | check (i : ι) (key : BcastKey)
  | wait (dt : Nat)

namespace Mesh

section
variable {ι : Type} [DecidableEq ι] (net : Mesh ι) (pkt : Bytes)

def launched (i : ι) (out : List Action) : List (SocketAddr × SocketAddr) :=
  out.filterMap fun
    | .forward ep | .send ep => some (net.addr i, ep)
    | .inject | .noted _ => none

/-- Engine `i` has acted. -/
def State.act (s : State ι) (i : ι) (r : BroadcastDeduplicator × List Action) : State ι × List (ι × Action) :=
  ({ s with dedup := Function.update s.dedup i r.1, flights := s.flights ++ net.launched i r.2 }, r.2.map (i, ·))

def originate (s : State ι) (i : ι) (ok : SocketAddr → Bool) (prev : Option PathKind) : State ι × List (ι × Action) :=
  s.act net i ((net.router i).handleTunPacket s.now ok (s.dedup i) pkt prev)

def step (s : State ι) : Event ι → State ι × List (ι × Action)
  | .deliver i fromEp =>
    if (fromEp, net.addr i) ∈ s.flights then
      let s := { s with flights := s.flights.erase (fromEp, net.addr i) }
      s.act net i ((net.router i).handleMdatLike (s.dedup i) s.now pkt fromEp)
    else (s, [])
  | .check i key =>
    let c := (s.dedup i).isFreshKey s.now key
    s.act net i (c.1, Router.noted key c.2)
  | .wait dt => ({ s with now := s.now + dt }, [])

end

end Mesh

end ConnectUnit
