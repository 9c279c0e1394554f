import ConnectUnit.Engine
import ConnectUnit.PeerState
import ConnectUnit.RoutingComplete

/-!
# Route updates and what goes with them

`update_route` moves what the engine keeps for the old endpoint of a peer to the new one, or drops it, whether or not
the routing table accepted the update.
-/

namespace ConnectUnit

variable {vip : String} {ep : SocketAddr} {nodeId : Option String} {order : List String} {now : Instant}

/-- The engine with the state it keeps for each endpoint; `E`, `D` and `C` are the types of FEC encoders
and decoders and of congestion control. -/
structure P2PEngine (E D C : Type) where
  core : Engine
  reliable : ReliableChannel
  fecSendByDest : HashMap SocketAddr PeerFecSendState
  fecTx : FecTx E
  fecDecoders : HashMap SocketAddr D
  pacing : PacingEngine C
  outboundUdp : HashMap SocketAddr Instant
  pmtud : PathMtuDiscovery
  endpointLearnedHandler : Bool
  /-- The endpoint that the handler was told last for each address. -/
  remembered : HashMap String SocketAddr

namespace P2PEngine

section
variable {E D C : Type}
variable {s : P2PEngine E D C}

/-! ## The update -/

def invalidateFecQdCache (s : P2PEngine E D C) (ep : SocketAddr) : P2PEngine E D C :=
  { s with fecSendByDest := s.fecSendByDest.modify ep fun st => { st with queuingDelayMsCached := none } }

def removePeerEndpoint (s : P2PEngine E D C) (ep : SocketAddr) : P2PEngine E D C :=
  { s with
    pacing := s.pacing.removePeer ep
    outboundUdp := s.outboundUdp.erase ep
    pmtud := s.pmtud.removePeer ep }

def rememberEndpoint (s : P2PEngine E D C) (vip : String) (ep : SocketAddr) : P2PEngine E D C :=
  if s.core.myVip = "" then s
  else if (ipv4ToU32 vip).isNone then s
  else if s.endpointLearnedHandler then { s with remembered := s.remembered.insert vip ep }
  else s

def leaveEndpoint (s : P2PEngine E D C) (prev ep : SocketAddr) : P2PEngine E D C :=
  let s := (s.invalidateFecQdCache prev).invalidateFecQdCache ep
  let s := { s with
    core := { s.core with cryptoKeys := s.core.cryptoKeys.unbindPeer prev }
    fecSendByDest := s.fecSendByDest.erase prev
    fecTx := s.fecTx.removePeer prev
    fecDecoders := s.fecDecoders.erase prev }
  s.removePeerEndpoint prev

def applyRouteEndpointChangeSideEffects (s : P2PEngine E D C) (vip : String) (ep : SocketAddr)
    (oldEp : Option SocketAddr) : P2PEngine E D C :=
  let s := match oldEp with
    | some prev =>
      let s := { s with reliable := s.reliable.migrateDest prev ep }
      if prev ≠ ep then s.leaveEndpoint prev ep else s
    | none => s.invalidateFecQdCache ep
  s.rememberEndpoint vip ep

def refreshFecQdCache (s : P2PEngine E D C) (ep : SocketAddr) : P2PEngine E D C :=
  let rt := s.core.routing
  let qd := match (rt.epToVip.lookup ep).bind rt.table.lookup with
    | some e => e.effectiveQueuingDelayMs rt.congestion.owdPreferAfterSamples
    | none => -1
  { s with fecSendByDest := s.fecSendByDest.insert ep ⟨some qd⟩ }

def updateRoute (s : P2PEngine E D C) (vip : String) (ep : SocketAddr) (nodeId : Option String)
    (order : List String) (now : Instant) : P2PEngine E D C :=
  if s.core.myVip = "" ∨ vip = s.core.myVip then s
  else
    let oldEp := s.core.routing.lookup vip
    let rt := Engine.stampRelayPath (s.core.routing.update vip ep nodeId now) vip s.core.myVip order now
    let s := { s with core := { s.core with routing := rt } }
    (s.applyRouteEndpointChangeSideEffects vip ep oldEp).refreshFecQdCache ep

/-! ## Effects -/

structure SamePeers (s s' : P2PEngine E D C) : Prop where
  pending : ∀ seq, (s'.reliable.pending.lookup seq).map (·.dest) = (s.reliable.pending.lookup seq).map (·.dest)
  keys : ∀ ep, s'.core.cryptoKeys.perPeer.lookup ep = s.core.cryptoKeys.perPeer.lookup ep
  encoders : ∀ ep, s'.fecTx.encoders.lookup ep = s.fecTx.encoders.lookup ep
  decoders : ∀ ep, s'.fecDecoders.lookup ep = s.fecDecoders.lookup ep
  queues : ∀ ep, s'.pacing.peerQueues.lookup ep = s.pacing.peerQueues.lookup ep
  mtus : ∀ ep, s'.pmtud.peers.lookup ep = s.pmtud.peers.lookup ep

/-- So is the remembered endpoint of the address. -/
structure Untouched (s s' : P2PEngine E D C) (vip : String) : Prop extends s.SamePeers s' where
  remembered : s'.remembered.lookup vip = s.remembered.lookup vip

structure HoldsNothing (s : P2PEngine E D C) (ep : SocketAddr) : Prop where
  pending : ∀ seq p, s.reliable.pending.lookup seq = some p → p.dest ≠ ep
  keys : s.core.cryptoKeys.perPeer.lookup ep = none
  encoders : s.fecTx.encoders.lookup ep = none
  decoders : s.fecDecoders.lookup ep = none
  queues : s.pacing.peerQueues.lookup ep = none
  mtus : s.pmtud.peers.lookup ep = none

/-- The update has nothing to do besides the routing table. -/
def Quiet (s : P2PEngine E D C) (vip : String) (ep : SocketAddr) : Prop :=
  (s.core.myVip = "" ∨ vip = s.core.myVip) ∨
    (∀ prev, s.core.routing.lookup vip = some prev → prev = ep ∨ s.HoldsNothing prev) ∧
    (s.endpointLearnedHandler = true → (ipv4ToU32 vip).isSome → s.remembered.lookup vip = some ep)

theorem updateRoute_core :
    (s.updateRoute vip ep nodeId order now).core = s.core.updateRoute vip ep nodeId order now := by
  have hremember : ∀ m : P2PEngine E D C, (m.rememberEndpoint vip ep).core = m.core := by
    intro m
    unfold rememberEndpoint
    repeat (split; · rfl)
    rfl
  unfold updateRoute Engine.updateRoute
  split
  · rfl
  simp only [refreshFecQdCache, applyRouteEndpointChangeSideEffects, hremember]
  cases s.core.routing.lookup vip with
  | none => rfl
  | some prev =>
    dsimp only
    split <;> rfl

theorem SamePeers.refl (s : P2PEngine E D C) : s.SamePeers s where
  pending _ := rfl
  keys _ := rfl
  encoders _ := rfl
  decoders _ := rfl
  queues _ := rfl
  mtus _ := rfl

theorem rememberEndpoint_samePeers (s m : P2PEngine E D C) (vip : String) (ep : SocketAddr) :
    s.SamePeers ((m.rememberEndpoint vip ep).refreshFecQdCache ep) ↔ s.SamePeers m := by
  have hsame : ∀ r, s.SamePeers (refreshFecQdCache { m with remembered := r } ep) ↔ s.SamePeers m :=
    fun _ => ⟨fun h => ⟨h.1, h.2, h.3, h.4, h.5, h.6⟩, fun h => ⟨h.1, h.2, h.3, h.4, h.5, h.6⟩⟩
  unfold rememberEndpoint
  split
  · exact hsame m.remembered
  split
  · exact hsame m.remembered
  split
  · exact hsame (m.remembered.insert vip ep)
  exact hsame m.remembered

theorem rememberEndpoint_lookup (h : s.core.myVip ≠ "") (vip : String) (ep : SocketAddr) :
    (s.rememberEndpoint vip ep).remembered.lookup vip =
      if s.endpointLearnedHandler = true ∧ (ipv4ToU32 vip).isSome then some ep else s.remembered.lookup vip := by
  unfold rememberEndpoint
  rw [if_neg h]
  cases ipv4ToU32 vip with
  | none => simp
  | some u => cases hl : s.endpointLearnedHandler <;> simp

theorem remembered_same_iff {o : Option SocketAddr} {handler : Bool} {ip : Option UInt32} :
    (if handler = true ∧ ip.isSome then some ep else o) = o ↔ (handler = true → ip.isSome → o = some ep) := by
  split
  · rename_i h
    exact ⟨fun ho _ _ => ho.symm, fun ho => (ho h.1 h.2).symm⟩
  rename_i h
  exact ⟨fun _ hh hi => absurd ⟨hh, hi⟩ h, fun _ => rfl⟩

theorem untouched_iff {m : P2PEngine E D C} (hvip : m.core.myVip ≠ "")
    (hh : m.endpointLearnedHandler = s.endpointLearnedHandler) (hr : m.remembered = s.remembered) (vip : String)
    (ep : SocketAddr) :
    s.Untouched ((m.rememberEndpoint vip ep).refreshFecQdCache ep) vip ↔ s.SamePeers m ∧
        (s.endpointLearnedHandler = true → (ipv4ToU32 vip).isSome → s.remembered.lookup vip = some ep) := by
  have hl := rememberEndpoint_lookup hvip vip ep
  rw [hh, hr] at hl
  rw [← rememberEndpoint_samePeers s m vip ep, ← remembered_same_iff, ← hl]
  exact ⟨fun h => ⟨h.toSamePeers, h.remembered⟩, fun h => ⟨h.1, h.2⟩⟩

theorem samePeers_leave_iff (s : P2PEngine E D C) (rt : RoutingTable) {prev : SocketAddr} (h : prev ≠ ep) :
    s.SamePeers ({ s with
      core := { s.core with routing := rt }
      reliable := s.reliable.migrateDest prev ep }.leaveEndpoint prev ep) ↔ s.HoldsNothing prev := by
  have hp := s.reliable.migrateDest_same_iff h
  have hq := s.pacing.removePeer_queues prev
  have hm := s.pmtud.removePeer_peers prev
  constructor
  · intro h
    obtain ⟨hpending, hkeys, henc, hdec, hqueues, hmtus⟩ := h
    simp only [leaveEndpoint, removePeerEndpoint, invalidateFecQdCache, CryptoPool.unbindPeer, FecTx.removePeer,
      HashMap.lookup_erase_eq, hq, hm, HashMap.forall_erased_iff] at hkeys henc hdec hqueues hmtus
    exact ⟨hp.mp hpending, hkeys, henc, hdec, hqueues, hmtus⟩
  intro hn
  refine ⟨hp.mpr hn.pending, ?_, ?_, ?_, ?_, ?_⟩ <;>
    simp only [leaveEndpoint, removePeerEndpoint, invalidateFecQdCache, CryptoPool.unbindPeer, FecTx.removePeer,
      HashMap.lookup_erase_eq, hq, hm, HashMap.forall_erased_iff]
  exacts [hn.keys, hn.encoders, hn.decoders, hn.queues, hn.mtus]

theorem updateRoute_untouched_iff : s.Untouched (s.updateRoute vip ep nodeId order now) vip ↔ s.Quiet vip ep := by
  have hself := SamePeers.refl s
  unfold updateRoute Quiet
  split
  · rename_i hearly
    exact ⟨fun _ => .inl hearly, fun _ => ⟨hself, rfl⟩⟩
  rename_i hearly
  have hvip : s.core.myVip ≠ "" := fun hv => hearly (.inl hv)
  rw [or_iff_right hearly]
  unfold applyRouteEndpointChangeSideEffects
  cases s.core.routing.lookup vip with
  | none =>
    dsimp only
    refine (untouched_iff ?_ ?_ ?_ vip ep).trans (and_congr_left fun _ => ?_)
    · exact hvip
    · rfl
    · rfl
    · exact ⟨fun _ prev hprev => (by cases hprev), fun _ => ⟨hself.1, hself.2, hself.3, hself.4, hself.5, hself.6⟩⟩
  | some prev =>
    simp only [Option.some.injEq, forall_eq']
    by_cases he : prev = ep
    · subst he
      simp only [ne_eq, not_true, if_false, true_or, true_and]
      refine (untouched_iff ?_ ?_ ?_ vip prev).trans (and_iff_right ?_)
      · exact hvip
      · rfl
      · rfl
      · exact ⟨(by simp [ReliableChannel.migrateDest]), hself.2, hself.3, hself.4, hself.5, hself.6⟩
    simp only [ne_eq, he, not_false_eq_true, if_true, false_or]
    refine (untouched_iff ?_ ?_ ?_ vip ep).trans (and_congr_left fun _ => ?_)
    · exact hvip
    · rfl
    · rfl
    · exact samePeers_leave_iff s _ he

/-- A rejected update touches nothing else exactly if nothing is kept for the old endpoint of the route
and the new one is already the one remembered. -/
theorem rejected_update_untouched_iff (s : P2PEngine E D C) (vip : String) (ep : SocketAddr) (nodeId : Option String)
    (order : List String) (now : Instant) :
    (s.core.routing.Rejects vip ep nodeId → s.Untouched (s.updateRoute vip ep nodeId order now) vip) ↔ ¬
    s.core.routing.Rejects vip ep nodeId ∨ s.Quiet vip ep := by
  rw [updateRoute_untouched_iff, imp_iff_not_or]

end

def twoRoutes : P2PEngine Unit Unit Unit where
  core := ((Engine.new (.new 0) 0x0A000001 "a" 24 0).updateRoute "10.0.0.2" (.v4 0xC0A80102 7777) (some "b") [] 1
    ).updateRoute "10.0.0.3" (.v4 0xC0A80103 7777) (some "c") [] 2
  reliable := ⟨AList.singleton 1 ⟨.v4 0xC0A80103 7777, none⟩, [], none⟩
  fecSendByDest := ∅
  fecTx := ⟨∅, ∅⟩
  fecDecoders := ∅
  pacing := ⟨∅, 0, 0, 0, ∅⟩
  outboundUdp := ∅
  pmtud := ⟨∅, defaultMtu, none⟩
  endpointLearnedHandler := false
  remembered := ∅

/-- An update of 10.0.0.3 to the endpoint of 10.0.0.2 is rejected, and moves the packet there. -/
theorem rejected_update_moves_packet : twoRoutes.core.routing.Rejects "10.0.0.3" (.v4 0xC0A80102 7777) (some "c") ∧
      ¬ twoRoutes.Untouched (twoRoutes.updateRoute "10.0.0.3" (.v4 0xC0A80102 7777) (some "c") [] 3) "10.0.0.3" := by
  refine ⟨⟨"10.0.0.2", _, by decide, by decide, rfl, by decide, .inl ⟨by decide, by decide⟩⟩, fun h => ?_⟩
  exact absurd (h.pending 1) (by decide)

end P2PEngine

end ConnectUnit
