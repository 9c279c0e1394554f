import Mathlib.Data.Rat.Defs
import ConnectUnit.Net

/-!
# State kept for each endpoint

Reliable packets under way, FEC coders, pacing queues and path MTUs, with the operations that a change of a peer's
endpoint applies to them.
-/

namespace ConnectUnit

/-! ## Reliable packets -/

structure PendingPacket where
  dest : SocketAddr
  nextAt : Option Instant

structure ReliableChannel where
  pending : HashMap UInt32 PendingPacket
  /-- The heap of due packets, soonest first. -/
  dueHeap : List (Instant × UInt32)
  nextDueAt : Option Instant

namespace ReliableChannel

variable (r : ReliableChannel)

def popStaleDueHeapTop : ReliableChannel :=
  { r with dueHeap := r.dueHeap.dropWhile fun due =>
      !(r.pending.lookup due.2).any fun p => p.nextAt = some due.1 }

def refreshNextDueFromHeap : ReliableChannel :=
  let r := r.popStaleDueHeapTop
  { r with nextDueAt := r.dueHeap.head?.map (·.1) }

def migrateDest (oldDest newDest : SocketAddr) : ReliableChannel :=
  if oldDest = newDest then r
  else refreshNextDueFromHeap
    { r with pending := r.pending.mapVals fun p => if p.dest = oldDest then { p with dest := newDest } else p }

end ReliableChannel

/-! ## FEC -/

structure PeerFecSendState where
  queuingDelayMsCached : Option ℚ

structure FecTx (E : Type) where
  encoders : HashMap SocketAddr E
  hints : HashMap SocketAddr (Option ℚ × Option ℚ)

def FecTx.removePeer {E : Type} (f : FecTx E) (dest : SocketAddr) : FecTx E where
  encoders := f.encoders.erase dest
  hints := f.hints.erase dest

/-! ## Pacing -/

structure PeerDataQueue where
  small : List Bytes
  bulk : List Bytes

def PeerDataQueue.len (q : PeerDataQueue) : Nat := q.small.length + q.bulk.length

/-- The data queues of the peers in their order of service, and the state of any type `C` that
congestion control keeps for each. -/
structure PacingEngine (C : Type) where
  peerQueues : HashMap SocketAddr PeerDataQueue
  nonEmptyPeers : Nat
  queuedPacketsTotal : Nat
  drrCursor : Nat
  ccPeers : HashMap SocketAddr C

namespace PacingEngine

variable {C : Type}

def dropQueue (p : PacingEngine C) (dest : SocketAddr) (q : PeerDataQueue) : PacingEngine C :=
  let idx := p.peerQueues.keys.idxOf dest
  let queues := p.peerQueues.erase dest
  let cursor := if p.drrCursor > 0 ∧ idx < p.drrCursor then p.drrCursor - 1 else p.drrCursor
  { p with
    peerQueues := queues
    nonEmptyPeers := if q.len > 0 then p.nonEmptyPeers - 1 else p.nonEmptyPeers
    queuedPacketsTotal := p.queuedPacketsTotal - q.len
    drrCursor := if HashMap.size queues = 0 then 0 else cursor % HashMap.size queues }

def removePeer (p : PacingEngine C) (dest : SocketAddr) : PacingEngine C :=
  let p := match p.peerQueues.lookup dest with
    | some q => p.dropQueue dest q
    | none => p
  { p with ccPeers := p.ccPeers.erase dest }

end PacingEngine

/-! ## Path MTUs -/

def defaultMtu : Nat := 1220

structure PeerMtu where
  lastGood : Nat

structure PathMtuDiscovery where
  peers : HashMap SocketAddr PeerMtu
  minPathMtu : Nat
  pinned : Option Nat

namespace PathMtuDiscovery

def recalcMin (d : PathMtuDiscovery) : PathMtuDiscovery :=
  { d with minPathMtu := match d.pinned with
    | some m => m
    | none => (d.peers.entries.map (·.2.lastGood)).min?.getD defaultMtu }

def removePeer (d : PathMtuDiscovery) (peer : SocketAddr) : PathMtuDiscovery :=
  match d.peers.lookup peer with
  | some _ => recalcMin { d with peers := d.peers.erase peer }
  | none => d

end PathMtuDiscovery

/-! ## What a removal changes -/

theorem ReliableChannel.migrateDest_pending {r : ReliableChannel} {oldDest newDest : SocketAddr} {seq : UInt32} :
    (r.migrateDest oldDest newDest).pending.lookup seq =
      (r.pending.lookup seq).map fun p => if p.dest = oldDest then { p with dest := newDest } else p := by
  unfold migrateDest
  split
  · rename_i h
    subst h
    have hid : (fun p : PendingPacket => if p.dest = oldDest then { p with dest := oldDest } else p) = id := by
      funext p
      split
      · rename_i hp; cases p; cases hp; rfl
      rfl
    rw [hid, Option.map_id_fun, id]
  · exact HashMap.lookup_mapVals r.pending _ seq

theorem ReliableChannel.migrateDest_same_iff (r : ReliableChannel) {oldDest newDest : SocketAddr}
    (h : oldDest ≠ newDest) :
    (∀ seq, ((r.migrateDest oldDest newDest).pending.lookup seq).map (·.dest) = (r.pending.lookup seq).map (·.dest)) ↔
    ∀ seq p, r.pending.lookup seq = some p → p.dest ≠ oldDest := by
  constructor
  · intro hs seq p hp hd
    have hseq := hs seq
    rw [migrateDest_pending, hp] at hseq
    simp only [Option.map_some, if_pos hd, Option.some.injEq] at hseq
    exact h (hd.symm.trans hseq.symm)
  intro hn seq
  rw [migrateDest_pending]
  cases hp : r.pending.lookup seq with
  | none => rfl
  | some p => simp only [Option.map_some, if_neg (hn seq p hp)]

theorem PacingEngine.removePeer_queues {C : Type} (p : PacingEngine C) (dest ep : SocketAddr) :
    (p.removePeer dest).peerQueues.lookup ep = if ep = dest then none else p.peerQueues.lookup ep := by
  unfold removePeer
  cases h : p.peerQueues.lookup dest with
  | some q => exact HashMap.lookup_erase_eq p.peerQueues dest ep
  | none =>
    dsimp only
    split
    · rename_i he; rw [he, h]
    rfl

theorem PathMtuDiscovery.removePeer_peers (d : PathMtuDiscovery) (peer ep : SocketAddr) :
    (d.removePeer peer).peers.lookup ep = if ep = peer then none else d.peers.lookup ep := by
  unfold removePeer
  cases h : d.peers.lookup peer with
  | some q => exact HashMap.lookup_erase_eq d.peers peer ep
  | none =>
    dsimp only
    split
    · rename_i he; rw [he, h]
    rfl

end ConnectUnit
