import Mathlib.Data.List.Sort
import Mathlib.Data.List.Rotate
import Mathlib.Data.List.Dedup
import ConnectUnit.Claim

/-!
# Claim gossip

What a member knows about the others: the claims of virtual addresses, the tombstones of members that left, and the
suppressed claims of members that lost a fight for an address.
-/

namespace ConnectUnit

structure ClaimRecord where
  nodeId : String
  vip : String
  vipEpoch : Nat
  epHints : List String
  deriving DecidableEq, Repr

structure Mark where
  nodeId : String
  vip : String
  vipEpoch : Nat
  expiresAt : Instant
  deriving DecidableEq, Repr

abbrev LeaveTombstone := Mark

abbrev FightSuppress := Mark

abbrev ClaimMap := HashMap String ClaimRecord

abbrev Marks := HashMap String Mark

inductive MergeOutcome where
  | accepted
  | ignoredStale
  | blockedByTombstone
  | blockedByFight
  | rejected
  deriving DecidableEq, Repr

def MergeOutcome.isBlocked (o : MergeOutcome) : Bool :=
  o = .rejected || o = .blockedByTombstone || o = .blockedByFight

def claimGossipDigestMax : Nat := 32
def claimGossipLeaveTombsMax : Nat := 8
def leaveTombstoneTtl : Nat := secs 300
def fightSuppressTtl : Nat := secs 30

/-! ## Marks -/

def installMark (marks : Marks) (nodeId vip : String) (vipEpoch : Nat) (now : Instant) (ttl : Nat) : Marks :=
  if nodeId = "" || !claimVipValid vip then marks
  else marks.insert nodeId ⟨nodeId, vip, vipEpoch, now + ttl⟩

def pruneMarks (marks : Marks) (now : Instant) : Marks := marks.retain fun _ m => m.expiresAt > now

variable (suppress tombs : Marks) (map : ClaimMap)

def installFightSuppress := installMark suppress

def installLeaveTombstone := installMark tombs

def pruneFightSuppress := pruneMarks suppress

def pruneLeaveTombstones := pruneMarks tombs

def fightSuppressBlocks (nodeId vip : String) (vipEpoch : Nat) (now : Instant) : Bool :=
  (suppress.lookup nodeId).any fun s => s.expiresAt > now && s.vip = vip && s.vipEpoch = vipEpoch

def leaveTombstoneBlocks (nodeId : String) (claimEpoch : Nat) (now : Instant) : Bool :=
  (tombs.lookup nodeId).any fun t => t.expiresAt > now && claimEpoch ≤ t.vipEpoch

/-! ## Merging -/

def mergeByEpoch (incoming : ClaimRecord) : ClaimMap × MergeOutcome :=
  match map.lookup incoming.nodeId with
  | none => (map.insert incoming.nodeId incoming, .accepted)
  | some existing =>
    if incoming.vipEpoch > existing.vipEpoch then (map.insert incoming.nodeId incoming, .accepted)
    else if incoming.vipEpoch = existing.vipEpoch ∧ incoming.vip = existing.vip then
      if incoming.epHints ≠ [] ∧ incoming.epHints ≠ existing.epHints then
        (map.insert incoming.nodeId { existing with epHints := incoming.epHints }, .accepted)
      else (map, .ignoredStale)
    else (map, .ignoredStale)

def mergeClaim (incoming : ClaimRecord) (tombs suppress : Marks) (now : Instant) : ClaimMap × Marks × MergeOutcome :=
  if incoming.nodeId = "" || !claimVipValid incoming.vip then (map, suppress, .rejected)
  else if leaveTombstoneBlocks tombs incoming.nodeId incoming.vipEpoch now then (map, suppress, .blockedByTombstone)
  else if fightSuppressBlocks suppress incoming.nodeId incoming.vip incoming.vipEpoch now then
    (map, installFightSuppress suppress incoming.nodeId incoming.vip incoming.vipEpoch now fightSuppressTtl,
      .blockedByFight)
  else
    let r := mergeByEpoch map incoming
    (r.1, suppress, r.2)

def removeClaim (nodeId : String) : ClaimMap := map.erase nodeId

def removeClaimsForVip (vip : String) : ClaimMap := map.retain fun _ c => c.vip ≠ vip

def claimStillLive (nodeId vip : String) (vipEpoch : Nat) : Bool :=
  (map.lookup nodeId).any fun c => c.vip = vip && c.vipEpoch = vipEpoch

/-! ## Fights for an address -/

def nodeIdWins (localNodeId remoteNodeId : String) : Bool := localNodeId < remoteNodeId

def localLosesVipConflict (localNodeId remoteNodeId : String) : Bool :=
  !nodeIdWins localNodeId remoteNodeId && localNodeId ≠ remoteNodeId

def shouldRerollForVipFight (localNodeId localVip remoteNodeId remoteVip : String) : Bool :=
  remoteVip = localVip && localLosesVipConflict localNodeId remoteNodeId

def claimants (vip : String) : List String :=
  ((map.entries.filter fun e => e.2.vip = vip).map (·.1)).insertionSort (· ≤ ·)

def settleDuplicateVips (order : IterOrder) : ClaimMap × List String :=
  let losers := (order.arrange (map.entries.map (·.2.vip)).dedup).flatMap fun vip => (claimants map vip).drop 1
  (losers.foldl removeClaim map, losers)

def parseU8 (cs : List Char) : Option Nat :=
  let digits := if cs.head? = some '+' then cs.tail else cs
  if digits.isEmpty || digits.any fun c => (digit c).isNone then none
  else
    let n := digits.foldl (fun n c => 10 * n + (digit c).getD 0) 0
    if n ≤ 255 then some n else none

def dotted (a b c d : Nat) : String :=
  toString a ++ "." ++ toString b ++ "." ++ toString c ++ "." ++ toString d

def pickFreeVip (baseVip : String) (occupied : String → Bool) : Option String :=
  match (baseVip.toList.splitOn '.').filterMap parseU8 with
  | [a, b, c, d] =>
    let start := (d * 37 + 17) % 254
    ((List.range 254).map fun offset => dotted a b c ((start + offset) % 254 + 1)).find? fun cand => !occupied cand
  | _ => none

/-! ## Digests -/

def rotated {α : Type} (items : List α) (start count : Nat) : List α :=
  (items.rotate start).take count

def buildGossipDigestRotated (own : ClaimRecord) (map : ClaimMap) (tombs : Marks) (now : Instant)
    (maxOthers startIdx : Nat) : List ClaimRecord :=
  let others := ((map.entries.map (·.2)).filter fun c =>
    c.nodeId ≠ own.nodeId && !leaveTombstoneBlocks tombs c.nodeId c.vipEpoch now).insertionSort
      fun a b => a.nodeId ≤ b.nodeId
  own :: rotated others startIdx maxOthers

def selectLeaveTombsForGossip (now : Instant) (max : Nat) (order : IterOrder) : List LeaveTombstone :=
  let live := (order.arrange (tombs.entries.map (·.2))).filter fun t => t.expiresAt > now
  (live.insertionSort fun a b => b.expiresAt ≤ a.expiresAt).take max

def rotateEndpoints (eps : List SocketAddr) (cursor cap : Nat) : List SocketAddr := rotated eps cursor cap

end ConnectUnit
