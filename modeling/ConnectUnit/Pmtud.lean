import Mathlib.Data.Rat.Floor
import ConnectUnit.PeerState

/-!
# Path MTU discovery

For each peer the discovery keeps the largest packet known to pass and the smallest known to fail, and a phase that
says which size is probed next.
-/

namespace ConnectUnit.Pmtud

def minMtuBound : Nat := 576
def maxMtu : Nat := 1500

def firstBadSentinel : Nat := maxMtu + 1

def revalidateHintCooldown : Nat := secs 5
def earlyWakeCooldown : Nat := secs 10
def anomalyRearmCap : Nat := secs 5
def adaptiveTimeoutCapMs : Nat := 5000

def clampSize (sz : Nat) : Nat := max minMtuBound (min sz maxMtu)

def isRfc1918PrivateIp : IpAddr → Bool
  | .v4 bits => bits >>> 24 = 10 || bits >>> 20 = 0xAC1 || bits >>> 16 = 0xC0A8
  | .v6 _ => false

/-! ## Tuning -/

structure PmtudTuning where
  probeTimeoutMs : Nat
  confirmCount : Nat
  resolveEpsilon : Nat
  raiseStep : Nat
  maxProbesPerSearch : Nat
  maxConcurrentPeers : Nat
  stableDowngradeBatches : Nat
  deriving DecidableEq

namespace PmtudTuning

def default : PmtudTuning where
  probeTimeoutMs := 500
  confirmCount := 3
  resolveEpsilon := 4
  raiseStep := 32
  maxProbesPerSearch := 64
  maxConcurrentPeers := 4
  stableDowngradeBatches := 4

def clamp (t : PmtudTuning) : PmtudTuning where
  probeTimeoutMs := max 50 (min t.probeTimeoutMs 10000)
  confirmCount := max 1 (min t.confirmCount 8)
  resolveEpsilon := max 1 (min t.resolveEpsilon 8)
  raiseStep := max 1 (min t.raiseStep 512)
  maxProbesPerSearch := max 8 (min t.maxProbesPerSearch 256)
  maxConcurrentPeers := max 1 (min t.maxConcurrentPeers 64)
  stableDowngradeBatches := max t.stableDowngradeBatches 1

end PmtudTuning

abbrev ClampedTuning := { t : PmtudTuning // t.clamp = t }

structure Knobs where
  tuning : ClampedTuning
  raisePeriod : Nat

namespace Knobs

variable (k : Knobs)

def probeTimeoutMs : Nat := k.tuning.1.probeTimeoutMs
def confirmCount : Nat := k.tuning.1.confirmCount
def resolveEpsilon : Nat := k.tuning.1.resolveEpsilon
def raiseStep : Nat := k.tuning.1.raiseStep
def maxProbesPerSearch : Nat := k.tuning.1.maxProbesPerSearch
def maxConcurrentPeers : Nat := k.tuning.1.maxConcurrentPeers
def stableDowngradeBatches : Nat := k.tuning.1.stableDowngradeBatches

theorem probeTimeoutMs_pos : 0 < k.probeTimeoutMs := by
  have h := congrArg PmtudTuning.probeTimeoutMs k.tuning.2
  simp only [PmtudTuning.clamp] at h
  unfold probeTimeoutMs
  omega

theorem resolveEpsilon_pos : 0 < k.resolveEpsilon := by
  have h := congrArg PmtudTuning.resolveEpsilon k.tuning.2
  simp only [PmtudTuning.clamp] at h
  unfold resolveEpsilon
  omega

theorem raiseStep_pos : 0 < k.raiseStep := by
  have h := congrArg PmtudTuning.raiseStep k.tuning.2
  simp only [PmtudTuning.clamp] at h
  unfold raiseStep
  omega

end Knobs

/-! ## The state of one peer -/

inductive Phase where
  | plateau | raise | binary | revalidate | recheck | downSearch | frozen
  deriving DecidableEq

def Phase.isSearching : Phase → Bool
  | .raise | .binary | .revalidate | .recheck | .downSearch => true
  | .plateau | .frozen => false

structure Inflight where
  probeId : UInt32
  size : Nat
  deadline : Instant
  confirmsLeft : Nat
  deriving DecidableEq

structure GraceProbe where
  probeId : UInt32
  size : Nat
  searchGen : UInt32
  deadline : Instant
  deriving DecidableEq

structure PeerState where
  lastGood : Nat
  firstBad : Nat
  stable : Nat
  phase : Phase
  step : Nat
  inflight : Option Inflight
  searchGen : UInt32
  probesUsed : Nat
  consecutiveLowerCampaigns : Nat
  nextRaiseAt : Instant
  downFromStable : Option Nat
  lastRevalidateHintAt : Option Instant
  lastEarlyWakeAt : Option Instant
  /-- The probe whose acknowledgement is still taken after its last timeout. -/
  grace : Option GraceProbe
  downsearchGotAck : Bool
  rttMs : ℚ
  largeAlive : Bool
  everAcked : Bool
  deriving DecidableEq

namespace PeerState

def new (k : Knobs) (now : Instant) : PeerState where
  lastGood := defaultMtu
  firstBad := firstBadSentinel
  stable := defaultMtu
  phase := .plateau
  step := k.raiseStep
  inflight := none
  searchGen := 1
  probesUsed := 0
  consecutiveLowerCampaigns := 0
  nextRaiseAt := now + k.raisePeriod
  downFromStable := none
  lastRevalidateHintAt := none
  lastEarlyWakeAt := none
  grace := none
  downsearchGotAck := false
  rttMs := -1
  largeAlive := false
  everAcked := false

variable (p : PeerState)

def WindowClosed (epsilon : Nat) : Prop := p.firstBad - p.lastGood ≤ epsilon

instance (epsilon : Nat) : Decidable (p.WindowClosed epsilon) := Nat.decLe _ _

def abortInflight : PeerState := { p with inflight := none, grace := none, searchGen := p.searchGen + 1 }

def timeoutForPeer (k : Knobs) : Nat :=
  if p.rttMs < 0 then millis k.probeTimeoutMs
  else
    let adaptiveMs := (4 * p.rttMs + 1 / 2).floor.toNat
    millis (min (max adaptiveMs k.probeTimeoutMs) adaptiveTimeoutCapMs)

def raiseTarget : Option Nat :=
  if maxMtu ≤ p.lastGood then none
  else
    let hi := min (p.firstBad - 1) maxMtu
    if hi ≤ p.lastGood then none
    else
      let t := min (p.lastGood + p.step) hi
      if p.lastGood < t then some t else none

def binaryTarget : Option Nat :=
  let lo := p.lastGood
  let hi := p.firstBad
  if hi ≤ lo + 1 then none
  else
    let mid := lo + (hi - lo) / 2
    if lo < mid ∧ mid < hi then some (clampSize mid) else none

/-! ## Changes of phase -/

section
variable (k : Knobs) (now : Instant)

def enterFrozen : PeerState :=
  { p with
    inflight := none
    grace := none
    phase := .frozen
    nextRaiseAt := now + k.raisePeriod
    probesUsed := 0 }

def countCampaign : PeerState :=
  match p.downFromStable with
  | none => p
  | some start =>
    let p := { p with downFromStable := none }
    if p.lastGood < start then
      let campaigns := min (p.consecutiveLowerCampaigns + 1) 255
      if k.stableDowngradeBatches ≤ campaigns then
        { p with stable := p.lastGood, consecutiveLowerCampaigns := 0 }
      else { p with consecutiveLowerCampaigns := campaigns }
    else { p with consecutiveLowerCampaigns := 0 }

def enterPlateau : PeerState :=
  let p := { p with
    inflight := none
    grace := none
    phase := .plateau
    nextRaiseAt := now + k.raisePeriod
    probesUsed := 0
    step := k.raiseStep }
  p.countCampaign k

def finishDownsearchPlateau : PeerState :=
  let p := if p.downsearchGotAck then p else { p with firstBad := firstBadSentinel }
  p.enterPlateau k now

def maybeBudgetFreeze : PeerState × Bool :=
  if p.phase = .recheck then (p, false)
  else if k.maxProbesPerSearch ≤ p.probesUsed then (p.enterFrozen k now, true)
  else (p, false)

def beginProbe (probeId : UInt32) (size : Nat) (deadline : Instant) (confirms : Nat) : PeerState :=
  { p with
    grace := none
    inflight := some ⟨probeId, clampSize size, deadline, confirms⟩
    probesUsed := p.probesUsed + 1 }

def softDownLastGood : Nat :=
  if p.lastGood < p.stable then max minMtuBound (p.lastGood / 2) else max minMtuBound (p.stable / 2)

variable (ep : SocketAddr)

def softDown : PeerState :=
  let newLg := if isRfc1918PrivateIp ep.ip && !p.everAcked then max p.softDownLastGood defaultMtu
    else p.softDownLastGood
  let p := { p with
    firstBad := max p.stable (newLg + 1)
    lastGood := newLg
    downFromStable := some p.stable
    downsearchGotAck := false
    phase := .downSearch
    probesUsed := 0
    step := k.raiseStep
    searchGen := p.searchGen + 1
    inflight := none
    grace := none }
  if p.WindowClosed k.resolveEpsilon then p.finishDownsearchPlateau k now else p

def NeedsHeal : Prop :=
  isRfc1918PrivateIp ep.ip = true ∧ p.everAcked = false ∧ p.lastGood < defaultMtu

instance (ep : SocketAddr) : Decidable (p.NeedsHeal ep) := inferInstanceAs (Decidable (_ ∧ _ ∧ _))

def healed : PeerState :=
  { p with
    lastGood := defaultMtu
    stable := defaultMtu
    firstBad := firstBadSentinel
    inflight := none
    grace := none
    searchGen := p.searchGen + 1
    phase := .plateau
    nextRaiseAt := now
    probesUsed := 0
    step := k.raiseStep
    downFromStable := none
    downsearchGotAck := false
    consecutiveLowerCampaigns := 0 }

def anomaly : PeerState :=
  { p with
    inflight := none
    grace := none
    phase := .plateau
    probesUsed := 0
    step := k.raiseStep
    nextRaiseAt := now + min k.raisePeriod anomalyRearmCap }

def enterRecheck : PeerState :=
  { p with inflight := none, grace := none, phase := .recheck, probesUsed := 0, searchGen := p.searchGen + 1 }

def closeOrFreeze : PeerState :=
  if p.WindowClosed k.resolveEpsilon then
    if p.phase = .downSearch then p.finishDownsearchPlateau k now else p.enterPlateau k now
  else (p.maybeBudgetFreeze k now).1

def confirmedFail (size : Nat) : PeerState :=
  let sz := clampSize size
  match p.phase with
  | .raise =>
    let p := { p with inflight := none, firstBad := sz, step := k.raiseStep, phase := .binary }
    p.closeOrFreeze k now
  | .binary | .downSearch =>
    let p := { p with inflight := none, firstBad := min sz p.firstBad }
    p.closeOrFreeze k now
  | .revalidate => if p.largeAlive then p.anomaly k now else p.enterRecheck
  | .recheck => p.softDown k now ep
  | .plateau | .frozen => p

/-- A probe that timed out: sent again under a new id (the flag), or waited for a little longer,
or taken as failed. -/
def timedOut (probeId : UInt32) (inf : Inflight) : PeerState × Bool :=
  let timeout := p.timeoutForPeer k
  let p := { p with inflight := none }
  if 1 < inf.confirmsLeft then
    let p := if p.phase = .recheck then p else { p with probesUsed := p.probesUsed + 1 }
    if p.phase ≠ .recheck ∧ k.maxProbesPerSearch ≤ p.probesUsed then (p.enterFrozen k now, false)
    else ({ p with inflight := some ⟨probeId, inf.size, now + timeout, inf.confirmsLeft - 1⟩ }, true)
  else if p.phase = .revalidate ∨ p.phase = .recheck then
    ({ p with grace := some ⟨inf.probeId, inf.size, p.searchGen, now + timeout⟩ }, false)
  else (p.confirmedFail k now ep inf.size, false)

def startSearch : PeerState :=
  let p := { p with probesUsed := 0, step := k.raiseStep, searchGen := p.searchGen + 1 }
  { p with phase := if p.raiseTarget.isSome then .raise else .revalidate }

def startPhase : PeerState :=
  if p.inflight.isSome ∨ p.grace.isSome then p
  else match p.phase with
    | .plateau => if p.nextRaiseAt ≤ now then p.startSearch k else p
    | .frozen => if p.nextRaiseAt ≤ now then startSearch { p with nextRaiseAt := now } k else p
    | _ => p

def wantsProbe : Bool :=
  p.inflight.isNone && p.grace.isNone &&
    match p.phase with
    | .raise => p.raiseTarget.isSome
    | .binary | .downSearch => p.binaryTarget.isSome
    | .revalidate | .recheck => true
    | .plateau | .frozen => false

def nextProbe : PeerState × Option Nat :=
  if p.inflight.isSome ∨ p.grace.isSome then (p, none)
  else match p.maybeBudgetFreeze k now with
    | (p, true) => (p, none)
    | (p, false) =>
      match p.phase with
      | .raise => (p, p.raiseTarget)
      | .binary =>
        if p.WindowClosed k.resolveEpsilon then (p.enterPlateau k now, none) else (p, p.binaryTarget)
      | .downSearch =>
        if p.WindowClosed k.resolveEpsilon then (p.finishDownsearchPlateau k now, none) else (p, p.binaryTarget)
      | .revalidate | .recheck => (p, some (clampSize p.stable))
      | .plateau | .frozen => (p, none)

/-! ## Acknowledgements -/

def InflightMatches (sz : Nat) (probeId searchGen : UInt32) : Prop :=
  ∃ inf ∈ p.inflight, p.searchGen = searchGen ∧ inf.probeId ≠ 0 ∧ inf.probeId = probeId ∧ inf.size = sz

def GraceMatches (sz : Nat) (probeId searchGen : UInt32) : Prop :=
  p.inflight = none ∧
    ∃ g ∈ p.grace, g.probeId = probeId ∧ g.searchGen = searchGen ∧ g.size = sz ∧ now ≤ g.deadline

instance (sz : Nat) (probeId searchGen : UInt32) : Decidable (p.InflightMatches sz probeId searchGen) :=
  match h : p.inflight with
  | none => isFalse (by simp [InflightMatches, h])
  | some inf =>
    decidable_of_iff (p.searchGen = searchGen ∧ inf.probeId ≠ 0 ∧ inf.probeId = probeId ∧ inf.size = sz)
      (by simp [InflightMatches, h])

instance (sz : Nat) (probeId searchGen : UInt32) : Decidable (p.GraceMatches now sz probeId searchGen) :=
  match h : p.grace with
  | none => isFalse (by simp [GraceMatches, h])
  | some g =>
    decidable_of_iff (p.inflight = none ∧ g.probeId = probeId ∧ g.searchGen = searchGen ∧ g.size = sz ∧
      now ≤ g.deadline) (by simp [GraceMatches, h])

def raiseStable : PeerState :=
  if p.stable < p.lastGood then { p with stable := p.lastGood, consecutiveLowerCampaigns := 0 } else p

def acked (sz : Nat) : PeerState :=
  let p := { p with inflight := none, grace := none, everAcked := true }
  match p.phase with
  | .raise =>
    let p := raiseStable { p with lastGood := sz }
    let p := { p with step := max (p.step * 2) k.raiseStep }
    if p.raiseTarget.isNone then
      let p := if maxMtu ≤ p.lastGood then { p with firstBad := firstBadSentinel } else p
      p.enterPlateau k now
    else p
  | .binary =>
    let p := raiseStable { p with lastGood := max sz p.lastGood }
    if p.WindowClosed k.resolveEpsilon then p.enterPlateau k now else p
  | .revalidate | .recheck => p.enterPlateau k now
  | .downSearch =>
    let p := { p with lastGood := max sz p.lastGood, downsearchGotAck := true }
    if p.WindowClosed k.resolveEpsilon then p.finishDownsearchPlateau k now else p
  | .plateau | .frozen => p

def lateAcked : PeerState := enterPlateau { p with grace := none, everAcked := true } k now

def sendHardFailed (size : Nat) : PeerState :=
  if p.phase = .revalidate ∨ p.phase = .recheck then softDown { p with inflight := none, grace := none } k now ep
  else p.confirmedFail k now ep size

/-! ## Hints and pins -/

def woken : PeerState := { p with nextRaiseAt := now }

def pinnedAt (m : Nat) : PeerState :=
  { p.abortInflight with
    lastGood := m
    stable := m
    firstBad := min (m + 1) firstBadSentinel
    phase := .frozen
    probesUsed := 0
    nextRaiseAt := now + k.raisePeriod
    downFromStable := none
    downsearchGotAck := false }

def retuned : PeerState :=
  let p := { p.abortInflight with step := k.raiseStep, probesUsed := 0 }
  if p.phase.isSearching then { p with phase := .plateau, nextRaiseAt := now + k.raisePeriod } else p

end

end PeerState

/-! ## All peers -/

structure ProbeIntent where
  peer : SocketAddr
  size : Nat
  probeId : UInt32
  searchGen : UInt32
  deriving DecidableEq

structure SizeHealth where
  warm : Bool
  largeAlive : Bool
  largeCollapsed : Bool

structure PeerTickInput where
  addr : SocketAddr
  health : SizeHealth
  rttMs : ℚ

structure PathMtuDiscovery where
  peers : HashMap SocketAddr PeerState
  minPathMtu : Nat
  pinned : Option Nat
  probeIdCounter : UInt32
  rrCursor : Nat
  knobs : Knobs

namespace PathMtuDiscovery

def new : PathMtuDiscovery where
  peers := ∅
  minPathMtu := defaultMtu
  pinned := none
  probeIdCounter := 0
  rrCursor := 0
  knobs := ⟨⟨.default, by decide⟩, secs 60⟩

variable (d : PathMtuDiscovery)
variable (peerAddr peer : SocketAddr) (now : Instant) (ep : SocketAddr)

def setPeer (p : PeerState) : PathMtuDiscovery := { d with peers := d.peers.insert ep p }

def recalcMin : PathMtuDiscovery :=
  { d with minPathMtu := match d.pinned with
    | some m => m
    | none => (d.peers.entries.map (·.2.lastGood)).min?.getD defaultMtu }

def minMtu : Nat := d.minPathMtu

def underlayIpv4UdpOverhead : Nat := 28

def udpPayloadBudget : Nat :=
  ((d.peers.lookup peer).map (·.lastGood)).getD d.minPathMtu - underlayIpv4UdpOverhead

def removePeer : PathMtuDiscovery :=
  match d.peers.lookup peer with
  | some _ => recalcMin { d with peers := d.peers.erase peer }
  | none => d

def applyTuning (t : ClampedTuning) (now : Instant) : PathMtuDiscovery :=
  let k := { d.knobs with tuning := t }
  if d.pinned.isSome then { d with knobs := k }
  else { d with knobs := k, peers := d.peers.mapVals fun p => p.retuned k now }

def setRaisePeriod (period : Nat) : PathMtuDiscovery :=
  { d with knobs := { d.knobs with raisePeriod := secs (max period 1) } }

def setPinned (pathMtu : Option Nat) (now : Instant) : PathMtuDiscovery :=
  match pathMtu with
  | some m =>
    let m := clampSize m
    { d with pinned := some m, minPathMtu := m, peers := d.peers.mapVals fun p => p.pinnedAt d.knobs now m }
  | none =>
    { d with
      pinned := none
      minPathMtu := defaultMtu
      peers := d.peers.mapVals fun _ => PeerState.new d.knobs now }

/-! ## Hints -/

/-- The shape of both hints: a peer at rest is woken unless the last hint of the kind, which `last`
reads and `note` records, is too recent. -/
def requestWake (cooldown : Nat) (last : PeerState → Option Instant) (note : PeerState → PeerState)
    (peer : SocketAddr) (now : Instant) : PathMtuDiscovery × Bool :=
  if d.pinned.isSome then (d, false)
  else match d.peers.lookup peer with
    | none => (d, false)
    | some p =>
      if (last p).any fun prev => now - prev < cooldown then (d, false)
      else if p.phase = .plateau ∨ p.phase = .frozen then (d.setPeer peer (note (p.woken now)), true)
      else (d, false)

def requestRevalidate : PathMtuDiscovery × Bool :=
  d.requestWake revalidateHintCooldown (·.lastRevalidateHintAt)
    (fun p => { p with lastRevalidateHintAt := some now }) peer now

def requestEarlyWake : PathMtuDiscovery × Bool :=
  d.requestWake earlyWakeCooldown (·.lastEarlyWakeAt)
    (fun p => { p with lastEarlyWakeAt := some now }) peer now

/-! ## The stages of a tick -/

def healUnackedPrivateFloor : PathMtuDiscovery :=
  let peers := d.peers.mapWithKey fun ep p => if p.NeedsHeal ep then p.healed d.knobs now else p
  if d.peers.entries.any fun e => e.2.NeedsHeal e.1 then recalcMin { d with peers := peers } else d

def dropStale (inputs : List PeerTickInput) : PathMtuDiscovery :=
  let active := inputs.map (·.addr)
  if d.peers.keys.all fun ep => ep ∈ active then d
  else recalcMin { d with peers := d.peers.retain fun ep _ => ep ∈ active }

def ensurePeer : PeerState :=
  match d.peers.lookup peer with
  | some p => p
  | none =>
    let p := PeerState.new d.knobs now
    match d.pinned with
    | some m =>
      { p with lastGood := m, stable := m, firstBad := min (m + 1) firstBadSentinel, phase := .frozen }
    | none => p

def intake (input : PeerTickInput) : PathMtuDiscovery :=
  d.setPeer input.addr
    { d.ensurePeer input.addr now with
      rttMs := input.rttMs
      largeAlive := input.health.warm && input.health.largeAlive }

def applyTimeoutConfirmedFail (size : Nat) (now : Instant) : PathMtuDiscovery :=
  match d.peers.lookup ep with
  | none => d
  | some p =>
    let d := d.setPeer ep (p.confirmedFail d.knobs now ep size)
    -- Of the outcomes only a soft-down refreshes the minimum.
    if p.phase = .recheck then d.recalcMin else d

def expireGrace : PathMtuDiscovery :=
  match d.peers.lookup ep with
  | none => d
  | some p =>
    let size := (p.grace.map (·.size)).getD minMtuBound
    applyTimeoutConfirmedFail (d.setPeer ep { p with grace := none }) ep size now

def onTimeout (now : Instant) : PathMtuDiscovery × Option ProbeIntent :=
  match d.peers.lookup ep with
  | none => (d, none)
  | some p =>
    match p.inflight with
    | none => (d, none)
    | some inf =>
      let probeId := d.probeIdCounter + 1
      let r := p.timedOut d.knobs now ep probeId inf
      if r.2 then ({ d.setPeer ep r.1 with probeIdCounter := probeId }, some ⟨ep, inf.size, probeId, p.searchGen⟩)
      else (d.setPeer ep r.1, none)

def startPhase : PathMtuDiscovery :=
  match d.peers.lookup ep with
  | none => d
  | some p => d.setPeer ep (p.startPhase d.knobs now)

def issueProbe (now : Instant) : PathMtuDiscovery × Option ProbeIntent :=
  match d.peers.lookup ep with
  | none => (d, none)
  | some p =>
    let deadline := now + p.timeoutForPeer d.knobs
    match p.nextProbe d.knobs now with
    | (p, none) => (d.setPeer ep p, none)
    | (p, some size) =>
      let probeId := d.probeIdCounter + 1
      ({ d.setPeer ep (p.beginProbe probeId size deadline d.knobs.confirmCount) with probeIdCounter := probeId },
        some ⟨ep, size, probeId, p.searchGen⟩)

def eachPeer (f : PathMtuDiscovery → SocketAddr → PathMtuDiscovery × Option ProbeIntent) (d : PathMtuDiscovery)
    (eps : List SocketAddr) : PathMtuDiscovery × List ProbeIntent :=
  eps.foldl (fun r ep => let t := f r.1 ep; (t.1, r.2 ++ t.2.toList)) (d, [])

def issueUpTo (now : Instant) : PathMtuDiscovery → Nat → List SocketAddr → PathMtuDiscovery × List ProbeIntent
  | d, _, [] => (d, [])
  | d, 0, _ :: _ => (d, [])
  | d, cap + 1, ep :: eps =>
    match d.issueProbe ep now with
    | (d, none) => issueUpTo now d (cap + 1) eps
    | (d, some intent) =>
      let r := issueUpTo now d cap eps
      (r.1, intent :: r.2)

def graceExpired : List SocketAddr :=
  (d.peers.entries.filter fun e => e.2.grace.any fun g => g.deadline ≤ now).map (·.1)

def inflightExpired : List SocketAddr :=
  (d.peers.entries.filter fun e => e.2.inflight.any fun inf => inf.deadline ≤ now ∧ inf.probeId ≠ 0).map (·.1)

def issueProbes (eps : List SocketAddr) (already : Nat) : PathMtuDiscovery × List ProbeIntent :=
  let want := eps.filter fun ep => (d.peers.lookup ep).any (·.wantsProbe)
  if want = [] then (d, [])
  else
    let cap := min (d.knobs.maxConcurrentPeers - already) want.length
    let cursor := if want.length ≤ d.rrCursor then 0 else d.rrCursor
    let r := issueUpTo now d cap (want.rotate cursor)
    ({ r.1 with rrCursor := cursor + max r.2.length 1 }, r.2)

def onTick (inputs : List PeerTickInput) (order : IterOrder) : PathMtuDiscovery × List ProbeIntent :=
  if d.pinned.isSome then (d, [])
  else
    let d := (d.healUnackedPrivateFloor now).dropStale inputs
    let d := inputs.foldl (fun d input => d.intake now input) d
    let d := (order.arrange (d.graceExpired now)).foldl (fun d ep => d.expireGrace now ep) d
    let r := eachPeer (fun d ep => d.onTimeout ep now) d (order.arrange (d.inflightExpired now))
    let eps := inputs.map (·.addr)
    let d := eps.foldl (fun d ep => d.startPhase now ep) r.1
    let s := d.issueProbes now eps r.2.length
    (s.1, r.2 ++ s.2)

/-! ## Acknowledgements and send errors -/

/-- The peer an acknowledgement is for: the sender if it is tracked, else the only peer of its address
whose probe matches. -/
def resolveAck (sz : Nat) (probeId searchGen : UInt32) (now : Instant) : Option SocketAddr :=
  if (d.peers.lookup peerAddr).isSome then some peerAddr
  else
    let candidates := d.peers.entries.filter fun e =>
      e.1.ip = peerAddr.ip ∧ (e.2.InflightMatches sz probeId searchGen ∨ e.2.GraceMatches now sz probeId searchGen)
    match candidates with
    | [e] => some e.1
    | _ => none

/-- Returns whether the acknowledgement was taken and whether it changed the minimum. -/
def onAck (size : Nat) (probeId searchGen : UInt32) (now : Instant) : PathMtuDiscovery × Bool × Bool :=
  if d.pinned.isSome then (d, false, false)
  else
    let sz := clampSize size
    match d.resolveAck peerAddr sz probeId searchGen now with
    | none => (d, false, false)
    | some ep =>
      match d.peers.lookup ep with
      | none => (d, false, false)
      | some p =>
        if p.GraceMatches now sz probeId searchGen then
          ((d.setPeer ep (p.lateAcked d.knobs now)).recalcMin, true, false)
        else if p.InflightMatches sz probeId searchGen then
          let d' := (d.setPeer ep (p.acked d.knobs now sz)).recalcMin
          (d', true, d'.minPathMtu ≠ d.minPathMtu)
        else (d, false, false)

def onSendHardFail (probeId : UInt32) (now : Instant) : PathMtuDiscovery :=
  if d.pinned.isSome then d
  else match d.peers.lookup peerAddr with
    | none => d
    | some p =>
      match p.inflight with
      | none => d
      | some inf =>
        if inf.probeId ≠ probeId ∨ inf.probeId = 0 then d
        else
          let d := d.setPeer peerAddr (p.sendHardFailed d.knobs now peerAddr inf.size)
          if p.phase = .revalidate ∨ p.phase = .recheck then d.recalcMin else d

end PathMtuDiscovery

/-! ## Operations -/

inductive Op where
  | onTick (now : Instant) (inputs : List PeerTickInput) (order : IterOrder)
  | onAck (peerAddr : SocketAddr) (size : Nat) (probeId searchGen : UInt32) (now : Instant)
  | onSendHardFail (peerAddr : SocketAddr) (probeId : UInt32) (now : Instant)
  | setPinned (pathMtu : Option Nat) (now : Instant)
  | applyTuning (t : ClampedTuning) (now : Instant)
  | setRaisePeriod (period : Nat)
  | requestRevalidate (peer : SocketAddr) (now : Instant)
  | requestEarlyWake (peer : SocketAddr) (now : Instant)
  | removePeer (peer : SocketAddr)

def step (d : PathMtuDiscovery) : Op → PathMtuDiscovery × List ProbeIntent
  | .onTick now inputs order => d.onTick now inputs order
  | .onAck peerAddr size probeId searchGen now => ((d.onAck peerAddr size probeId searchGen now).1, [])
  | .onSendHardFail peerAddr probeId now => (d.onSendHardFail peerAddr probeId now, [])
  | .setPinned pathMtu now => (d.setPinned pathMtu now, [])
  | .applyTuning t now => (d.applyTuning t now, [])
  | .setRaisePeriod period => (d.setRaisePeriod period, [])
  | .requestRevalidate peer now => ((d.requestRevalidate peer now).1, [])
  | .requestEarlyWake peer now => ((d.requestEarlyWake peer now).1, [])
  | .removePeer peer => (d.removePeer peer, [])

end ConnectUnit.Pmtud
