import Mathlib.Data.Rat.Floor
import ConnectUnit.Net

/-!
# One route: its paths and its quality samples

A `RouteEntry` is what the routing table holds for one virtual IP.
-/

namespace ConnectUnit

/-! ## Tuning -/

structure FailoverTuning where
  d2rQualityMin : Int := 35
  d2rLossMax : ℚ := 0.12
  d2rJitterMax : ℚ := 50
  r2dQualityMin : Int := 50
  r2dSuccessMin : Int := 3
  holdDownSecs : Nat := 2

structure CongestionTuning where
  rttBaseTracking : Bool := true
  baseRttWindowSecs : Nat := 4
  baseRttStaleWindows : Nat := 3
  owdClockJumpRejectMs : Nat := 30000
  owdRttConsistencyMs : Nat := 5000
  owdPreferAfterSamples : Nat := 8

structure RoutingEwmaTuning where
  rttEwmaOld : ℚ := 0.8
  rttEwmaNew : ℚ := 0.2
  jitterEwmaOld : ℚ := 0.8
  jitterEwmaNew : ℚ := 0.2
  lossEwmaDecay : ℚ := 0.85
  lossEwmaSuccessDelta : ℚ := 0.01
  lossEwmaFailBump : ℚ := 0.05
  bwEwmaOld : ℚ := 0.85
  bwEwmaNew : ℚ := 0.15
  qualityInitial : Int := 50
  qualityLossScale : ℚ := 60
  qualityLossPenaltyCap : ℚ := 40
  qualityJitterDiv : ℚ := 3
  qualityJitterPenaltyCap : ℚ := 30
  rttScoreClampMs : Int := 500

def truncI32 (q : ℚ) : Int :=
  max (-2147483648) (min 2147483647 (if 0 ≤ q then ⌊q⌋ else ⌈q⌉))

def ratAbs (q : ℚ) : ℚ := if q < 0 then -q else q

/-! ## Path candidates -/

inductive RouteState where
  | candidate | active | degraded | stale
  deriving DecidableEq, Repr

inductive PathKind where
  | direct | hubRelay | iceSrflx
  deriving DecidableEq, Repr

structure PathCandidate where
  kind : PathKind
  endpoint : SocketAddr
  smoothedRttMs : ℚ
  lossEwma : ℚ
  bandwidthEwmaKbps : ℚ
  lastProbed : Instant
  active : Bool
  consecutiveFailures : Nat

namespace PathCandidate

def new (kind : PathKind) (endpoint : SocketAddr) (active : Bool) (now : Instant) : PathCandidate where
  kind := kind
  endpoint := endpoint
  smoothedRttMs := -1
  lossEwma := 0
  bandwidthEwmaKbps := 0
  lastProbed := now
  active := active
  consecutiveFailures := 0

variable (p : PathCandidate)

def scoreCore : ℚ :=
  let rttNorm := if p.smoothedRttMs < 0 then 0.5 else min (p.smoothedRttMs / 400) 1
  let loss := min p.lossEwma 1
  0.7 * (1 - rttNorm) + 0.3 * (1 - loss)

def scoreAdvanced : ℚ :=
  let bw := if p.bandwidthEwmaKbps > 0 then min (p.bandwidthEwmaKbps / 50000) 1 else 0.3
  0.4 * p.scoreCore + 0.6 * bw

def isUsable : Bool := p.active && decide (p.consecutiveFailures < 5)

def noteRtt (rttMs : ℚ) (ewma : RoutingEwmaTuning) (now : Instant) : PathCandidate :=
  { p with
    smoothedRttMs :=
      if p.smoothedRttMs < 0 then rttMs else ewma.rttEwmaOld * p.smoothedRttMs + ewma.rttEwmaNew * rttMs
    lossEwma := max (p.lossEwma * ewma.lossEwmaDecay - ewma.lossEwmaSuccessDelta) 0
    lastProbed := now
    consecutiveFailures := 0
    active := true }

def noteFailure (ewma : RoutingEwmaTuning) : PathCandidate :=
  { p with
    lossEwma := min (p.lossEwma * ewma.lossEwmaDecay + ewma.lossEwmaFailBump) 1
    consecutiveFailures := min (p.consecutiveFailures + 1) 255 }

def noteBandwidth (bytes elapsedMs : Nat) (ewma : RoutingEwmaTuning) : PathCandidate :=
  if elapsedMs = 0 then p
  else
    let kbps : ℚ := (bytes * 8 : ℚ) / elapsedMs
    { p with
      bandwidthEwmaKbps :=
        if p.bandwidthEwmaKbps ≤ 0 then kbps
        else ewma.bwEwmaOld * p.bandwidthEwmaKbps + ewma.bwEwmaNew * kbps }

end PathCandidate

def pathScore (p : PathCandidate) (advancedScoring : Bool) : ℚ :=
  if advancedScoring then p.scoreAdvanced else p.scoreCore

/-! ## Path sets -/

/-- The three path slots of a route: direct, relay and reflexive. -/
structure PathSet where
  path0 : Option PathCandidate
  path1 : Option PathCandidate
  path2 : Option PathCandidate
  activeIdx : Nat
  lastSecondaryProbe : Instant
  switchCandidateIdx : Option Nat
  switchCandidateSince : Option Instant

namespace PathSet

variable (ps : PathSet) (advancedScoring : Bool) (ep : SocketAddr)

def paths : List (Option PathCandidate) := [ps.path0, ps.path1, ps.path2]

def new (directEp : SocketAddr) (now : Instant) : PathSet where
  path0 := some (.new .direct directEp true now)
  path1 := none
  path2 := none
  activeIdx := 0
  lastSecondaryProbe := now
  switchCandidateIdx := none
  switchCandidateSince := none

def setDirect (endpoint : SocketAddr) (now : Instant) : PathSet :=
  match ps.path0 with
  | some direct => { ps with path0 := some { direct with endpoint := endpoint } }
  | none => { ps with path0 := some (.new .direct endpoint true now) }

def setRelay (endpoint : SocketAddr) (now : Instant) : PathSet :=
  { ps with path1 := some (.new .hubRelay endpoint true now) }

def bestPath : Option (Nat × PathCandidate) :=
  let usable := ps.paths.zipIdx.filterMap fun (p, i) =>
    (p.filter PathCandidate.isUsable).map fun p => (i, p)
  usable.foldl (fun best c =>
    match best with
    | none => some c
    | some b => if pathScore b.2 advancedScoring > pathScore c.2 advancedScoring then some b else some c) none

def clearSwitch : PathSet :=
  { ps with switchCandidateIdx := none, switchCandidateSince := none }

def switchTo (idx : Nat) : PathSet :=
  { ps.clearSwitch with activeIdx := idx }

def currentScore : ℚ :=
  match (ps.paths[ps.activeIdx]?).join.filter PathCandidate.isUsable with
  | some p => pathScore p advancedScoring
  | none => 0

def reselectActive (now : Instant) : PathSet :=
  match ps.bestPath advancedScoring with
  | none => ps
  | some (bestIdx, bestPath) =>
    if bestIdx = ps.activeIdx then ps.clearSwitch
    else
      let gap := pathScore bestPath advancedScoring - ps.currentScore advancedScoring
      if gap ≥ 0.40 ∨ ps.currentScore advancedScoring < 0.1 then ps.switchTo bestIdx
      else if gap ≥ 0.15 then
        if ps.switchCandidateIdx = some bestIdx then
          if now - ps.switchCandidateSince.getD now ≥ secs 3 then ps.switchTo bestIdx else ps
        else { ps with switchCandidateIdx := some bestIdx, switchCandidateSince := some now }
      else ps.clearSwitch

def activeEndpointKind : Option (SocketAddr × PathKind) :=
  (ps.paths[ps.activeIdx]?).join.map fun p => (p.endpoint, p.kind)

def pathAt (p : Option PathCandidate) (ep : SocketAddr) : Bool := p.any fun p => p.endpoint = ep

def noteFirst (f : PathCandidate → PathCandidate) : PathSet :=
  if pathAt ps.path0 ep then { ps with path0 := ps.path0.map f }
  else if pathAt ps.path1 ep then { ps with path1 := ps.path1.map f }
  else if pathAt ps.path2 ep then { ps with path2 := ps.path2.map f }
  else ps

def noteRttForEndpoint (rttMs : ℚ) (ewma : RoutingEwmaTuning) (now : Instant) : PathSet :=
  ps.noteFirst ep fun p => p.noteRtt rttMs ewma now

def noteFailureForEndpoint (ewma : RoutingEwmaTuning) : PathSet :=
  ps.noteFirst ep fun p => p.noteFailure ewma

def noteBandwidthForEndpoint (bytes elapsedMs : Nat) (ewma : RoutingEwmaTuning) : PathSet :=
  ps.noteFirst ep fun p => p.noteBandwidth bytes elapsedMs ewma

def endpoints : List (Option SocketAddr) := ps.paths.map (·.map (·.endpoint))

end PathSet

/-! ## Route entries -/

structure RouteEntry where
  endpoint : SocketAddr
  nodeId : String
  state : RouteState
  lastSeen : Instant
  smoothedRttMs : ℚ
  jitterMs : ℚ
  lastRttMs : Int
  lossEwma : ℚ
  qualityScore : Int
  successStreak : Int
  failStreak : Int
  holdDownUntil : Option Instant
  lastModifiedRevision : UInt64
  pathSet : Option PathSet
  rxBytesSinceLastBwCalc : Nat
  rxBwCalcAt : Instant
  dualWriteUntil : Option Instant
  dualWriteOldEp : Option SocketAddr
  dualWriteOldKind : Option PathKind
  rttBaseMs : ℚ
  rttBaseWindowMin : Option ℚ
  rttBaseWindowStart : Instant
  rttBaseStaleCount : Nat
  queuingDelayMs : ℚ
  owdBaseMs : Option ℚ
  owdBaseWindowMin : Option ℚ
  owdBaseWindowStart : Instant
  owdBaseStaleCount : Nat
  fwdQueuingDelayMs : ℚ
  owdRttResidualEwma : Option ℚ
  owdSamplesSinceCold : Nat

def windowMin (w : Option ℚ) (sample : ℚ) : ℚ :=
  match w with
  | some m => min m sample
  | none => sample

namespace RouteEntry

def new (ep : SocketAddr) (qualityInitial : Int) (now : Instant) : RouteEntry where
  endpoint := ep
  nodeId := ""
  state := .candidate
  lastSeen := now
  smoothedRttMs := -1
  jitterMs := 0
  lastRttMs := -1
  lossEwma := 0
  qualityScore := qualityInitial
  successStreak := 0
  failStreak := 0
  holdDownUntil := none
  lastModifiedRevision := 0
  pathSet := some (.new ep now)
  rxBytesSinceLastBwCalc := 0
  rxBwCalcAt := now
  dualWriteUntil := none
  dualWriteOldEp := none
  dualWriteOldKind := none
  rttBaseMs := -1
  rttBaseWindowMin := none
  rttBaseWindowStart := now
  rttBaseStaleCount := 0
  queuingDelayMs := 0
  owdBaseMs := none
  owdBaseWindowMin := none
  owdBaseWindowStart := now
  owdBaseStaleCount := 0
  fwdQueuingDelayMs := 0
  owdRttResidualEwma := none
  owdSamplesSinceCold := 0

variable (e : RouteEntry) (fromEp : SocketAddr) (rttMs : Int) (fo : FailoverTuning)

def adoptRttWindow (windowMin : ℚ) (cg : CongestionTuning) : RouteEntry :=
  if windowMin < e.rttBaseMs then { e with rttBaseMs := windowMin, rttBaseStaleCount := 0 }
  else if windowMin > e.rttBaseMs then
    let count := min (e.rttBaseStaleCount + 1) 255
    if count ≥ cg.baseRttStaleWindows then { e with rttBaseMs := windowMin, rttBaseStaleCount := 0 }
    else { e with rttBaseStaleCount := count }
  else { e with rttBaseStaleCount := 0 }

def refreshQueuingDelay : RouteEntry :=
  if e.smoothedRttMs ≥ 0 ∧ e.rttBaseMs ≥ 0 then { e with queuingDelayMs := max (e.smoothedRttMs - e.rttBaseMs) 0 }
  else e

def updateRttBaseOnSample (rttSampleMs : ℚ) (now : Instant) (cg : CongestionTuning) : RouteEntry :=
  if !cg.rttBaseTracking then e
  else if e.rttBaseMs < 0 then
    { e with
      rttBaseMs := rttSampleMs
      rttBaseWindowMin := some rttSampleMs
      rttBaseWindowStart := now
      queuingDelayMs := max (e.smoothedRttMs - rttSampleMs) 0 }
  else
    let wmin := windowMin e.rttBaseWindowMin rttSampleMs
    if now - e.rttBaseWindowStart ≥ secs cg.baseRttWindowSecs then
      let e := e.adoptRttWindow wmin cg
      refreshQueuingDelay { e with rttBaseWindowMin := none, rttBaseWindowStart := now }
    else refreshQueuingDelay { e with rttBaseWindowMin := some wmin }

def averageSample (ewma : RoutingEwmaTuning) : RouteEntry :=
  let delta := ratAbs (rttMs - e.smoothedRttMs)
  { e with
    jitterMs := ewma.jitterEwmaOld * e.jitterMs + ewma.jitterEwmaNew * delta
    smoothedRttMs := ewma.rttEwmaOld * e.smoothedRttMs + ewma.rttEwmaNew * rttMs }

def scoreSample (ewma : RoutingEwmaTuning) : RouteEntry :=
  let lossEwma := max (e.lossEwma * ewma.lossEwmaDecay - ewma.lossEwmaSuccessDelta) 0
  let bounded := max 0 (min rttMs ewma.rttScoreClampMs)
  let jitterPenalty := truncI32 (min (e.jitterMs / ewma.qualityJitterDiv) ewma.qualityJitterPenaltyCap)
  let lossPenalty := truncI32 (min (lossEwma * ewma.qualityLossScale) ewma.qualityLossPenaltyCap)
  { e with
    lossEwma := lossEwma
    qualityScore := max (100 - bounded / 5 - jitterPenalty - lossPenalty) 0
    successStreak := min (e.successStreak + 1) 100
    failStreak := max (e.failStreak - 1) 0 }

def gradeState : RouteEntry :=
  if e.successStreak ≥ 2 ∧ e.qualityScore ≥ fo.d2rQualityMin then { e with state := .active }
  else if e.qualityScore < fo.d2rQualityMin then { e with state := .degraded }
  else e

def releaseHold : RouteEntry :=
  if e.qualityScore ≥ fo.r2dQualityMin ∧ e.successStreak ≥ fo.r2dSuccessMin * 2 then { e with holdDownUntil := none }
  else e

def applyRttSample (cg : CongestionTuning) (ewma : RoutingEwmaTuning) (now : Instant) : RouteEntry :=
  let e := e.averageSample rttMs ewma
  let e := e.updateRttBaseOnSample rttMs now cg
  let e := e.scoreSample rttMs ewma
  let e := e.gradeState fo
  e.releaseHold fo

inductive OwdSampleOutcome where
  | ignored | applied | rejected
  deriving DecidableEq, Repr

def resetOwdBaseCold (now : Instant) : RouteEntry :=
  { e with
    owdBaseMs := none
    owdBaseWindowMin := none
    owdBaseWindowStart := now
    owdBaseStaleCount := 0
    fwdQueuingDelayMs := 0
    owdRttResidualEwma := none
    owdSamplesSinceCold := 0 }

def noteOwdAppliedResidual (owdSampleMs rttMs : ℚ) : RouteEntry :=
  let resid := 2 * owdSampleMs - rttMs
  { e with
    owdRttResidualEwma := some (match e.owdRttResidualEwma with
      | some ewma => (1 - 0.125) * ewma + 0.125 * resid
      | none => resid)
    owdSamplesSinceCold := min (e.owdSamplesSinceCold + 1) 255 }

def adoptOwdWindow (base windowMin : ℚ) (cg : CongestionTuning) : RouteEntry × ℚ :=
  if windowMin < base then ({ e with owdBaseMs := some windowMin, owdBaseStaleCount := 0 }, windowMin)
  else if windowMin > base then
    let count := min (e.owdBaseStaleCount + 1) 255
    if count ≥ cg.baseRttStaleWindows then
      ({ e with owdBaseMs := some windowMin, owdBaseStaleCount := 0 }, windowMin)
    else ({ e with owdBaseStaleCount := count }, base)
  else ({ e with owdBaseStaleCount := 0 }, base)

def warmOwdSample (base owdSampleMs : ℚ) (now : Instant) (cg : CongestionTuning) : RouteEntry :=
  let wmin := windowMin e.owdBaseWindowMin owdSampleMs
  if now - e.owdBaseWindowStart ≥ secs cg.baseRttWindowSecs then
    let (e, base) := e.adoptOwdWindow base wmin cg
    { e with
      owdBaseWindowMin := none, owdBaseWindowStart := now, fwdQueuingDelayMs := max (owdSampleMs - base) 0 }
  else { e with owdBaseWindowMin := some wmin, fwdQueuingDelayMs := max (owdSampleMs - base) 0 }

def coldOwdSample (owdSampleMs : ℚ) (now : Instant) : RouteEntry :=
  { e with
    owdBaseMs := some owdSampleMs
    owdBaseWindowMin := some owdSampleMs
    owdBaseWindowStart := now
    owdBaseStaleCount := 0
    fwdQueuingDelayMs := 0 }

def rejectsOwdSample (owdSampleMs rttMs : ℚ) (cg : CongestionTuning) : Bool :=
  let resid := 2 * owdSampleMs - rttMs
  (e.owdBaseMs.any fun base => ratAbs (owdSampleMs - base) > cg.owdClockJumpRejectMs) ||
    e.owdRttResidualEwma.any fun ewma => ratAbs (resid - ewma) > cg.owdRttConsistencyMs

def updateOwdBaseOnSample (owdSampleMs rttMs : ℚ) (now : Instant) (cg : CongestionTuning) :
    RouteEntry × OwdSampleOutcome :=
  if !cg.rttBaseTracking then (e, .ignored)
  else if e.rejectsOwdSample owdSampleMs rttMs cg then (e.resetOwdBaseCold now, .rejected)
  else
    match e.owdBaseMs with
    | none => ((e.coldOwdSample owdSampleMs now).noteOwdAppliedResidual owdSampleMs rttMs, .applied)
    | some base => ((e.warmOwdSample base owdSampleMs now cg).noteOwdAppliedResidual owdSampleMs rttMs, .applied)

def isActivePath : Bool :=
  match e.pathSet.bind PathSet.activeEndpointKind with
  | some (ep, _) => ep = fromEp
  | none => true

def noteActiveRtt (cg : CongestionTuning) (ewma : RoutingEwmaTuning) (now : Instant) : RouteEntry :=
  if e.smoothedRttMs < 0 then
    applyRttSample { e with smoothedRttMs := rttMs, jitterMs := 0, lastRttMs := rttMs } rttMs fo cg ewma now
  else applyRttSample { e with lastRttMs := rttMs } rttMs fo cg ewma now

def noteRtt (cg : CongestionTuning) (ewma : RoutingEwmaTuning) (now : Instant) : RouteEntry :=
  let seen := { e with lastSeen := now }
  let noted := if e.isActivePath fromEp then seen.noteActiveRtt rttMs fo cg ewma now else seen
  { noted with
    pathSet := noted.pathSet.map fun ps =>
      (ps.noteRttForEndpoint fromEp rttMs ewma now).reselectActive false now }

def noteFail (ewma : RoutingEwmaTuning) (now : Instant) : RouteEntry :=
  let failStreak := min (e.failStreak + 1) 100
  let lossEwma := min (e.lossEwma * ewma.lossEwmaDecay + ewma.lossEwmaFailBump) 1
  let lossPenalty := truncI32 (min (lossEwma * ewma.qualityLossScale) ewma.qualityLossPenaltyCap)
  { e with
    failStreak := failStreak
    successStreak := max (e.successStreak - 1) 0
    lossEwma := lossEwma
    qualityScore := max (e.qualityScore - lossPenalty) 0
    state := if failStreak ≥ 6 then .stale else if failStreak ≥ 3 then .degraded else e.state
    pathSet := e.pathSet.map fun ps => (ps.noteFailureForEndpoint fromEp ewma).reselectActive false now }

def noteBytesReceived (pathEp : SocketAddr) (bytes : Nat) (advancedScoring : Bool)
    (ewma : RoutingEwmaTuning) (now : Instant) : RouteEntry :=
  let total := min (e.rxBytesSinceLastBwCalc + bytes) (2 ^ 64 - 1)
  let elapsedMs := (now - e.rxBwCalcAt) / 1000000
  if elapsedMs ≥ 500 then
    { e with
      pathSet := e.pathSet.map fun ps =>
        (ps.noteBandwidthForEndpoint pathEp total elapsedMs ewma).reselectActive advancedScoring now
      rxBytesSinceLastBwCalc := 0
      rxBwCalcAt := now }
  else { e with rxBytesSinceLastBwCalc := total }

def beginTransition (oldEp : SocketAddr) (oldKind : PathKind) (window : Nat) (now : Instant) : RouteEntry :=
  if e.dualWriteUntil.any fun u => decide (now < u) then e
  else { e with
    dualWriteUntil := some (now + window), dualWriteOldEp := some oldEp, dualWriteOldKind := some oldKind }

def endTransition : RouteEntry :=
  { e with dualWriteUntil := none, dualWriteOldEp := none, dualWriteOldKind := none }

def noteRelayFallback (now : Instant) : RouteEntry :=
  if e.holdDownUntil.any fun t => decide (t > now) then e
  else { e with holdDownUntil := some (now + secs fo.holdDownSecs) }

def shouldRelay : Bool :=
  e.qualityScore < fo.d2rQualityMin || e.state = .degraded || e.state = .stale ||
    decide (e.lossEwma > fo.d2rLossMax) || decide (e.jitterMs > fo.d2rJitterMax)

def effectiveQueuingDelayMs (owdPreferAfterSamples : Nat) : ℚ :=
  if e.owdBaseMs.isSome ∧ e.owdSamplesSinceCold ≥ owdPreferAfterSamples then e.fwdQueuingDelayMs
  else if e.rttBaseMs ≥ 0 then e.queuingDelayMs
  else if e.owdBaseMs.isSome then e.fwdQueuingDelayMs
  else -1

def pathEndpoints : List (Option SocketAddr) :=
  match e.pathSet with
  | some ps => ps.endpoints
  | none => []

end RouteEntry

end ConnectUnit
