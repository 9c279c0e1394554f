import ConnectUnit.Lib.Binary64
import ConnectUnit.BackgroundCc
import ConnectUnit.Fec

/-!
# Advanced tuning

The knobs of the configuration file and the clamps that they go through before the engine uses them.
-/

namespace ConnectUnit.Advanced

/-! ## Clamping -/

section
variable {α : Type} [LinearOrder α]

def clampTo (x lo hi : α) (_ : lo ≤ hi) : α := max lo (min x hi)

/-- `clamp` of the standard library. -/
def clamp (x lo hi : α) : Option α := if h : lo ≤ hi then some (clampTo x lo hi h) else none

end

def addU64 (a b : Nat) : Option Nat := if a + b < 2 ^ 64 then some (a + b) else none

def f64Max : ℚ := (2 - 1 / 2 ^ 52) * 2 ^ 1023

theorem thousand_le_f64Max : 1000 ≤ f64Max := by decide +kernel

/-! ## The groups -/

structure FailoverTuning where
  d2rQualityMin : Int
  d2rLossMax : ℚ
  d2rJitterMax : ℚ
  r2dQualityMin : Int
  r2dSuccessMin : Int
  holdDownSecs : Nat

def FailoverTuning.default : FailoverTuning := ⟨35, 12 / 100, 50, 50, 3, 2⟩

def FailoverTuning.clamp (t : FailoverTuning) : FailoverTuning :=
  let d2rQualityMin := clampTo t.d2rQualityMin 0 100 (by decide)
  let r2dQualityMin := clampTo t.r2dQualityMin 0 100 (by decide)
  { t with
    d2rLossMax := clampTo t.d2rLossMax 0 1 (by norm_num)
    d2rJitterMax := max t.d2rJitterMax 0
    d2rQualityMin := d2rQualityMin
    r2dQualityMin := if r2dQualityMin < d2rQualityMin then d2rQualityMin else r2dQualityMin
    r2dSuccessMin := max t.r2dSuccessMin 1 }

structure TimerTuning where
  keepaliveSecs : Nat
  msynSecs : Nat
  pmtudTickMs : Nat
  pmtudRaiseSecs : Nat
  pingWatchdogMs : Nat
  staleTickSecs : Nat
  staleMarkSecs : Nat
  staleEvictSecs : Nat

def TimerTuning.default : TimerTuning := ⟨5, 15, 50, 60, 100, 30, 35, 45⟩

def after (earlier later : Nat) : Option Nat := if later ≤ earlier then addU64 earlier 1 else some later

def TimerTuning.clamp (t : TimerTuning) : Option TimerTuning := do
  let staleTickSecs := max t.staleTickSecs 1
  let staleMarkSecs ← after staleTickSecs (max t.staleMarkSecs 1)
  let staleEvictSecs ← after staleMarkSecs (max t.staleEvictSecs 1)
  return {
    keepaliveSecs := max t.keepaliveSecs 1
    msynSecs := max t.msynSecs 1
    pmtudTickMs := clampTo t.pmtudTickMs 10 1000 (by decide)
    pmtudRaiseSecs := max t.pmtudRaiseSecs 1
    pingWatchdogMs := max t.pingWatchdogMs 10
    staleTickSecs := staleTickSecs
    staleMarkSecs := staleMarkSecs
    staleEvictSecs := staleEvictSecs }

structure ReliableTuning where
  rtoMinMs : Nat
  rtoMaxMs : Nat
  maxPending : Nat
  retriesLeft : Nat
  sendScratchBytes : Nat

def ReliableTuning.default : ReliableTuning := ⟨75, 400, 256, 1, 1500⟩

def ReliableTuning.clamp (t : ReliableTuning) : ReliableTuning where
  rtoMinMs := max t.rtoMinMs 5
  rtoMaxMs := max t.rtoMaxMs (max t.rtoMinMs 5)
  maxPending := max t.maxPending 16
  retriesLeft := min t.retriesLeft 8
  sendScratchBytes := clampTo t.sendScratchBytes 64 1048576 (by decide)

structure BufferReuseTuning where
  encryptScratchBytes : Nat
  controlScratchBytes : Nat
  plainDataScratchBytes : Nat
  decryptScratchBytes : Nat
  fecFrameScratchBytes : Nat

def BufferReuseTuning.default : BufferReuseTuning :=
  ⟨2048, 512, 2048, 2048, Fec.fecCompactHeaderLen + Fec.fecShardPayloadSize⟩

def BufferReuseTuning.clamp (t : BufferReuseTuning) : BufferReuseTuning where
  encryptScratchBytes := clampTo t.encryptScratchBytes 64 1048576 (by decide)
  controlScratchBytes := clampTo t.controlScratchBytes 32 131072 (by decide)
  plainDataScratchBytes := clampTo t.plainDataScratchBytes 64 1048576 (by decide)
  decryptScratchBytes := clampTo t.decryptScratchBytes 64 1048576 (by decide)
  fecFrameScratchBytes := clampTo t.fecFrameScratchBytes 64 1048576 (by decide)

def fecShardPayloadMin : Nat := 512

structure FecTuning where
  shardPayloadSize : Nat
  flushMs : Nat
  flushAggressiveMs : Nat
  adaptiveOffBelow : ℚ
  adaptiveOnAbove : ℚ
  fecMaxTotalShards : Nat

def FecTuning.default : FecTuning := ⟨1024, 2, 1, 25 / 1000, 5 / 100, 16⟩

def FecTuning.clamp (t : FecTuning) : FecTuning :=
  let adaptiveOffBelow := clampTo t.adaptiveOffBelow 0 (1 / 2) (by norm_num)
  let adaptiveOnAbove := clampTo t.adaptiveOnAbove 0 (1 / 2) (by norm_num)
  { shardPayloadSize := clampTo t.shardPayloadSize fecShardPayloadMin Fec.fecShardPayloadSize (by decide)
    flushMs := max t.flushMs 1
    flushAggressiveMs := max t.flushAggressiveMs 1
    adaptiveOffBelow := adaptiveOffBelow
    adaptiveOnAbove := if adaptiveOnAbove < adaptiveOffBelow then adaptiveOffBelow else adaptiveOnAbove
    fecMaxTotalShards := clampTo t.fecMaxTotalShards 2 Fec.fecMaxTotalShards (by decide) }

structure RoutingEwmaTuning where
  rttEwmaOld : ℚ
  rttEwmaNew : ℚ
  jitterEwmaOld : ℚ
  jitterEwmaNew : ℚ
  lossEwmaDecay : ℚ
  lossEwmaSuccessDelta : ℚ
  lossEwmaFailBump : ℚ
  bwEwmaOld : ℚ
  bwEwmaNew : ℚ
  qualityInitial : Int
  qualityLossScale : ℚ
  qualityLossPenaltyCap : ℚ
  qualityJitterDiv : ℚ
  qualityJitterPenaltyCap : ℚ
  rttScoreClampMs : Int

def RoutingEwmaTuning.default : RoutingEwmaTuning :=
  ⟨8 / 10, 2 / 10, 8 / 10, 2 / 10, 85 / 100, 1 / 100, 5 / 100, 85 / 100, 15 / 100, 50, 60, 40, 3, 30, 500⟩

def renormalizePair (old new : ℚ) : ℚ × ℚ :=
  let old := clampTo old 0 1 (by norm_num)
  let new := clampTo new 0 1 (by norm_num)
  let sum := Binary64.round (old + new)
  if 0 < sum then (Binary64.round (old / sum), Binary64.round (new / sum)) else (1 / 2, 1 / 2)

def RoutingEwmaTuning.clamp (t : RoutingEwmaTuning) : RoutingEwmaTuning :=
  let rtt := renormalizePair t.rttEwmaOld t.rttEwmaNew
  let jitter := renormalizePair t.jitterEwmaOld t.jitterEwmaNew
  let bw := renormalizePair t.bwEwmaOld t.bwEwmaNew
  { rttEwmaOld := rtt.1
    rttEwmaNew := rtt.2
    jitterEwmaOld := jitter.1
    jitterEwmaNew := jitter.2
    bwEwmaOld := bw.1
    bwEwmaNew := bw.2
    lossEwmaDecay := clampTo t.lossEwmaDecay (1 / 2) (999 / 1000) (by norm_num)
    lossEwmaSuccessDelta := clampTo t.lossEwmaSuccessDelta 0 (1 / 10) (by norm_num)
    lossEwmaFailBump := clampTo t.lossEwmaFailBump 0 (1 / 2) (by norm_num)
    qualityInitial := clampTo t.qualityInitial 0 100 (by decide)
    qualityLossScale := clampTo t.qualityLossScale 0 200 (by norm_num)
    qualityLossPenaltyCap := clampTo t.qualityLossPenaltyCap 0 100 (by norm_num)
    qualityJitterDiv := clampTo t.qualityJitterDiv 1 30 (by norm_num)
    qualityJitterPenaltyCap := clampTo t.qualityJitterPenaltyCap 0 100 (by norm_num)
    rttScoreClampMs := clampTo t.rttScoreClampMs 50 2000 (by decide) }

structure EngineLimitsTuning where
  maxDirectRetryPerTick : Nat
  maxPendingHealProbes : Nat
  maxPendingStunQueries : Nat
  maxCcProbesPerTick : Nat
  maxSecondaryRetryPerTick : Nat
  stunCacheTtlSecs : Nat
  msynBodyMax : Nat
  msynShardBudgetBytes : Nat
  healCooldownMs : Nat
  probeMissFailThreshold : Nat

def EngineLimitsTuning.default : EngineLimitsTuning := ⟨8, 96, 8, 32, 4, 30, 524288, 1200, 1000, 8⟩

def EngineLimitsTuning.clamp (t : EngineLimitsTuning) : Option EngineLimitsTuning := do
  let msynBodyMax := clampTo t.msynBodyMax 4096 524288 (by decide)
  let msynShardBudgetBytes ← Advanced.clamp t.msynShardBudgetBytes 512 (min 4096 msynBodyMax)
  return {
    maxDirectRetryPerTick := clampTo t.maxDirectRetryPerTick 1 256 (by decide)
    maxPendingHealProbes := clampTo t.maxPendingHealProbes 1 1024 (by decide)
    maxPendingStunQueries := clampTo t.maxPendingStunQueries 1 64 (by decide)
    maxCcProbesPerTick := clampTo t.maxCcProbesPerTick 1 256 (by decide)
    maxSecondaryRetryPerTick := clampTo t.maxSecondaryRetryPerTick 1 256 (by decide)
    stunCacheTtlSecs := clampTo t.stunCacheTtlSecs 1 600 (by decide)
    msynBodyMax := msynBodyMax
    msynShardBudgetBytes := msynShardBudgetBytes
    healCooldownMs := clampTo t.healCooldownMs 50 60000 (by decide)
    probeMissFailThreshold := clampTo t.probeMissFailThreshold 3 64 (by decide) }

structure HolePunchTuning where
  punchStage1Packets : Nat
  punchStage1GapMs : Nat
  punchStage1ObserveMs : Nat
  punchStage2ObserveSecs : Nat
  punchStage2Pps : Nat
  punchStage3Pps : Nat
  punchStage3MaxSecs : Nat
  punchStage3BatchGapMs : Nat
  punchMaxExpandedTargets : Nat
  punchWideMinWidth : Nat
  punchWideMaxWidth : Nat
  punchRandomPortMin : Nat
  punchRandomPortMax : Nat

def HolePunchTuning.default : HolePunchTuning := ⟨3, 50, 500, 1, 128, 64, 10, 500, 512, 32, 256, 1024, 65535⟩

def HolePunchTuning.clamp (t : HolePunchTuning) : HolePunchTuning :=
  let minWidth := min (max t.punchWideMinWidth 1) 2048
  let maxWidth := min (max t.punchWideMaxWidth 1) 2048
  let portMin := if t.punchRandomPortMin = 0 then 1 else t.punchRandomPortMin
  let portMax := if t.punchRandomPortMax = 0 then 1 else t.punchRandomPortMax
  { punchStage1Packets := clampTo t.punchStage1Packets 1 16 (by decide)
    punchStage1GapMs := clampTo t.punchStage1GapMs 1 1000 (by decide)
    punchStage1ObserveMs := min t.punchStage1ObserveMs 10000
    punchStage2ObserveSecs := min t.punchStage2ObserveSecs 30
    punchStage2Pps := clampTo t.punchStage2Pps 1 2000 (by decide)
    punchStage3Pps := clampTo t.punchStage3Pps 1 2000 (by decide)
    punchStage3MaxSecs := clampTo t.punchStage3MaxSecs 1 120 (by decide)
    punchStage3BatchGapMs := min t.punchStage3BatchGapMs 5000
    punchMaxExpandedTargets := clampTo t.punchMaxExpandedTargets 32 2048 (by decide)
    punchWideMinWidth := minWidth
    punchWideMaxWidth := if maxWidth < minWidth then minWidth else maxWidth
    punchRandomPortMin := if portMax < portMin then portMax else portMin
    punchRandomPortMax := if portMax < portMin then portMin else portMax }

structure CongestionTuning where
  rttBaseTracking : Bool
  lossClassifierEnabled : Bool
  targetQueueDelayMs : Nat
  congestionLossThreshold : ℚ
  baseRttWindowSecs : Nat
  baseRttStaleWindows : Nat
  owdClockJumpRejectMs : Nat
  owdRttConsistencyMs : Nat
  owdPreferAfterSamples : Nat
  probeIntervalMs : Nat
  fecRecoveryRecencyMs : Nat
  enabled : Bool
  gain : ℚ
  holEscapeMs : Nat
  initialRateBps : ℚ
  additiveIncreaseBps : ℚ
  minDecreaseFactor : ℚ
  rateSmoothingAlpha : ℚ
  minRateBps : ℚ
  maxRateBps : ℚ
  lossMultiplicativeDecrease : ℚ
  burstCapBytes : Nat
  deliveryRateWindowMs : Nat
  deliveryRateEwmaAlpha : ℚ
  deliveryAnchorFactor : ℚ
  deliveryDecoupleRatio : ℚ
  deriving DecidableEq

namespace CongestionTuning

def default : CongestionTuning where
  rttBaseTracking := true
  lossClassifierEnabled := true
  targetQueueDelayMs := 20
  congestionLossThreshold := 7 / 10
  baseRttWindowSecs := 4
  baseRttStaleWindows := 3
  owdClockJumpRejectMs := 30000
  owdRttConsistencyMs := 5000
  owdPreferAfterSamples := 8
  probeIntervalMs := 40
  fecRecoveryRecencyMs := 1200
  enabled := true
  gain := 1 / 10
  holEscapeMs := 8
  initialRateBps := 4000000
  additiveIncreaseBps := 32000
  minDecreaseFactor := 9 / 10
  rateSmoothingAlpha := 9 / 10
  minRateBps := 1500000
  maxRateBps := 25000000
  lossMultiplicativeDecrease := 9 / 10
  burstCapBytes := 24000
  deliveryRateWindowMs := 750
  deliveryRateEwmaAlpha := 1 / 4
  deliveryAnchorFactor := 95 / 100
  deliveryDecoupleRatio := 3 / 2

variable (t : CongestionTuning)

/-- The upper bound of the rates is clamped between the lower one, which has none itself, and a constant. -/
def clampRateKnobs : Option CongestionTuning := do
  let minRateBps := clampTo t.minRateBps 1000 f64Max thousand_le_f64Max
  let maxRateBps ← clamp t.maxRateBps minRateBps 50000000
  let initialRateBps ← clamp t.initialRateBps minRateBps maxRateBps
  return { t with
    gain := clampTo t.gain (1 / 10) 4 (by norm_num)
    holEscapeMs := clampTo t.holEscapeMs 4 100 (by decide)
    minDecreaseFactor := clampTo t.minDecreaseFactor (1 / 10) (9 / 10) (by norm_num)
    additiveIncreaseBps := clampTo t.additiveIncreaseBps 4000 1000000 (by norm_num)
    rateSmoothingAlpha := clampTo t.rateSmoothingAlpha 0 (95 / 100) (by norm_num)
    minRateBps := minRateBps
    maxRateBps := maxRateBps
    lossMultiplicativeDecrease := clampTo t.lossMultiplicativeDecrease (3 / 10) (9 / 10) (by norm_num)
    burstCapBytes := clampTo t.burstCapBytes 512 (256 * 1024) (by decide)
    initialRateBps := initialRateBps
    deliveryRateWindowMs := clampTo t.deliveryRateWindowMs 100 5000 (by decide)
    deliveryRateEwmaAlpha := clampTo t.deliveryRateEwmaAlpha (5 / 100) 1 (by norm_num)
    deliveryAnchorFactor := clampTo t.deliveryAnchorFactor (1 / 2) (99 / 100) (by norm_num)
    deliveryDecoupleRatio := clampTo t.deliveryDecoupleRatio (105 / 100) 3 (by norm_num) }

def clampPeriod (x lo hi : Nat) (h : lo ≤ hi) : Nat := if x ≠ 0 then clampTo x lo hi h else x

def clampDelayKnobs : CongestionTuning :=
  { t with
    targetQueueDelayMs := clampTo t.targetQueueDelayMs 10 150 (by decide)
    congestionLossThreshold := clampTo t.congestionLossThreshold (3 / 10) (95 / 100) (by norm_num)
    baseRttWindowSecs := clampTo t.baseRttWindowSecs 1 60 (by decide)
    baseRttStaleWindows := clampTo t.baseRttStaleWindows 1 10 (by decide)
    owdClockJumpRejectMs := clampTo t.owdClockJumpRejectMs 1000 600000 (by decide)
    owdRttConsistencyMs := clampTo t.owdRttConsistencyMs 500 120000 (by decide)
    owdPreferAfterSamples := clampTo t.owdPreferAfterSamples 1 64 (by decide)
    probeIntervalMs := clampPeriod t.probeIntervalMs 20 1000 (by decide)
    fecRecoveryRecencyMs := clampPeriod t.fecRecoveryRecencyMs 100 60000 (by decide)
    gain := clampTo t.gain (1 / 10) 4 (by norm_num) }

def toBackgroundCcConfig : BackgroundCcConfig where
  enabled := t.enabled
  gain := t.gain
  minDecreaseFactor := t.minDecreaseFactor
  additiveIncreaseBps := t.additiveIncreaseBps
  rateSmoothingAlpha := t.rateSmoothingAlpha
  initialRateBps := t.initialRateBps
  minRateBps := t.minRateBps
  maxRateBps := t.maxRateBps
  lossMultiplicativeDecrease := t.lossMultiplicativeDecrease
  burstCapBytes := t.burstCapBytes
  targetQueueDelayMs := t.targetQueueDelayMs
  holEscapeMs := t.holEscapeMs
  deliveryRateWindowMs := t.deliveryRateWindowMs
  deliveryRateEwmaAlpha := t.deliveryRateEwmaAlpha
  deliveryAnchorFactor := t.deliveryAnchorFactor
  deliveryDecoupleRatio := t.deliveryDecoupleRatio
  lossClassifierEnabled := t.lossClassifierEnabled
  congestionLossThreshold := t.congestionLossThreshold
  qdTelemetryValid := t.rttBaseTracking

end CongestionTuning

structure PmtudTuning where
  probeTimeoutMs : Nat
  confirmCount : Nat
  resolveEpsilon : Nat
  raiseStep : Nat
  maxProbesPerSearch : Nat
  maxConcurrentPeers : Nat
  stableDowngradeBatches : Nat

def PmtudTuning.default : PmtudTuning := ⟨500, 3, 4, 32, 64, 4, 4⟩

def PmtudTuning.clamp (t : PmtudTuning) : PmtudTuning where
  probeTimeoutMs := clampTo t.probeTimeoutMs 50 10000 (by decide)
  confirmCount := clampTo t.confirmCount 1 8 (by decide)
  resolveEpsilon := clampTo t.resolveEpsilon 1 8 (by decide)
  raiseStep := clampTo t.raiseStep 1 512 (by decide)
  maxProbesPerSearch := clampTo t.maxProbesPerSearch 8 256 (by decide)
  maxConcurrentPeers := clampTo t.maxConcurrentPeers 1 64 (by decide)
  stableDowngradeBatches := max t.stableDowngradeBatches 1

/-! ## All knobs -/

structure AdvancedTuning where
  failover : FailoverTuning
  timers : TimerTuning
  reliable : ReliableTuning
  fec : FecTuning
  congestion : CongestionTuning
  pmtud : PmtudTuning
  routingEwma : RoutingEwmaTuning
  engineLimits : EngineLimitsTuning
  holePunch : HolePunchTuning
  buffers : BufferReuseTuning

namespace AdvancedTuning

def default : AdvancedTuning :=
  ⟨.default, .default, .default, .default, .default, .default, .default, .default, .default, .default⟩

def clamp (t : AdvancedTuning) : Option AdvancedTuning := do
  let timers ← t.timers.clamp
  let congestion ← t.congestion.clampDelayKnobs.clampRateKnobs
  let engineLimits ← t.engineLimits.clamp
  return {
    failover := t.failover.clamp
    timers
    reliable := t.reliable.clamp
    fec := t.fec.clamp
    congestion
    pmtud := t.pmtud.clamp
    routingEwma := t.routingEwma.clamp
    engineLimits
    holePunch := t.holePunch.clamp
    buffers := t.buffers.clamp }

end AdvancedTuning

/-- The part of the configuration that the knobs are built from. -/
structure NetworkConfig where
  advanced : AdvancedTuning

def AdvancedTuning.fromNetworkConfig (cfg : NetworkConfig) : Option AdvancedTuning := cfg.advanced.clamp

end ConnectUnit.Advanced
