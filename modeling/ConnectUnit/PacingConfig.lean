import Mathlib.Algebra.Order.Floor.Ring
import Mathlib.Data.List.Sort
import Mathlib.Data.Rat.Floor
import ConnectUnit.BackgroundCc

/-!
# Configuration of the pacing engine

Rates, queue limits and the settings of the scheduler, of the drain state machine (APD) and of shedding, with the
sanitising that `set_config` applies.
-/

namespace ConnectUnit.Pacing

inductive PaceRateMode where
  | pps
  | bytes
  deriving DecidableEq

/-! ## Adaptive precision drain -/

structure ApdConfig where
  enabled : Bool
  highWatermark : ℚ
  lowWatermark : ℚ
  rampMaxBurst : Nat
  drainMaxBurst : Nat
  spinloopBudgetMs : Nat
  drainTickUs : Nat
  confirmTicks : Nat
  cooldownMs : Nat
  drainFreezeDrr : Bool
  sojournEnabled : Bool
  maxSojournMs : ℚ
  targetSojournMs : ℚ
  requireCcHeadroom : Bool
  deriving DecidableEq

namespace ApdConfig

def default : ApdConfig where
  enabled := true
  highWatermark := 30 / 100
  lowWatermark := 2 / 100
  rampMaxBurst := 6
  drainMaxBurst := 3
  spinloopBudgetMs := 8
  drainTickUs := 80
  confirmTicks := 3
  cooldownMs := 2
  drainFreezeDrr := true
  sojournEnabled := true
  maxSojournMs := 10
  targetSojournMs := 2
  requireCcHeadroom := true

variable (cfg : ApdConfig)

def isCapMode : Bool := |cfg.highWatermark - cfg.lowWatermark| < 1 / 1000000

def sanitizeWatermarks : ApdConfig :=
  let cfg := { cfg with
    lowWatermark := clampQ cfg.lowWatermark 0 1
    highWatermark := clampQ cfg.highWatermark 0 1 }
  if cfg.isCapMode then
    let cap := clampQ (max cfg.lowWatermark cfg.highWatermark) (20 / 100) (95 / 100)
    { cfg with lowWatermark := cap, highWatermark := cap }
  else
    let gap : ℚ := 1 / 10
    let high := if cfg.highWatermark < cfg.lowWatermark + gap then cfg.lowWatermark + gap else cfg.highWatermark
    let high := clampQ high (20 / 100) 1
    { cfg with highWatermark := high, lowWatermark := clampQ cfg.lowWatermark 0 (high - gap) }

def sanitizeSojourn : ApdConfig :=
  let maxSojourn := clampQ cfg.maxSojournMs 2 500
  let target := clampQ cfg.targetSojournMs 1 200
  { cfg with
    maxSojournMs := maxSojourn
    targetSojournMs := if maxSojourn < target + 2 then max (maxSojourn - 2) 1 else target }

def sanitize : ApdConfig :=
  let cfg := cfg.sanitizeWatermarks
  let ramp := max cfg.rampMaxBurst 1
  sanitizeSojourn { cfg with rampMaxBurst := ramp, drainMaxBurst := min (max cfg.drainMaxBurst 1) ramp }

theorem rampMaxBurst_sanitize : cfg.sanitize.rampMaxBurst = max cfg.rampMaxBurst 1 := by
  unfold sanitize sanitizeWatermarks sanitizeSojourn
  dsimp only
  split <;> rfl

def roundNat (x : ℚ) : Nat := ⌊x + 1 / 2⌋.toNat

def rampTargetBurst (fillRatio : ℚ) (baseBurst maxBurst : Nat) : Nat :=
  let maxBurst := max maxBurst baseBurst
  if cfg.isCapMode then if cfg.highWatermark < fillRatio then maxBurst else baseBurst
  else if fillRatio ≤ cfg.lowWatermark then baseBurst
  else
    let range := max (cfg.highWatermark - cfg.lowWatermark) (1 / 2 ^ 23)
    let t := clampQ ((fillRatio - cfg.lowWatermark) / range) 0 1
    max (roundNat (baseBurst + t * (maxBurst - baseBurst))) baseBurst

end ApdConfig

/-! ## Shedding -/

structure ShedConfig where
  enabled : Bool
  maxSojournMs : ℚ
  minFill : ℚ
  maxPerTick : Nat
  deriving DecidableEq

def ShedConfig.default : ShedConfig := ⟨true, 30, 1 / 10, 2⟩

def ShedConfig.sanitize (cfg : ShedConfig) (apd : ApdConfig) : ShedConfig :=
  let sojourn := clampQ cfg.maxSojournMs 2 500
  { cfg with
    maxSojournMs := if cfg.enabled && apd.enabled && apd.sojournEnabled then max sojourn apd.maxSojournMs else sojourn
    minFill := clampQ cfg.minFill (1 / 10) (95 / 100)
    maxPerTick := max 1 (min cfg.maxPerTick 64) }

/-! ## Queues and scheduler -/

def queueSplitLimits (total : Nat) : Nat × Nat :=
  let total := max total 2
  let data := max (total * 2 / 3) 1
  let data := if 64 ≤ total then max data 32 else data
  let data := if total ≤ data then max (total - 1) 1 else data
  (data, max (total - data) 1)

/-- The cap of the budget is at least one packet: `effective_pace_budget_cap_packets` clamps it wherever a
configuration is made. -/
structure PacingConfig where
  targetPps : Nat
  baseMaxBurst : Nat
  budgetCapPackets : ℚ
  maxQueuePackets : Nat
  maxDataQueuePackets : Nat
  maxControlQueuePackets : Nat
  maxRetransmitQueuePackets : Nat
  drrQuantum : Nat
  drrEnabled : Bool
  drrSmallPacketPriority : Bool
  drrSmallPacketThresholdBytes : Nat
  drrRttAware : Bool
  drrRttScaleMin : ℚ
  drrRttScaleMax : ℚ
  minControlReservedBytesPerTick : Nat
  minRetransmitReservedBytesPerTick : Nat
  maxTickWorkUs : Nat
  apd : ApdConfig
  shed : ShedConfig
  backgroundCc : BackgroundCcConfig
  paceRateMode : PaceRateMode
  targetBps : Nat
  one_le_cap : 1 ≤ budgetCapPackets

def effectivePaceBudgetCapPackets (v : ℚ) : ℚ := clampQ (if 0 < v then v else 64) 1 4096

theorem one_le_effectivePaceBudgetCapPackets {v : ℚ} : 1 ≤ effectivePaceBudgetCapPackets v := le_max_left _ _

def effectiveDrrRttScaleMin (v : ℚ) : ℚ := clampQ (if 0 < v then v else 1 / 2) (1 / 10) 1
def effectiveDrrRttScaleMax (v : ℚ) : ℚ := clampQ (if 0 < v then v else 5 / 2) 1 4

namespace PacingConfig

variable (cfg : PacingConfig)

def refreshQueueSplits : PacingConfig :=
  let r := queueSplitLimits cfg.maxQueuePackets
  { cfg with
    maxDataQueuePackets := r.1
    maxControlQueuePackets := r.2
    maxRetransmitQueuePackets := max (r.2 / 3) 4 }

def default : PacingConfig := refreshQueueSplits
  { targetPps := 8000
    baseMaxBurst := 3
    budgetCapPackets := 64
    maxQueuePackets := 250
    maxDataQueuePackets := 0
    maxControlQueuePackets := 0
    maxRetransmitQueuePackets := 0
    drrQuantum := 1500
    drrEnabled := true
    drrSmallPacketPriority := true
    drrSmallPacketThresholdBytes := 420
    drrRttAware := true
    drrRttScaleMin := 1 / 2
    drrRttScaleMax := 5 / 2
    minControlReservedBytesPerTick := 256
    minRetransmitReservedBytesPerTick := 256
    maxTickWorkUs := 150
    apd := .default
    shed := .default
    backgroundCc := .default
    paceRateMode := .bytes
    targetBps := 1000000
    one_le_cap := by norm_num }

def minDrrQuantum : Nat := 1500

def sanitize : PacingConfig :=
  let scaleMax := effectiveDrrRttScaleMax cfg.drrRttScaleMax
  let apd := cfg.apd.sanitize
  refreshQueueSplits { cfg with
    drrQuantum := max cfg.drrQuantum minDrrQuantum
    drrSmallPacketThresholdBytes := max 64 (min cfg.drrSmallPacketThresholdBytes 512)
    drrRttScaleMin := min (effectiveDrrRttScaleMin cfg.drrRttScaleMin) scaleMax
    drrRttScaleMax := scaleMax
    minControlReservedBytesPerTick := min cfg.minControlReservedBytesPerTick 8192
    minRetransmitReservedBytesPerTick := min cfg.minRetransmitReservedBytesPerTick 8192
    apd := apd
    shed := cfg.shed.sanitize apd }

def scaledDrrQuantum (peerRttMs rttRefMs : ℚ) : Nat :=
  let base := max cfg.drrQuantum 1
  if !cfg.drrRttAware || rttRefMs ≤ 0 || peerRttMs ≤ 0 then max base minDrrQuantum
  else max (ApdConfig.roundNat (base * clampQ (peerRttMs / rttRefMs) cfg.drrRttScaleMin cfg.drrRttScaleMax))
    minDrrQuantum

end PacingConfig

def medianPositiveRtt (samples : List ℚ) : ℚ :=
  let sorted := (samples.filter (0 < ·)).insertionSort (· ≤ ·)
  let mid := sorted.length / 2
  if sorted = [] then -1
  else if sorted.length % 2 = 1 then sorted[mid]?.getD 0
  else (sorted[mid - 1]?.getD 0 + sorted[mid]?.getD 0) / 2

end ConnectUnit.Pacing
