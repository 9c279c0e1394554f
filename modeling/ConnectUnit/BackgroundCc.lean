import Mathlib.Algebra.Order.Ring.Rat
import ConnectUnit.Net

/-!
# Background congestion control

A rate and a token bucket for each peer. The pacing engine asks it before a
data packet is taken from a queue and tells it what was sent. Event counters
are left out.
-/

namespace ConnectUnit

def clampQ (x lo hi : ℚ) : ℚ := max lo (min x hi)

structure BackgroundCcConfig where
  enabled : Bool
  gain : ℚ
  minDecreaseFactor : ℚ
  additiveIncreaseBps : ℚ
  rateSmoothingAlpha : ℚ
  initialRateBps : ℚ
  minRateBps : ℚ
  maxRateBps : ℚ
  lossMultiplicativeDecrease : ℚ
  burstCapBytes : ℚ
  targetQueueDelayMs : Nat
  holEscapeMs : Nat
  deliveryRateWindowMs : Nat
  deliveryRateEwmaAlpha : ℚ
  deliveryAnchorFactor : ℚ
  deliveryDecoupleRatio : ℚ
  lossClassifierEnabled : Bool
  congestionLossThreshold : ℚ
  qdTelemetryValid : Bool
  deriving DecidableEq

def BackgroundCcConfig.default : BackgroundCcConfig where
  enabled := false
  gain := 1 / 10
  minDecreaseFactor := 9 / 10
  additiveIncreaseBps := 32000
  rateSmoothingAlpha := 9 / 10
  initialRateBps := 4000000
  minRateBps := 1500000
  maxRateBps := 25000000
  lossMultiplicativeDecrease := 9 / 10
  burstCapBytes := 24000
  targetQueueDelayMs := 20
  holEscapeMs := 8
  deliveryRateWindowMs := 750
  deliveryRateEwmaAlpha := 1 / 4
  deliveryAnchorFactor := 95 / 100
  deliveryDecoupleRatio := 3 / 2
  lossClassifierEnabled := true
  congestionLossThreshold := 7 / 10
  qdTelemetryValid := true

structure PeerCcState where
  rateBps : ℚ
  smoothedRateBps : ℚ
  tokenBytes : ℚ
  lastLossEwma : ℚ
  bytesAcc : ℚ
  windowElapsedSecs : ℚ
  deliveryRateBps : Option ℚ
  deriving DecidableEq

namespace PeerCcState

def new (initialRateBps : ℚ) : PeerCcState := ⟨initialRateBps, initialRateBps, 0, 0, 0, 0, none⟩

def peerCanSendBytes (st : PeerCcState) (cfg : BackgroundCcConfig) (pktLen : Nat) (holSojournMs : ℚ) : Bool :=
  cfg.holEscapeMs ≤ holSojournMs || pktLen ≤ st.tokenBytes || (cfg.burstCapBytes < pktLen && 0 < st.tokenBytes)

def refill (cfg : BackgroundCcConfig) (dtSecs : ℚ) (st : PeerCcState) : PeerCcState :=
  let windowSecs : ℚ := max cfg.deliveryRateWindowMs 1 / 1000
  let alpha := clampQ cfg.deliveryRateEwmaAlpha (5 / 100) 1
  let st := { st with
    tokenBytes := min (st.tokenBytes + st.smoothedRateBps * dtSecs) cfg.burstCapBytes
    windowElapsedSecs := st.windowElapsedSecs + dtSecs }
  if st.windowElapsedSecs < windowSecs then st
  else if st.bytesAcc ≤ 0 then { st with windowElapsedSecs := 0 }
  else
    let sample := st.bytesAcc / st.windowElapsedSecs
    { st with
      deliveryRateBps := some (match st.deliveryRateBps with
        | some prev => alpha * sample + (1 - alpha) * prev
        | none => sample)
      bytesAcc := 0
      windowElapsedSecs := 0 }

def consume (pktLen : Nat) (st : PeerCcState) : PeerCcState :=
  { st with tokenBytes := max (st.tokenBytes - pktLen) 0, bytesAcc := st.bytesAcc + pktLen }

end PeerCcState

/-! ## Rates -/

def d2rLossMax : ℚ := 12 / 100

def fecDelayIsCongestive (queuingDelayMs : ℚ) (targetQueueDelayMs : Nat) (congestionLossThreshold : ℚ) : Bool :=
  congestionLossThreshold < queuingDelayMs / max targetQueueDelayMs 1

namespace PeerCcState

/-- A rise of the loss above its bound that calls for a lower rate. -/
def lossActionable (st : PeerCcState) (cfg : BackgroundCcConfig) (qdMs lossEwma : ℚ) : Bool :=
  (d2rLossMax < lossEwma && st.lastLossEwma ≤ d2rLossMax) &&
    (!cfg.lossClassifierEnabled || !cfg.qdTelemetryValid || qdMs < 0 ||
      fecDelayIsCongestive qdMs cfg.targetQueueDelayMs cfg.congestionLossThreshold)

def delayRatio (cfg : BackgroundCcConfig) (qdMs : ℚ) : ℚ :=
  if 0 ≤ qdMs then qdMs / max cfg.targetQueueDelayMs 1 else 0

/-- The delivery rate that a decrease falls back to, if the rate is far above it. -/
def anchor (st : PeerCcState) (cfg : BackgroundCcConfig) : Option ℚ :=
  (st.deliveryRateBps.filter fun d => 0 < d && d * cfg.deliveryDecoupleRatio < st.rateBps).map fun d =>
    clampQ (d * cfg.deliveryAnchorFactor) cfg.minRateBps cfg.maxRateBps

def delayUpdate (cfg : BackgroundCcConfig) (qdMs rate : ℚ) : ℚ :=
  if qdMs < 0 then rate
  else if delayRatio cfg qdMs ≤ 1 then rate + cfg.additiveIncreaseBps
  else rate * clampQ (1 - cfg.gain * (delayRatio cfg qdMs - 1)) cfg.minDecreaseFactor 1

def applyBackgroundCcRateUpdate (st : PeerCcState) (cfg : BackgroundCcConfig) (qdMs lossEwma : ℚ) : PeerCcState :=
  let lossActionable := st.lossActionable cfg qdMs lossEwma
  let delayExcess := decide (0 ≤ qdMs) && decide (1 < delayRatio cfg qdMs)
  let st := { st with lastLossEwma := lossEwma }
  match (if lossActionable || delayExcess then st.anchor cfg else none) with
  | some rate => { st with rateBps := rate, smoothedRateBps := rate }
  | none =>
    let rate :=
      if lossActionable then max (st.rateBps * cfg.lossMultiplicativeDecrease) cfg.minRateBps else st.rateBps
    let rate := clampQ (delayUpdate cfg qdMs rate) cfg.minRateBps cfg.maxRateBps
    let alpha := clampQ cfg.rateSmoothingAlpha 0 (95 / 100)
    { st with rateBps := rate, smoothedRateBps := alpha * st.smoothedRateBps + (1 - alpha) * rate }

end PeerCcState

/-! ## All peers -/

structure BackgroundCcEngine where
  config : BackgroundCcConfig
  peers : HashMap SocketAddr PeerCcState

namespace BackgroundCcEngine

def new (config : BackgroundCcConfig) : BackgroundCcEngine := ⟨config, ∅⟩

section
variable (cc : BackgroundCcEngine)

def setConfig (config : BackgroundCcConfig) : BackgroundCcEngine := { cc with config := config }

variable (dest : SocketAddr)

/-- The state of the peer, which is new if there is none. -/
def peer : PeerCcState := (cc.peers.lookup dest).getD (.new cc.config.initialRateBps)

def refillAllTokens (dtSecs : ℚ) : BackgroundCcEngine :=
  if !cc.config.enabled || dtSecs ≤ 0 then cc else { cc with peers := cc.peers.mapVals (.refill cc.config dtSecs) }

def onCcSample (qdMs lossEwma : ℚ) : BackgroundCcEngine :=
  if !cc.config.enabled then cc
  else { cc with peers := cc.peers.insert dest ((cc.peer dest).applyBackgroundCcRateUpdate cc.config qdMs lossEwma) }

def canSendData (pktLen : Nat) (holSojournMs : ℚ) : Bool :=
  !cc.config.enabled ||
    match cc.peers.lookup dest with
    | some st => st.peerCanSendBytes cc.config pktLen holSojournMs
    | none => true

def consumeSendBytes (pktLen : Nat) : BackgroundCcEngine :=
  if !cc.config.enabled then cc else { cc with peers := cc.peers.modify dest (.consume pktLen) }

def ensurePeer : BackgroundCcEngine :=
  if !cc.config.enabled then cc else { cc with peers := cc.peers.insert dest (cc.peer dest) }

def removePeer : BackgroundCcEngine := { cc with peers := cc.peers.erase dest }

end

end BackgroundCcEngine

end ConnectUnit
