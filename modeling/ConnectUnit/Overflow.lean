import ConnectUnit.AdvancedTuning
import ConnectUnit.Reliable

/-!
# Integer arithmetic on round-trip times

The functions that turn knobs and samples into timeouts and scores, with every
operation checked: the result is `none` where an integer leaves its type or
`clamp` is called with its bounds out of order.
-/

namespace ConnectUnit

/-! ## Knobs of the consumers -/

namespace Advanced

def ReliableTuning.clamped (t : ReliableTuning) : Reliable.ReliableTuning where
  rtoMinMs := t.clamp.rtoMinMs
  rtoMaxMs := t.clamp.rtoMaxMs
  maxPending := t.clamp.maxPending
  retriesLeft := t.clamp.retriesLeft
  min_pos := le_max_right t.rtoMinMs 5
  min_le_max := le_max_right t.rtoMaxMs (max t.rtoMinMs 5)

def FailoverTuning.toRoute (t : FailoverTuning) : ConnectUnit.FailoverTuning where
  d2rQualityMin := t.d2rQualityMin
  d2rLossMax := t.d2rLossMax
  d2rJitterMax := t.d2rJitterMax
  r2dQualityMin := t.r2dQualityMin
  r2dSuccessMin := t.r2dSuccessMin
  holdDownSecs := t.holdDownSecs

def CongestionTuning.toRoute (t : CongestionTuning) : ConnectUnit.CongestionTuning where
  rttBaseTracking := t.rttBaseTracking
  baseRttWindowSecs := t.baseRttWindowSecs
  baseRttStaleWindows := t.baseRttStaleWindows
  owdClockJumpRejectMs := t.owdClockJumpRejectMs
  owdRttConsistencyMs := t.owdRttConsistencyMs
  owdPreferAfterSamples := t.owdPreferAfterSamples

def RoutingEwmaTuning.toRoute (t : RoutingEwmaTuning) : ConnectUnit.RoutingEwmaTuning where
  rttEwmaOld := t.rttEwmaOld
  rttEwmaNew := t.rttEwmaNew
  jitterEwmaOld := t.jitterEwmaOld
  jitterEwmaNew := t.jitterEwmaNew
  lossEwmaDecay := t.lossEwmaDecay
  lossEwmaSuccessDelta := t.lossEwmaSuccessDelta
  lossEwmaFailBump := t.lossEwmaFailBump
  bwEwmaOld := t.bwEwmaOld
  bwEwmaNew := t.bwEwmaNew
  qualityInitial := t.qualityInitial
  qualityLossScale := t.qualityLossScale
  qualityLossPenaltyCap := t.qualityLossPenaltyCap
  qualityJitterDiv := t.qualityJitterDiv
  qualityJitterPenaltyCap := t.qualityJitterPenaltyCap
  rttScoreClampMs := t.rttScoreClampMs

end Advanced

namespace Checked

open Reliable

def fitI32 (n : Int) : Option Int := if -2147483648 ≤ n ∧ n ≤ 2147483647 then some n else none

def fitU32 (n : Nat) : Option Nat := if n < 2 ^ 32 then some n else none

/-! ## The reliable channel -/

def computeRtoMs (srttMs rttvarMs : Int) (t : ReliableTuning) : Option Nat := do
  let srtt := max srttMs srttMinMs
  let rttvar := max rttvarMs 1
  let spread ← fitI32 (4 * rttvar)
  let rto ← fitI32 (srtt + max spread 10)
  let rto ← Advanced.clamp rto (i32 t.rtoMinMs) (i32 t.rtoMaxMs)
  return u32 rto

def initialRtoForSend (srttMs rttvarMs : Int) (rttHintMs : Option Int) (t : ReliableTuning) : Option Nat := do
  let base ← computeRtoMs srttMs rttvarMs t
  match rttHintMs.filter (0 < ·) with
  | some r =>
    let hinted ← computeRtoMs (max r 20) (max (r.tdiv 2) 10) t
    return min base hinted
  | none => return base

def backOff (rtoMs : Nat) (t : ReliableTuning) : Option Nat := do
  let twice ← fitU32 (rtoMs * 2)
  Advanced.clamp twice t.rtoMinMs t.rtoMaxMs

def fire (s : Ticked) (now : Instant) (seq : UInt32) (p : Reliable.PendingPacket) : Option Ticked :=
  if p.retriesLeft = 0 then
    some { s with
      ch := { s.ch with pending := s.ch.pending.erase seq }
      permanentFailures := s.permanentFailures ++ [(seq, p.dest)] }
  else do
    let rto ← backOff p.rtoMs s.ch.tuning
    let due := now + millis rto
    let p := { p with retransmitted := true, retriesLeft := p.retriesLeft - 1, rtoMs := rto, nextAt := some due }
    return { s with
      ch := { s.ch with pending := s.ch.pending.insert seq p }.pushDue due seq
      out := s.out ++ [(p.data, p.dest)] }

def loop (now : Instant) : Nat → Ticked → Option Ticked
  | 0, _ => none
  | fuel + 1, s =>
    let ch := s.ch.popStaleDueHeapTop
    match ch.dueHeap with
    | [] =>
      if ch.pending.entries = [] then some { s with ch := { ch with nextDueAt := none } }
      else
        let ch := ch.rebuildDueHeapFromPending
        if ch.dueHeap = [] then
          some { s with ch := { ch with nextDueAt := (ch.pending.entries.filterMap (·.2.nextAt)).min? } }
        else loop now fuel { s with ch := ch }
    | (t, seq) :: rest =>
      if now < t then some { s with ch := { ch with nextDueAt := some t } }
      else
        let s := { s with ch := { ch with dueHeap := rest } }
        match ch.pending.lookup seq with
        | none => loop now fuel s
        | some p => if p.nextAt ≠ some t then loop now fuel s else (fire s now seq p).bind (loop now fuel)

def tickInto (ch : Reliable.ReliableChannel) (now : Instant) : Option Ticked :=
  if ch.pending.entries = [] then some ⟨{ ch with dueHeap := [], nextDueAt := none }, [], []⟩
  else loop now (2 * ch.work + 2) ⟨ch, [], []⟩

/-! ## Route entries -/

def scoreSample (e : RouteEntry) (rttMs : Int) (ewma : RoutingEwmaTuning) : Option RouteEntry := do
  let lossEwma := max (e.lossEwma * ewma.lossEwmaDecay - ewma.lossEwmaSuccessDelta) 0
  let bounded ← Advanced.clamp rttMs 0 ewma.rttScoreClampMs
  let jitterPenalty := truncI32 (min (e.jitterMs / ewma.qualityJitterDiv) ewma.qualityJitterPenaltyCap)
  let lossPenalty := truncI32 (min (lossEwma * ewma.qualityLossScale) ewma.qualityLossPenaltyCap)
  let score ← fitI32 (100 - (i32 bounded).tdiv 5)
  let score ← fitI32 (score - jitterPenalty)
  let score ← fitI32 (score - lossPenalty)
  let success ← fitI32 (e.successStreak + 1)
  let fail ← fitI32 (e.failStreak - 1)
  return { e with
    lossEwma := lossEwma
    qualityScore := max score 0
    successStreak := min success 100
    failStreak := max fail 0 }

def releaseHold (e : RouteEntry) (fo : FailoverTuning) : Option RouteEntry :=
  if e.qualityScore ≥ fo.r2dQualityMin then do
    let enough ← fitI32 (fo.r2dSuccessMin * 2)
    return if e.successStreak ≥ enough then { e with holdDownUntil := none } else e
  else some e

def applyRttSample (e : RouteEntry) (rttMs : Int) (fo : FailoverTuning) (cg : CongestionTuning)
    (ewma : RoutingEwmaTuning) (now : Instant) : Option RouteEntry := do
  let e := e.averageSample rttMs ewma
  let e := e.updateRttBaseOnSample rttMs now cg
  let e ← scoreSample e rttMs ewma
  releaseHold (e.gradeState fo) fo

end Checked

end ConnectUnit
