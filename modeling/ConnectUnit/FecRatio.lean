import Mathlib.Data.Prod.Lex
import ConnectUnit.Lib.Machine
import ConnectUnit.AdvancedTuning

/-!
# The ratio of parity shards

Before a packet is coded, `fec_send` decides how many parity shards a group for its destination gets. The loss
proposes a rung of a ladder.
-/

open Machine (stateAt stateAt_succ trace)

namespace ConnectUnit.Fec

variable {d : RatioDecision} {ds : List RatioDecision}
variable {st : PeerFecSendState} {i : Nat}

/-! ## The rungs -/

/-- Data and parity shards of a group. -/
abbrev Ratio := UInt8 × UInt8

def Ratio.isOn (r : Ratio) : Bool := 0 < r.1 && 0 < r.2

def fecRatioLadder : List Ratio := [(4, 2), (5, 1), (7, 1), (10, 1)]

def fecParityFrac (ratio : Ratio) : ℚ :=
  if ratio.1 = 0 ∨ ratio.2 = 0 then 0 else ratio.2.toNat / (ratio.1 + ratio.2).toNat

def adaptiveFecRatio (lossEwma : ℚ) : Ratio :=
  if lossEwma < 20 / 1000 then (0, 0)
  else if lossEwma < 50 / 1000 then (10, 1)
  else if lossEwma < 100 / 1000 then (7, 1)
  else if lossEwma < 150 / 1000 then (5, 1)
  else (4, 2)

def adaptiveFecRatioHystTuned (lossEwma : ℚ) (prev : Option Ratio) (offBelow onAbove : ℚ) : Ratio :=
  if prev.any Ratio.isOn then
    if lossEwma < offBelow then (0, 0) else adaptiveFecRatio (max lossEwma (offBelow + 1 / 1000))
  else if lossEwma < onAbove then (0, 0)
  else adaptiveFecRatio lossEwma

def fecRatioWouldIncreaseParity (prev : Option Ratio) (proposed : Ratio) : Bool :=
  if !Ratio.isOn proposed then false
  else
    match prev with
    | none => true
    | some prev =>
      if !Ratio.isOn prev then true
      else
        let prevFrac : ℚ := prev.2.toNat / (prev.1 + prev.2).toNat
        let propFrac : ℚ := proposed.2.toNat / (proposed.1 + proposed.2).toNat
        prevFrac + 1 / 10 ^ 9 < propFrac || (|propFrac - prevFrac| < 1 / 10 ^ 9 && prev.2 < proposed.2)

def fecRatioIsStrictlyLower (a b : Ratio) : Bool :=
  if !Ratio.isOn a then Ratio.isOn b
  else if !Ratio.isOn b then false
  else
    let fa := fecParityFrac a
    let fb := fecParityFrac b
    fa < fb - 1 / 10 ^ 9 || (|fa - fb| < 1 / 10 ^ 9 && a.2 < b.2)

def fecRatioStepDown (prev : Ratio) : Ratio :=
  if prev.1 = 0 ∨ prev.2 = 0 then (0, 0)
  else if prev ∈ fecRatioLadder then (fecRatioLadder[fecRatioLadder.idxOf prev + 1]?).getD (0, 0)
  else (fecRatioLadder.find? fun r => fecParityFrac r < fecParityFrac prev - 1 / 10 ^ 9).getD (0, 0)

/-! ## One decision -/

structure RatioDecision where
  forcedRatio : Option Ratio
  adaptiveOffBelow : ℚ
  adaptiveOnAbove : ℚ
  congestion : Advanced.CongestionTuning
  lossEwma : ℚ
  queuingDelayMs : ℚ
  now : Instant

def RatioDecision.congestive (d : RatioDecision) : Bool :=
  fecDelayIsCongestive d.queuingDelayMs d.congestion.targetQueueDelayMs d.congestion.congestionLossThreshold

def applyFecLossClassifier (proposed : Ratio) (ratioLast : Option Ratio) (classifierEnabled : Bool)
    (queuingDelayMs : ℚ) (targetQueueDelayMs : Nat) (congestionLossThreshold : ℚ) : Bool × Ratio :=
  if !classifierEnabled then (false, proposed)
  else if !fecDelayIsCongestive queuingDelayMs targetQueueDelayMs congestionLossThreshold then (false, proposed)
  else if !fecRatioWouldIncreaseParity ratioLast proposed then (false, proposed)
  else (true, ratioLast.getD (0, 0))

def applyFecRecoveryStepdown (proposed : Ratio) (ratioLast : Option Ratio) (classifierEnabled : Bool)
    (queuingDelayMs : ℚ) (targetQueueDelayMs : Nat) (congestionLossThreshold : ℚ) (lastCongestiveAt : Option Instant)
    (now : Instant) (recency : Nat) : Bool × Ratio :=
  if !classifierEnabled || recency = 0 then (false, proposed)
  else
    match ratioLast with
    | none => (false, proposed)
    | some prev =>
      if prev.1 = 0 ∨ prev.2 = 0 then (false, proposed)
      else if fecDelayIsCongestive queuingDelayMs targetQueueDelayMs congestionLossThreshold then (false, proposed)
      else
        match lastCongestiveAt with
        | none => (false, proposed)
        | some last =>
          if recency < now - last then (false, proposed)
          else if fecRatioIsStrictlyLower proposed prev then (false, proposed)
          else
            let stepped := fecRatioStepDown prev
            if stepped = prev then (false, proposed) else (true, stepped)

structure PeerFecSendState where
  ratioLast : Option Ratio
  ratioLastChange : Option Instant
  lastCongestiveAt : Option Instant
  deriving DecidableEq

namespace PeerFecSendState

def default : PeerFecSendState := ⟨none, none, none⟩

def adopt (st : PeerFecSendState) (ratio : Ratio) (now : Instant) : PeerFecSendState :=
  { st with ratioLast := some ratio, ratioLastChange := some now }

def holdWindow (prev ratio : Ratio) : Nat :=
  let offToOn := prev = (0, 0) && Ratio.isOn ratio
  let onToOff := ratio = (0, 0) && Ratio.isOn prev
  if offToOn || onToOff then millis 2000 else millis 250

def holdDown (st : PeerFecSendState) (ratio : Ratio) (now : Instant) : PeerFecSendState × Ratio :=
  match st.ratioLast with
  | none => (st.adopt ratio now, ratio)
  | some prev =>
    if prev = ratio then (st, ratio)
    else if st.ratioLastChange.any fun t => now - t < holdWindow prev ratio then (st, prev)
    else (st.adopt ratio now, ratio)

def decideRatio (st : PeerFecSendState) (d : RatioDecision) : PeerFecSendState × Ratio :=
  let cg := d.congestion
  let proposed := d.forcedRatio.getD
    (adaptiveFecRatioHystTuned d.lossEwma st.ratioLast d.adaptiveOffBelow d.adaptiveOnAbove)
  let afterHold := if d.forcedRatio.isSome then proposed
    else (applyFecLossClassifier proposed st.ratioLast cg.lossClassifierEnabled d.queuingDelayMs
      cg.targetQueueDelayMs cg.congestionLossThreshold).2
  let st := if cg.lossClassifierEnabled && d.congestive then { st with lastCongestiveAt := some d.now } else st
  let ratio := if d.forcedRatio.isSome then afterHold
    else (applyFecRecoveryStepdown afterHold st.ratioLast cg.lossClassifierEnabled d.queuingDelayMs
      cg.targetQueueDelayMs cg.congestionLossThreshold st.lastCongestiveAt d.now
      (millis cg.fecRecoveryRecencyMs)).2
  if d.forcedRatio.isSome then (st.adopt ratio d.now, ratio) else st.holdDown ratio d.now

/-- The decisions of one destination as a machine that emits the ratios. -/
def step (st : PeerFecSendState) (d : RatioDecision) : PeerFecSendState × List Ratio :=
  let r := st.decideRatio d
  (r.1, [r.2])

end PeerFecSendState

/-! ## The order of the rungs -/

/-- Ratios are compared by their share of parity, and then by their number of parity shards. -/
def burden (r : Ratio) : ℚ ×ₗ Nat := toLex (fecParityFrac r, r.2.toNat)

def rungs : List Ratio := (0, 0) :: fecRatioLadder

theorem adaptiveFecRatio_mem {lossEwma : ℚ} : adaptiveFecRatio lossEwma ∈ rungs := by
  unfold adaptiveFecRatio
  repeat' split
  all_goals decide

theorem adaptiveFecRatioHystTuned_mem (lossEwma : ℚ) (prev : Option Ratio) (offBelow onAbove : ℚ) :
    adaptiveFecRatioHystTuned lossEwma prev offBelow onAbove ∈ rungs := by
  unfold adaptiveFecRatioHystTuned
  repeat' split
  all_goals first | exact adaptiveFecRatio_mem | decide

-- a pass over the list, where the two bytes of a ratio are a finite type themselves
theorem forall_rungs {p : Ratio → Ratio → Prop} [∀ r s, Decidable (p r s)]
    (h : (rungs.all fun r => rungs.all fun s => p r s) = true) : ∀ r ∈ rungs, ∀ s ∈ rungs, p r s := by
  intro r hr s hs
  exact of_decide_eq_true (List.all_eq_true.mp (List.all_eq_true.mp h r hr) s hs)

theorem burden_le_of_not_increase : ∀ r ∈ rungs, ∀ prev ∈ rungs,
    fecRatioWouldIncreaseParity (some prev) r = false → burden r ≤ burden prev :=
  forall_rungs (by decide +kernel)

theorem burden_le_of_strictlyLower :
    ∀ r ∈ rungs, ∀ prev ∈ rungs, fecRatioIsStrictlyLower r prev = true → burden r ≤ burden prev :=
  forall_rungs (by decide +kernel)

theorem stepDown_rung : ∀ prev ∈ rungs,
    fecRatioStepDown prev ∈ rungs ∧ burden (fecRatioStepDown prev) ≤ burden prev :=
  fun prev h => forall_rungs (p := fun r _ => fecRatioStepDown r ∈ rungs ∧ burden (fecRatioStepDown r) ≤ burden r)
    (by decide +kernel) prev h prev h

theorem stepDown_ne : ∀ prev ∈ rungs, Ratio.isOn prev = true → fecRatioStepDown prev ≠ prev :=
  fun prev h => forall_rungs (p := fun r _ => Ratio.isOn r = true → fecRatioStepDown r ≠ r) (by decide +kernel)
    prev h prev h

/-! ## What a decision can do -/

/-- A decision by the loss, with the classifier on and a recovery window. -/
structure RatioDecision.Adaptive (d : RatioDecision) : Prop where
  unforced : d.forcedRatio = none
  classified : d.congestion.lossClassifierEnabled = true
  recovers : 0 < d.congestion.fecRecoveryRecencyMs

namespace PeerFecSendState

def ratio (st : PeerFecSendState) : Ratio := st.ratioLast.getD (0, 0)

theorem wouldIncreaseParity_ratio {proposed : Ratio} :
    fecRatioWouldIncreaseParity st.ratioLast proposed = fecRatioWouldIncreaseParity (some st.ratio) proposed := by
  unfold ratio
  cases st.ratioLast <;> rfl

section
variable {st : PeerFecSendState} (hst : st.ratio ∈ rungs) {proposed : Ratio} (hproposed : proposed ∈ rungs)
include hst hproposed

theorem classifier_rung (qd : ℚ) (target : Nat) (threshold : ℚ) :
    (applyFecLossClassifier proposed st.ratioLast true qd target threshold).2 ∈ rungs ∧
      (fecDelayIsCongestive qd target threshold = true →
        burden (applyFecLossClassifier proposed st.ratioLast true qd target threshold).2 ≤ burden st.ratio) := by
  unfold applyFecLossClassifier
  rw [wouldIncreaseParity_ratio]
  cases hqd : fecDelayIsCongestive qd target threshold with
  | false => exact ⟨hproposed, nofun⟩
  | true =>
    cases hinc : fecRatioWouldIncreaseParity (some st.ratio) proposed with
    | false => exact ⟨hproposed, fun _ => burden_le_of_not_increase _ hproposed _ hst hinc⟩
    | true => exact ⟨hst, fun _ => le_refl _⟩

theorem recovery_rung (qd : ℚ) (target : Nat) (threshold : ℚ) (last : Option Instant) (now : Instant) {recency : Nat}
    (hrecency : 0 < recency) :
    let r := (applyFecRecoveryStepdown proposed st.ratioLast true qd target threshold last now recency).2
    r ∈ rungs ∧ (fecDelayIsCongestive qd target threshold = true → r = proposed) ∧
      (fecDelayIsCongestive qd target threshold = false → Ratio.isOn st.ratio = true →
        (∃ t, last = some t ∧ now - t ≤ recency) → burden r ≤ burden st.ratio) := by
  unfold applyFecRecoveryStepdown
  have hcond : (!true || decide (recency = 0)) = false := by simp [hrecency.ne']
  rw [hcond]
  simp only [Bool.false_eq_true, if_false]
  cases hlast : st.ratioLast with
  | none =>
    refine ⟨hproposed, fun _ => rfl, fun _ hon _ => ?_⟩
    rw [ratio, hlast] at hon
    cases hon
  | some prev =>
    have hprev : st.ratio = prev := by rw [ratio, hlast]; rfl
    rw [hprev] at hst ⊢
    dsimp only
    split
    · rename_i hoff
      refine ⟨hproposed, fun _ => rfl, fun _ hon _ => ?_⟩
      rcases hoff with h | h <;> simp [Ratio.isOn, h] at hon
    rename_i hon
    split
    · rename_i hqd
      exact ⟨hproposed, fun _ => rfl, fun h => by rw [hqd] at h; cases h⟩
    rename_i hqd
    refine ⟨?_, fun h => absurd h hqd, fun _ hon hrecent => ?_⟩
    · repeat' split
      all_goals first | exact hproposed | exact (stepDown_rung prev hst).1
    obtain ⟨t, rfl, ht⟩ := hrecent
    dsimp only
    rw [if_neg (Nat.not_lt.mpr ht)]
    split
    · rename_i hlower
      exact burden_le_of_strictlyLower _ hproposed _ hst hlower
    rw [if_neg (stepDown_ne prev hst hon)]
    exact (stepDown_rung prev hst).2

end

theorem holdDown_spec (st : PeerFecSendState) (r : Ratio) (now : Instant) : (st.holdDown r now).1.ratioLast = some
    (st.holdDown r now).2 ∧ (st.holdDown r now).1.lastCongestiveAt = st.lastCongestiveAt ∧
    ((st.holdDown r now).2 = r ∨ (st.holdDown r now).2 = st.ratio) := by
  unfold holdDown
  cases hlast : st.ratioLast with
  | none => exact ⟨rfl, rfl, .inl rfl⟩
  | some prev =>
    dsimp only
    split
    · rename_i heq
      exact ⟨heq ▸ hlast, rfl, .inl rfl⟩
    split
    · refine ⟨hlast, rfl, .inr ?_⟩
      rw [ratio, hlast]
      rfl
    · exact ⟨rfl, rfl, .inl rfl⟩

structure Settles (st : PeerFecSendState) (d : RatioDecision) : Prop where
  adopted : (st.decideRatio d).1.ratioLast = some (st.decideRatio d).2
  rung : (st.decideRatio d).2 ∈ rungs
  watched : (st.decideRatio d).1.lastCongestiveAt = if d.congestive then some d.now else st.lastCongestiveAt
  held : d.congestive = true → burden (st.decideRatio d).2 ≤ burden st.ratio
  recovering : Ratio.isOn st.ratio = true → (∃ t, st.lastCongestiveAt = some t ∧
    d.now - t ≤ millis d.congestion.fecRecoveryRecencyMs) → burden (st.decideRatio d).2 ≤ burden st.ratio

theorem settles (hst : st.ratio ∈ rungs) (hd : d.Adaptive) : st.Settles d := by
  let proposed := adaptiveFecRatioHystTuned d.lossEwma st.ratioLast d.adaptiveOffBelow d.adaptiveOnAbove
  let held := (applyFecLossClassifier proposed st.ratioLast true d.queuingDelayMs d.congestion.targetQueueDelayMs
    d.congestion.congestionLossThreshold).2
  let seen : PeerFecSendState := { st with
    lastCongestiveAt := if d.congestive then some d.now else st.lastCongestiveAt }
  let r := (applyFecRecoveryStepdown held st.ratioLast true d.queuingDelayMs d.congestion.targetQueueDelayMs
    d.congestion.congestionLossThreshold seen.lastCongestiveAt d.now (millis d.congestion.fecRecoveryRecencyMs)).2
  have hdecide : st.decideRatio d = seen.holdDown r d.now := by
    have hseen : (if d.congestive = true then { st with lastCongestiveAt := some d.now } else st) = seen := by
      cases hc : d.congestive <;> simp [seen, hc]
    unfold decideRatio
    dsimp only
    rw [hd.unforced, hd.classified]
    simp only [Option.getD_none, Option.isSome_none, Bool.false_eq_true, if_false, Bool.true_and, hseen]
    rfl
  obtain ⟨hheld, hcongested⟩ := classifier_rung hst (adaptiveFecRatioHystTuned_mem d.lossEwma st.ratioLast
    d.adaptiveOffBelow d.adaptiveOnAbove) d.queuingDelayMs d.congestion.targetQueueDelayMs
    d.congestion.congestionLossThreshold
  have hwindow : 0 < millis d.congestion.fecRecoveryRecencyMs := Nat.mul_pos hd.recovers (by decide)
  obtain ⟨hrung, hsame, hrecovering⟩ := recovery_rung hst hheld d.queuingDelayMs d.congestion.targetQueueDelayMs
    d.congestion.congestionLossThreshold seen.lastCongestiveAt d.now hwindow
  obtain ⟨hadopted, hwatched, hresult⟩ := holdDown_spec seen r d.now
  have hratio : seen.ratio = st.ratio := rfl
  rw [hratio] at hresult
  have hle (h : burden r ≤ burden st.ratio) : burden (seen.holdDown r d.now).2 ≤ burden st.ratio := by
    rcases hresult with hr | hr
    · rw [hr]
      exact h
    rw [hr]
  have hwas_held (h : d.congestive = true) : burden (seen.holdDown r d.now).2 ≤ burden st.ratio :=
    hle ((congrArg burden (hsame h)).trans_le (hcongested h))
  refine ⟨hdecide ▸ hadopted, ?_, hdecide ▸ hwatched, hdecide ▸ hwas_held, fun hon hrecent => ?_⟩
  · rw [hdecide]
    rcases hresult with hr | hr
    · rw [hr]
      exact hrung
    rw [hr]
    exact hst
  rw [hdecide]
  cases hc : d.congestive with
  | true => exact hwas_held hc
  | false =>
    refine hle (hrecovering hc hon ?_)
    simpa only [seen, hc, Bool.false_eq_true, if_false] using hrecent

/-! ## Runs -/

/-- When the last of these decisions was taken whose delay was congestive. -/
def lastCongestive (ds : List RatioDecision) : Option Instant := (ds.filter (·.congestive)).getLast?.map (·.now)

theorem lastCongestive_append :
    lastCongestive (ds ++ [d]) = if d.congestive then some d.now else lastCongestive ds := by
  unfold lastCongestive
  rw [List.filter_append]
  cases hc : d.congestive <;> simp [hc]

section
variable {ds : List RatioDecision} (hds : ∀ d ∈ ds, d.Adaptive)
include hds

theorem stateAt_kept (i : Nat) : (stateAt step .default ds i).ratio ∈ rungs ∧
    (stateAt step .default ds i).lastCongestiveAt = lastCongestive (ds.take i) := by
  induction i with
  | zero => exact ⟨List.mem_cons_self, rfl⟩
  | succ i ih =>
    cases hd : ds[i]? with
    | none =>
      rw [Machine.stateAt_succ_of_none step _ ds hd, List.take_add_one, hd, Option.toList_none, List.append_nil]
      exact ih
    | some d =>
      have hsettles := settles ih.1 (hds d (List.mem_of_getElem? hd))
      rw [stateAt_succ step _ ds hd, List.take_add_one, hd, Option.toList_some, lastCongestive_append]
      refine ⟨?_, hsettles.watched.trans (by rw [ih.2])⟩
      show ((stateAt step .default ds i).decideRatio d).1.ratioLast.getD (0, 0) ∈ rungs
      rw [hsettles.adopted]
      exact hsettles.rung

end

/-- The ratio that the first `i` decisions end with; it is off before the first. -/
def ratioAfter (ds : List RatioDecision) (i : Nat) : Ratio :=
  (trace step .default (ds.take i)).getLast?.getD (0, 0)

theorem ratioAfter_succ (hd : ds[i]? = some d) :
    ratioAfter ds (i + 1) = ((stateAt step .default ds i).decideRatio d).2 := by
  unfold ratioAfter
  rw [Machine.trace_take_succ step _ ds hd]
  simp [step]

theorem ratioAfter_eq (hds : ∀ d ∈ ds, d.Adaptive) : ratioAfter ds i = (stateAt step .default ds i).ratio := by
  induction i with
  | zero => rfl
  | succ i ih =>
    cases hd : ds[i]? with
    | none =>
      rw [Machine.stateAt_succ_of_none step _ ds hd, ← ih, ratioAfter, List.take_add_one, hd, Option.toList_none,
        List.append_nil]
      rfl
    | some d =>
      have hsettles := settles (stateAt_kept hds i).1 (hds d (List.mem_of_getElem? hd))
      rw [ratioAfter_succ hd, stateAt_succ step _ ds hd]
      show _ = ((stateAt step .default ds i).decideRatio d).1.ratioLast.getD (0, 0)
      rw [hsettles.adopted]
      rfl

/-- In every run of decisions by the loss, one that is taken while the delay is congestive adds no parity to the ratio
before it, nor does one that finds parity on within the recovery window after the last congestive decision. -/
theorem no_parity_added (hds : ∀ d ∈ ds, d.Adaptive) (hd : ds[i]? = some d) :
    (d.congestive = true → burden (ratioAfter ds (i + 1)) ≤ burden (ratioAfter ds i)) ∧
    (Ratio.isOn (ratioAfter ds i) = true → (∃ t, lastCongestive (ds.take i) = some t ∧
      d.now - t ≤ millis d.congestion.fecRecoveryRecencyMs) →
        burden (ratioAfter ds (i + 1)) ≤ burden (ratioAfter ds i)) := by
  obtain ⟨hrung, hlast⟩ := stateAt_kept hds i
  have hsettles := settles hrung (hds d (List.mem_of_getElem? hd))
  rw [ratioAfter_succ hd, ratioAfter_eq hds, ← hlast]
  exact ⟨hsettles.held, hsettles.recovering⟩

def lossyAt (lossEwma queuingDelayMs : ℚ) (now : Instant) : RatioDecision :=
  ⟨none, 25 / 1000, 5 / 100, .default, lossEwma, queuingDelayMs, now⟩

/-- Parity goes on, a higher loss is held while the delay is congestive, and it steps down after that. -/
def recoveryRun : List RatioDecision :=
  [lossyAt (6 / 100) 0 0, lossyAt (20 / 100) 19 (millis 300), lossyAt (20 / 100) 1 (millis 600)]

theorem recoveryRun_adds_nothing : (List.range 4).map (ratioAfter recoveryRun) = [(0, 0), (7, 1), (7, 1), (10, 1)] ∧
    burden (ratioAfter recoveryRun 2) ≤ burden (ratioAfter recoveryRun 1) ∧ burden (ratioAfter recoveryRun 3) ≤ burden
    (ratioAfter recoveryRun 2) := by
  have hds : ∀ d ∈ recoveryRun, d.Adaptive := by
    intro d hd
    simp only [recoveryRun, List.mem_cons, List.not_mem_nil, or_false] at hd
    rcases hd with rfl | rfl | rfl <;> exact ⟨rfl, rfl, by decide⟩
  refine ⟨by decide +kernel, (no_parity_added hds (i := 1) rfl).1 (by decide +kernel), ?_⟩
  exact (no_parity_added hds (i := 2) rfl).2 (by decide +kernel) ⟨millis 300, by decide +kernel, by decide +kernel⟩

end PeerFecSendState

end ConnectUnit.Fec
