import ConnectUnit.OverflowSound

/-!
# The metrics of a route

Under every clamped tuning quality, loss, jitter and streaks stay in range; only a good sample brings a route back.
-/

namespace ConnectUnit.RouteEntry

open Checked

structure Damped (ewma : RoutingEwmaTuning) : Prop extends Scored ewma where
  decay : 0 ≤ ewma.lossEwmaDecay ∧ ewma.lossEwmaDecay ≤ 1
  delta : 0 ≤ ewma.lossEwmaSuccessDelta
  bump : 0 ≤ ewma.lossEwmaFailBump

theorem damped_clamp {t : Advanced.RoutingEwmaTuning} : Damped t.clamp.toRoute where
  toScored := scored_clamp
  decay := by
    have hmem := Advanced.clampTo_mem t.lossEwmaDecay (by norm_num : (1 / 2 : ℚ) ≤ 999 / 1000)
    exact ⟨le_trans (by norm_num) hmem.1, le_trans hmem.2 (by norm_num)⟩
  delta := (Advanced.clampTo_mem t.lossEwmaSuccessDelta (by norm_num : (0 : ℚ) ≤ 1 / 10)).1
  bump := (Advanced.clampTo_mem t.lossEwmaFailBump (by norm_num : (0 : ℚ) ≤ 1 / 2)).1

/-- Besides `Measured`: `jitter_ms` is not negative and both streaks are in `0..=100`. -/
structure InRange (e : RouteEntry) : Prop extends Measured e where
  loss : 0 ≤ e.lossEwma ∧ e.lossEwma ≤ 1
  quality : 0 ≤ e.qualityScore ∧ e.qualityScore ≤ 100

/-- A route that becomes active has two successes and the quality that failover asks for. -/
def Earned (fo : FailoverTuning) (e e' : RouteEntry) : Prop :=
  e.state ≠ .active → e'.state = .active → 2 ≤ e'.successStreak ∧ fo.d2rQualityMin ≤ e'.qualityScore

section
variable {e : RouteEntry} {fo : FailoverTuning} {cg : CongestionTuning} {ewma : RoutingEwmaTuning} {now : Instant}
variable {fromEp : SocketAddr} {rttMs : Int}

theorem grade_frame (fo : FailoverTuning) (e : RouteEntry) :
    ∃ s u, (e.gradeState fo).releaseHold fo = { e with state := s, holdDownUntil := u } ∧
    (s = .active → e.state = .active ∨ 2 ≤ e.successStreak ∧ fo.d2rQualityMin ≤ e.qualityScore) := by
  have hhold : ∀ e : RouteEntry, ∃ u, e.releaseHold fo = { e with holdDownUntil := u } := by
    intro e
    unfold releaseHold
    split <;> exact ⟨_, rfl⟩
  obtain ⟨u, hu⟩ := hhold (e.gradeState fo)
  rw [hu]
  unfold gradeState
  split
  · rename_i hgood
    exact ⟨_, u, rfl, fun _ => .inr hgood⟩
  split
  · exact ⟨_, u, rfl, nofun⟩
  · exact ⟨_, u, rfl, .inl⟩

section
variable (hw : Damped ewma) (h : InRange e)
include hw h

theorem decayed_le : e.lossEwma * ewma.lossEwmaDecay ≤ 1 := mul_le_one₀ h.loss.2 hw.decay.1 hw.decay.2

theorem applyRttSample_inRange :
    InRange (e.applyRttSample rttMs fo cg ewma now) ∧ Earned fo e (e.applyRttSample rttMs fo cg ewma now) := by
  have hm := applyRttSample_measured hw.toScored h.toMeasured rttMs fo cg now
  have hj := (averageSample_measured hw.toScored h.toMeasured rttMs).jitter
  obtain ⟨_, _, _, _, _, hbase⟩ := RoutingTable.updateRttBaseOnSample_frame (e.averageSample rttMs ewma) rttMs now cg
  obtain ⟨s, u, hgrade, hs⟩ := grade_frame fo
    (((e.averageSample rttMs ewma).updateRttBaseOnSample rttMs now cg).scoreSample rttMs ewma)
  have happ : e.applyRttSample rttMs fo cg ewma now = _ := hgrade
  rw [happ] at hm ⊢
  rw [hbase] at hm hs ⊢
  have hloss : e.lossEwma * ewma.lossEwmaDecay - ewma.lossEwmaSuccessDelta ≤ 1 :=
    (sub_le_self _ hw.delta).trans (decayed_le hw h)
  have hjitter := (truncI32_mem (div_nonneg hj hw.div_pos.le) hw.jitter_cap).1
  have hmax := le_max_right (e.lossEwma * ewma.lossEwmaDecay - ewma.lossEwmaSuccessDelta) 0
  have hlost := (truncI32_mem (mul_nonneg hmax hw.scale_nonneg) hw.loss_cap).1
  have hbounded : 0 ≤ max 0 (min rttMs ewma.rttScoreClampMs) / 5 := Int.ediv_nonneg (le_max_left _ _) (by decide)
  refine ⟨⟨hm, ⟨hmax, max_le hloss zero_le_one⟩, le_max_right _ _, max_le ?_ (by decide)⟩, fun ha hs' => ?_⟩
  · exact (sub_le_self _ hlost).trans ((sub_le_self _ hjitter).trans (sub_le_self _ hbounded))
  · exact (hs hs').resolve_left ha

theorem noteRtt_inRange :
    InRange (e.noteRtt fromEp rttMs fo cg ewma now) ∧ Earned fo e (e.noteRtt fromEp rttMs fo cg ewma now) := by
  have hm : Measured (e.noteRtt fromEp rttMs fo cg ewma now) := noteRtt_measured hw.toScored h.toMeasured
  have hactive : InRange (noteActiveRtt { e with lastSeen := now } rttMs fo cg ewma now) ∧
      Earned fo e (noteActiveRtt { e with lastSeen := now } rttMs fo cg ewma now) := by
    unfold noteActiveRtt
    split
    · apply applyRttSample_inRange (e := RouteEntry.mk ..) hw
      exact ⟨⟨le_refl (0 : ℚ), h.success, h.fail⟩, h.loss, h.quality⟩
    · apply applyRttSample_inRange (e := RouteEntry.mk ..) hw
      exact ⟨⟨h.jitter, h.success, h.fail⟩, h.loss, h.quality⟩
  unfold noteRtt at hm ⊢
  dsimp only at hm ⊢
  split at hm
  · rename_i hpath
    rw [if_pos hpath]
    exact ⟨⟨hm, hactive.1.loss, hactive.1.quality⟩, hactive.2⟩
  · rename_i hpath
    rw [if_neg hpath]
    exact ⟨⟨hm, h.loss, h.quality⟩, fun ha hs => absurd hs ha⟩

theorem noteFail_inRange : InRange (e.noteFail fromEp ewma now) := by
  have hpos : 0 ≤ e.lossEwma * ewma.lossEwmaDecay + ewma.lossEwmaFailBump :=
    add_nonneg (mul_nonneg h.loss.1 hw.decay.1) hw.bump
  have hlost := (truncI32_mem (mul_nonneg (le_min hpos zero_le_one) hw.scale_nonneg) hw.loss_cap).1
  obtain ⟨hq, hq'⟩ := h.quality
  refine ⟨noteFail_measured h.toMeasured, ⟨le_min hpos zero_le_one, min_le_right _ _⟩, le_max_right _ _, ?_⟩
  exact max_le (by omega) (by decide)

end

theorem noteFail_state (h : e.state = .stale ∨ e.state = .degraded) :
    (e.noteFail fromEp ewma now).state ≠ .active := by
  unfold noteFail
  dsimp only
  split
  · nofun
  split
  · nofun
  · rcases h with h | h <;> rw [h] <;> nofun

end

/-! ## Sequences of calls -/

inductive MetricCall where
  | noteRtt (fromEp : SocketAddr) (rttMs : Int)
  | noteFail (fromEp : SocketAddr)
  | applyRttSample (rttMs : Int)

def MetricCall.isSample : MetricCall → Bool
  | .noteFail _ => false
  | _ => true

def metricStep (fo : FailoverTuning) (cg : CongestionTuning) (ewma : RoutingEwmaTuning) (e : RouteEntry)
    (c : Instant × MetricCall) : RouteEntry :=
  match c.2 with
  | .noteRtt fromEp rttMs => e.noteRtt fromEp rttMs fo cg ewma c.1
  | .noteFail fromEp => e.noteFail fromEp ewma c.1
  | .applyRttSample rttMs => e.applyRttSample rttMs fo cg ewma c.1

theorem metrics_in_range (t : Advanced.RoutingEwmaTuning) (fo : FailoverTuning) (cg : CongestionTuning)
    (ep : SocketAddr) (start : Instant) (calls : List (Instant × MetricCall)) :
    let e := calls.foldl (metricStep fo cg t.clamp.toRoute) (new ep t.clamp.toRoute.qualityInitial start)
    InRange e ∧ ∀ call, e.state = .stale ∨ e.state = .degraded →
      (metricStep fo cg t.clamp.toRoute e call).state = .active → call.2.isSample = true ∧
        2 ≤ (metricStep fo cg t.clamp.toRoute e call).successStreak ∧
        fo.d2rQualityMin ≤ (metricStep fo cg t.clamp.toRoute e call).qualityScore := by
  have hw : Damped t.clamp.toRoute := damped_clamp
  have hnew : InRange (new ep t.clamp.toRoute.qualityInitial start) := by
    have h100 : (0 : Int) ≤ 100 := by decide
    exact ⟨⟨le_refl (0 : ℚ), ⟨le_refl 0, h100⟩, ⟨le_refl 0, h100⟩⟩, ⟨le_refl (0 : ℚ), zero_le_one⟩,
      Advanced.clampTo_mem t.qualityInitial h100⟩
  intro e
  have he : InRange e := by
    refine List.foldlRecOn calls _ hnew fun e h c _ => ?_
    unfold metricStep
    split
    · exact (noteRtt_inRange hw h).1
    · exact noteFail_inRange hw h
    · exact (applyRttSample_inRange hw h).1
  refine ⟨he, fun call hdown hup => ?_⟩
  have hne : e.state ≠ .active := by rcases hdown with hs | hs <;> rw [hs] <;> nofun
  obtain ⟨now, call⟩ := call
  cases call with
  | noteRtt fromEp rttMs => exact ⟨rfl, (noteRtt_inRange hw he).2 hne hup⟩
  | noteFail fromEp => exact absurd hup (noteFail_state hdown)
  | applyRttSample rttMs => exact ⟨rfl, (applyRttSample_inRange hw he).2 hne hup⟩

end ConnectUnit.RouteEntry
