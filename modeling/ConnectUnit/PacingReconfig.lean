import ConnectUnit.PacingDrain

/-!
# A new configuration of the pacing engine

`set_config` cuts the budget to the number of packets of the new cap, which is the cap itself only when the budget
counts packets.
-/

namespace ConnectUnit.Pacing

/-! ## The burst of a step -/

namespace ApdConfig

theorem roundNat_le {x : ℚ} {n : Nat} (h : x ≤ n) : roundNat x ≤ n := by
  unfold roundNat
  rw [Int.toNat_le, Int.floor_le_iff]
  push_cast
  linarith

theorem rampTargetBurst_le (cfg : ApdConfig) (fillRatio : ℚ) (baseBurst maxBurst : Nat) :
    cfg.rampTargetBurst fillRatio baseBurst maxBurst ≤ max maxBurst baseBurst := by
  have hbase : baseBurst ≤ max maxBurst baseBurst := Nat.le_max_right _ _
  unfold rampTargetBurst
  dsimp only
  generalize max maxBurst baseBurst = ceiling at hbase
  split
  · split
    · exact Nat.le_refl _
    · exact hbase
  split
  · exact hbase
  refine Nat.max_le.mpr ⟨roundNat_le ?_, hbase⟩
  have hfraction :
      clampQ ((fillRatio - cfg.lowWatermark) / max (cfg.highWatermark - cfg.lowWatermark) (1 / 2 ^ 23)) 0 1 ≤ 1 :=
    max_le zero_le_one (min_le_right _ _)
  have hroom : (0 : ℚ) ≤ ceiling - baseBurst := sub_nonneg.mpr (by exact_mod_cast hbase)
  have hadded := mul_le_mul_of_nonneg_right hfraction hroom
  linarith

end ApdConfig

namespace ApdState

section
variable {st : ApdState} {baseBurst ceiling : Nat} (hbase : baseBurst ≤ ceiling)
  (hramp : st.cfg.rampMaxBurst ≤ ceiling) (h : st.rampBurst ≤ ceiling)
include hbase hramp h

theorem moveRamp_le (suppressCc : Bool) (fillRatio : ℚ) :
    (st.moveRamp suppressCc fillRatio baseBurst (max st.cfg.rampMaxBurst baseBurst)).rampBurst ≤ ceiling := by
  have hstarted : st.startedRamp baseBurst ≤ ceiling := by
    unfold startedRamp
    split
    · exact hbase
    exact h
  have htarget := st.cfg.rampTargetBurst_le fillRatio baseBurst (max (max st.cfg.rampMaxBurst baseBurst) baseBurst)
  unfold moveRamp
  split
  · show max (st.startedRamp baseBurst - 1) baseBurst ≤ ceiling
    omega
  unfold updateRampBurst
  dsimp only
  split
  · omega
  omega

theorem step_le (hone : 1 ≤ ceiling) (r : Reading) :
    (st.step r baseBurst).1.rampBurst ≤ ceiling ∧ (st.step r baseBurst).2.effectiveBurst ≤ ceiling := by
  have hdrain : max 1 (min st.cfg.drainMaxBurst (max st.cfg.rampMaxBurst baseBurst)) ≤ ceiling := by omega
  have hpaced {st' : ApdState} (h' : st'.rampBurst ≤ ceiling) : max st'.rampBurst baseBurst ≤ ceiling :=
    Nat.max_le.mpr ⟨h', hbase⟩
  unfold step
  dsimp only
  split
  · unfold stepCooldown
    dsimp only
    split
    · let woken : ApdState := { st with phase := .alert, confirmCounter := 0, cooldownUntil := none }
      have hwoken : woken.cfg.rampMaxBurst ≤ ceiling ∧ woken.rampBurst ≤ ceiling := ⟨hramp, h⟩
      have hmoved := moveRamp_le hbase hwoken.1 hwoken.2 (st.cfg.requireCcHeadroom && !r.anyCcSendable) r.fillRatio
      exact ⟨hmoved, hpaced hmoved⟩
    have hmoved := moveRamp_le hbase hramp h (st.cfg.requireCcHeadroom && !r.anyCcSendable) r.fillRatio
    exact ⟨hmoved, hpaced hmoved⟩
  · have hmoved := moveRamp_le hbase hramp h (st.cfg.requireCcHeadroom && !r.anyCcSendable) r.fillRatio
    unfold stepAlert
    dsimp only
    repeat' split
    all_goals first | exact ⟨hmoved, hdrain⟩ | exact ⟨hmoved, hpaced hmoved⟩
  unfold stepDrain
  dsimp only
  split
  · exact ⟨h, hpaced h⟩
  exact ⟨h, hdrain⟩

end

end ApdState

/-- The most that the settings let a burst have. -/
def PacingConfig.maxBurst (cfg : PacingConfig) : Nat := max cfg.apd.rampMaxBurst cfg.baseMaxBurst

namespace PacingEngine

/-! ## The burst of a tick -/

structure Ramped (cfg : PacingConfig) (bound : Nat) (e : PacingEngine) : Prop where
  base : e.config.baseMaxBurst = cfg.baseMaxBurst
  apd : e.apd.cfg = cfg.apd
  ramp : e.apd.rampBurst ≤ bound

section
variable {cfg : PacingConfig} {bound : Nat} {e : PacingEngine} (hone : 1 ≤ bound) (hmax : cfg.maxBurst ≤ bound)
include hone hmax

theorem Ramped.tick (h : Ramped cfg bound e) (c : TickClock) (answers : Answers) :
    Ramped cfg bound (e.tickWith c answers).engine ∧ e.effectiveBurst c ≤ bound := by
  have hbase : e.config.baseMaxBurst ≤ bound := h.base ▸ Nat.le_trans (Nat.le_max_right _ _) hmax
  have hceiling : e.apd.cfg.rampMaxBurst ≤ bound := h.apd ▸ Nat.le_trans (Nat.le_max_left _ _) hmax
  have hconfig : (e.tickWith c answers).engine.config.baseMaxBurst = cfg.baseMaxBurst := by
    rw [config_tickWith, h.base]
  by_cases hon : e.apd.cfg.enabled = true
  · obtain ⟨r, _, _, hapd, hburst⟩ := apd_tickWith hon c answers
    obtain ⟨hramp, hstep⟩ := ApdState.step_le hbase hceiling h.ramp hone r
    refine ⟨⟨hconfig, ?_, hapd ▸ hramp⟩, hburst ▸ hstep⟩
    rw [hapd, (e.apd.transition_step r _).2, h.apd]
  obtain ⟨hapd, hburst⟩ := apd_tickWith_off hon c answers
  exact ⟨⟨hconfig, by rw [hapd, h.apd], by rw [hapd]; exact h.ramp⟩, by rw [hburst]; exact hbase⟩

theorem Ramped.serve (h : Ramped cfg bound e) {call : Call} (hcall : ∀ cfg now, call ≠ .op (.setConfig cfg now)) :
    Ramped cfg bound (e.serve call).1 := by
  by_cases htick : ∃ c answers, call = .op (.tick c answers)
  · obtain ⟨c, answers, rfl⟩ := htick
    exact (h.tick hone hmax c answers).1
  by_cases hreset : ∃ now, call = .resetSessionRuntime now
  · obtain ⟨now, rfl⟩ := hreset
    refine ⟨h.base, h.apd, ?_⟩
    show e.config.baseMaxBurst ≤ bound
    rw [h.base]
    exact Nat.le_trans (Nat.le_max_right _ _) hmax
  obtain ⟨hapd, hbase⟩ := serve_idle e hcall (fun c answers h => htick ⟨c, answers, h⟩) fun now h => hreset ⟨now, h⟩
  exact ⟨hbase.trans h.base, by rw [hapd, h.apd], by rw [hapd]; exact h.ramp⟩

end

/-! ## The change of the settings -/

/-- The ramp that the state machine goes on with: its own, or the old base burst if the drain settings change. -/
def keptRamp (e : PacingEngine) (cfg : PacingConfig) : Nat :=
  if e.apd.cfg ≠ cfg.sanitize.apd then e.config.baseMaxBurst else e.apd.rampBurst

theorem rampMaxBurst_sanitize {cfg : PacingConfig} :
    cfg.sanitize.apd.rampMaxBurst = max cfg.apd.rampMaxBurst 1 := cfg.apd.rampMaxBurst_sanitize

theorem maxBurst_sanitize_sanitize {raw : PacingConfig} : raw.sanitize.sanitize.maxBurst = raw.sanitize.maxBurst := by
  unfold PacingConfig.maxBurst
  rw [rampMaxBurst_sanitize, rampMaxBurst_sanitize, Nat.max_eq_left (Nat.le_max_right _ 1)]
  rfl

theorem ramped_setConfig {e : PacingEngine} {raw : PacingConfig} {now : Instant} : Ramped raw.sanitize.sanitize
    (max (e.keptRamp raw.sanitize) raw.sanitize.maxBurst) (e.setConfig raw.sanitize now) := by
  refine ⟨rfl, ?_, Nat.le_trans ?_ (Nat.le_max_left _ _)⟩
  · unfold setConfig resetApdRuntimeState
    dsimp only
    split <;> rfl
  unfold setConfig resetApdRuntimeState keptRamp
  dsimp only
  split
  · exact Nat.le_refl _
  exact Nat.le_refl _

theorem min_eq_min_mul_iff {b c : ℚ} (hc : 1 ≤ c) : min b c = min b (c * 1300) ↔ b ≤ c := by
  have hlt : c < c * 1300 := by linarith
  constructor
  · intro h
    by_contra hb
    rw [min_eq_right (le_of_not_ge hb)] at h
    exact absurd h (ne_of_lt (lt_min (lt_of_not_ge hb) hlt))
  intro h
  rw [min_eq_left h, min_eq_left (h.trans hlt.le)]

/-- The new cap is met at once exactly if the budget counts packets or is below the number of packets of the cap.
Every burst up to the next change is within the new settings or the ramp that was kept. -/
theorem setConfig_at_once (e : PacingEngine) (raw : PacingConfig) (now : Instant) :
    ((e.setConfig raw.sanitize now).budget = min e.budget (e.setConfig raw.sanitize now).budgetCapValue ↔
      raw.sanitize.paceRateMode = .pps ∨ e.budget ≤ raw.sanitize.budgetCapPackets) ∧
    ∀ calls : List Call, (∀ call ∈ calls, ∀ cfg now, call ≠ .op (.setConfig cfg now)) →
      ∀ i c answers, calls[i]? = some (.op (.tick c answers)) →
        (Machine.stateAt serve (e.setConfig raw.sanitize now) calls i).effectiveBurst c ≤
            max (e.keptRamp raw.sanitize) raw.sanitize.maxBurst ∧
          (e.keptRamp raw.sanitize ≤ raw.sanitize.maxBurst →
            (Machine.stateAt serve (e.setConfig raw.sanitize now) calls i).effectiveBurst c ≤
              raw.sanitize.maxBurst) := by
  constructor
  · have hbudget : (e.setConfig raw.sanitize now).budget = min e.budget raw.sanitize.budgetCapPackets := by
      unfold setConfig resetApdRuntimeState
      dsimp only
      split <;> rfl
    rw [hbudget]
    have hmode : (e.setConfig raw.sanitize now).config.paceRateMode = raw.sanitize.paceRateMode := rfl
    have hcap : (e.setConfig raw.sanitize now).config.budgetCapPackets = raw.sanitize.budgetCapPackets := rfl
    unfold budgetCapValue
    rw [hmode, hcap]
    cases raw.sanitize.paceRateMode with
    | pps => simp
    | bytes =>
      rw [min_eq_min_mul_iff raw.sanitize.one_le_cap]
      simp
  · intro calls hcalls i c answers hi
    have hmax : raw.sanitize.sanitize.maxBurst ≤ max (e.keptRamp raw.sanitize) raw.sanitize.maxBurst := by
      rw [maxBurst_sanitize_sanitize]
      exact Nat.le_max_right _ _
    have hone : 1 ≤ max (e.keptRamp raw.sanitize) raw.sanitize.maxBurst := by
      unfold PacingConfig.maxBurst
      rw [rampMaxBurst_sanitize]
      omega
    have heach : Machine.Each serve (e.setConfig raw.sanitize now) calls fun _ call =>
        ∀ cfg now, call ≠ .op (.setConfig cfg now) := fun i call hi => hcalls call (List.mem_of_getElem? hi)
    have hramped := Machine.invariant ramped_setConfig (fun s call hcall hs => hs.serve hone hmax hcall) heach i
    have hburst := (hramped.tick hone hmax c answers).2
    exact ⟨hburst, fun hkept => by rwa [Nat.max_eq_right hkept] at hburst⟩

/-- A new engine meets both conditions. -/
theorem setConfig_at_once_new : ((PacingEngine.new 0).setConfig PacingConfig.default.sanitize 0).budget = min 0
    ((PacingEngine.new 0).setConfig PacingConfig.default.sanitize 0).budgetCapValue ∧
    ((PacingEngine.new 0).setConfig PacingConfig.default.sanitize 0).effectiveBurst (.at (secs 1)) ≤
    PacingConfig.default.sanitize.maxBurst := by
  obtain ⟨hbudget, hburst⟩ := setConfig_at_once (.new 0) .default 0
  have htick := hburst [.op (.tick (.at (secs 1)) fun _ => .ok)] (by simp) 0 (.at (secs 1)) (fun _ => .ok) rfl
  exact ⟨hbudget.mpr (.inr (by decide +kernel)), htick.2 (by decide +kernel)⟩

def wideBase : PacingConfig := { PacingConfig.default with baseMaxBurst := 50 }

/-- The budget is full and the ramp stands at fifty packets. -/
def rampedUp : PacingEngine := Machine.run step (.new 0) [.setConfig wideBase 0, .tick (.at (secs 1)) fun _ => .ok]

/-- A budget in bytes is cut to 64 bytes instead of 64 packets, and a burst of 49 packets follows where the new
settings stop at six. -/
theorem old_ramp_survives_setConfig : (rampedUp.setConfig PacingConfig.default.sanitize (secs 1)).budget = 64 ∧ min
    rampedUp.budget (rampedUp.setConfig PacingConfig.default.sanitize (secs 1)).budgetCapValue = 83200 ∧
    (rampedUp.setConfig PacingConfig.default.sanitize (secs 1)).effectiveBurst (.at (secs 2)) = 49 ∧
    PacingConfig.default.sanitize.maxBurst = 6 := by
  decide +kernel

end PacingEngine

end ConnectUnit.Pacing
