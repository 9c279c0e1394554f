import ConnectUnit.AdvancedTuningSound
import ConnectUnit.PacingConfig

/-!
# From the network configuration to the drain settings

`apd_config_from_network` reads the drain settings, clamps them to the ranges given to users and sanitises them.
-/

namespace ConnectUnit.Pacing

open Advanced (clamp clampTo clampTo_mem clamp_of_le clamp_mem)

/-! ## The two passes -/

/-- The fields of the network configuration that the drain settings are made from. -/
structure NetworkConfig where
  paceTickUs : Int
  baseMaxBurst : Int
  apdEnabled : Bool
  apdHighWatermark : ℚ
  apdLowWatermark : ℚ
  rampMaxBurst : Nat
  drainMaxBurst : Nat
  apdSpinloopBudgetMs : Nat
  apdDrainTickUs : Nat
  apdConfirmTicks : Nat
  apdCooldownMs : Nat
  apdDrainFreezeDrr : Bool
  apdSojournEnabled : Bool
  apdMaxSojournMs : Nat
  apdTargetSojournMs : Nat
  apdRequireCcHeadroom : Bool

def NetworkConfig.default : NetworkConfig where
  paceTickUs := 350
  baseMaxBurst := 3
  apdEnabled := true
  apdHighWatermark := 30 / 100
  apdLowWatermark := 2 / 100
  rampMaxBurst := 6
  drainMaxBurst := 3
  apdSpinloopBudgetMs := 8
  apdDrainTickUs := 80
  apdConfirmTicks := 3
  apdCooldownMs := 2
  apdDrainFreezeDrr := true
  apdSojournEnabled := true
  apdMaxSojournMs := 10
  apdTargetSojournMs := 2
  apdRequireCcHeadroom := true

def effectivePaceTickUs (v : Int) : Nat := max (min (if 0 < v then v.toNat else 350) 1000000) 1

theorem burst_le : 1 ≤ 1024 := by decide

def effectiveBaseMaxBurst (v : Int) : Nat := clampTo (if 0 < v then v.toNat else 3) 1 1024 burst_le

namespace ApdConfig

def enforceWatermarkPair (lowWm highWm : ℚ) : Option (ℚ × ℚ) :=
  let low := clampTo lowWm (1 / 100) (80 / 100) (by norm_num)
  if |highWm - low| < 1 / 1000000 then
    let cap := clampTo low (20 / 100) (95 / 100) (by norm_num)
    some (cap, cap)
  else
    let floor := max (max (20 / 100) low) (low + 1 / 10)
    (clamp (max (max highWm low) floor) floor (95 / 100)).map fun high => (low, high)

variable (cfg : ApdConfig)

def userWatermarks : Option (ℚ × ℚ) :=
  let cfg := { cfg with lowWatermark := clampTo cfg.lowWatermark (1 / 100) (80 / 100) (by norm_num) }
  if cfg.isCapMode then
    let cap := clampTo cfg.lowWatermark (20 / 100) (95 / 100) (by norm_num)
    let cap := clampTo cap (1 / 100) (80 / 100) (by norm_num)
    some (cap, cap)
  else enforceWatermarkPair cfg.lowWatermark cfg.highWatermark

def clampToUserRanges (baseTickUs baseBurstPerTick : Nat) : Option ApdConfig := do
  let wm ← cfg.userWatermarks
  let floor := max baseBurstPerTick 1
  let ramp ← clamp cfg.rampMaxBurst floor 200
  let drain ← clamp cfg.drainMaxBurst 1 (max ramp 1)
  return sanitizeSojourn { cfg with
    lowWatermark := wm.1
    highWatermark := wm.2
    rampMaxBurst := ramp
    drainMaxBurst := drain
    spinloopBudgetMs := clampTo cfg.spinloopBudgetMs 0 100 (by decide)
    drainTickUs := min cfg.drainTickUs (max baseTickUs 1)
    confirmTicks := clampTo cfg.confirmTicks 0 10 (by decide)
    cooldownMs := clampTo cfg.cooldownMs 0 500 (by decide) }

/-- `sanitizeWatermarks` with the panic of its last clamp, the only one between bounds that are not constants. -/
def sanitizeWatermarksChecked : Option ApdConfig :=
  let cfg := { cfg with
    lowWatermark := clampTo cfg.lowWatermark 0 1 Advanced.unit_le
    highWatermark := clampTo cfg.highWatermark 0 1 Advanced.unit_le }
  if cfg.isCapMode then
    let cap := clampTo (max cfg.lowWatermark cfg.highWatermark) (20 / 100) (95 / 100) (by norm_num)
    some { cfg with lowWatermark := cap, highWatermark := cap }
  else
    let gap : ℚ := 1 / 10
    let high := if cfg.highWatermark < cfg.lowWatermark + gap then cfg.lowWatermark + gap else cfg.highWatermark
    let high := clampTo high (20 / 100) 1 (by norm_num)
    (clamp cfg.lowWatermark 0 (high - gap)).map fun low => { cfg with highWatermark := high, lowWatermark := low }

def sanitizeChecked : Option ApdConfig := do
  let cfg ← cfg.sanitizeWatermarksChecked
  let ramp := max cfg.rampMaxBurst 1
  return sanitizeSojourn { cfg with rampMaxBurst := ramp, drainMaxBurst := min (max cfg.drainMaxBurst 1) ramp }

end ApdConfig

def apdConfigFromNetwork (cfg : NetworkConfig) : Option ApdConfig := do
  let tick := effectivePaceTickUs cfg.paceTickUs
  let baseBurst := effectiveBaseMaxBurst cfg.baseMaxBurst
  let apd : ApdConfig :=
    { enabled := cfg.apdEnabled
      highWatermark := cfg.apdHighWatermark
      lowWatermark := cfg.apdLowWatermark
      rampMaxBurst := cfg.rampMaxBurst
      drainMaxBurst := cfg.drainMaxBurst
      spinloopBudgetMs := cfg.apdSpinloopBudgetMs
      drainTickUs := cfg.apdDrainTickUs
      confirmTicks := cfg.apdConfirmTicks
      cooldownMs := cfg.apdCooldownMs
      drainFreezeDrr := cfg.apdDrainFreezeDrr
      sojournEnabled := cfg.apdSojournEnabled
      maxSojournMs := cfg.apdMaxSojournMs
      targetSojournMs := cfg.apdTargetSojournMs
      requireCcHeadroom := cfg.apdRequireCcHeadroom }
  let apd ← apd.clampToUserRanges tick baseBurst
  apd.sanitizeChecked

/-! ## Where a pass panics -/

namespace ApdConfig

variable (cfg : ApdConfig)

theorem exists_enforceWatermarkPair {low high : ℚ} : ∃ wm, enforceWatermarkPair low high = some wm := by
  unfold enforceWatermarkPair
  dsimp only
  split
  · exact ⟨_, rfl⟩
  have hlow : clampTo low (1 / 100) (80 / 100) (by norm_num) ≤ 80 / 100 := (clampTo_mem low _).2
  rw [clamp_of_le _ (max_le (max_le (by norm_num) (by linarith)) (by linarith))]
  exact ⟨_, rfl⟩

theorem exists_userWatermarks : ∃ wm, cfg.userWatermarks = some wm := by
  unfold userWatermarks
  dsimp only
  split
  · exact ⟨_, rfl⟩
  exact exists_enforceWatermarkPair

theorem exists_clampToUserRanges_iff {baseTickUs baseBurst : Nat} :
    (∃ cfg', cfg.clampToUserRanges baseTickUs baseBurst = some cfg') ↔ baseBurst ≤ 200 := by
  obtain ⟨wm, hwm⟩ := cfg.exists_userWatermarks
  unfold clampToUserRanges
  rw [hwm, Option.bind_eq_bind, Option.bind_some]
  constructor
  · rintro ⟨cfg', h⟩
    obtain ⟨ramp, hramp, _⟩ := Option.bind_eq_some_iff.mp h
    obtain ⟨hlo, hhi⟩ := clamp_mem hramp
    exact (le_max_left _ _).trans (hlo.trans hhi)
  intro h
  dsimp only
  rw [clamp_of_le _ (max_le h (by decide)), Option.bind_eq_bind, Option.bind_some, clamp_of_le _ (le_max_right _ _)]
  exact ⟨_, rfl⟩

theorem sanitizeChecked_eq : cfg.sanitizeChecked = some cfg.sanitize := by
  have hmarks : cfg.sanitizeWatermarksChecked = some cfg.sanitizeWatermarks := by
    unfold sanitizeWatermarksChecked sanitizeWatermarks
    dsimp only [clampTo, clampQ]
    split
    · rfl
    rw [clamp_of_le _ (sub_nonneg.mpr (le_trans (by norm_num) (le_max_left _ _)))]
    rfl
  unfold sanitizeChecked
  rw [hmarks]
  rfl

/-! ## What the passes establish -/

theorem baseBurst_le_ramp {cfg cfg' : ApdConfig} {baseTickUs baseBurst : Nat}
    (h : cfg.clampToUserRanges baseTickUs baseBurst = some cfg') : baseBurst ≤ cfg'.rampMaxBurst := by
  obtain ⟨wm, _, h⟩ := Option.bind_eq_some_iff.mp h
  obtain ⟨ramp, hramp, h⟩ := Option.bind_eq_some_iff.mp h
  obtain ⟨drain, _, h⟩ := Option.bind_eq_some_iff.mp h
  cases h
  exact (le_max_left _ _).trans (clamp_mem hramp).1

theorem low_le_high_sanitizeWatermarks :
    cfg.sanitizeWatermarks.lowWatermark ≤ cfg.sanitizeWatermarks.highWatermark := by
  unfold sanitizeWatermarks
  dsimp only
  split
  · exact le_refl _
  dsimp only [clampQ]
  refine max_le (le_trans (by norm_num) (le_max_left _ _)) ((min_le_right _ _).trans ?_)
  linarith

theorem target_lt_max_sanitizeSojourn : cfg.sanitizeSojourn.targetSojournMs < cfg.sanitizeSojourn.maxSojournMs := by
  have hmax : 2 ≤ clampQ cfg.maxSojournMs 2 500 := le_max_left _ _
  unfold sanitizeSojourn
  dsimp only
  split
  · exact max_lt (by linarith) (by linarith)
  linarith

theorem drainMaxBurst_sanitize :
    cfg.sanitize.drainMaxBurst = min (max cfg.drainMaxBurst 1) cfg.sanitize.rampMaxBurst := by
  unfold sanitize sanitizeWatermarks sanitizeSojourn
  dsimp only
  split <;> rfl

end ApdConfig

/-- The settings are made without a panic exactly if the base burst is at most 200, although its own clamp lets it be
1024, and they are then in order. -/
theorem apdConfigFromNetwork_sound (cfg : NetworkConfig) :
    ((∃ apd, apdConfigFromNetwork cfg = some apd) ↔ effectiveBaseMaxBurst cfg.baseMaxBurst ≤ 200) ∧ ∀ apd,
    apdConfigFromNetwork cfg = some apd → apd.lowWatermark ≤ apd.highWatermark ∧ effectiveBaseMaxBurst
    cfg.baseMaxBurst ≤ apd.rampMaxBurst ∧ 1 ≤ apd.drainMaxBurst ∧ apd.drainMaxBurst ≤ apd.rampMaxBurst ∧
    apd.targetSojournMs < apd.maxSojournMs := by
  unfold apdConfigFromNetwork
  simp only [ApdConfig.sanitizeChecked_eq, Option.bind_eq_bind, Option.bind_eq_some_iff]
  constructor
  · rw [← ApdConfig.exists_clampToUserRanges_iff]
    constructor
    · rintro ⟨_, clamped, hclamped, _⟩
      exact ⟨clamped, hclamped⟩
    rintro ⟨clamped, hclamped⟩
    exact ⟨_, clamped, hclamped, rfl⟩
  rintro _ ⟨clamped, hclamped, ⟨⟩⟩
  have hramp := clamped.rampMaxBurst_sanitize
  have hbase := ApdConfig.baseBurst_le_ramp hclamped
  have hdrain := clamped.drainMaxBurst_sanitize
  refine ⟨clamped.low_le_high_sanitizeWatermarks, by omega, by omega, by omega, ?_⟩
  exact ApdConfig.target_lt_max_sanitizeSojourn _

/-- The defaults go through both passes unchanged. -/
theorem apdConfigFromNetwork_default : apdConfigFromNetwork .default = some .default ∧
    effectiveBaseMaxBurst NetworkConfig.default.baseMaxBurst ≤ ApdConfig.default.rampMaxBurst :=
  have h : apdConfigFromNetwork .default = some .default := by decide +kernel
  ⟨h, ((apdConfigFromNetwork_sound .default).2 _ h).2.1⟩

/-- A base burst of 201 is one that the configuration may set, and the default ceiling of the ramp cannot be clamped
between it and 200. -/
theorem apdConfigFromNetwork_panics : effectiveBaseMaxBurst 201 = 201 ∧
      apdConfigFromNetwork { NetworkConfig.default with baseMaxBurst := 201 } = none := by
  decide +kernel

end ConnectUnit.Pacing
